/-!
# Failures of the document store

A store either answers with an error status and a body that names the error, or the request
never gets an answer. Sums are checked: where one leaves its width the program ends, so that there
is no answer either and nothing is done after it.
-/

namespace DocMapper

/-- A failure of a store primitive. -/
inductive StoreError where
  | http (status : UInt16) (error reason : String)
  | transport (message : String)
  /-- A position that 64 bits do not hold. The program ends. -/
  | overflow
deriving DecidableEq

namespace StoreError

/-- What is said of a sum that leaves its width. -/
def overflowText : String := "attempt to add with overflow"

/-- The wording of a store failure. -/
def message : StoreError → String
  | .http status error reason => toString status.toNat ++ " " ++ error ++ ": " ++ reason
  | .transport message => "transport error: " ++ message
  | .overflow => overflowText

/-- What the store says about the failure. -/
def detail : StoreError → String
  | .http _ error reason => error ++ ": " ++ reason
  | .transport message => message
  | .overflow => overflowText

/-- The document is not there, for this reason. -/
def notFound (reason : String) : StoreError := .http 404 "not_found" reason

/-- The revision that came with a write is not the current one. -/
def conflict : StoreError := .http 409 "conflict" "Document update conflict."

/-- The request cannot be understood. -/
def badRequest (error reason : String) : StoreError := .http 400 error reason

/-- The status of an answer, if there was one. -/
def status? : StoreError → Option UInt16
  | .http status _ _ => some status
  | .transport _ | .overflow => none

end StoreError

end DocMapper
