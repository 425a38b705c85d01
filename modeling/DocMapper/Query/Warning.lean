import DocMapper.Json.Text

/-!
# Warnings

What is worth telling about a query that can be answered all the same.
-/

namespace DocMapper

/-- A remark that does not stop a query. -/
inductive Warning where
  /-- A clause took the place of another one under the same key. -/
  | keyOverridden (key : String) (previous replacement : Json)
  /-- No limit was given, so the default one applies. -/
  | defaultLimit (limit : UInt64)
  /-- A remark of the document store. -/
  | store (message : String)
deriving DecidableEq

/-- The wording of a warning. -/
def Warning.text : Warning → String
  | .keyOverridden key previous replacement =>
    "a " ++ key ++ " query param is about to be overridden: " ++ previous.text ++ " by " ++
      replacement.text
  | .defaultLimit limit =>
    "no limit selector defined, using default limit of " ++ toString limit.toNat
  | .store message => "store warning: " ++ message

end DocMapper
