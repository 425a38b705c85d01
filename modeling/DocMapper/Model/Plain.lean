import DocMapper.Model.Basic

/-!
# Plain models

Models that are JSON values, with attributes that have to be there and values that are
refused.
-/

namespace DocMapper

/-- A value of an attribute that is refused, and the text to refuse it with. -/
structure Refusal where
  attr : String
  value : Json
  message : String
deriving DecidableEq

/-- Whether an attribute has the refused value. -/
def Refusal.applies (r : Refusal) : Json → Bool
  | .obj fields => (Dict.get? fields r.attr).any r.value.same
  | _ => false

/-- Whether a value has an attribute. -/
def Json.hasMember (name : String) : Json → Bool
  | .obj fields => Dict.contains fields name
  | _ => false

/-- The models of a schema that are JSON values. -/
def Model.plain (schema : Schema) (required : List String) (refused : List Refusal) :
    Model Json where
  schema
  encode := .ok
  decode v :=
    match required.find? fun name => !v.hasMember name with
    | some name => .error ("missing field \x60" ++ name ++ "\x60")
    | none => .ok v
  validate v :=
    match refused.find? (Refusal.applies · v) with
    | some r => .error r.message
    | none => .ok ()

end DocMapper
