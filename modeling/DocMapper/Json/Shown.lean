import DocMapper.Json.Text
import DocMapper.Text.Quoted

/-!
# Values as messages show them

A value with its kind spelled out, for messages about a value of the wrong kind.
-/

namespace DocMapper.Json

mutual

/-- A value behind the name of its kind. -/
def shown : Json → String
  | .null => "Null"
  | .bool b => "Bool(" ++ toString b ++ ")"
  | .num n => "Number(" ++ n.text ++ ")"
  | .str s => "String(" ++ Text.quoted s ++ ")"
  | .arr items => "Array [" ++ ", ".intercalate (shownItems items) ++ "]"
  | .obj fields => "Object \x7b" ++ ", ".intercalate (shownFields fields) ++ "\x7d"
termination_by structural v => v

def shownItems : List Json → List String
  | [] => []
  | x :: rest => shown x :: shownItems rest
termination_by structural items => items

def shownFields : List (String × Json) → List String
  | [] => []
  | (k, x) :: rest => (Text.quoted k ++ ": " ++ shown x) :: shownFields rest
termination_by structural fields => fields

end

/-- A value that may be missing. -/
def shownOptional : Option Json → String
  | none => "None"
  | some v => "Some(" ++ v.shown ++ ")"

end DocMapper.Json
