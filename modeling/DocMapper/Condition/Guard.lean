import DocMapper.Condition.Basic
import DocMapper.Json.Text

/-!
# Guards

A guard is a JavaScript expression over a document, as a view's map function uses it to
pick documents. Conditions turn into guards; a guard has a text, in which every operand is
bracketed or a single comparison, so guards can be joined with `&&` as they are.
-/

namespace DocMapper

/-- A JavaScript comparison. -/
inductive Comparison where
  | strictEqual
  | strictUnequal
  | above
  | atLeast
  | below
  | atMost
deriving DecidableEq, Repr

/-- The sign of a comparison. -/
def Comparison.sign : Comparison → String
  | .strictEqual => "==="
  | .strictUnequal => "!=="
  | .above => ">"
  | .atLeast => ">="
  | .below => "<"
  | .atMost => "<="

/-- A JavaScript Boolean expression over the attributes of one document. -/
inductive Guard where
  | test (comparison : Comparison) (attr : String) (value : Json)
  | listed (attr : String) (values : Json)
  | matched (attr : String) (pattern : Json)
  | always
  | negation (g : Guard)
  | both (g h : Guard)
  | either (g h : Guard)

namespace Guard

/-- An attribute of the document that a variable holds. -/
def member (document attr : String) : String :=
  document ++ "[" ++ String.ofList (Json.quote attr) ++ "]"

/-- The text of a guard over the document that a variable holds. -/
def text (document : String) : Guard → String
  | .test comparison attr value =>
    member document attr ++ " " ++ comparison.sign ++ " " ++ value.text
  | .listed attr values =>
    "(" ++ values.text ++ ").indexOf(" ++ member document attr ++ ") !== -1"
  | .matched attr pattern =>
    "new RegExp(" ++ pattern.text ++ ").test(" ++ member document attr ++ ")"
  | .always => "true"
  | .negation g => "!(" ++ g.text document ++ ")"
  | .both g h => "(" ++ g.text document ++ " && " ++ h.text document ++ ")"
  | .either g h => "(" ++ g.text document ++ " || " ++ h.text document ++ ")"

section Characters

variable (document attr : String) (c : Comparison) (value : Json) (g h : Guard)

theorem toList_member : (member document attr).toList =
    document.toList ++ ('[' :: Json.quote attr ++ [']']) := by
  simp [member]

theorem toList_text_test : ((test c attr value).text document).toList =
    (member document attr).toList ++ (' ' :: (c.sign.toList ++ [' ']) ++ value.write) := by
  simp [text, Json.text]

theorem toList_text_listed : ((listed attr value).text document).toList =
    ('(' :: value.write ++ [')']) ++ (".indexOf".toList ++
      (('(' :: (member document attr).toList ++ [')']) ++ " !== -1".toList)) := by
  simp [text, Json.text]

theorem toList_text_matched : ((matched attr value).text document).toList =
    "new RegExp".toList ++ (('(' :: value.write ++ [')']) ++
      (".test".toList ++ ('(' :: (member document attr).toList ++ [')']))) := by
  simp [text, Json.text]

theorem toList_text_negation : ((negation g).text document).toList =
    '!' :: ('(' :: (g.text document).toList ++ [')']) := by
  simp [text]

theorem toList_text_both : ((both g h).text document).toList =
    '(' :: ((g.text document).toList ++ ([' ', '&', '&', ' '] ++ (h.text document).toList)) ++
      [')'] := by
  simp [text]

theorem toList_text_either : ((either g h).text document).toList =
    '(' :: ((g.text document).toList ++ ([' ', '|', '|', ' '] ++ (h.text document).toList)) ++
      [')'] := by
  simp [text]

end Characters

end Guard

namespace Condition

/-- The guard of a leaf. A range without two bounds restricts nothing. -/
def leafGuard (attr : String) (value : Json) : Operator → Guard
  | .equal => .test .strictEqual attr value
  | .different => .test .strictUnequal attr value
  | .bigger => .test .above attr value
  | .biggerEq => .test .atLeast attr value
  | .smaller => .test .below attr value
  | .smallerEq => .test .atMost attr value
  | .not => .negation (.test .strictEqual attr value)
  | .oneOf => .listed attr value
  | .regexp => .matched attr value
  | .between =>
    match value with
    | .arr [low, high] => .both (.test .atLeast attr low) (.test .atMost attr high)
    | _ => .always

/-- The guard of a condition. The comparison of a negation plays no part in it. -/
def guard : Condition → Guard
  | .leaf attr operator value => leafGuard attr value operator
  | .not condition _ => .negation condition.guard
  | .group left .and right => .both left.guard right.guard
  | .group left .or right => .either left.guard right.guard

/-- The condition as JavaScript over the document that a variable holds. -/
def script (document : String) (condition : Condition) : String := condition.guard.text document

end Condition

end DocMapper
