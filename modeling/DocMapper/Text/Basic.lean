/-!
# Text

Questions about text, all answered on its list of code points: what it starts with, what
it contains, and how it falls apart at a separator or at blanks.
-/

namespace DocMapper.Text

/-- What follows a leading part, if the list starts with it. -/
def rest? : List Char → List Char → Option (List Char)
  | [], text => some text
  | _ :: _, [] => none
  | l :: lead, c :: text => if l = c then rest? lead text else none

/-- What follows `lead` in `s`, if `s` starts with it. -/
def after? (lead s : String) : Option String := (rest? lead.toList s.toList).map String.ofList

/-- Whether `s` starts with `lead`. -/
def startsWith (lead s : String) : Bool := (rest? lead.toList s.toList).isSome

/-- Whether one list of characters occurs within another without a gap. -/
def occursIn (part : List Char) : List Char → Bool
  | [] => part.isEmpty
  | c :: text => (rest? part (c :: text)).isSome || occursIn part text

/-- Whether `part` occurs somewhere in `s`. -/
def contains (part s : String) : Bool := occursIn part.toList s.toList

/-- The pieces of a list between the separators: one more piece than there are separators. -/
def pieces (sep : Char) : List Char → List (List Char)
  | [] => [[]]
  | c :: text =>
    if c = sep then [] :: pieces sep text
    else match pieces sep text with
      | [] => [[c]]
      | piece :: others => (c :: piece) :: others

/-- The pieces of `s` between the separators. -/
def split (sep : Char) (s : String) : List String := (pieces sep s.toList).map String.ofList

/-- Whether a character is in one of the runs of code points. -/
def inRuns (runs : List (Nat × Nat)) (c : Char) : Bool :=
  runs.any fun run => run.1 ≤ c.toNat && c.toNat ≤ run.2

/-- The white space of Unicode (property `White_Space`). -/
def isBlank (c : Char) : Bool :=
  let n := c.toNat
  (9 ≤ n && n ≤ 13) || n == 0x20 || n == 0x85 || n == 0xA0 || n == 0x1680 ||
    (0x2000 ≤ n && n ≤ 0x200A) || n == 0x2028 || n == 0x2029 || n == 0x202F || n == 0x205F ||
    n == 0x3000

/-- Drop the blanks at both ends. -/
def trim (text : List Char) : List Char :=
  ((text.dropWhile isBlank).reverse.dropWhile isBlank).reverse

/-- The nonempty runs of characters that are not blank. -/
def runs : List Char → List (List Char)
  | [] => []
  | c :: text =>
    if isBlank c then runs text
    else match text with
      | [] => [[c]]
      | d :: _ =>
        if isBlank d then [c] :: runs text
        else match runs text with
          | [] => [[c]]
          | run :: others => (c :: run) :: others

/-- The words of `s`, put together again with `_` between them. -/
def underscored (s : String) : String := "_".intercalate ((runs s.toList).map String.ofList)

/-- Small letters in place of the capital letters of ASCII; all else stays. -/
def lowerAscii (s : String) : String := String.ofList (s.toList.map Char.toLower)

example : underscored "  full \t name " = "full_name" := by decide
example : split '.' "a..b" = ["a", "", "b"] := by decide
example : after? "ab" "abc" = some "c" := by decide

end DocMapper.Text
