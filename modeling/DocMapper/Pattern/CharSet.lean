import DocMapper.Text.Folding
import DocMapper.Text.Word

/-!
# Sets of characters

The sets that patterns ask characters to be in: ranges, sets with a name, and what set
operations make of them.
-/

namespace DocMapper

/-- A set of characters. -/
inductive CharSet where
  | none
  | range (low high : Char)
  | blank
  | digit
  | word
  | complement (s : CharSet)
  | union (s t : CharSet)
  | inter (s t : CharSet)
  /-- The letters of the set in every case, with its other characters. -/
  | anyCase (s : CharSet)

namespace CharSet

/-- Whether a character belongs to the set. -/
def contains : CharSet → Char → Bool
  | .none, _ => false
  | .range low high, c => low ≤ c && c ≤ high
  | .blank, c => Text.isBlank c
  | .digit, c => Text.isDigit c
  | .word, c => Text.isWordChar c
  | .complement s, c => !s.contains c
  | .union s t, c => s.contains c || t.contains c
  | .inter s t, c => s.contains c && t.contains c
  | .anyCase s, c => (Text.forms c).any fun d => s.contains d

/-- The set of a single character. -/
def single (c : Char) : CharSet := .range c c

/-- All characters. -/
def all : CharSet := .complement .none

/-- What is in the first set and not in the second. -/
def diff (s t : CharSet) : CharSet := .inter s (.complement t)

/-- What is in one of the sets and not in both. -/
def symmDiff (s t : CharSet) : CharSet := .union (s.diff t) (t.diff s)

@[simp] theorem contains_diff (s t : CharSet) (c : Char) :
    (s.diff t).contains c = (s.contains c && !t.contains c) := rfl

@[simp] theorem contains_symmDiff (s t : CharSet) (c : Char) :
    (s.symmDiff t).contains c = (s.contains c != t.contains c) := by
  simp only [symmDiff, contains, contains_diff]
  cases s.contains c <;> cases t.contains c <;> rfl

/-- The set as it is, or its complement. -/
def negateIf (negated : Bool) (s : CharSet) : CharSet := if negated then .complement s else s

/-- The set as it is, or with the letters of both cases. -/
def anyCaseIf (ignoreCase : Bool) (s : CharSet) : CharSet := if ignoreCase then .anyCase s else s

/-- The union of ranges. -/
def ofRanges (ranges : List (Char × Char)) : CharSet :=
  ranges.foldr (fun (low, high) s => .union (.range low high) s) .none

/-- The sets of ASCII characters that have a name between colons. -/
def asciiNames : List (String × CharSet) := [
  ("alnum", ofRanges [('0', '9'), ('A', 'Z'), ('a', 'z')]),
  ("alpha", ofRanges [('A', 'Z'), ('a', 'z')]),
  ("ascii", ofRanges [('\x00', '\x7f')]),
  ("blank", ofRanges [('\t', '\t'), (' ', ' ')]),
  ("cntrl", ofRanges [('\x00', '\x1f'), ('\x7f', '\x7f')]),
  ("digit", ofRanges [('0', '9')]),
  ("graph", ofRanges [('!', '~')]),
  ("lower", ofRanges [('a', 'z')]),
  ("print", ofRanges [(' ', '~')]),
  ("punct", ofRanges [('!', '/'), (':', '@'), ('[', '\x60'), ('\x7b', '~')]),
  ("space", ofRanges [('\t', '\r'), (' ', ' ')]),
  ("upper", ofRanges [('A', 'Z')]),
  ("word", ofRanges [('0', '9'), ('A', 'Z'), ('_', '_'), ('a', 'z')]),
  ("xdigit", ofRanges [('0', '9'), ('A', 'F'), ('a', 'f')])]

/-- The set of ASCII characters with a name. -/
def ofAsciiName? (name : String) : Option CharSet :=
  (asciiNames.find? (·.1 == name)).map Prod.snd

end CharSet

end DocMapper
