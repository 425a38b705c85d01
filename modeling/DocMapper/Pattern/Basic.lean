import DocMapper.Pattern.CharSet

/-!
# Patterns

Regular expressions over text, searched for without an anchor. Only whether a pattern
occurs is asked, so a match is a set of places: a pattern carries the places where a match
may begin to the places where it may end.
-/

namespace DocMapper

/-- What a pattern can ask of a place without moving on. -/
inductive Anchor where
  | textStart
  | textEnd
  | lineStart
  | lineEnd
  /-- A word begins or ends. -/
  | wordEdge
  | noWordEdge
  | wordStart
  | wordEnd
  /-- No word character stands before. -/
  | noWordBefore
  /-- No word character follows. -/
  | noWordBehind
deriving DecidableEq

/-- A regular expression. -/
inductive Pattern where
  | empty
  | one (s : CharSet)
  | anchor (a : Anchor)
  | seq (p q : Pattern)
  | alt (p q : Pattern)
  /-- A pattern so many times at least, and at most so many times where there is a bound. -/
  | repeated (p : Pattern) (least : Nat) (most : Option Nat)
  /-- A group with a name of its own. -/
  | named (name : List Char) (p : Pattern)

/-- A place in a text: the character before it and the text behind it. -/
structure Place where
  previous : Option Char
  rest : List Char

namespace Place

/-- All places of a text from a given one to its end. -/
def onward (previous : Option Char) : List Char → List Place
  | [] => [⟨previous, []⟩]
  | c :: rest => ⟨previous, c :: rest⟩ :: Place.onward (some c) rest

/-- Whether a word character stands before the place. -/
def wordBefore (p : Place) : Bool := p.previous.any Text.isWordChar

/-- Whether a word character follows the place. -/
def wordBehind (p : Place) : Bool := p.rest.head?.any Text.isWordChar

/-- Whether the place is one that an anchor asks for. -/
def holds (p : Place) : Anchor → Bool
  | .textStart => p.previous.isNone
  | .textEnd => p.rest.isEmpty
  | .lineStart => p.previous.isNone || p.previous == some '\n'
  | .lineEnd => p.rest.isEmpty || p.rest.head? == some '\n'
  | .wordEdge => p.wordBefore != p.wordBehind
  | .noWordEdge => p.wordBefore == p.wordBehind
  | .wordStart => !p.wordBefore && p.wordBehind
  | .wordEnd => p.wordBefore && !p.wordBehind
  | .noWordBefore => !p.wordBefore
  | .noWordBehind => !p.wordBehind

/-- Places of one text are told apart by what is left of it. -/
def merge (ps qs : List Place) : List Place :=
  ps ++ qs.filter fun q => ps.all fun p => p.rest.length ≠ q.rest.length

/-- The greatest number of different places that can be reached from the given ones. -/
def reach (ps : List Place) : Nat :=
  ps.foldl (fun longest place => max longest (place.rest.length + 1)) 0

end Place

namespace Pattern

/-- The places where a match that begins at one of the given places may end. More rounds of
    a repetition than there are places to reach cannot lead to another place, because every
    round that leads on leaves a place behind for good. -/
def advance : Pattern → List Place → List Place
  | .empty, ps => ps
  | .one s, ps => ps.filterMap fun p =>
    match p.rest with
    | [] => none
    | c :: rest => if s.contains c then some ⟨some c, rest⟩ else none
  | .anchor a, ps => ps.filter (·.holds a)
  | .seq p q, ps => q.advance (p.advance ps)
  | .alt p q, ps => Place.merge (p.advance ps) (q.advance ps)
  | .repeated p least most, ps =>
    let rounds := Place.reach ps
    let required := Nat.repeat (fun ps => p.advance ps) (min least rounds) ps
    let further := match most with
      | some most => min (most - least) rounds
      | none => rounds
    Nat.repeat (fun reached => Place.merge reached (p.advance reached)) further required
  | .named _ p, ps => p.advance ps

/-- Whether the pattern matches some part of the text. -/
def occursIn (p : Pattern) (s : String) : Bool := !(p.advance (Place.onward none s.toList)).isEmpty

/-- The number of steps that the pattern consists of when its repetitions are written out. -/
def steps : Pattern → Nat
  | .empty => 0
  | .one _ | .anchor _ => 1
  | .seq p q => p.steps + q.steps
  | .alt p q => p.steps + q.steps + 1
  | .repeated p least (some most) => most * p.steps + (most - least)
  | .repeated p least none => max least 1 * p.steps + 1
  | .named _ p => p.steps

/-- The names of the groups of a pattern. -/
def names : Pattern → List (List Char)
  | .empty | .one _ | .anchor _ => []
  | .seq p q | .alt p q => p.names ++ q.names
  | .repeated p _ _ => p.names
  | .named name p => name :: p.names

/-- The greatest number of steps that a pattern may have. -/
def stepLimit : Nat := 327680

end Pattern

end DocMapper
