import DocMapper.Adapter.Record

/-!
# Sequences

A sequence hands out numbers for keys. It is a counter kept in a record of its own, which
holds the number handed out last; values are reserved by moving the counter on before they
are used. Counting is done in 128 bits, and ends where these do not hold a number.
-/

namespace DocMapper

/-- The table of the counters. -/
def sequenceTable : String := "??sequence"

/-- The attribute that holds the number handed out last. -/
def currentField : String := "current"

/-- A sequence: the name of its counter, the kind of its keys, the number before the first
    one and the distance between two. -/
structure Sequence where
  name : String
  kind : KeyKind
  startWith : Signed 128
  incrementBy : Signed 128
deriving DecidableEq

namespace Sequence

/-- The sequence with a name that counts as the options say. -/
def ofOptions (name : String) (kind : KeyKind) (options : SequenceOptions) : Sequence :=
  { name, kind, startWith := options.startWith, incrementBy := options.incrementBy }

/-- The key of the counter. -/
def key (s : Sequence) : Key := .text s.name

/-- The number that a counter holds. -/
def numberOf (s : Sequence) (v : Option Json) : Except Error (Signed 128) :=
  if s.kind = .text then .error (.sequenceKind s.name)
  else
    let number := match v with
      | some (.num n) => n.toSigned?.map Key.widen
      | some (.str text) => (Reading.signed 128 text).toOption
      | _ => none
    match number with
    | some n => .ok n
    | none => .error (.sequenceValue s.name v)

/-- A number as a key of the sequence's kind. -/
def keyOf (s : Sequence) (n : Signed 128) : Except Error Key :=
  match s.kind with
  | .number =>
    match Signed.ofInt? 64 n.val with
    | some small => .ok (.number small)
    | none => .error (.sequenceOverflow s.name n.val)
  | .bigInt => .ok (.bigInt n)
  | .text => .error (.sequenceKind s.name)

/-- A number as a counter holds it. -/
def held (s : Sequence) (n : Signed 128) : Json :=
  if s.kind = .bigInt then .str n.text
  else match Signed.ofInt? 64 n.val with
    | some small => .ofSigned small
    | none => .null

/-- The number so many steps after another, if both the distance and the number are in range. -/
def after (s : Sequence) (n : Signed 128) (steps : Nat) : Except Error (Signed 128) :=
  match Signed.ofInt? 128 (steps * s.incrementBy.val) with
  | none => .error (.overflow "multiply")
  | some distance =>
    match Signed.ofInt? 128 (n.val + distance.val) with
    | none => .error (.overflow "add")
    | some m => .ok m

/-- The key so many steps after a number. -/
def keyAfter (s : Sequence) (n : Signed 128) (steps : Nat) : Except Error Key := do
  s.keyOf (← s.after n steps)

/-- The number in the counter and the counter's revision; a counter that is not there yet
    holds the start. -/
def counter (s : Sequence) : Action (Signed 128 × Option String) := do
  match ← Action.outcome (Adapter.read sequenceTable s.key) with
  | .ok record => return (← s.numberOf (record.attributes.get? currentField), some record.rev)
  | .error e => if e.kind = .notFound then return (s.startWith, none) else throw e

/-- The key that was handed out last. -/
def current (s : Sequence) : Action Key := do
  let (n, _) ← s.counter
  s.keyOf n

/-- Move the counter on, and return the number it held before. -/
def advance (s : Sequence) (steps : Nat) : Action (Signed 128) := do
  let (previous, rev) ← s.counter
  let next ← s.after previous steps
  let _ ← s.keyOf next
  let attributes : Fields := [(currentField, s.held next), ("id", .str s.name)]
  let _ ← match rev with
    | some rev => Adapter.update sequenceTable s.key attributes (some rev)
    | none => Adapter.create sequenceTable s.key attributes
  return previous

/-- Reserve the next key. -/
def next (s : Sequence) : Action Key := do
  let previous ← s.advance 1
  s.keyAfter previous 1

/-- Reserve the next keys with a single write. -/
def range (s : Sequence) (count : Nat) : Action (List Key) := do
  if count = 0 then return []
  else
    let previous ← s.advance count
    ((List.range count).mapM fun i => s.keyAfter previous (i + 1) : Except Error (List Key))

end Sequence

end DocMapper
