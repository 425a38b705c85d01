import DocMapper.Adapter.Record
import DocMapper.Proofs.Document.Envelope
import DocMapper.Proofs.Store.Write

/-!
# Keyed maps with revisions

What the records of one table are to a caller: a map from the texts of keys to the attributes
that were last written, each entry with its revision. Deleted entries keep theirs.
-/

namespace DocMapper

/-- An operation on the records of a table. -/
inductive RecordCall where
  | create (key : Key) (attributes : Fields)
  | read (key : Key)
  | update (key : Key) (attributes : Fields) (rev : Option String)
  | delete (key : Key)

/-- The key that an operation is about. -/
def RecordCall.key : RecordCall → Key
  | .create key _ | .read key | .update key _ _ | .delete key => key

/-- What is known under a key: the revision, and the attributes unless they were deleted. -/
structure KeyedMap.Entry where
  rev : String
  attributes : Option Fields

/-- The entries by the texts of their keys. -/
abbrev KeyedMap := String → Option KeyedMap.Entry

namespace KeyedMap

/-- Nothing was ever written. -/
def empty : KeyedMap := fun _ => none

/-- The latest revision under a key, which deletion changes like any other write. -/
def rev? (m : KeyedMap) (text : String) : Option String := (m text).map Entry.rev

/-- The revision and the attributes under a key that is live. -/
def live? (m : KeyedMap) (text : String) : Option (String × Fields) :=
  (m text).bind fun entry => entry.attributes.map (entry.rev, ·)

/-- Put an entry under a key. -/
def set (m : KeyedMap) (text : String) (entry : Entry) : KeyedMap :=
  fun other => if other = text then some entry else m other

/-- The id of the record under a key. -/
def recordId (table text : String) : String := table ++ separator ++ text

/-- The record that is read: the attributes without the table field, with the primary key under
    its name. -/
def shown (schema : Schema) (key : Key) (rev : String) (attributes : Fields) : StoredRecord :=
  ⟨recordId schema.table key.toText, key, rev,
    (Dict.ofEntries (attributes.erase tableField)).insert schema.primaryKey.attr key.toJson⟩

/-- Put attributes under a key, and answer with the record that was made of them. -/
def write (m : KeyedMap) (schema : Schema) (key : Key) (attributes : Fields) (issued : String) :
    Except ErrorKind StoredRecord × KeyedMap :=
  (.ok ⟨recordId schema.table key.toText, key, issued, attributes⟩,
    m.set key.toText ⟨issued, some attributes⟩)

/-- What an operation answers and leaves behind. A write that succeeds gets the revision that is
    issued for it, over the one that the key had. -/
def step (schema : Schema) (issue : Option String → RecordCall → String) (m : KeyedMap) :
    RecordCall → Except ErrorKind StoredRecord × KeyedMap
  | .create key attributes =>
    if Document.reserves attributes then (.error .internal, m)
    else if (m.live? key.toText).isSome then (.error .conflict, m)
    else m.write schema key attributes (issue (m.rev? key.toText) (.create key attributes))
  | .read key =>
    match m.live? key.toText with
    | none => (.error .notFound, m)
    | some (rev, attributes) => (.ok (shown schema key rev attributes), m)
  | .update key attributes rev =>
    if rev.isNone || Document.reserves attributes then (.error .internal, m)
    else if m.rev? key.toText = rev then
      m.write schema key attributes (issue (m.rev? key.toText) (.update key attributes rev))
    else (.error .conflict, m)
  | .delete key =>
    match m.live? key.toText with
    | none => (.error .notFound, m)
    | some (rev, attributes) => (.ok (shown schema key rev attributes),
      m.set key.toText ⟨issue (m.rev? key.toText) (.delete key), none⟩)

/-- The answers to operations that are carried out one after another, and what they leave. -/
def run (schema : Schema) (issue : Option String → RecordCall → String) :
    KeyedMap → List RecordCall → List (Except ErrorKind StoredRecord) × KeyedMap
  | m, [] => ([], m)
  | m, call :: rest =>
    let (answer, m) := step schema issue m call
    let (answers, m) := run schema issue m rest
    (answer :: answers, m)

variable {schema : Schema} {issue : Option String → RecordCall → String} {m : KeyedMap}

/-- Attributes in key order are shown as they were written. -/
theorem shown_of_ordered {attributes : Fields} (key : Key) (rev : String)
    (hordered : Dict.Ordered attributes) : shown schema key rev attributes =
      ⟨recordId schema.table key.toText, key, rev,
        (attributes.erase tableField).insert schema.primaryKey.attr key.toJson⟩ := by
  have herase : Dict.Ordered (attributes.erase tableField) := hordered.filter _
  rw [shown, Dict.ofEntries_of_ordered herase]

/-- An operation that changes the map succeeds, and changes what is under its key. -/
theorem step_cases (schema : Schema) (issue : Option String → RecordCall → String) (m : KeyedMap)
    (call : RecordCall) : (m.step schema issue call).2 = m ∨
      ∃ record entry, m.step schema issue call = (.ok record, m.set call.key.toText entry) := by
  cases call with
  | create key attributes =>
    rw [step]
    by_cases hreserves : Document.reserves attributes = true
    · rw [if_pos hreserves]
      exact Or.inl rfl
    · rw [if_neg hreserves]
      by_cases hlive : (m.live? key.toText).isSome = true
      · rw [if_pos hlive]
        exact Or.inl rfl
      · rw [if_neg hlive]
        exact Or.inr ⟨_, _, rfl⟩
  | read key =>
    rw [step]
    cases m.live? key.toText <;> exact Or.inl rfl
  | update key attributes rev =>
    rw [step]
    by_cases hrefused : (rev.isNone || Document.reserves attributes) = true
    · rw [if_pos hrefused]
      exact Or.inl rfl
    · rw [if_neg hrefused]
      by_cases hlatest : m.rev? key.toText = rev
      · rw [if_pos hlatest]
        exact Or.inr ⟨_, _, rfl⟩
      · rw [if_neg hlatest]
        exact Or.inl rfl
  | delete key =>
    rw [step]
    cases m.live? key.toText with
    | none => exact Or.inl rfl
    | some live => exact Or.inr ⟨_, _, rfl⟩

/-- A call leaves the entries of other keys alone. -/
theorem step_other {text : String} (call : RecordCall) (hother : text ≠ call.key.toText) :
    (m.step schema issue call).2 text = m text := by
  rcases step_cases schema issue m call with hsame | ⟨record, entry, hset⟩
  · rw [hsame]
  · rw [hset]
    exact if_neg hother

/-- A refused call leaves the whole map alone. -/
theorem step_of_error {call : RecordCall} {kind : ErrorKind}
    (herror : (m.step schema issue call).1 = .error kind) : (m.step schema issue call).2 = m := by
  rcases step_cases schema issue m call with hsame | ⟨record, entry, hset⟩
  · exact hsame
  · rw [hset] at herror
    cases herror

end KeyedMap

namespace RecordCall

/-- The document that an operation writes over a revision. -/
def document (table : String) (previous : Option String) : RecordCall → Document
  | .create key attributes => Document.enclosed table (KeyedMap.recordId table key.toText) attributes
  | .update key attributes rev =>
    Document.kept table (KeyedMap.recordId table key.toText) attributes (rev.getD "")
  | .delete key =>
    MemoryStore.tombstone (KeyedMap.recordId table key.toText) (previous.getD "")
  | .read _ => []

/-- The revision that the store issues: it counts one write more than the one before, and its
    digits are the digest of what is written. -/
def issued (digest : Option String → Document → UInt64) (table : String)
    (previous : Option String) (call : RecordCall) : String :=
  Revision.text (Revision.generationOf previous + 1) (digest previous (call.document table previous))

/-- Carry out an operation through an adapter. -/
def perform (table : String) : RecordCall → Action StoredRecord
  | .create key attributes => Adapter.create table key attributes
  | .read key => Adapter.read table key
  | .update key attributes rev => Adapter.update table key attributes rev
  | .delete key => Adapter.delete table key

/-- Carry out operations one after another, whatever comes of each. -/
def performAll (table : String) :
    List RecordCall → Adapter → List (Except Error StoredRecord) × Adapter
  | [], a => ([], a)
  | call :: rest, a =>
    let (answer, a) := call.perform table a
    let (answers, a) := performAll table rest a
    (answer :: answers, a)

end RecordCall

end DocMapper
