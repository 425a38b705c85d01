import DocMapper.Proofs.Adapter.Answers
import DocMapper.Proofs.Number.Signed
import DocMapper.Sequence

/-!
# Counters

The counter of a sequence stands at a number. It is kept so that it reads back, and a step either
moves it to where the sequence goes on or, where that is out of reach or no key can be made of it,
leaves it alone.
-/

namespace DocMapper.Sequence

open DocMapper.Action Adapter MemoryStore KeyedMap

/-- The id of the document that the counter is kept in. -/
def counterId (s : Sequence) : String := recordId sequenceTable s.name

/-- The attributes of the counter at a number. -/
def entry (s : Sequence) (n : Signed 128) : Fields :=
  [(currentField, s.held n), ("id", .str s.name)]

/-- The counter stands at the number: it holds the number, or it is not there and the number is the
    start. In either case a key can be made of the number. -/
structure Stands (s : Sequence) (n : Signed 128) (documents : Dict Document) : Prop where
  key : ∃ key, s.keyOf n = .ok key
  kept : (n = s.startWith ∧ ¬IsLive documents s.counterId) ∨
    ∃ rev, documents.get? s.counterId =
      some (Document.kept sequenceTable s.counterId (s.entry n) rev)

/-- 128 bits hold the distance of so many steps and the number that they lead to. -/
def Reaches (s : Sequence) (n : Signed 128) (steps : Nat) : Prop :=
  Signed.Fits 128 (steps * s.incrementBy.val) ∧
    Signed.Fits 128 (n.val + steps * s.incrementBy.val)

variable {s : Sequence} {n m : Signed 128} {steps : Nat} {documents other : Dict Document}
  {a b : Adapter} {key : Key} {e : Error}

/-! ## Steps -/

theorem after_of_reaches (hreaches : s.Reaches n steps) :
    ∃ m, s.after n steps = .ok m ∧ m.val = n.val + steps * s.incrementBy.val := by
  obtain ⟨hdistance, hnumber⟩ := hreaches
  refine ⟨⟨_, hnumber.1, hnumber.2⟩, ?_, rfl⟩
  simp only [after, Signed.ofInt?_of_fits hdistance, Signed.ofInt?_of_fits hnumber]

/-- Counting ends where 128 bits do not hold what is counted. -/
theorem after_of_not_reaches (hreaches : ¬s.Reaches n steps) :
    ∃ operation, s.after n steps = .error (.overflow operation) := by
  by_cases hdistance : Signed.Fits 128 (steps * s.incrementBy.val)
  · have hnumber : ¬Signed.Fits 128 (n.val + steps * s.incrementBy.val) :=
      fun hnumber => hreaches ⟨hdistance, hnumber⟩
    refine ⟨"add", ?_⟩
    simp only [after, Signed.ofInt?_of_fits hdistance, Signed.ofInt?_of_not_fits hnumber]
  · exact ⟨"multiply", by simp only [after, Signed.ofInt?_of_not_fits hdistance]⟩

/-- The number reached is so many steps away. -/
theorem val_of_after (hafter : s.after n steps = .ok m) :
    m.val = n.val + steps * s.incrementBy.val := by
  by_cases hreaches : s.Reaches n steps
  · obtain ⟨reached, hreached, hval⟩ := after_of_reaches hreaches
    cases hafter.symm.trans hreached
    exact hval
  · obtain ⟨operation, hended⟩ := after_of_not_reaches hreaches
    cases hafter.symm.trans hended

theorem keyAfter_of_ok (hafter : s.after n steps = .ok m) : s.keyAfter n steps = s.keyOf m := by
  rw [keyAfter, hafter]
  rfl

theorem keyAfter_of_error (hafter : s.after n steps = .error e) :
    s.keyAfter n steps = .error e := by
  rw [keyAfter, hafter]
  rfl

/-- A key is made from a number that was reached. -/
theorem exists_of_keyAfter (hkey : s.keyAfter n steps = .ok key) :
    ∃ m, s.after n steps = .ok m ∧ s.keyOf m = .ok key :=
  bind_eq_ok_iff.mp hkey

/-! ## The document of the counter -/

theorem documentId_counter (s : Sequence) :
    Identity.documentId sequenceTable s.key = .ok s.counterId :=
  Identity.documentId_eq_ok_iff.mpr ⟨by decide, rfl⟩

theorem not_reserves_entry (s : Sequence) (n : Signed 128) :
    Document.reserves (s.entry n) = false := by
  have hcurrent : Text.startsWith "_" currentField = false := by decide
  have hid : Text.startsWith "_" "id" = false := by decide
  simp only [Document.reserves, entry, Dict.keys, List.map_cons, List.map_nil, List.any_cons,
    List.any_nil, hcurrent, hid, Bool.or_self]

theorem get?_entry (s : Sequence) (n : Signed 128) :
    (Dict.ofEntries ((s.entry n).erase tableField)).get? currentField = some (s.held n) := by
  have hne : "id" ≠ currentField := by decide
  have herase : (s.entry n).erase tableField = s.entry n := by
    rw [entry, Dict.erase_cons, if_neg (by decide), Dict.erase_cons, if_neg (by decide)]
    rfl
  rw [herase, entry, Dict.ofEntries, List.foldl_cons, List.foldl_cons, List.foldl_nil,
    Dict.get?_insert_of_ne _ _ hne, Dict.get?_insert_self]

/-- A number that keys can be made of is read as it is held. -/
theorem numberOf_held (hkey : s.keyOf n = .ok key) :
    s.numberOf (some (s.held n)) = .ok n := by
  unfold keyOf at hkey
  unfold numberOf held
  cases hkind : s.kind with
  | text =>
    rw [hkind] at hkey
    cases hkey
  | bigInt =>
    have hread : Reading.signed 128 n.text = .ok n := Reading.signed_text (by decide) n
    simp only [reduceCtorEq, if_false, if_true, hread, Except.toOption]
  | number =>
    simp only [hkind] at hkey
    cases hsmall : Signed.ofInt? 64 n.val with
    | none =>
      rw [hsmall] at hkey
      cases hkey
    | some small =>
      have hval : small.val = n.val := Signed.ofInt?_eq_some_iff.mp hsmall
      have hwiden : Key.widen small = n := Signed.ext hval
      have hread : (Number.int (.ofSigned small)).toSigned? = some small :=
        Integer.toSigned?_ofSigned small
      simp only [reduceCtorEq, if_false, Json.ofSigned, hread, Option.map_some, hwiden]

/-- Where a counter stands is seen from its document. -/
theorem Stands.congr (hstands : s.Stands n documents)
    (hget : other.get? s.counterId = documents.get? s.counterId) : s.Stands n other := by
  refine ⟨hstands.key, ?_⟩
  rcases hstands.kept with ⟨hstart, hlive⟩ | ⟨rev, hkept⟩
  · exact Or.inl ⟨hstart, fun hlater => hlive (hlater.congr hget.symm)⟩
  · exact Or.inr ⟨rev, hget.trans hkept⟩

theorem outcome_of_read {result : Except Error StoredRecord}
    (hread : read sequenceTable s.key a = (result, b)) :
    Action.outcome (read sequenceTable s.key) a = (.ok result, b) := by
  rw [Action.outcome, hread]

/-- A counter that is there holds the number in its record. -/
theorem counter_of_record {record : StoredRecord}
    (hread : read sequenceTable s.key a = (.ok record, b)) : s.counter a =
      ((s.numberOf (record.attributes.get? currentField)).map (·, some record.rev), b) := by
  rw [counter, bind_of_ok (outcome_of_read hread)]
  cases hnumber : s.numberOf (record.attributes.get? currentField) <;> simp only [hnumber] <;> rfl

/-- A counter that is not there holds the start. -/
theorem counter_of_notFound (hread : read sequenceTable s.key a = (.error e, b))
    (hkind : e.kind = .notFound) : s.counter a = (.ok (s.startWith, none), b) := by
  rw [counter, bind_of_ok (outcome_of_read hread)]
  simp only [if_pos hkind]
  rfl

/-- A failure to read the counter, other than that it is missing, ends the request. -/
theorem counter_of_error (hread : read sequenceTable s.key a = (.error e, b))
    (hkind : e.kind ≠ .notFound) : s.counter a = (.error e, b) := by
  rw [counter, bind_of_ok (outcome_of_read hread)]
  simp only [if_neg hkind]
  rfl

/-- The counter is read with a revision over which it can be written. -/
theorem Stands.counter (hstands : s.Stands n a.documents) (hunstaged : a.Unstaged)
    (hregistry : a.registry.get? sequenceTable = none) :
    ∃ rev, s.counter a = (.ok (n, rev), a.served (.get s.counterId)) ∧
      Accepts a.documents s.counterId rev := by
  rcases hstands.kept with ⟨hstart, hlive⟩ | ⟨rev, hkept⟩
  · obtain ⟨reason, hread⟩ := read_of_not_isLive hunstaged s.documentId_counter hlive
    rw [hstart]
    exact ⟨none, counter_of_notFound hread rfl, hlive⟩
  · obtain ⟨key, hkey⟩ := hstands.key
    have hread := read_of_kept hunstaged s.documentId_counter (s.not_reserves_entry n) hregistry
      hkept
    refine ⟨some rev, ?_, ?_⟩
    · rw [counter_of_record hread, get?_entry, numberOf_held hkey]
      rfl
    · rw [Accepts, currentRevision_of_present hkept, Document.revision?_kept]

/-- The counter is read with a single call, whatever its document is, and with a revision over
    which it can be written. -/
theorem counter_spec (s : Sequence) (hunstaged : a.Unstaged) :
    (s.counter a).2 = a.served (.get s.counterId) ∧
      ∀ n rev, (s.counter a).1 = .ok (n, rev) → Accepts a.documents s.counterId rev := by
  by_cases hlive : IsLive a.documents s.counterId
  · obtain ⟨doc, hget, hdeleted⟩ := hlive
    have hlookUp : lookUp a.documents s.counterId = .ok doc := by
      rw [lookUp, hget]
      simp only [hdeleted, Bool.false_eq_true, if_false]
    cases hrev : doc.revision? with
    | none =>
      have hread := read_of_no_revision hunstaged s.documentId_counter hlookUp hrev
      rw [counter_of_error hread (by decide)]
      refine ⟨rfl, fun n rev hcounter => ?_⟩
      cases hcounter
    | some current =>
      have hread := read_of_lookUp hunstaged s.documentId_counter hlookUp hrev
      rw [counter_of_record hread]
      refine ⟨rfl, fun n rev hcounter => ?_⟩
      obtain ⟨m, _, heq⟩ := map_eq_ok hcounter
      cases heq
      exact (currentRevision_of_present hget).trans hrev
  · obtain ⟨reason, hread⟩ := read_of_not_isLive hunstaged s.documentId_counter hlive
    rw [counter_of_notFound hread rfl]
    refine ⟨rfl, fun n rev hcounter => ?_⟩
    cases hcounter
    exact hlive

/-! ## Moving on -/

/-- Where a key can be made of the number to go on to, the counter is moved there, whatever its
    document was before. -/
theorem advance_of_counter {rev : Option String}
    (hcounter : s.counter a = (.ok (n, rev), b)) (hunstaged : b.Unstaged)
    (haccepts : Accepts b.documents s.counterId rev) (hafter : s.after n steps = .ok m)
    (hkey : s.keyOf m = .ok key) :
    ∃ c later, s.advance steps a = (.ok n, c) ∧ WritesUnder s.counterId b c ∧
      c.documents.get? s.counterId =
        some (Document.kept sequenceTable s.counterId (s.entry m) later) := by
  rw [advance, bind_of_ok hcounter]
  simp only [hafter, hkey, lift_ok_bind]
  cases rev with
  | some given =>
    obtain ⟨later, c, hupdate, _, hdocuments⟩ := update_of_currentRevision hunstaged
      s.documentId_counter (s.not_reserves_entry m) haccepts
    obtain ⟨_, _, hwrites, _⟩ := update_eq_ok hunstaged hupdate
    refine ⟨c, later, bind_of_ok hupdate, hwrites, ?_⟩
    rw [hdocuments, Dict.get?_insert_self]
  | none =>
    obtain ⟨later, c, hcreate, _, hdocuments⟩ := create_of_not_isLive hunstaged
      s.documentId_counter (s.not_reserves_entry m) haccepts
    obtain ⟨_, _, hwrites, _⟩ := create_eq_ok hunstaged hcreate
    refine ⟨c, later, bind_of_ok hcreate, hwrites, ?_⟩
    rw [hdocuments, Dict.get?_insert_self]

/-- Where there is no number to go on to, or no key can be made of it, the counter is only looked
    at. -/
theorem advance_of_keyAfter_error {rev : Option String}
    (hcounter : s.counter a = (.ok (n, rev), b)) (hkey : s.keyAfter n steps = .error e) :
    s.advance steps a = (.error e, b) := by
  rw [advance, bind_of_ok hcounter]
  cases hafter : s.after n steps with
  | error e' =>
    rw [keyAfter_of_error hafter] at hkey
    cases hkey
    simp only [hafter]
    exact lift_error_bind _ _
  | ok m =>
    rw [keyAfter_of_ok hafter] at hkey
    simp only [hafter, hkey, lift_ok_bind]
    exact lift_error_bind _ _

/-- A counter that can move on does so, and the number it held before is answered. -/
theorem Stands.advance_of_key (hstands : s.Stands n a.documents) (hunstaged : a.Unstaged)
    (hregistry : a.registry.get? sequenceTable = none) (hafter : s.after n steps = .ok m)
    (hkey : s.keyOf m = .ok key) :
    ∃ b, s.advance steps a = (.ok n, b) ∧ s.Stands m b.documents := by
  obtain ⟨rev, hcounter, haccepts⟩ := hstands.counter hunstaged hregistry
  obtain ⟨b, later, hadvance, _, hkept⟩ :=
    advance_of_counter hcounter (unstaged_served _ hunstaged) haccepts hafter hkey
  exact ⟨b, hadvance, ⟨key, hkey⟩, Or.inr ⟨later, hkept⟩⟩

/-- One that cannot is only looked at. -/
theorem Stands.advance_of_error (hstands : s.Stands n a.documents) (hunstaged : a.Unstaged)
    (hregistry : a.registry.get? sequenceTable = none) (hkey : s.keyAfter n steps = .error e) :
    s.advance steps a = (.error e, a.served (.get s.counterId)) := by
  obtain ⟨rev, hcounter, _⟩ := hstands.counter hunstaged hregistry
  exact advance_of_keyAfter_error hcounter hkey

/-- Asking for the current key reads the counter and writes nothing. -/
theorem Stands.current (hstands : s.Stands n a.documents) (hunstaged : a.Unstaged)
    (hregistry : a.registry.get? sequenceTable = none) :
    ∃ key, s.keyOf n = .ok key ∧ s.current a = (.ok key, a.served (.get s.counterId)) := by
  obtain ⟨key, hkey⟩ := hstands.key
  obtain ⟨rev, hcounter, _⟩ := hstands.counter hunstaged hregistry
  refine ⟨key, hkey, ?_⟩
  rw [Sequence.current, bind_of_ok hcounter]
  simp only [hkey]
  rfl

end DocMapper.Sequence
