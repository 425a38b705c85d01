import DocMapper.Proofs.Repository.Coherence
import DocMapper.Proofs.Repository.Inputs
import Mathlib.Data.Prod.Basic

/-!
# Given keys and generated keys

A model that comes with a key is stored under it, and one that comes without gets the next key of
the sequence. Main statement: everything that is created is there under the key that was made out
for it, and a given key is kept exactly where its value is a key of the kind
(`Creation.keeps_given_iff`).
-/

namespace DocMapper

open DocMapper.Action Adapter MemoryStore

/-! ## Keys that are drawn -/

namespace Sequence

variable {s : Sequence} {a b : Adapter} {count : Nat} {keys : List Key}

/-- The keys are those of the numbers that come after the one in the counter. -/
def Continues (s : Sequence) (a : Adapter) (keys : List Key) : Prop :=
  keys = [] ∨ ∃ n rev, (s.counter a).1 = .ok (n, rev) ∧
    (List.range keys.length).mapM (fun i => s.keyAfter n (i + 1)) = .ok keys

/-- An advance starts from the counter that is stored. -/
theorem counter_of_advance {previous : Signed 128}
    (hadvance : s.advance count a = (.ok previous, b)) :
    ∃ rev, (s.counter a).1 = .ok (previous, rev) := by
  obtain ⟨⟨n, rev⟩, c, hcounter, hrest⟩ := bind_eq_ok hadvance
  obtain ⟨next, _, hrest⟩ := lift_bind_eq_ok hrest
  obtain ⟨key, _, hwrite⟩ := lift_bind_eq_ok hrest
  refine ⟨rev, ?_⟩
  cases rev with
  | some _ | none =>
    obtain ⟨record, d, _, hanswer⟩ := bind_eq_ok hwrite
    cases hanswer
    rw [hcounter]

/-- A range answers as many keys as asked, next to the counter. -/
theorem continues_of_range (hrange : s.range count a = (.ok keys, b)) :
    s.Continues a keys ∧ keys.length = count := by
  unfold range at hrange
  split at hrange
  · next hzero =>
    cases hrange
    exact ⟨.inl rfl, hzero.symm⟩
  · obtain ⟨previous, c, hadvance, hrest⟩ := bind_eq_ok hrange
    obtain ⟨hkeys, _⟩ := lift_eq_ok hrest
    obtain ⟨rev, hcounter⟩ := counter_of_advance hadvance
    have hlength : keys.length = count := (length_of_mapM hkeys).trans List.length_range
    refine ⟨.inr ⟨previous, rev, hcounter, ?_⟩, hlength⟩
    rw [hlength]
    exact hkeys

end Sequence

namespace Model

variable {α : Type} {m : Model α} {options : SequenceOptions} {attributes : Fields}
  {batch : List Fields} {assigned : List (Key × Fields)} {reserved drawn : List Key}
  {a b : Adapter}

/-- The sequence that missing keys are drawn from. -/
def sequenceOf (m : Model α) (options : SequenceOptions) : Sequence :=
  .ofOptions (options.name.getD (m.schema.table ++ "_" ++ m.keyField)) m.schema.primaryKey.kind
    options

/-- The reserved keys continue the sequence of the model. -/
theorem reserve_eq_ok {count : Nat} (hsequence : m.schema.primaryKey.sequence = some options)
    (hreserve : m.reserve count a = (.ok reserved, b)) :
    (m.sequenceOf options).Continues a reserved ∧ reserved.length = count := by
  unfold reserve at hreserve
  rw [Schema.sequenceName?, hsequence] at hreserve
  simp only [Option.map_some] at hreserve
  split at hreserve
  · next hzero =>
    cases hreserve
    exact ⟨.inl rfl, hzero.symm⟩
  · exact Sequence.continues_of_range hreserve

/-! ## Keys that are given -/

/-- The value that a model comes with for its key. -/
def given? (m : Model α) (attributes : Fields) : Option Json :=
  (attributes.get? m.keyField).filter fun v => !v.isNull

/-- An own key is a given value of the declared form. -/
theorem keyOf?_eq (m : Model α) (attributes : Fields) : m.keyOf? attributes =
    (m.given? attributes).bind (Key.ofJson? m.schema.primaryKey.kind) := rfl

/-- The value that a model comes with for its key, if any, is a key of the kind. -/
def GivesKey (m : Model α) (attributes : Fields) : Prop :=
  ∀ v, m.given? attributes = some v → ∃ key, Key.ofJson? m.schema.primaryKey.kind v = some key

/-- Of the integers in JSON, those that 64 bits hold with a sign are keys of 128 bits. -/
theorem givesKey_bigInt_iff {n : Integer} (hkind : m.schema.primaryKey.kind = .bigInt)
    (hgiven : m.given? attributes = some (.num (.int n))) :
    m.GivesKey attributes ↔ n.val < 9223372036854775808 := by
  have hkey : Key.ofJson? .bigInt (.num (.int n)) =
      (Signed.ofInt? 64 n.val).map fun small => .bigInt (Key.widen small) := rfl
  rw [GivesKey, hgiven, hkind]
  simp only [Option.some.injEq, forall_eq', hkey]
  rw [← Option.isSome_iff_exists, Option.isSome_map, Signed.isSome_ofInt?_iff]
  exact and_iff_right n.lower

/-- Keys for a batch, with the attributes that are to be stored under them. A model keeps its own
    key and its attributes as they are, or it lacks one and gets the next key that was drawn, which
    goes into its attributes. No drawn key is left over. -/
inductive Assigns (m : Model α) (Lacks : Fields → Prop) :
    List Key → List Fields → List (Key × Fields) → Prop
  | done : Assigns m Lacks [] [] []
  | own {attributes : Fields} {batch : List Fields} {key : Key} {drawn : List Key}
      {assigned : List (Key × Fields)} (hkey : m.keyOf? attributes = some key)
      (hrest : Assigns m Lacks drawn batch assigned) :
      Assigns m Lacks drawn (attributes :: batch) ((key, attributes) :: assigned)
  | next {attributes : Fields} {batch : List Fields} {key : Key} {drawn : List Key}
      {assigned : List (Key × Fields)} (hlacks : Lacks attributes)
      (hrest : Assigns m Lacks drawn batch assigned) :
      Assigns m Lacks (key :: drawn) (attributes :: batch)
        ((key, attributes.insert m.keyField key.toJson) :: assigned)

theorem length_of_assign (hassign : m.assign reserved batch = .ok assigned) :
    assigned.length = batch.length := by
  induction batch generalizing reserved assigned with
  | nil =>
    cases hassign
    rfl
  | cons attributes batch ih =>
    cases hkey : m.keyOf? attributes with
    | some key =>
      simp only [assign, hkey] at hassign
      obtain ⟨rest, hrest, rfl⟩ := map_eq_ok hassign
      exact congrArg Nat.succ (ih hrest)
    | none =>
      cases reserved with
      | nil =>
        simp only [assign, hkey] at hassign
        cases hassign
      | cons key reserved =>
        simp only [assign, hkey] at hassign
        obtain ⟨rest, hrest, rfl⟩ := map_eq_ok hassign
        exact congrArg Nat.succ (ih hrest)

theorem length_of_assignKeys (hassign : m.assignKeys batch a = (.ok assigned, b)) :
    assigned.length = batch.length := by
  obtain ⟨reserved, c, _, hrest⟩ := bind_eq_ok hassign
  exact length_of_assign (lift_eq_ok hrest).1

/-- As many reserved keys as there are entries without one fill all the gaps in turn. -/
theorem assigns_of_assign
    (hlength : reserved.length = (batch.filter fun a => (m.keyOf? a).isNone).length)
    (hassign : m.assign reserved batch = .ok assigned) :
    m.Assigns (fun attributes => m.keyOf? attributes = none) reserved batch assigned := by
  induction batch generalizing reserved assigned with
  | nil =>
    cases List.eq_nil_of_length_eq_zero hlength
    cases hassign
    exact .done
  | cons attributes batch ih =>
    cases hkey : m.keyOf? attributes with
    | some key =>
      simp only [assign, hkey] at hassign
      obtain ⟨rest, hrest, rfl⟩ := map_eq_ok hassign
      rw [List.filter_cons_of_neg (by simp [hkey])] at hlength
      exact .own hkey (ih hlength hrest)
    | none =>
      rw [List.filter_cons_of_pos (by simp [hkey])] at hlength
      cases reserved with
      | nil => cases hlength
      | cons key reserved =>
        simp only [assign, hkey] at hassign
        obtain ⟨rest, hrest, rfl⟩ := map_eq_ok hassign
        exact .next hkey (ih (Nat.succ.inj hlength) hrest)

/-- Drawn keys go only to models that come without a value for the key exactly where every value
    that a model comes with is a key. -/
theorem Assigns.given_iff
    (hassigns : m.Assigns (fun attributes => m.keyOf? attributes = none) drawn batch assigned) :
    m.Assigns (fun attributes => m.given? attributes = none) drawn batch assigned ↔
      ∀ attributes ∈ batch, m.GivesKey attributes := by
  constructor
  · intro hgiven
    clear hassigns
    induction hgiven with
    | done => exact List.forall_mem_nil _
    | own hkey _ ih =>
      refine List.forall_mem_cons.mpr ⟨fun v hv => ?_, ih⟩
      rw [keyOf?_eq, hv] at hkey
      exact ⟨_, hkey⟩
    | next hlacks _ ih =>
      refine List.forall_mem_cons.mpr ⟨fun v hv => ?_, ih⟩
      rw [hlacks] at hv
      cases hv
  · intro hgive
    induction hassigns with
    | done => exact .done
    | own hkey _ ih => exact .own hkey (ih (List.forall_mem_cons.mp hgive).2)
    | @next attributes _ _ _ _ hlacks _ ih =>
      obtain ⟨hfirst, hlater⟩ := List.forall_mem_cons.mp hgive
      refine .next ?_ (ih hlater)
      cases hgiven : m.given? attributes with
      | none => rfl
      | some v =>
        obtain ⟨key, hkey⟩ := hfirst v hgiven
        rw [keyOf?_eq, hgiven, Option.bind_some, hkey] at hlacks
        cases hlacks

/-- Keys are drawn from the sequence for the entries without one. -/
theorem assignKeys_eq_ok (hsequence : m.schema.primaryKey.sequence = some options)
    (hassign : m.assignKeys batch a = (.ok assigned, b)) :
    ∃ drawn, (m.sequenceOf options).Continues a drawn ∧
      m.Assigns (fun attributes => m.keyOf? attributes = none) drawn batch assigned := by
  obtain ⟨reserved, c, hreserve, hrest⟩ := bind_eq_ok hassign
  obtain ⟨hcontinues, hlength⟩ := reserve_eq_ok hsequence hreserve
  exact ⟨reserved, hcontinues, assigns_of_assign hlength (lift_eq_ok hrest).1⟩

end Model

/-! ## Creations -/

/-- The creation of one model or of many. -/
inductive Creation (α : Type) where
  | one (x : α)
  | all (xs : List α)

namespace Creation

variable {α : Type} {m : Model α} {c : Creation α} {ys : List α} {options : SequenceOptions}
  {a b : Adapter}

/-- The models that are created. -/
def models : Creation α → List α
  | .one x => [x]
  | .all xs => xs

/-- Create the models. -/
def run (m : Model α) : Creation α → Action (List α)
  | .one x => return [← m.create x]
  | .all xs => m.createAll xs

/-- What is created is there under the keys that were made out for it. -/
theorem keepsEntry_of_run (hunstaged : a.Unstaged) (hrun : c.run m a = (.ok ys, b)) :
    ∃ batch assigned d, m.validBatch c.models = .ok batch ∧
      m.assignKeys batch a = (.ok assigned, d) ∧
      ∀ entry ∈ assigned, KeepsEntry m.schema.table b.documents entry := by
  have hstill : ∀ {batch assigned d}, m.assignKeys batch a = (.ok assigned, d) → d.Unstaged := by
    intro batch assigned d hassign
    have hspares : a.Undisturbed (fun _ => False) (m.assignKeys batch a).2 :=
      Model.spares_assignKeys (fun _ => False.elim) batch a hunstaged
    rw [hassign] at hspares
    exact hspares.unstaged
  cases c with
  | one x =>
    obtain ⟨y, e, hcreate, hanswer⟩ := bind_eq_ok hrun
    cases hanswer
    obtain ⟨attributes, hvalid, hrest⟩ := lift_bind_eq_ok hcreate
    obtain ⟨assigned, d, hassign, hrest⟩ := bind_eq_ok hrest
    have hbatch : m.validBatch [x] = .ok [attributes] := by
      rw [Model.validBatch, List.mapM_cons, hvalid]
      rfl
    obtain ⟨⟨key, stored⟩, rfl⟩ := List.length_eq_one_iff.mp (Model.length_of_assignKeys hassign)
    obtain ⟨⟨id, own, rev, fields⟩, e, hrecord, hfinish⟩ := bind_eq_ok hrest
    obtain ⟨rfl, rfl, _, hencloses⟩ := create_eq_ok (hstill hassign) hrecord
    rw [Model.finish_eq, Prod.mk.injEq] at hfinish
    obtain ⟨_, rfl⟩ := hfinish
    exact ⟨[attributes], _, d, hbatch, hassign,
      List.forall_mem_singleton.mpr ⟨id, rev, hencloses⟩⟩
  | all xs =>
    obtain ⟨batch, hbatch, hrest⟩ := lift_bind_eq_ok hrun
    obtain ⟨assigned, d, hassign, hrest⟩ := bind_eq_ok hrest
    obtain ⟨records, e, hcreate, hfinish⟩ := bind_eq_ok hrest
    refine ⟨batch, assigned, d, hbatch, hassign, fun entry hentry => ?_⟩
    have hspares : Spares (fun _ => False) (Adapter.createAll m.schema.table
        (assigned.map Prod.fst) (assigned.map Prod.snd)) :=
      along_createAll fun _ _ _ => allows_sparing_none _
    have hundisturbed := hspares d (hstill hassign)
    rw [hcreate] at hundisturbed
    have hzip : entry ∈ (assigned.map Prod.fst).zip (assigned.map Prod.snd) := by
      rwa [← List.zip_of_prod rfl rfl]
    obtain ⟨id, rev, hencloses⟩ := createAll_keepsEntry (hstill hassign) hcreate entry hzip
    exact ⟨id, rev, hencloses.congr (get?_eq_of_mapM Model.spares_finish
      hundisturbed.unstaged hfinish)⟩

/-- Everything that is created is there: each model under its own key, where it has one, and each of
    the others under the next key that comes in the sequence. The keys that are drawn go only to
    models without a value for the key exactly where every value that is given is a key of the kind;
    any other value is replaced by a drawn key. Of the integers in JSON, keys of 128 bits are only
    those that 64 bits hold with a sign. -/
theorem keeps_given_iff (hsequence : m.schema.primaryKey.sequence = some options)
    (hunstaged : a.Unstaged) (hrun : c.run m a = (.ok ys, b)) :
    ∃ batch drawn assigned, m.validBatch c.models = .ok batch ∧
      (m.sequenceOf options).Continues a drawn ∧
      m.Assigns (fun attributes => m.keyOf? attributes = none) drawn batch assigned ∧
      (∀ entry ∈ assigned, KeepsEntry m.schema.table b.documents entry) ∧
      (m.Assigns (fun attributes => m.given? attributes = none) drawn batch assigned ↔
        ∀ attributes ∈ batch, m.GivesKey attributes) ∧
      (m.schema.primaryKey.kind = .bigInt → ∀ attributes n,
        m.given? attributes = some (.num (.int n)) →
          (m.GivesKey attributes ↔ n.val < 9223372036854775808)) := by
  obtain ⟨batch, assigned, d, hbatch, hassign, hkept⟩ := keepsEntry_of_run hunstaged hrun
  obtain ⟨drawn, hcontinues, hassigns⟩ := Model.assignKeys_eq_ok hsequence hassign
  exact ⟨batch, drawn, assigned, hbatch, hcontinues, hassigns, hkept, hassigns.given_iff,
    fun hkind attributes n hgiven => Model.givesKey_bigInt_iff hkind hgiven⟩

/-- A ticket with a value for its number. -/
def ticket (no : Json) : Json := .obj [("id", no)]

/-- A ticket with a number of the sequence. -/
def numberedTicket (no : Int) : Json := ticket (.ofSigned (Signed.wrap 64 no))

/-- A desk that has not given out any tickets. -/
def ticketDesk : Adapter := Adapter.ofStore (fresh fun _ _ => 0) {}

/-- Two tickets, one of which comes with its number. -/
def twoTickets : Creation Json := .all [ticket .null, ticket (.str "7")]

/-- The ticket that comes with its number keeps it, and the other gets the first of the sequence. -/
theorem keeps_given_twoTickets :
    ∃ b, twoTickets.run ticketModel ticketDesk =
        (.ok [numberedTicket 1, ticket (.str "7")], b) ∧
      b.documents.keys = ["??sequence__t_id", "t__1", "t__7"] ∧
      ∃ batch drawn assigned, ticketModel.validBatch twoTickets.models = .ok batch ∧
        ticketModel.Assigns (fun attributes => ticketModel.given? attributes = none) drawn batch
          assigned ∧
        ∀ entry ∈ assigned, KeepsEntry ticketModel.schema.table b.documents entry := by
  have hanswer : (twoTickets.run ticketModel ticketDesk).1 =
      .ok [numberedTicket 1, ticket (.str "7")] := by
    decide +kernel
  have hrun := Prod.fst_eq_iff.mp hanswer
  have hunstaged : ticketDesk.Unstaged := rfl
  obtain ⟨batch, drawn, assigned, hbatch, _, _, hkept, hgiven, _⟩ :=
    keeps_given_iff rfl hunstaged hrun
  have hvalid : ticketModel.validBatch twoTickets.models =
      .ok [[("id", .null)], [("id", .str "7")]] := rfl
  have hgives : ∀ attributes ∈ batch, ticketModel.GivesKey attributes := by
    rw [hvalid, Except.ok.injEq] at hbatch
    subst hbatch
    refine List.forall_mem_cons.mpr ⟨?_, List.forall_mem_singleton.mpr ?_⟩
    · intro v hv
      cases hv
    · intro v hv
      cases hv
      exact ⟨_, rfl⟩
  have hkeys : (twoTickets.run ticketModel ticketDesk).2.documents.keys =
      ["??sequence__t_id", "t__1", "t__7"] := by
    decide +kernel
  exact ⟨_, hrun, hkeys, batch, drawn, assigned, hbatch, hgiven.mpr hgives, hkept⟩

/-- A ticket whose number cannot be read gets one of the sequence in its place, and the value that
    it came with is lost. Nor is the least integer beyond 64 bits with a sign a key of 128 bits. -/
theorem given_key_replaced :
    ticketModel.given? [("id", .str "7a")] = some (.str "7a") ∧
      ∃ b, ticketModel.create (ticket (.str "7a")) ticketDesk = (.ok (numberedTicket 1), b) ∧
        b.documents.keys = ["??sequence__t_id", "t__1"] ∧
        Key.ofJson? .bigInt (.num (.int ⟨9223372036854775808, by decide, by decide⟩)) = none := by
  have hanswer : (ticketModel.create (ticket (.str "7a")) ticketDesk).1 =
      .ok (numberedTicket 1) := rfl
  refine ⟨rfl, _, Prod.ext_iff.mpr ⟨hanswer, rfl⟩, ?_, rfl⟩
  decide +kernel

end Creation

end DocMapper
