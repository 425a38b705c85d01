import DocMapper.Model.Plain
import DocMapper.Proofs.Adapter.Footprint
import DocMapper.Proofs.Traversal
import DocMapper.Repository

/-!
# Faults of the input

What is wrong with the models that are handed in is found before the store hears of them, with one
exception: keys are reserved before the names of the attributes are looked at.
-/

namespace DocMapper

namespace Action

open Adapter

/-- The action fails and leaves the adapter as it is: it makes no call and remembers nothing. -/
def Refuses {α : Type} (x : Action α) (a : Adapter) : Prop := ∃ e, x a = (.error e, a)

variable {a : Adapter} {α β : Type}

/-- Where a computation in front succeeds, what stands behind it refuses. -/
theorem refuses_lift_bind {e : Except Error α} {f : α → Action β}
    (hf : ∀ v, e = .ok v → Refuses (f v) a) : Refuses (liftM e >>= f) a := by
  cases e with
  | error e => exact ⟨e, lift_error_bind e f⟩
  | ok v => exact hf v rfl

/-- A refused first action ends the whole. -/
theorem refuses_bind {x : Action α} {f : α → Action β} (hx : Refuses x a) :
    Refuses (x >>= f) a := by
  obtain ⟨e, hrun⟩ := hx
  exact ⟨e, bind_of_error hrun⟩

/-- One element that can never come through refuses the whole traversal. -/
theorem refuses_mapM {f : α → Action β} (g : α → Except Error β) {xs : List α} {v : α}
    (hf : ∀ v, f v = liftM (g v)) (hmem : v ∈ xs) (hv : ∀ w, g v ≠ .ok w) :
    Refuses (xs.mapM f) a := by
  rw [mapM_eq_lift hf]
  cases hmap : xs.mapM g with
  | error e => exact ⟨e, rfl⟩
  | ok ys =>
    obtain ⟨w, _, hok⟩ := mem_of_mapM hmap hmem
    exact absurd hok (hv w)

end Action

open DocMapper.Action

namespace Adapter

variable {a : Adapter} {table : String} {key : Key} {attributes : Fields} {keys : List Key}
  {batch : List Fields} {revs : List (Option String)} {rev : Option String}

theorem checkLengths_of_ne {m n : Nat} (hne : m ≠ n) : checkLengths m n = .error .lengthMismatch :=
  if_neg hne

/-- Attributes that use a reserved name make no document. -/
theorem not_enclose_of_reserves {id : String} {doc : Document}
    (hreserves : Document.reserves attributes = true) :
    Document.enclose table id attributes ≠ .ok doc := by
  intro henclose
  rw [(Document.enclose_eq_ok henclose).1] at hreserves
  cases hreserves

/-- Reserved names are found before the insert. -/
theorem refuses_create_of_reserves (hreserves : Document.reserves attributes = true) :
    Refuses (create table key attributes) a :=
  refuses_lift_bind fun _ _ => refuses_lift_bind fun _ hdoc =>
    absurd hdoc (not_enclose_of_reserves hreserves)

/-- Reserved names are found before the update. -/
theorem refuses_update_of_reserves (hreserves : Document.reserves attributes = true) :
    Refuses (update table key attributes rev) a := by
  cases rev with
  | none => exact ⟨_, rfl⟩
  | some given =>
    exact refuses_lift_bind fun _ _ => refuses_lift_bind fun _ hdoc =>
      absurd hdoc (not_enclose_of_reserves hreserves)

/-- Keys and attributes of different numbers are refused at once. -/
theorem createAll_of_length_ne (hne : keys.length ≠ batch.length) :
    createAll table keys batch a = (.error .lengthMismatch, a) := by
  rw [createAll, checkLengths_of_ne hne]
  exact lift_error_bind _ _

/-- Keys, attributes and revisions of different numbers are refused at once. -/
theorem updateAll_of_length_ne
    (hne : keys.length ≠ batch.length ∨ keys.length ≠ revs.length) :
    updateAll table keys batch revs a = (.error .lengthMismatch, a) := by
  rw [updateAll]
  by_cases hbatch : keys.length = batch.length
  · rw [checkLengths, if_pos hbatch, lift_ok_bind,
      checkLengths_of_ne (hne.resolve_left fun hnot => hnot hbatch)]
    exact lift_error_bind _ _
  · rw [checkLengths_of_ne hbatch]
    exact lift_error_bind _ _

/-- Every second element has a partner in lists of one length. -/
theorem exists_zip_of_mem_right {β γ : Type} {xs : List β} {ys : List γ} {y : γ}
    (hlength : xs.length = ys.length) (hmem : y ∈ ys) : ∃ x, (x, y) ∈ xs.zip ys := by
  rw [← List.map_snd_zip (Nat.le_of_eq hlength.symm)] at hmem
  obtain ⟨⟨x, _⟩, hzip, rfl⟩ := List.mem_map.mp hmem
  exact ⟨x, hzip⟩

/-- Every first element has a partner in lists of one length. -/
theorem exists_zip_of_mem_left {β γ : Type} {xs : List β} {ys : List γ} {x : β}
    (hlength : xs.length = ys.length) (hmem : x ∈ xs) : ∃ y, (x, y) ∈ xs.zip ys := by
  rw [← List.map_fst_zip (Nat.le_of_eq hlength)] at hmem
  obtain ⟨⟨_, y⟩, hzip, rfl⟩ := List.mem_map.mp hmem
  exact ⟨y, hzip⟩

/-- One entry with a reserved name refuses the batch before its call. -/
theorem refuses_createAll_of_reserves (hmem : attributes ∈ batch)
    (hreserves : Document.reserves attributes = true) : Refuses (createAll table keys batch) a := by
  by_cases hlength : keys.length = batch.length
  · refine refuses_lift_bind fun _ _ => refuses_lift_bind fun ids hids => refuses_bind ?_
    have hids := length_of_mapM hids
    obtain ⟨id, hzip⟩ := exists_zip_of_mem_right (hids.trans hlength) hmem
    exact refuses_mapM (fun entry : String × Fields => Document.enclose table entry.1 entry.2)
      (fun _ => rfl) hzip fun _ => not_enclose_of_reserves hreserves
  · exact ⟨_, createAll_of_length_ne hlength⟩

/-- Attributes that use a reserved name make no replacement. -/
theorem not_replacement_of_reserves {id : String} {doc : Document}
    (hreserves : Document.reserves attributes = true) :
    replacement table id attributes rev ≠ .ok doc := by
  intro hreplacement
  obtain ⟨name, henclose⟩ := Document.enclose_of_reserves table id hreserves
  rw [replacement, henclose] at hreplacement
  cases hreplacement

/-- One replacement with a reserved name refuses the batch before its call. -/
theorem refuses_updateAll_of_reserves (hmem : attributes ∈ batch)
    (hreserves : Document.reserves attributes = true) :
    Refuses (updateAll table keys batch revs) a := by
  by_cases hlengths : keys.length = batch.length ∧ keys.length = revs.length
  · obtain ⟨hbatch, hrevs⟩ := hlengths
    refine refuses_lift_bind fun _ _ => refuses_lift_bind fun _ _ => ?_
    cases hfirst : firstWithoutRevision? keys revs with
    | some key => exact ⟨_, rfl⟩
    | none =>
      refine refuses_lift_bind fun ids hids => refuses_bind ?_
      have hids := length_of_mapM hids
      obtain ⟨id, hpair⟩ := exists_zip_of_mem_right (hids.trans hbatch) hmem
      have hlength : (ids.zip batch).length = revs.length := by
        rw [List.length_zip, hids, ← hbatch, Nat.min_self, hrevs]
      obtain ⟨rev, hzip⟩ := exists_zip_of_mem_left hlength hpair
      exact refuses_mapM
        (fun entry : (String × Fields) × Option String =>
          replacement table entry.1.1 entry.1.2 entry.2)
        (fun _ => rfl) hzip fun _ => not_replacement_of_reserves hreserves
  · exact ⟨_, updateAll_of_length_ne (Classical.not_and_iff_not_or_not.mp hlengths)⟩

/-- A record without a revision is noticed, unless the lists do not even fit together. -/
theorem refuses_updateAll_of_missing (hmem : none ∈ revs) :
    Refuses (updateAll table keys batch revs) a := by
  by_cases hlengths : keys.length = batch.length ∧ keys.length = revs.length
  · refine refuses_lift_bind fun _ _ => refuses_lift_bind fun _ _ => ?_
    cases hfirst : firstWithoutRevision? keys revs with
    | some key => exact ⟨_, rfl⟩
    | none =>
      obtain ⟨key, hzip⟩ := exists_zip_of_mem_right hlengths.2 hmem
      exact absurd rfl (List.find?_eq_none.mp (Option.map_eq_none_iff.mp hfirst) _ hzip)
  · exact ⟨_, updateAll_of_length_ne (Classical.not_and_iff_not_or_not.mp hlengths)⟩

end Adapter

namespace Model

open Adapter

variable {α : Type} {a : Adapter} {x : α} {xs : List α} {attributes : Fields}
  {batch : List Fields}

/-! ## What can be wrong with a model -/

/-- A model that cannot be created: it is not valid or does not make an object, one of its
    attributes has a name that belongs to the store, or it has no key and there is no sequence. -/
inductive CreationFault (m : Model α) (x : α) : Prop
  | rejected {e : Error} (hattributes : m.validAttributes x = .error e)
  | reservedName {attributes : Fields} (hattributes : m.validAttributes x = .ok attributes)
      (hreserves : Document.reserves attributes = true)
  | keyless {attributes : Fields} (hattributes : m.validAttributes x = .ok attributes)
      (hkey : m.keyOf? attributes = none) (hsequence : m.schema.primaryKey.sequence = none)

/-- A model that cannot replace its record: as before, but a sequence does not help, and the
    revision has to be one that is remembered. -/
inductive ReplacementFault (m : Model α) (revisions : RevisionTable) (x : α) : Prop
  | rejected {e : Error} (hattributes : m.validAttributes x = .error e)
  | reservedName {attributes : Fields} (hattributes : m.validAttributes x = .ok attributes)
      (hreserves : Document.reserves attributes = true)
  | keyless {attributes : Fields} (hattributes : m.validAttributes x = .ok attributes)
      (hkey : m.keyOf? attributes = none)
  | unseen {attributes : Fields} {key : Key} (hattributes : m.validAttributes x = .ok attributes)
      (hkey : m.keyOf? attributes = some key) (hrev : m.revision? key revisions = none)

/-- Some of the attributes want a key from the sequence, while some have a name that belongs to the
    store. -/
structure DrawsForReserved (m : Model α) (batch : List Fields) : Prop where
  sequence : m.schema.primaryKey.sequence ≠ none
  keyless : ∃ attributes ∈ batch, m.keyOf? attributes = none
  reserved : ∃ attributes ∈ batch, Document.reserves attributes = true

/-- A creation of valid attributes can still fail by a reserved name or for want of a key. -/
theorem CreationFault.of_valid {m : Model α} (hfault : m.CreationFault x)
    (hvalid : m.validAttributes x = .ok attributes) : Document.reserves attributes = true ∨
      (m.keyOf? attributes = none ∧ m.schema.primaryKey.sequence = none) := by
  cases hfault with
  | rejected hattributes => cases hattributes.symm.trans hvalid
  | reservedName hattributes hreserves =>
    cases hattributes.symm.trans hvalid
    exact Or.inl hreserves
  | keyless hattributes hkey hsequence =>
    cases hattributes.symm.trans hvalid
    exact Or.inr ⟨hkey, hsequence⟩

/-- A replacement of valid attributes can still fail by a name, a key or a revision. -/
theorem ReplacementFault.of_valid {m : Model α} {revisions : RevisionTable}
    (hfault : m.ReplacementFault revisions x) (hvalid : m.validAttributes x = .ok attributes) :
    Document.reserves attributes = true ∨ m.keyOf? attributes = none ∨
      ∃ key, m.keyOf? attributes = some key ∧ m.revision? key revisions = none := by
  cases hfault with
  | rejected hattributes => cases hattributes.symm.trans hvalid
  | reservedName hattributes hreserves =>
    cases hattributes.symm.trans hvalid
    exact Or.inl hreserves
  | keyless hattributes hkey =>
    cases hattributes.symm.trans hvalid
    exact Or.inr (Or.inl hkey)
  | unseen hattributes hkey hrev =>
    cases hattributes.symm.trans hvalid
    exact Or.inr (Or.inr ⟨_, hkey, hrev⟩)

/-! ## Keys -/

/-- Without reserved keys, every entry has to bring its own. -/
theorem assign_nil_eq_ok {m : Model α} {assigned : List (Key × Fields)}
    (hassign : m.assign [] batch = .ok assigned) :
    assigned.map Prod.snd = batch ∧ ∀ attributes ∈ batch, m.keyOf? attributes ≠ none := by
  induction batch generalizing assigned with
  | nil =>
    rw [assign] at hassign
    cases hassign
    exact ⟨rfl, List.forall_mem_nil _⟩
  | cons attributes rest ih =>
    unfold assign at hassign
    cases hkey : m.keyOf? attributes with
    | none =>
      rw [hkey] at hassign
      cases hassign
    | some key =>
      simp only [hkey] at hassign
      cases hrest : m.assign [] rest with
      | error e =>
        rw [hrest] at hassign
        cases hassign
      | ok later =>
        rw [hrest] at hassign
        cases hassign
        obtain ⟨hlater, hkeys⟩ := ih hrest
        refine ⟨?_, List.forall_mem_cons.mpr ⟨?_, hkeys⟩⟩
        · rw [List.map_cons, hlater]
        · rw [hkey]
          exact Option.some_ne_none key

/-- Where no key is wanted from a sequence, keys are assigned without a call. -/
theorem assignKeys_of_not_drawn {m : Model α} (hdrawn : m.schema.primaryKey.sequence = none ∨
      ∀ attributes ∈ batch, m.keyOf? attributes ≠ none) :
    m.assignKeys batch = liftM (m.assign [] batch) := by
  have hreserve : m.reserve (batch.filter fun a => (m.keyOf? a).isNone).length = pure [] := by
    unfold reserve
    rcases hdrawn with hsequence | hkeys
    · rw [hsequence]
    · have hfilter : (batch.filter fun a => (m.keyOf? a).isNone) = [] :=
        List.filter_eq_nil_iff.mpr fun attributes hmem hnone =>
          hkeys attributes hmem (Option.isNone_iff_eq_none.mp hnone)
      rw [hfilter, List.length_nil]
      split <;> rfl
  rw [assignKeys, hreserve]
  rfl

/-- Whatever is done with keys that are assigned without a call, a fault stops it. -/
theorem refuses_assigned {m : Model α} {β : Type} {f : List (Key × Fields) → Action β}
    (hmem : attributes ∈ batch) (hfault : Document.reserves attributes = true ∨
      (m.keyOf? attributes = none ∧ m.schema.primaryKey.sequence = none))
    (hdraws : ¬m.DrawsForReserved batch)
    (hf : ∀ assigned, assigned.map Prod.snd = batch → Document.reserves attributes = true →
      Refuses (f assigned) a) :
    Refuses (m.assignKeys batch >>= f) a := by
  have hdrawn : m.schema.primaryKey.sequence = none ∨
      ∀ attributes ∈ batch, m.keyOf? attributes ≠ none := by
    by_cases hsequence : m.schema.primaryKey.sequence = none
    · exact Or.inl hsequence
    · refine Or.inr fun other hin hkey => ?_
      rcases hfault with hreserves | ⟨_, hnone⟩
      · exact hdraws ⟨hsequence, ⟨other, hin, hkey⟩, ⟨attributes, hmem, hreserves⟩⟩
      · exact hsequence hnone
  rw [assignKeys_of_not_drawn hdrawn]
  refine refuses_lift_bind fun assigned hassign => ?_
  obtain ⟨hbatch, hkeys⟩ := assign_nil_eq_ok hassign
  rcases hfault with hreserves | ⟨hkey, _⟩
  · exact hf assigned hbatch hreserves
  · exact absurd hkey (hkeys attributes hmem)

/-! ## Operations -/

/-- A faulty creation makes no call, unless it drew a key for a reserved name. -/
theorem refuses_create {m : Model α} (hfault : m.CreationFault x)
    (hdraws : ∀ attributes, m.validAttributes x = .ok attributes →
      ¬m.DrawsForReserved [attributes]) : Refuses (m.create x) a := by
  refine refuses_lift_bind fun attributes hvalid => ?_
  refine refuses_assigned (List.mem_singleton.mpr rfl) (hfault.of_valid hvalid)
    (hdraws attributes hvalid) fun assigned hbatch hreserves => ?_
  cases assigned with
  | nil => cases hbatch
  | cons entry rest =>
    obtain ⟨hentry, _⟩ := List.cons.inj hbatch
    subst hentry
    exact refuses_bind (refuses_create_of_reserves hreserves)

/-- One faulty creation refuses the batch, unless it drew keys for a reserved name. -/
theorem refuses_createAll {m : Model α} (hmem : x ∈ xs) (hfault : m.CreationFault x)
    (hdraws : ∀ batch, m.validBatch xs = .ok batch → ¬m.DrawsForReserved batch) :
    Refuses (m.createAll xs) a := by
  refine refuses_lift_bind fun batch hbatch => ?_
  obtain ⟨attributes, hin, hvalid⟩ := mem_of_mapM hbatch hmem
  refine refuses_assigned hin (hfault.of_valid hvalid) (hdraws batch hbatch)
    fun assigned hassigned hreserves => refuses_bind ?_
  rw [hassigned]
  exact refuses_createAll_of_reserves hin hreserves

/-- A faulty replacement makes no call. -/
theorem refuses_update {m : Model α} (hfault : m.ReplacementFault a.revisions x) :
    Refuses (m.update x) a := by
  refine refuses_lift_bind fun attributes hvalid => refuses_lift_bind fun key hkey => ?_
  rw [Refuses, get_bind]
  refine refuses_bind ?_
  rcases hfault.of_valid hvalid with hreserves | hnone | ⟨own, hown, hrev⟩
  · exact refuses_update_of_reserves hreserves
  · rw [keyOf, hnone] at hkey
    cases hkey
  · rw [keyOf, hown] at hkey
    cases hkey
    rw [hrev]
    exact ⟨_, rfl⟩

/-- One faulty replacement refuses the batch. -/
theorem refuses_updateAll {m : Model α} (hmem : x ∈ xs)
    (hfault : m.ReplacementFault a.revisions x) : Refuses (m.updateAll xs) a := by
  refine refuses_lift_bind fun batch hbatch => refuses_lift_bind fun keys hkeys => ?_
  rw [Refuses, get_bind]
  refine refuses_bind ?_
  obtain ⟨attributes, hin, hvalid⟩ := mem_of_mapM hbatch hmem
  obtain ⟨key, hkeyIn, hkey⟩ := mem_of_mapM hkeys hin
  rcases hfault.of_valid hvalid with hreserves | hnone | ⟨own, hown, hrev⟩
  · exact refuses_updateAll_of_reserves hin hreserves
  · rw [keyOf, hnone] at hkey
    cases hkey
  · rw [keyOf, hown] at hkey
    cases hkey
    exact refuses_updateAll_of_missing (List.mem_map.mpr ⟨key, hkeyIn, hrev⟩)

/-- Faults of the input are found before any call. A creation or a replacement with a faulty model
    fails and leaves the whole adapter as it is, its log of calls included; only where a key is to
    be drawn for models with a reserved attribute name nothing is said. And so do lists of
    different lengths. -/
theorem input_faults_found_before_calls (m : Model α) (a : Adapter) :
    (∀ x, m.CreationFault x →
      (∀ attributes, m.validAttributes x = .ok attributes → ¬m.DrawsForReserved [attributes]) →
        Refuses (m.create x) a) ∧
    (∀ xs, (∃ x ∈ xs, m.CreationFault x) →
      (∀ batch, m.validBatch xs = .ok batch → ¬m.DrawsForReserved batch) →
        Refuses (m.createAll xs) a) ∧
    (∀ x, m.ReplacementFault a.revisions x → Refuses (m.update x) a) ∧
    (∀ xs, (∃ x ∈ xs, m.ReplacementFault a.revisions x) → Refuses (m.updateAll xs) a) ∧
    (∀ table keys batch, keys.length ≠ batch.length →
      Adapter.createAll table keys batch a = (.error .lengthMismatch, a)) ∧
    (∀ table keys batch revs, keys.length ≠ batch.length ∨ keys.length ≠ revs.length →
      Adapter.updateAll table keys batch revs a = (.error .lengthMismatch, a)) :=
  ⟨fun _ hfault hdraws => refuses_create hfault hdraws,
    fun _ ⟨_, hmem, hfault⟩ hdraws => refuses_createAll hmem hfault hdraws,
    fun _ hfault => refuses_update hfault,
    fun _ ⟨_, hmem, hfault⟩ => refuses_updateAll hmem hfault,
    fun _ _ _ hne => createAll_of_length_ne hne,
    fun _ _ _ _ hne => updateAll_of_length_ne hne⟩

end Model

/-- Tickets that are JSON values and get their numbers from a sequence. -/
def ticketModel : Model Json :=
  .plain { table := "t", primaryKey := ⟨"id", .number, some {}⟩ } [] []

/-- A ticket with a reserved name is refused before any call where it has a number, and an update
    of a ticket that was never seen is, too. -/
theorem input_faults_found_before_calls_ticketModel :
    let a := Adapter.ofStore (MemoryStore.fresh fun _ _ => 0) {}
    Refuses (ticketModel.create (.obj [("_x", .bool true), ("id", .str "7")])) a ∧
      Refuses (ticketModel.updateAll [.obj [("id", .str "7")]]) a := by
  intro a
  obtain ⟨hcreate, _, _, hupdateAll, _⟩ := Model.input_faults_found_before_calls ticketModel a
  refine ⟨hcreate _ (.reservedName rfl (by decide)) ?_,
    hupdateAll _ ⟨_, List.mem_singleton.mpr rfl, .unseen rfl rfl rfl⟩⟩
  rintro attributes hvalid ⟨_, ⟨other, hmem, hkey⟩, _⟩
  cases hvalid
  cases List.mem_singleton.mp hmem
  cases hkey

/-- A ticket without a number draws one before its reserved name is noticed: the creation fails, and
    the counter has moved. -/
theorem counter_moved_by_reservedName :
    let x := Json.obj [("_x", .bool true)]
    let a := Adapter.ofStore (MemoryStore.fresh fun _ _ => 0) {}
    ticketModel.CreationFault x ∧
      (ticketModel.create x a).1 = .error (.attributeReserved "_x" "t") ∧
      (ticketModel.create x a).2.connection.log.map Call.primitive = [.get, .insert] ∧
      a.documents.keys = [] ∧
      (ticketModel.create x a).2.documents.keys = ["??sequence__t_id"] := by
  intro x a
  refine ⟨.reservedName rfl (by decide), ?_, ?_, rfl, ?_⟩
  · rfl
  · decide +kernel
  · decide +kernel

end DocMapper
