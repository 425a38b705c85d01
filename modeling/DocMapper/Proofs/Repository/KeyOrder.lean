import DocMapper.Proofs.Condition.Absence
import DocMapper.Proofs.Key.Order
import DocMapper.Proofs.Repository.Listing
import DocMapper.Proofs.Sequence.Exactness
import Mathlib.Data.List.Pairwise
import Mathlib.Data.List.Sort

/-!
# Records in the order of generated keys

Records whose keys come from a sequence hold them in their JSON forms. Main statement: how integer
keys collate, and that a statement ordered by the primary key lists the records as they were
created where each key collates less than those after it; a filter on one of the keys then selects
the record of that key alone (`Creation.generated_keys_sort`).
-/

namespace DocMapper

open DocMapper.Action Adapter MemoryStore KeyedMap

/-! ## Selectors -/

namespace Selector

variable {attr : String}

/-- A table and a bound on an attribute ask for documents of the table with a value there. -/
theorem matches?_bindField_table (table : String) (hattr : IsAttribute attr)
    (hne : attr ≠ tableField) (doc : Document) :
    ((equals tableField (.str table)).bindField attr).matches? doc =
      .ok (decide (Dict.get? doc tableField = some (.str table)) &&
        (Dict.get? doc attr).any fun v => !v.isNull) := by
  have hplain : ∀ members, (equals tableField (.str table)).get? "$and" ≠ some (.arr members) := by
    intro members hmembers
    cases hmembers
  have hfree : (equals tableField (.str table)).constrains attr = false := by
    rw [constrains_of_no_conjunction hplain, equals, Dict.contains_singleton]
    exact decide_eq_false hne.symm
  have htable : evalClause doc tableField (.obj [("$eq", .str table)]) =
      .ok (decide (Dict.get? doc tableField = some (.str table))) :=
    (inTurn_answered _).symm.trans (Statement.matches?_equals_table table doc)
  have hbound := evalClause_bound hattr.2 doc
  rw [Condition.at?_of_isAttribute hattr] at hbound
  rw [bindField, hfree, if_neg Bool.false_ne_true, addClause_of_no_conjunction hplain]
  unfold matches? insert equals
  by_cases hlt : attr < tableField
  · rw [Dict.insert, if_pos hlt, Condition.eval_pair hbound htable, Bool.and_comm]
  · rw [Dict.insert, if_neg hlt, if_neg hne.symm]
    exact Condition.eval_pair htable hbound

/-- A filter for a value at an attribute asks for it beside the table. -/
theorem filtered_equal (table : String) (hattr : IsAttribute attr) (wanted : Json) :
    ∃ base, Statement.filtered table [.leaf attr .equal wanted] = .ok (base, []) ∧
      ∀ doc, base.matches? doc =
        .ok (decide (Dict.get? doc tableField = some (.str table)) &&
          (Dict.get? doc attr).any fun v => v.collate wanted == .eq) := by
  refine ⟨_, rfl, fun doc => ?_⟩
  have htable := Statement.matches?_equals_table table doc
  have hequal := matches?_equals (role_eq_attribute hattr.2) wanted doc
  rw [Condition.at?_of_isAttribute hattr] at hequal
  have hboth := (Condition.matches_group hequal htable).1
  refine (matches_joined (fun members hmembers => ?_) htable hboth).trans ?_
  · cases hmembers
    exact List.forall_mem_cons.mpr ⟨rfl, List.forall_mem_singleton.mpr rfl⟩
  · cases decide (Dict.get? doc tableField = some (.str table)) <;> simp

end Selector

/-! ## Records with their keys -/

/-- Documents that are in order already come in that order from a stable sort. -/
theorem MemoryStore.sublist_mergeSort {sort : List SortField} {docs hits : List Document}
    (hdocs : docs.Pairwise fun a b => compareBy a b sort = .lt) (hsub : docs ⊆ hits)
    (hids : hits.Pairwise IdBefore) :
    docs.Sublist (hits.mergeSort fun a b => compareBy a b sort != .gt) := by
  have horder : IsPreorder fun a b => compareBy a b sort := isPreorder_of_transCmp _
  have hnodup : docs.Nodup := hdocs.imp fun {a b} hless hsame => by
    rw [hsame, horder.refl] at hless
    cases hless
  have hmem : docs ⊆ hits.mergeSort fun a b => compareBy a b sort != .gt :=
    fun doc hdoc => List.mem_mergeSort.mpr (hsub hdoc)
  -- No two documents stand in this relation both ways round.
  have hantisymm : Std.Antisymm fun a b : Document =>
      compareBy a b sort = .lt ∨ compareBy a b sort = .eq ∧ IdBefore a b := by
    refine ⟨fun a b hab hba => ?_⟩
    rw [horder.swap] at hba
    cases hcmp : compareBy a b sort <;> rw [hcmp] at hab hba <;> simp at hab hba
    obtain ⟨i, j, ha, hb, hij⟩ := hab
    obtain ⟨k, l, hb', ha', hkl⟩ := hba
    cases ha.symm.trans ha'
    cases hb.symm.trans hb'
    exact absurd hkl (String.lt_asymm hij)
  exact List.sublist_of_subperm_of_pairwise (List.subperm_of_subset hnodup hmem)
    (hdocs.imp .inl) (pairwise_mergeSort_stable hids)

/-- The key of the first record collates less than that of the second. -/
def KeyLess (record other : Key × Document) : Prop :=
  record.1.toJson.collate other.1.toJson = .lt

namespace Model

/-- The document is a live record of the key, and holds it in its JSON form. -/
structure HoldsKey {α : Type} (m : Model α) (documents : Dict Document)
    (record : Key × Document) : Prop where
  isRecord : IsRecord m.schema.table (recordId m.schema.table record.1.toText) documents record.2
  get?_eq : Dict.get? record.2 m.keyField = some record.1.toJson

variable {α : Type} {m : Model α} {a : Adapter} {s : Statement} {limit : UInt64}
  {records : List (Key × Document)}

/-- A statement ordered by the primary key lists the records in their order, as long as there is an
    index for it and the limit is at least the number of live documents. -/
def ListsInOrder (m : Model α) (a : Adapter) (records : List (Key × Document)) : Prop :=
  ∀ s limit, s.AsksFor m.schema [] [⟨m.keyField, .asc⟩] limit →
    CoversSort a.connection.store.indexes [⟨m.keyField, .asc⟩] →
    a.connection.store.size ≤ limit.toNat →
      ∃ found, (m.execute s a).1 = m.outputIn (s.last? Clause.groupBy?) found ∧
        (found.map Document.id?).Nodup ∧ (records.map Prod.snd).Sublist found

/-- A filter for the key of one of the records selects it, and none of the others. -/
def SelectsAlone (m : Model α) (a : Adapter) (records : List (Key × Document)) : Prop :=
  ∀ record ∈ records, ∀ s limit,
    s.AsksFor m.schema [.leaf m.keyField .equal record.1.toJson] [] limit →
    a.connection.store.size ≤ limit.toNat →
      ∃ found, (m.execute s a).1 = m.outputIn (s.last? Clause.groupBy?) found ∧
        (found.map Document.id?).Nodup ∧ record.2 ∈ found ∧
        ∀ other ∈ records, other.2 ∈ found → other = record

theorem listsInOrder (hsound : Sound a) (hattr : IsAttribute m.keyField)
    (hne : m.keyField ≠ tableField) (hplain : Text.startsWith "_design/" m.schema.table = false)
    (hholds : ∀ record ∈ records, m.HoldsKey a.documents record)
    (hless : records.Pairwise KeyLess) : m.ListsInOrder a records := by
  intro s limit hasks hcovers hlimit
  have hmatching := matching_of_table a.documents
    (Selector.matches?_bindField_table m.schema.table hattr hne)
  refine ⟨_, execute_of_asksFor hsound.unstaged hasks hlimit rfl hcovers hmatching, ?_, ?_⟩
  · refine (((List.mergeSort_perm _ _).map _).nodup_iff).mpr ?_
    exact nodup_ids_of_matching hsound.kept hmatching
  · refine sublist_mergeSort ?_ ?_ ?_
    · refine List.pairwise_map.mpr (hless.imp_of_mem fun {record other} hrecord hother hless => ?_)
      rw [compareBy_lt_iff]
      refine ⟨[], ⟨m.keyField, .asc⟩, [], rfl, List.forall_mem_nil _, ?_⟩
      rw [Condition.at?_of_isAttribute hattr, Condition.at?_of_isAttribute hattr,
        (hholds record hrecord).get?_eq, (hholds other hother).get?_eq]
      exact hless
    · intro doc hdoc
      obtain ⟨record, hrecord, rfl⟩ := List.mem_map.mp hdoc
      refine List.mem_filter.mpr
        ⟨mem_ofTable_of_isRecord hsound.kept hplain (hholds record hrecord).isRecord, ?_⟩
      rw [(hholds record hrecord).get?_eq, Option.any_some, Key.toJson_ne_null]
      rfl
    · rw [(matching_eq_ok_iff.mp hmatching).2]
      exact hsound.kept.pairwise_selected _

theorem selectsAlone (hsound : Sound a) (hattr : IsAttribute m.keyField)
    (hplain : Text.startsWith "_design/" m.schema.table = false)
    (hholds : ∀ record ∈ records, m.HoldsKey a.documents record)
    (hless : records.Pairwise KeyLess) : m.SelectsAlone a records := by
  intro record hmem s limit hasks hlimit
  obtain ⟨base, hfiltered, hmatches⟩ :=
    Selector.filtered_equal m.schema.table hattr record.1.toJson
  have hmatching := matching_of_table a.documents hmatches
  refine ⟨_, execute_of_unordered hsound.unstaged hasks hlimit hfiltered hmatching,
    nodup_ids_of_matching hsound.kept hmatching, ?_, fun other hother hfound => ?_⟩
  · have hself : record.1.toJson.collate record.1.toJson = .eq := Std.ReflCmp.compare_self
    refine List.mem_filter.mpr
      ⟨mem_ofTable_of_isRecord hsound.kept hplain (hholds record hmem).isRecord, ?_⟩
    rw [(hholds record hmem).get?_eq, Option.any_some, hself]
    rfl
  · -- Keys of two records of the list do not collate equal.
    have hequal := (List.mem_filter.mp hfound).2
    rw [(hholds other hother).get?_eq, Option.any_some, beq_iff_eq] at hequal
    have hsymm : Std.Symm fun r s : Key × Document =>
        r.1.toJson.collate s.1.toJson = .eq → r = s :=
      ⟨fun r s hrs hsame => (hrs (Std.OrientedCmp.eq_symm hsame)).symm⟩
    have hapart : records.Pairwise fun r s => r.1.toJson.collate s.1.toJson = .eq → r = s :=
      hless.imp fun {r s} hless hsame => by
        rw [hless] at hsame
        cases hsame
    exact hapart.forall_of_forall (fun _ _ _ => rfl) hother hmem hequal

end Model

/-! ## Records that were created -/

namespace Sequence

variable {s : Sequence} {n : Signed 128} {a : Adapter} {keys : List Key} {key : Key} {i : Nat}

theorem int?_of_keyOf (hkey : s.keyOf n = .ok key) : key.int? = some n.val := by
  unfold keyOf at hkey
  cases hkind : s.kind with
  | text =>
    simp only [hkind] at hkey
    cases hkey
  | bigInt =>
    simp only [hkind] at hkey
    cases hkey
    rfl
  | number =>
    simp only [hkind] at hkey
    cases hsmall : Signed.ofInt? 64 n.val with
    | none =>
      rw [hsmall] at hkey
      cases hkey
    | some small =>
      rw [hsmall] at hkey
      cases hkey
      exact congrArg some (Signed.ofInt?_eq_some_iff.mp hsmall)

/-- A key so many steps after a number is that of the integer there. -/
theorem int?_of_keyAfter (hkey : s.keyAfter n i = .ok key) :
    key.int? = some (n.val + i * s.incrementBy.val) := by
  obtain ⟨m, hafter, hmade⟩ := exists_of_keyAfter hkey
  rw [int?_of_keyOf hmade, val_of_after hafter]

/-- Keys that are drawn from an increasing sequence increase. -/
theorem pairwise_smaller (hincreases : 0 < s.incrementBy.val) (hcontinues : s.Continues a keys) :
    keys.Pairwise Key.Smaller := by
  obtain rfl | ⟨n, rev, _, hkeys⟩ := hcontinues
  · exact List.Pairwise.nil
  · have hint : ∀ i (hi : i < keys.length),
        keys[i].int? = some (n.val + (i + 1 : Nat) * s.incrementBy.val) := by
      intro i hi
      obtain ⟨step, hstep, hkey⟩ := getElem?_of_mapM hkeys (List.getElem?_eq_getElem hi)
      rw [List.getElem?_range hi, Option.some.injEq] at hstep
      subst hstep
      exact int?_of_keyAfter hkey
    refine List.pairwise_iff_getElem.mpr fun i j hi hj hlt => ⟨_, _, hint i hi, hint j hj, ?_⟩
    have hsteps : ((i + 1 : Nat) : Int) < (j + 1 : Nat) := Int.ofNat_lt.mpr (Nat.succ_lt_succ hlt)
    exact Int.add_lt_add_left (Int.mul_lt_mul_of_pos_right hsteps hincreases) _

end Sequence

namespace Model

variable {α : Type} {m : Model α} {Lacks : Fields → Prop} {drawn : List Key} {batch : List Fields}
  {assigned : List (Key × Fields)} {documents : Dict Document}

/-- Where all models lack a key, they get those that were drawn, and hold them. -/
theorem Assigns.drawn_of_lacking (hassigns : m.Assigns Lacks drawn batch assigned)
    (hlacking : ∀ attributes ∈ batch, m.keyOf? attributes = none ∧ Dict.Ordered attributes) :
    assigned.map Prod.fst = drawn ∧ ∀ entry ∈ assigned,
      Dict.Ordered entry.2 ∧ entry.2.get? m.keyField = some entry.1.toJson := by
  induction hassigns with
  | done => exact ⟨rfl, List.forall_mem_nil _⟩
  | own hkey _ _ =>
    have hlacks := (List.forall_mem_cons.mp hlacking).1.1
    rw [hkey] at hlacks
    cases hlacks
  | next _ _ ih =>
    obtain ⟨⟨_, hordered⟩, hlater⟩ := List.forall_mem_cons.mp hlacking
    obtain ⟨hdrawn, hentries⟩ := ih hlater
    exact ⟨congrArg _ hdrawn, List.forall_mem_cons.mpr
      ⟨⟨Dict.ordered_insert _ _ hordered, Dict.get?_insert_self _ _ _⟩, hentries⟩⟩

end Model

namespace Creation

variable {α : Type}

/-- The smaller of two generated keys never collates after the larger one where both are JSON
    integers, and before it where they differ in double precision. A model without keys gets those
    that come in its sequence, which increase if the sequence does, and its records hold them.
    Whatever was done since, a statement ordered by the key lists records whose keys collate one
    below the other in this order, where there is an index for it, and a filter for one of the keys
    selects the record that has it alone. -/
theorem generated_keys_sort (m : Model α) :
    (∀ j k : Key, j.Smaller k → j.CollatesBelow k) ∧
      ∀ (c : Creation α) options a b ys batch, m.schema.primaryKey.sequence = some options →
        Sound a → c.run m a = (.ok ys, b) → m.validBatch c.models = .ok batch →
        (∀ attributes ∈ batch, m.keyOf? attributes = none ∧ Dict.Ordered attributes) →
        IsAttribute m.keyField → m.keyField ≠ tableField →
        Text.startsWith "_design/" m.schema.table = false →
          ∃ drawn, (m.sequenceOf options).Continues a drawn ∧ drawn.length = c.models.length ∧
            (0 < options.incrementBy.val → drawn.Pairwise Key.Smaller) ∧
            (∀ key ∈ drawn, ∃ doc, m.HoldsKey b.documents (key, doc)) ∧
            ∀ since records,
              (∀ record ∈ records, m.HoldsKey (runAll since b).documents record) →
              records.Pairwise KeyLess →
                m.ListsInOrder (runAll since b) records ∧
                m.SelectsAlone (runAll since b) records := by
  refine ⟨fun _ _ => Key.collatesBelow_of_smaller, ?_⟩
  intro c options a b ys batch hsequence hsound hrun hbatch hlacking hattr hne hplain
  obtain ⟨made, assigned, d, hmade, hassign, hkept⟩ := keepsEntry_of_run hsound.unstaged hrun
  cases hbatch.symm.trans hmade
  obtain ⟨drawn, hcontinues, hassigns⟩ := Model.assignKeys_eq_ok hsequence hassign
  obtain ⟨rfl, hentries⟩ := hassigns.drawn_of_lacking hlacking
  refine ⟨_, hcontinues, ?_, fun hincreases => Sequence.pairwise_smaller hincreases hcontinues,
    fun key hkey => ?_, fun since records hholds hless => ?_⟩
  · rw [List.length_map, Model.length_of_assignKeys hassign, length_of_mapM hbatch]
  · obtain ⟨entry, hentry, rfl⟩ := List.mem_map.mp hkey
    obtain ⟨rev, hreserves, hrecord⟩ := isRecord_of_keepsEntry (hkept entry hentry)
    obtain ⟨hordered, hget⟩ := hentries entry hentry
    exact ⟨_, hrecord, Document.get?_kept_of_attribute hreserves hordered hget hne⟩
  · have hlater := sound_runAll since (sound_of_run hsound hrun)
    exact ⟨Model.listsInOrder hlater hattr hne hplain hholds hless,
      Model.selectsAlone hlater hattr hplain hholds hless⟩

/-- A desk for tickets with an index on their numbers. -/
def indexedDesk : Adapter :=
  runAll [.others (.createIndex { index := { fields := [.str "id"] }, name := "byNumber" })]
    ticketDesk

/-- Two tickets without numbers. -/
def newTickets : Creation Json := .all [ticket .null, ticket .null]

/-- All tickets, by their numbers. -/
def ticketsByNumber : Statement :=
  ⟨[.target ticketModel.schema, .orderBy ⟨"id", .asc⟩, .limit 5]⟩

/-- The ticket with a number. -/
def ticketNumber (no : Key) : Statement :=
  ⟨[.target ticketModel.schema, .filter (.leaf "id" .equal no.toJson), .limit 5]⟩

/-- Two tickets get the numbers 1 and 2, are listed by them, and are found by them one at a time. -/
theorem generated_keys_sort_newTickets :
    ∃ b, ∃ records : List (Key × Document), newTickets.run ticketModel indexedDesk =
        (.ok [numberedTicket 1, numberedTicket 2], b) ∧
      records.map Prod.fst = [Key.number (Signed.wrap 64 1), .number (Signed.wrap 64 2)] ∧
      (∀ record ∈ records, ticketModel.HoldsKey b.documents record) ∧
      (∃ found, (ticketModel.execute ticketsByNumber b).1 = ticketModel.outputIn none found ∧
        (records.map Prod.snd).Sublist found) ∧
      ∀ record ∈ records, ∃ found,
        (ticketModel.execute (ticketNumber record.1) b).1 = ticketModel.outputIn none found ∧
          record.2 ∈ found ∧ ∀ other ∈ records, other.2 ∈ found → other = record := by
  have hanswer : (newTickets.run ticketModel indexedDesk).1 =
      .ok [numberedTicket 1, numberedTicket 2] := by
    decide +kernel
  have hdesk : Sound indexedDesk := sound_runAll _ (sound_ofStore _ _)
  have hcovers : CoversSort (newTickets.run ticketModel indexedDesk).2.connection.store.indexes
      [⟨"id", .asc⟩] := by decide +kernel
  have hsize : (newTickets.run ticketModel indexedDesk).2.connection.store.size ≤ 5 := by
    decide +kernel
  obtain ⟨b, hrun⟩ : ∃ b, newTickets.run ticketModel indexedDesk =
      (.ok [numberedTicket 1, numberedTicket 2], b) := ⟨_, Prod.fst_eq_iff.mp hanswer⟩
  rw [hrun] at hcovers hsize
  have hordered : Dict.Ordered [("id", Json.null)] := List.pairwise_singleton _ _
  obtain ⟨hbelow, hcreation⟩ := generated_keys_sort ticketModel
  obtain ⟨drawn, hcontinues, hlength, hsmaller, hholds, hlists⟩ :=
    hcreation newTickets {} indexedDesk _ _ [[("id", .null)], [("id", .null)]] rfl hdesk hrun rfl
      (List.forall_mem_cons.mpr ⟨⟨rfl, hordered⟩, List.forall_mem_singleton.mpr ⟨rfl, hordered⟩⟩)
      (by decide) (by decide) (by decide)
  have hstart : ((ticketModel.sequenceOf {}).counter indexedDesk).1 =
      .ok (Signed.wrap 128 0, none) := rfl
  have hpair := hsmaller (by decide)
  obtain rfl : drawn = [.number (Signed.wrap 64 1), .number (Signed.wrap 64 2)] := by
    obtain rfl | ⟨n, rev, hcounter, hkeys⟩ := hcontinues
    · cases hlength
    · have hmade : (List.range 2).mapM
          (fun i => (ticketModel.sequenceOf {}).keyAfter (Signed.wrap 128 0) (i + 1)) =
          .ok [.number (Signed.wrap 64 1), .number (Signed.wrap 64 2)] := by
        decide +kernel
      cases hstart.symm.trans hcounter
      rw [hlength] at hkeys
      exact Except.ok.inj (hkeys.symm.trans hmade)
  obtain ⟨first, hfirst⟩ := hholds _ List.mem_cons_self
  obtain ⟨second, hsecond⟩ := hholds _ (List.mem_cons_of_mem _ List.mem_cons_self)
  have hnumbers := (hbelow _ _ (List.pairwise_pair.mp hpair)).numbers _ _ rfl rfl
  have hboth : ∀ record ∈ [(Key.number (Signed.wrap 64 1), first), (.number (Signed.wrap 64 2),
      second)], ticketModel.HoldsKey _ record :=
    List.forall_mem_cons.mpr ⟨hfirst, List.forall_mem_singleton.mpr hsecond⟩
  obtain ⟨hordered, halone⟩ := hlists [] _ hboth
    (List.pairwise_pair.mpr (hnumbers.2.2 (by decide) (by decide)))
  obtain ⟨found, hfound, _, hsublist⟩ :=
    hordered ticketsByNumber 5 ⟨rfl, rfl, rfl, rfl, rfl, rfl, rfl⟩ hcovers hsize
  refine ⟨b, _, hrun, rfl, hboth, ⟨found, hfound, hsublist⟩, fun record hrecord => ?_⟩
  obtain ⟨found, hfound, _, hmem, hothers⟩ := halone record hrecord (ticketNumber record.1) 5
    ⟨rfl, rfl, rfl, rfl, rfl, rfl, rfl⟩ hsize
  exact ⟨found, hfound, hmem, hothers⟩

/-- Neighbours above 53 bits collate equal, and a key too low for 64 bits comes after the others. -/
theorem smaller_keys_not_below :
    (Key.number (Signed.wrap 64 9007199254740992)).Smaller
        (.number (Signed.wrap 64 9007199254740993)) ∧
      (Key.number (Signed.wrap 64 9007199254740992)).toJson.collate
        (Key.number (Signed.wrap 64 9007199254740993)).toJson = .eq ∧
      (Key.bigInt (Signed.wrap 128 (-9223372036854775809))).Smaller
        (.bigInt (Signed.wrap 128 1)) ∧
      (Key.bigInt (Signed.wrap 128 (-9223372036854775809))).toJson.collate
        (Key.bigInt (Signed.wrap 128 1)).toJson = .gt :=
  ⟨⟨_, _, rfl, rfl, by decide⟩, by decide +kernel, ⟨_, _, rfl, rfl, by decide⟩, by decide +kernel⟩

end Creation

end DocMapper
