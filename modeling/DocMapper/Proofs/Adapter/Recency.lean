import DocMapper.Proofs.Adapter.RevisionTable
import DocMapper.Proofs.Dict.Entries
import DocMapper.Proofs.Dict.Order
import Mathlib.Data.List.Induction
import Mathlib.Data.List.Nodup

/-!
# The revision table as a recency list

A table of revisions keeps two indexes and a clock. What it remembers is simpler to say: a list,
the latest recording first, where a recorded id moves to the front and what exceeds the capacity
falls off the end. Main statement: whatever is recorded and forgotten, the table remembers what
this list does.
-/

namespace DocMapper

/-- What is done to a table of revisions. -/
inductive RevisionStep where
  | record (id rev : String)
  | forget (id : String)

/-- Since a recording of the one id the other one was not recorded. -/
def RecordedAfter (steps : List RevisionStep) (id other : String) : Prop :=
  ∃ before rev since, steps = before ++ .record id rev :: since ∧ ∀ rev, .record other rev ∉ since

/-- Revisions by document id in the order in which they were recorded, the latest first. -/
abbrev RecencyList := Dict String

namespace RecencyList

/-- Record a revision: its id moves to the front, and what exceeds the capacity falls off the
    end. -/
def record (capacity : Nat) (l : RecencyList) (id rev : String) : RecencyList :=
  ((id, rev) :: Dict.erase l id).take capacity

/-- Carry out a step. -/
def step (capacity : Nat) (l : RecencyList) : RevisionStep → RecencyList
  | .record id rev => record capacity l id rev
  | .forget id => Dict.erase l id

/-- The list after steps, from an empty one on. -/
def after (capacity : Nat) (steps : List RevisionStep) : RecencyList :=
  steps.foldl (step capacity) []

end RecencyList

/-! ## Recency lists -/

/-- An id stays recorded while other ids are recorded behind it. -/
theorem RecordedAfter.append {steps : List RevisionStep} {s : RevisionStep} {id other : String}
    (hrecorded : RecordedAfter steps id other) (hother : ∀ rev, s ≠ .record other rev) :
    RecordedAfter (steps ++ [s]) id other := by
  obtain ⟨before, rev, since, rfl, hsince⟩ := hrecorded
  refine ⟨before, rev, since ++ [s], by simp, fun rev hmem => ?_⟩
  rcases List.mem_append.mp hmem with hold | hnew
  · exact hsince rev hold
  · exact hother rev (List.mem_singleton.mp hnew).symm

namespace RecencyList

variable {capacity : Nat} {l : RecencyList} {id rev other kept : String}

/-- The list follows the table one step at a time. -/
theorem after_append (capacity : Nat) (steps : List RevisionStep) (s : RevisionStep) :
    after capacity (steps ++ [s]) = step capacity (after capacity steps) s := by
  simp [after]

/-- The list never outgrows its capacity. -/
theorem length_after_le (capacity : Nat) (steps : List RevisionStep) :
    (after capacity steps).length ≤ capacity := by
  induction steps using List.reverseRecOn with
  | nil => exact Nat.zero_le _
  | append_singleton steps s ih =>
    rw [after_append]
    cases s with
    | record id rev => exact List.length_take_le _ _
    | forget id => exact Nat.le_trans (List.length_filter_le _ _) ih

/-- What stands further in front has another id and was recorded later. -/
theorem pairwise_after (capacity : Nat) (steps : List RevisionStep) :
    (after capacity steps).Pairwise fun later earlier =>
      later.1 ≠ earlier.1 ∧ RecordedAfter steps later.1 earlier.1 := by
  induction steps using List.reverseRecOn with
  | nil => exact List.Pairwise.nil
  | append_singleton steps s ih =>
    rw [after_append]
    cases s with
    | record id rev =>
      have hothers : ∀ entry ∈ Dict.erase (after capacity steps) id, entry.1 ≠ id := fun _ hmem =>
        of_decide_eq_true (List.mem_filter.mp hmem).2
      apply List.Pairwise.sublist (List.take_sublist _ _)
      refine List.pairwise_cons.mpr ⟨fun entry hentry => ?_, ?_⟩
      · exact ⟨(hothers entry hentry).symm, steps, rev, [], rfl, by simp⟩
      · refine (ih.filter _).imp_of_mem fun _ hearlier hpair => ⟨hpair.1, hpair.2.append ?_⟩
        rintro _ heq
        cases heq
        exact hothers _ hearlier rfl
    | forget id =>
      exact (ih.filter _).imp fun hpair => ⟨hpair.1, hpair.2.append fun rev => by simp⟩

/-- A new id in a full list takes the place of the last entry. -/
theorem record_of_full {front : RecencyList} {last : String × String}
    (hnew : ∀ entry ∈ front ++ [last], entry.1 ≠ id) (hfull : (front ++ [last]).length = capacity) :
    record capacity (front ++ [last]) id rev = (id, rev) :: front := by
  have hall : Dict.erase (front ++ [last]) id = front ++ [last] :=
    List.filter_eq_self.mpr fun entry hentry => decide_eq_true (hnew entry hentry)
  rw [record, hall, ← hfull]
  simp

/-- Nothing is dropped but by the recording of a new id in a full list. -/
theorem full_of_dropped {value : String} (hlength : l.length ≤ capacity)
    (hmem : (other, value) ∈ l) (hlost : ¬∃ value, (other, value) ∈ record capacity l id rev) :
    l.length = capacity ∧ ∀ entry ∈ l, entry.1 ≠ id := by
  have hnoroom : ¬(Dict.erase l id).length + 1 ≤ capacity := by
    intro hroom
    apply hlost
    rw [record, List.take_of_length_le (by simpa using hroom)]
    by_cases heq : other = id
    · exact ⟨rev, by simp [heq]⟩
    · exact ⟨value, List.mem_cons_of_mem _ (List.mem_filter.mpr ⟨hmem, decide_eq_true heq⟩)⟩
  have hshorter : (Dict.erase l id).length ≤ l.length := List.length_filter_le _ _
  have hsame : (Dict.erase l id).length = l.length := by omega
  refine ⟨by omega, ?_⟩
  simpa [Dict.erase] using hsame

/-- When a recording drops another id, the list was full and its own id was not in the list. No
    other id is dropped, and those that stay were all recorded after the one that is dropped. -/
theorem dropped_by_record (steps : List RevisionStep)
    (hbefore : ∃ value, (other, value) ∈ after capacity steps)
    (hlost : ¬∃ value, (other, value) ∈ record capacity (after capacity steps) id rev) :
    (after capacity steps).length = capacity ∧
      (¬∃ value, (id, value) ∈ after capacity steps) ∧
      ∀ kept, kept ≠ other → (∃ value, (kept, value) ∈ after capacity steps) →
        (∃ value, (kept, value) ∈ record capacity (after capacity steps) id rev) ∧
          RecordedAfter steps kept other := by
  obtain ⟨value, hmem⟩ := hbefore
  obtain ⟨hfull, hnew⟩ := full_of_dropped (length_after_le capacity steps) hmem hlost
  have hpairwise := pairwise_after capacity steps
  refine ⟨hfull, fun ⟨value, hown⟩ => hnew _ hown rfl, ?_⟩
  obtain hempty | ⟨front, last, hlist⟩ := List.eq_nil_or_concat' (after capacity steps)
  · rw [hempty] at hmem
    cases hmem
  · rw [hlist] at hmem hlost hnew hfull hpairwise ⊢
    rw [record_of_full hnew hfull] at hlost ⊢
    -- The last entry is the only one that does not stay.
    obtain rfl : last = (other, value) := by
      rcases List.mem_append.mp hmem with hfront | hend
      · exact absurd ⟨value, List.mem_cons_of_mem _ hfront⟩ hlost
      · exact (List.mem_singleton.mp hend).symm
    rintro kept hkept ⟨kvalue, hentry⟩
    rcases List.mem_append.mp hentry with hfront | hend
    · have hpair := (List.pairwise_append.mp hpairwise).2.2 _ hfront _ (List.mem_singleton_self _)
      exact ⟨⟨kvalue, List.mem_cons_of_mem _ hfront⟩, hpair.2⟩
    · cases List.mem_singleton.mp hend
      exact absurd rfl hkept

end RecencyList

/-! ## Recordings that count -/

/-- A recording with its stamp. -/
structure Recording where
  stamp : Nat
  id : String
  rev : String

namespace Recording

/-- The entry by id. -/
def entry (r : Recording) : String × Nat × String := (r.id, r.stamp, r.rev)

/-- The place in the order of stamps. -/
def place (r : Recording) : Nat × String := (r.stamp, r.id)

/-- What is remembered of the recording. -/
def remembered (r : Recording) : String × String := (r.id, r.rev)

end Recording

namespace RevisionTable

/-- Both indexes consist of these recordings, the latest first. -/
structure Indexed (byId : Dict (Nat × String)) (order : List (Nat × String))
    (rs : List Recording) : Prop where
  ordered : Dict.Ordered byId
  perm : byId.Perm (rs.map Recording.entry)
  order_eq : order = (rs.map Recording.place).reverse
  latest_first : rs.Pairwise fun later earlier => earlier.stamp < later.stamp

variable {byId : Dict (Nat × String)} {order : List (Nat × String)} {rs : List Recording}
  {r s : Recording} {id rev : String} {stamp : Nat}

/-- The first index finds the recording of an id. -/
theorem Indexed.get?_eq_some_iff (hindexed : Indexed byId order rs) :
    byId.get? id = some (stamp, rev) ↔ ⟨stamp, id, rev⟩ ∈ rs := by
  have hentry : (id, stamp, rev) ∈ byId ↔ ⟨stamp, id, rev⟩ ∈ rs := by
    rw [hindexed.perm.mem_iff, List.mem_map]
    constructor
    · rintro ⟨⟨_, _, _⟩, hmem, heq⟩
      cases heq
      exact hmem
    · intro hmem
      exact ⟨_, hmem, rfl⟩
  rw [← hentry]
  exact ⟨Dict.mem_of_get?, Dict.get?_of_mem hindexed.ordered⟩

/-- An id has one recording. -/
theorem Indexed.eq_of_id_eq (hindexed : Indexed byId order rs) (hr : r ∈ rs) (hs : s ∈ rs)
    (hid : r.id = s.id) : r = s := by
  have hfirst := hindexed.get?_eq_some_iff.mpr hr
  have hsecond := hindexed.get?_eq_some_iff.mpr hs
  rw [hid, hsecond] at hfirst
  cases r
  cases s
  simp_all

/-- A stamp belongs to one recording. -/
theorem Indexed.eq_of_stamp_eq (hindexed : Indexed byId order rs) (hr : r ∈ rs) (hs : s ∈ rs)
    (hstamp : r.stamp = s.stamp) : r = s := by
  have hnodup : (rs.map Recording.stamp).Nodup :=
    List.pairwise_map.mpr (hindexed.latest_first.imp Nat.ne_of_gt)
  exact List.inj_on_of_nodup_map hnodup hr hs hstamp

/-- The second index lists the stamps of the recordings. -/
theorem Indexed.mem_order_iff (hindexed : Indexed byId order rs) :
    (stamp, id) ∈ order ↔ ∃ rev, (⟨stamp, id, rev⟩ : Recording) ∈ rs := by
  rw [hindexed.order_eq, List.mem_reverse, List.mem_map]
  constructor
  · rintro ⟨⟨_, _, rev⟩, hmem, heq⟩
    cases heq
    exact ⟨rev, hmem⟩
  · rintro ⟨rev, hmem⟩
    exact ⟨_, hmem, rfl⟩

theorem Indexed.length_eq (hindexed : Indexed byId order rs) : byId.length = rs.length := by
  rw [hindexed.perm.length_eq, List.length_map]

theorem mem_map_remembered :
    (id, rev) ∈ rs.map Recording.remembered ↔ ∃ stamp, (⟨stamp, id, rev⟩ : Recording) ∈ rs := by
  rw [List.mem_map]
  constructor
  · rintro ⟨⟨stamp, _, _⟩, hmem, heq⟩
    cases heq
    exact ⟨stamp, hmem⟩
  · rintro ⟨stamp, hmem⟩
    exact ⟨_, hmem, rfl⟩

/-- The entries by id answer look-ups as what is remembered of the recordings does. -/
theorem Indexed.map_get? (hindexed : Indexed byId order rs) (id : String) :
    (byId.get? id).map Prod.snd = Dict.get? (rs.map Recording.remembered) id := by
  ext rev
  constructor
  · intro hget
    obtain ⟨⟨stamp, _⟩, hentry, rfl⟩ := Option.map_eq_some_iff.mp hget
    have hmem := hindexed.get?_eq_some_iff.mp hentry
    obtain ⟨first, hfirst⟩ :=
      Dict.exists_get?_eq_some_iff.mpr ⟨_, mem_map_remembered.mpr ⟨stamp, hmem⟩⟩
    obtain ⟨other, hother⟩ := mem_map_remembered.mp (Dict.mem_of_get? hfirst)
    cases hindexed.eq_of_id_eq hmem hother rfl
    exact hfirst
  · intro hget
    obtain ⟨stamp, hmem⟩ := mem_map_remembered.mp (Dict.mem_of_get? hget)
    rw [hindexed.get?_eq_some_iff.mpr hmem]
    rfl

/-- Without an id, both indexes consist of the recordings of the other ids. -/
theorem Indexed.erase (hindexed : Indexed byId order rs) (id : String) :
    Indexed (byId.erase id) (order.filter fun place => place.2 ≠ id)
      (rs.filter fun r => r.id ≠ id) where
  ordered := hindexed.ordered.filter _
  perm := by
    have hperm := hindexed.perm.filter fun entry => decide (entry.1 ≠ id)
    rw [List.filter_map] at hperm
    exact hperm
  order_eq := by
    rw [hindexed.order_eq, List.filter_reverse, List.filter_map]
    rfl
  latest_first := hindexed.latest_first.filter _

/-- A recording with a later stamp than all others comes first, instead of an earlier one of its
    id. -/
theorem Indexed.insert (hindexed : Indexed byId order rs) (id rev : String)
    (hlater : ∀ r ∈ rs, r.stamp < stamp) :
    Indexed (byId.insert id (stamp, rev))
      ((order.filter fun place => place.2 ≠ id) ++ [(stamp, id)])
      (⟨stamp, id, rev⟩ :: rs.filter fun r => r.id ≠ id) where
  ordered := Dict.ordered_insert _ _ hindexed.ordered
  perm := (Dict.insert_perm _ _ hindexed.ordered).trans ((hindexed.erase id).perm.cons _)
  order_eq := by
    rw [(hindexed.erase id).order_eq, List.map_cons, List.reverse_cons]
    rfl
  latest_first := by
    refine List.pairwise_cons.mpr ⟨fun r hr => ?_, (hindexed.erase id).latest_first⟩
    exact hlater r (List.mem_filter.mp hr).1

/-- Eviction leaves as many of the latest recordings as the capacity allows. -/
theorem Indexed.evict (capacity : Nat) (hindexed : Indexed byId order rs) :
    Indexed (evict capacity byId order).1 (evict capacity byId order).2 (rs.take capacity) := by
  induction rs using List.reverseRecOn generalizing byId order with
  | nil =>
    have horder : order = [] := hindexed.order_eq
    rw [horder, RevisionTable.evict, List.take_nil, ← horder]
    exact hindexed
  | append_singleton rs oldest ih =>
    have horder : order = (oldest.stamp, oldest.id) :: (rs.map Recording.place).reverse := by
      rw [hindexed.order_eq]
      simp [Recording.place]
    have hlength : byId.length = rs.length + 1 := by
      rw [hindexed.length_eq, List.length_append, List.length_singleton]
    rw [horder, RevisionTable.evict]
    by_cases hfull : byId.length > capacity
    · rw [if_pos hfull, List.take_append_of_le_length (by omega)]
      apply ih
      -- Only the oldest recording is one of its id.
      have hothers : ∀ r ∈ rs, r.id ≠ oldest.id := by
        intro r hr hid
        have heq := hindexed.eq_of_id_eq (List.mem_append_left _ hr)
          (List.mem_append_right _ (List.mem_singleton_self _)) hid
        have hstamp := (List.pairwise_append.mp hindexed.latest_first).2.2 r hr oldest
          (List.mem_singleton_self _)
        rw [heq] at hstamp
        exact Nat.lt_irrefl _ hstamp
      have herase := hindexed.erase oldest.id
      have hrs : (rs ++ [oldest]).filter (fun r => r.id ≠ oldest.id) = rs := by
        rw [List.filter_append, List.filter_eq_self.mpr (by simpa using hothers)]
        simp
      rw [hrs] at herase
      have hplaces := herase.order_eq
      rwa [hplaces] at herase
    · rw [if_neg hfull, List.take_of_length_le (by simp; omega), ← horder]
      exact hindexed

/-! ## Steps of a table -/

/-- What a table keeps: these recordings, the latest first, none of them from the future and not
    more than the capacity allows. -/
structure Keeps (t : RevisionTable) (rs : List Recording) : Prop where
  indexed : Indexed t.byId t.order rs
  stamp_le : ∀ r ∈ rs, r.stamp ≤ t.clock
  length_le : rs.length ≤ t.capacity

variable {t : RevisionTable}

/-- The empty table keeps the empty list. -/
theorem keeps_empty (capacity : Nat) : Keeps { capacity } [] where
  indexed := ⟨List.Pairwise.nil, List.Perm.refl _, rfl, List.Pairwise.nil⟩
  stamp_le := by simp
  length_le := Nat.zero_le _

/-- To forget an id takes its entries from both indexes, whatever its stamp is. -/
theorem Keeps.forget_eq (hkeeps : t.Keeps rs) (id : String) :
    t.forget id = { t with
      byId := t.byId.erase id, order := t.order.filter fun place => place.2 ≠ id } := by
  have hindexed := hkeeps.indexed
  unfold forget
  cases hget : t.byId.get? id with
  | none =>
    have habsent : ∀ stamp rev, ⟨stamp, id, rev⟩ ∉ rs := by
      intro stamp rev hmem
      rw [hindexed.get?_eq_some_iff.mpr hmem] at hget
      cases hget
    have hbyId : t.byId.erase id = t.byId := by
      refine List.filter_eq_self.mpr ?_
      rintro ⟨other, stamp, rev⟩ hentry
      refine decide_eq_true ?_
      rintro rfl
      have hget := Dict.get?_of_mem hindexed.ordered hentry
      exact habsent stamp rev (hindexed.get?_eq_some_iff.mp hget)
    have horder : t.order.filter (fun place => place.2 ≠ id) = t.order := by
      refine List.filter_eq_self.mpr ?_
      rintro ⟨stamp, other⟩ hplace
      refine decide_eq_true ?_
      rintro rfl
      obtain ⟨rev, hmem⟩ := hindexed.mem_order_iff.mp hplace
      exact habsent stamp rev hmem
    rw [hbyId, horder]
  | some entry =>
    obtain ⟨stamp, rev⟩ := entry
    have hown := hindexed.get?_eq_some_iff.mp hget
    have horder : t.order.filter (fun place => place.1 ≠ stamp) =
        t.order.filter fun place => place.2 ≠ id := by
      refine List.filter_congr ?_
      rintro ⟨other, last⟩ hplace
      obtain ⟨old, hmem⟩ := hindexed.mem_order_iff.mp hplace
      refine decide_eq_decide.mpr (not_congr ⟨?_, ?_⟩)
      · intro hstamp
        cases hindexed.eq_of_stamp_eq hmem hown hstamp
        rfl
      · intro hid
        cases hindexed.eq_of_id_eq hmem hown hid
        rfl
    simp only [horder]

/-- Forgetting takes the recordings of the id out of the list. -/
theorem Keeps.forget (hkeeps : t.Keeps rs) (id : String) :
    (t.forget id).Keeps (rs.filter fun r => r.id ≠ id) := by
  rw [hkeeps.forget_eq]
  refine ⟨hkeeps.indexed.erase id, fun r hr => ?_, ?_⟩
  · exact hkeeps.stamp_le r (List.mem_filter.mp hr).1
  · exact Nat.le_trans (List.length_filter_le _ _) hkeeps.length_le

/-- Recording puts the id in front and cuts the list at the capacity. -/
theorem Keeps.record (hkeeps : t.Keeps rs) (id rev : String) :
    (t.record id rev).Keeps
      ((⟨t.clock + 1, id, rev⟩ :: rs.filter fun r => r.id ≠ id).take t.capacity) := by
  unfold RevisionTable.record
  by_cases hcapacity : t.capacity = 0
  · have hnone : rs = [] := List.length_eq_zero_iff.mp (by have := hkeeps.length_le; omega)
    rw [if_pos hcapacity, hcapacity, List.take_zero]
    subst hnone
    exact hkeeps
  · rw [if_neg hcapacity, hkeeps.forget_eq]
    have hlater : ∀ r ∈ rs, r.stamp < t.clock + 1 := fun r hr =>
      Nat.lt_succ_of_le (hkeeps.stamp_le r hr)
    refine ⟨(hkeeps.indexed.insert id rev hlater).evict t.capacity, fun r hr => ?_,
      List.length_take_le _ _⟩
    rcases List.mem_cons.mp (List.mem_of_mem_take hr) with rfl | hold
    · exact Nat.le_refl _
    · exact Nat.le_of_lt (hlater r (List.mem_filter.mp hold).1)

@[simp] theorem capacity_record (t : RevisionTable) (id rev : String) :
    (t.record id rev).capacity = t.capacity := by
  unfold RevisionTable.record
  split <;> rfl

@[simp] theorem capacity_forget (t : RevisionTable) (id : String) :
    (t.forget id).capacity = t.capacity := by
  unfold RevisionTable.forget
  split <;> rfl

/-- Carry out a step. -/
def step (t : RevisionTable) : RevisionStep → RevisionTable
  | .record id rev => t.record id rev
  | .forget id => t.forget id

/-- The table after steps, from an empty one on. -/
def after (capacity : Nat) (steps : List RevisionStep) : RevisionTable :=
  steps.foldl step { capacity }

theorem after_append (capacity : Nat) (steps : List RevisionStep) (s : RevisionStep) :
    after capacity (steps ++ [s]) = (after capacity steps).step s := by
  simp [after]

/-- After whatever steps the table keeps recordings of which the recency list is what is
    remembered. -/
theorem exists_keeps (capacity : Nat) (steps : List RevisionStep) :
    (after capacity steps).capacity = capacity ∧ ∃ rs, (after capacity steps).Keeps rs ∧
      rs.map Recording.remembered = RecencyList.after capacity steps := by
  induction steps using List.reverseRecOn with
  | nil => exact ⟨rfl, [], keeps_empty capacity, rfl⟩
  | append_singleton steps s ih =>
    obtain ⟨hcapacity, rs, hkeeps, hlist⟩ := ih
    rw [after_append, RecencyList.after_append, ← hlist]
    have herase : ∀ id, (rs.filter fun r => r.id ≠ id).map Recording.remembered =
        Dict.erase (rs.map Recording.remembered) id := by
      intro id
      rw [Dict.erase, List.filter_map]
      rfl
    cases s with
    | record id rev =>
      refine ⟨(capacity_record _ id rev).trans hcapacity, _, hkeeps.record id rev, ?_⟩
      rw [List.map_take, List.map_cons, herase, hcapacity]
      rfl
    | forget id =>
      exact ⟨(capacity_forget _ id).trans hcapacity, _, hkeeps.forget id, herase id⟩

/-- The table answers what the list does. -/
theorem get?_after (capacity : Nat) (steps : List RevisionStep) (id : String) :
    (after capacity steps).get? id = Dict.get? (RecencyList.after capacity steps) id := by
  obtain ⟨_, rs, hkeeps, hlist⟩ := exists_keeps capacity steps
  rw [← hlist]
  exact hkeeps.indexed.map_get? id

/-- An id is found if and only if the list still holds it. -/
theorem get?_after_ne_none_iff {capacity : Nat} {steps : List RevisionStep} {id : String} :
    (after capacity steps).get? id ≠ none ↔
      ∃ rev, (id, rev) ∈ RecencyList.after capacity steps := by
  rw [get?_after, Option.ne_none_iff_exists', Dict.exists_get?_eq_some_iff]

/-- The table remembers what the recency list does, whatever is recorded and forgotten and however
    much room there is, even none. Its two indexes are inverse to each other, with stamps in the
    order of the recordings, and it never grows beyond its capacity. A recording drops another id
    only where the table is full and its own id is new; then it drops one id alone, and all that
    stay were recorded after that one. -/
theorem refines_recencyList (capacity : Nat) (steps : List RevisionStep) :
    let t := after capacity steps
    let l := RecencyList.after capacity steps
    (∀ id, t.get? id = Dict.get? l id) ∧ t.size = l.length ∧ t.size ≤ capacity ∧
      (∀ stamp id, (stamp, id) ∈ t.order ↔ ∃ rev, t.byId.get? id = some (stamp, rev)) ∧
      t.order.Pairwise (fun earlier later => earlier.1 < later.1) ∧
      ∀ id rev other, t.get? other ≠ none → (t.record id rev).get? other = none →
        t.size = capacity ∧ t.get? id = none ∧
          ∀ kept, kept ≠ other → t.get? kept ≠ none →
            (t.record id rev).get? kept ≠ none ∧ RecordedAfter steps kept other := by
  intro t l
  obtain ⟨_, rs, hkeeps, hlist⟩ := exists_keeps capacity steps
  have hindexed := hkeeps.indexed
  have hsize : t.size = l.length := by
    rw [size, hindexed.length_eq, ← List.length_map Recording.remembered, hlist]
  refine ⟨get?_after capacity steps, hsize, hsize ▸ RecencyList.length_after_le capacity steps,
    fun stamp id => ?_, ?_, fun id rev other hbefore hlost => ?_⟩
  · rw [hindexed.mem_order_iff]
    exact exists_congr fun rev => hindexed.get?_eq_some_iff.symm
  · rw [hindexed.order_eq, List.pairwise_reverse]
    exact List.pairwise_map.mpr hindexed.latest_first
  · have hrecord : ∀ id', (t.record id rev).get? id' ≠ none ↔
        ∃ value, (id', value) ∈ RecencyList.record capacity l id rev := by
      intro id'
      have hafter : (after capacity (steps ++ [.record id rev])).get? id' ≠ none ↔
          ∃ value, (id', value) ∈ RecencyList.after capacity (steps ++ [.record id rev]) :=
        get?_after_ne_none_iff
      rwa [after_append, RecencyList.after_append] at hafter
    have hdropped := RecencyList.dropped_by_record steps (get?_after_ne_none_iff.mp hbefore)
      (mt (hrecord other).mpr (not_not.mpr hlost))
    obtain ⟨hfull, hnew, hstay⟩ := hdropped
    refine ⟨hsize.trans hfull, not_not.mp (mt get?_after_ne_none_iff.mp hnew), ?_⟩
    intro kept hne hkept
    obtain ⟨hentry, hrecorded⟩ := hstay kept hne (get?_after_ne_none_iff.mp hkept)
    exact ⟨(hrecord kept).mpr hentry, hrecorded⟩

/-- The first of two ids is recorded once more. -/
def crowdedSteps : List RevisionStep :=
  [.record "a" "1-a", .record "b" "1-b", .record "a" "2-a"]

/-- A third id takes the place of the second one, which was recorded before the first one was
    recorded again. -/
theorem refines_recencyList_crowdedSteps :
    let t := after 2 crowdedSteps
    (t.record "c" "1-c").get? "b" = none ∧ t.size = 2 ∧ t.get? "c" = none ∧
      (t.record "c" "1-c").get? "a" ≠ none ∧ RecordedAfter crowdedSteps "a" "b" := by
  intro t
  have hlost : (t.record "c" "1-c").get? "b" = none := by decide
  obtain ⟨_, _, _, _, _, hdropped⟩ := refines_recencyList 2 crowdedSteps
  obtain ⟨hfull, hnew, hstay⟩ := hdropped "c" "1-c" "b" (by decide) hlost
  obtain ⟨hkept, hrecorded⟩ := hstay "a" (by decide) (by decide)
  exact ⟨hlost, hfull, hnew, hkept, hrecorded⟩

end RevisionTable

end DocMapper
