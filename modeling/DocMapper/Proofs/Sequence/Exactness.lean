import DocMapper.Proofs.Sequence.Counting

/-!
# Exact arithmetic

A request is exact if the numbers that it stores and issues are those of the integers, or if it
fails with an error and writes nothing. Counting ends where 128 bits do not hold a distance or a
sum, and of the numbers that are issued only the last is looked at before the counter is written.
Main statement: what that comes to.
-/

namespace DocMapper.Sequence

open DocMapper.Action Adapter MemoryStore

variable {s : Sequence} {n m : Signed 128} {count k : Nat} {a b : Adapter} {rev : Option String}
  {request : Request} {e : Error}

/-- The sequence as it goes on from a number. -/
def goingOn (s : Sequence) (n : Signed 128) : Sequence := { s with startWith := n }

/-- The numbers of the next keys are all in the range of the sequence's kind. -/
def Covers (s : Sequence) (n : Signed 128) (count : Nat) : Prop :=
  ((s.goingOn n).keyAt 1).isSome ∧ ((s.goingOn n).keyAt count).isSome

/-- From a number on, the request leaves the counter at the last of the next keys. -/
def Request.Stores (s : Sequence) (n : Signed 128) (request : Request) (a : Adapter) : Prop :=
  ∃ last later, last.val = (s.goingOn n).nth request.size ∧
    (request.run s a).2.documents.get? s.counterId =
      some (Document.kept sequenceTable s.counterId (s.entry last) later)

/-- From a number on, the request is exact: it issues the next keys and leaves the counter at the
    last of them, or it fails with an error and all documents are as before. The end of a count is
    no error. -/
def Request.Exact (s : Sequence) (n : Signed 128) (request : Request) (a : Adapter) : Prop :=
  (∃ keys, (request.run s a).1 = .ok keys ∧
    keys.map some = (List.range request.size).map (fun i => (s.goingOn n).keyAt (i + 1)) ∧
      (request.size = 0 ∧ (request.run s a).2.documents = a.documents ∨ request.Stores s n a)) ∨
  (∃ e, (request.run s a).1 = .error e ∧ e.kind ≠ .overflow) ∧
    (request.run s a).2.documents = a.documents

theorem val_eq_nth (s : Sequence) (n : Signed 128) : n.val = (s.goingOn n).nth 0 := by
  simp [nth, goingOn]

/-- If the first and the last number are in range, so are all between them. -/
theorem Covers.isSome_keyAt (hcovers : s.Covers n count) {i : Nat} (hi : i < count) :
    ((s.goingOn n).keyAt (i + 1)).isSome := by
  have hend : ((s.goingOn n).keyAt (1 + (count - 1))).isSome := by
    rw [Nat.add_sub_cancel' (Nat.one_le_of_lt hi)]
    exact hcovers.2
  rw [Nat.add_comm i 1]
  exact isSome_keyAt_of_between hcovers.1 hend (Nat.le_sub_one_of_lt hi)

/-- No key can be made of a number out of range, and that is an error. -/
theorem keyOf_of_no_key (hval : m.val = s.nth k) (hkey : s.keyAt k = none) :
    ∃ e, s.keyOf m = .error e ∧ e.kind ≠ .overflow := by
  by_cases hkind : s.kind = .text
  · refine ⟨.sequenceKind s.name, ?_, fun hended => ?_⟩
    · rw [keyOf, hkind]
    · cases hended
  · refine ⟨_, keyOf_of_keyAt_none hkind hval hkey, fun hended => ?_⟩
    cases hended

/-- Where keys are made of the next numbers, one is made of the first. -/
theorem isSome_keyAt_of_mapM {keys : List Key} (hcount : 0 < count)
    (hkeys : (List.range count).mapM (fun i => s.keyAfter n (i + 1)) = .ok keys) :
    ((s.goingOn n).keyAt 1).isSome := by
  obtain ⟨first, _, hfirst⟩ := mem_of_mapM hkeys (List.mem_range.mpr hcount)
  obtain ⟨m, hafter, hmade⟩ := exists_of_keyAfter hfirst
  cases hkey : (s.goingOn n).keyAt 1 with
  | some key => rfl
  | none =>
    have hm : m.val = (s.goingOn n).nth 1 := val_of_after hafter
    obtain ⟨e, herror, _⟩ := keyOf_of_no_key (s := s.goingOn n) hm hkey
    cases hmade.symm.trans herror

/-! ## Reservations -/

theorem run_of_advance_error (hrequest : request ≠ .current) (hsize : 0 < request.size)
    (hadvance : s.advance request.size a = (.error e, b)) :
    request.run s a = (.error e, b) := by
  cases request with
  | current => exact absurd rfl hrequest
  | next => exact bind_of_error (bind_of_error hadvance)
  | range count =>
    have hne : count ≠ 0 := Nat.ne_of_gt hsize
    rw [Request.run, range, if_neg hne]
    exact bind_of_error hadvance

/-- Once the counter has been moved, the keys that it has passed are made. -/
theorem run_of_advance (hrequest : request ≠ .current) (hsize : 0 < request.size)
    (hadvance : s.advance request.size a = (.ok n, b)) : request.run s a =
      ((List.range request.size).mapM fun i => s.keyAfter n (i + 1), b) := by
  cases request with
  | current => exact absurd rfl hrequest
  | next =>
    rw [Request.size] at hadvance
    have hnext : s.next a = (s.keyAfter n 1, b) := by
      rw [next, bind_of_ok hadvance]
      cases s.keyAfter n 1 <;> rfl
    have hkeys : (List.range Request.next.size).mapM (fun i => s.keyAfter n (i + 1)) =
        (s.keyAfter n 1).map ([·]) := by
      rw [Request.size, List.range_one, List.mapM_cons]
      cases s.keyAfter n 1 <;> rfl
    rw [hkeys]
    cases hkey : s.keyAfter n 1 with
    | ok key =>
      rw [hkey] at hnext
      exact bind_of_ok hnext
    | error e =>
      rw [hkey] at hnext
      exact bind_of_error hnext
  | range count =>
    have hne : count ≠ 0 := Nat.ne_of_gt hsize
    rw [Request.size] at hadvance ⊢
    rw [Request.run, range, if_neg hne, bind_of_ok hadvance]
    cases (List.range count).mapM fun i => s.keyAfter n (i + 1) <;> rfl

/-- Asking for no keys issues none and touches nothing. -/
theorem exact_of_size_zero (hrequest : request ≠ .current) (hsize : request.size = 0) (s : Sequence)
    (n : Signed 128) (a : Adapter) :
    request.Exact s n a ∧ (request.run s a).2.documents = a.documents := by
  cases request with
  | current => exact absurd rfl hrequest
  | next => cases hsize
  | range count =>
    cases hsize
    exact ⟨.inl ⟨[], rfl, rfl, .inl ⟨rfl, rfl⟩⟩, rfl⟩

section Counter

variable (hrequest : request ≠ .current) (hsize : 0 < request.size) (hunstaged : a.Unstaged)
  (hcounter : (s.counter a).1 = .ok (n, rev))

include hunstaged hcounter in
theorem counter_eq : s.counter a = (.ok (n, rev), a.served (.get s.counterId)) :=
  Prod.ext hcounter (s.counter_spec hunstaged).1

theorem reached_of_reaches (hreaches : s.Reaches n request.size) :
    ∃ m, s.after n request.size = .ok m ∧ m.val = (s.goingOn n).nth request.size :=
  after_of_reaches hreaches

include hrequest hsize hunstaged hcounter

/-- If counting ends, nothing is written, but nobody is told by an error. -/
theorem run_of_not_reaches (hreaches : ¬s.Reaches n request.size) :
    (∃ operation, (request.run s a).1 = .error (.overflow operation)) ∧
      (request.run s a).2.documents = a.documents ∧ ¬request.Exact s n a := by
  obtain ⟨operation, hafter⟩ := after_of_not_reaches hreaches
  have hadvance := advance_of_keyAfter_error (counter_eq hunstaged hcounter)
    (keyAfter_of_error hafter)
  have hrun := run_of_advance_error hrequest hsize hadvance
  refine ⟨⟨operation, by rw [hrun]⟩, by rw [hrun]; rfl, ?_⟩
  rintro (⟨keys, hanswer, _⟩ | ⟨⟨e, herror, hkind⟩, _⟩)
  · rw [hrun] at hanswer
    cases hanswer
  · rw [hrun] at herror
    cases herror
    exact hkind rfl

/-- If no key can be made of the number that is reached, nothing is written. -/
theorem run_of_no_key (hreaches : s.Reaches n request.size)
    (hkey : (s.goingOn n).keyAt request.size = none) :
    (∃ e, (request.run s a).1 = .error e ∧ e.kind ≠ .overflow) ∧
      (request.run s a).2.documents = a.documents := by
  obtain ⟨m, hafter, hm⟩ := reached_of_reaches hreaches
  obtain ⟨e, herror, hkind⟩ := keyOf_of_no_key (s := s.goingOn n) hm hkey
  have hadvance := advance_of_keyAfter_error (counter_eq hunstaged hcounter)
    ((keyAfter_of_ok hafter).trans herror)
  rw [run_of_advance_error hrequest hsize hadvance]
  exact ⟨⟨e, rfl, hkind⟩, rfl⟩

/-- If one can be made, the counter is left at that number, whatever comes of the others. -/
theorem run_of_key {key : Key} (hreaches : s.Reaches n request.size)
    (hkey : (s.goingOn n).keyAt request.size = some key) :
    (request.run s a).1 = (List.range request.size).mapM (fun i => s.keyAfter n (i + 1)) ∧
      (request.run s a).2.documents ≠ a.documents ∧ request.Stores s n a := by
  obtain ⟨m, hafter, hm⟩ := reached_of_reaches hreaches
  have hmade : s.keyOf m = .ok key := keyOf_of_keyAt (s := s.goingOn n) hm hkey
  obtain ⟨b, later, hadvance, hwrites, hkept⟩ := advance_of_counter (counter_eq hunstaged hcounter)
    (unstaged_served _ hunstaged) ((s.counter_spec hunstaged).2 n rev hcounter) hafter hmade
  have hrun := run_of_advance hrequest hsize hadvance
  refine ⟨by rw [hrun], fun hsame => ?_, m, later, hm, ?_⟩
  · rw [hrun] at hsame
    exact hwrites.get?_ne (congrArg (fun documents => documents.get? s.counterId) hsame)
  · rw [hrun]
    exact hkept

theorem exact_of_covers (hreaches : s.Reaches n request.size)
    (hcovers : s.Covers n request.size) : request.Exact s n a := by
  obtain ⟨key, hkey⟩ := Option.isSome_iff_exists.mp hcovers.2
  obtain ⟨hanswer, _, hstores⟩ := run_of_key hrequest hsize hunstaged hcounter hreaches hkey
  have hbetween : ∀ i < request.size, ((s.goingOn n).keyAt (0 + (i + 1))).isSome := by
    intro i hi
    rw [Nat.zero_add]
    exact hcovers.isSome_keyAt hi
  have hmade := mapM_keyAfter_of_isSome (s := s.goingOn n) hreaches hbetween (s.val_eq_nth n)
  simp only [Nat.zero_add] at hmade
  obtain ⟨keys, hmap, hkeys⟩ := hmade
  exact .inl ⟨keys, hanswer.trans hmap, hkeys, .inr hstores⟩

/-- A request that moves the counter is exact only if the first and the last number are in range:
    it cannot take back what it has written. -/
theorem covers_of_exact {key : Key} (hreaches : s.Reaches n request.size)
    (hkey : (s.goingOn n).keyAt request.size = some key) (hexact : request.Exact s n a) :
    s.Covers n request.size := by
  obtain ⟨_, hchanged, _⟩ := run_of_key hrequest hsize hunstaged hcounter hreaches hkey
  obtain ⟨keys, _, hkeys, _⟩ | ⟨_, hsame⟩ := hexact
  · have hfirst : (s.goingOn n).keyAt (0 + 1) ∈ keys.map some := by
      rw [hkeys]
      exact List.mem_map_of_mem (f := fun i => (s.goingOn n).keyAt (i + 1))
        (List.mem_range.mpr hsize)
    obtain ⟨issued, _, hissued⟩ := List.mem_map.mp hfirst
    refine ⟨?_, ?_⟩
    · rw [← Nat.zero_add 1, ← hissued]
      rfl
    · rw [hkey]
      rfl
  · exact absurd hsame hchanged

/-- Keys are answered only where the request is exact. -/
theorem exact_of_answered {keys : List Key} (hanswer : (request.run s a).1 = .ok keys) :
    request.Exact s n a := by
  by_cases hreaches : s.Reaches n request.size
  · cases hlast : (s.goingOn n).keyAt request.size with
    | none =>
      obtain ⟨⟨e, herror, _⟩, _⟩ := run_of_no_key hrequest hsize hunstaged hcounter hreaches hlast
      rw [herror] at hanswer
      cases hanswer
    | some last =>
      obtain ⟨hkeys, _⟩ := run_of_key hrequest hsize hunstaged hcounter hreaches hlast
      rw [hkeys] at hanswer
      have hfirst : ((s.goingOn n).keyAt 1).isSome :=
        isSome_keyAt_of_mapM hsize hanswer
      exact exact_of_covers hrequest hsize hunstaged hcounter hreaches
        ⟨hfirst, Option.isSome_of_mem hlast⟩
  · obtain ⟨⟨operation, hended⟩, _⟩ :=
      run_of_not_reaches hrequest hsize hunstaged hcounter hreaches
    rw [hended] at hanswer
    cases hanswer

end Counter

/-- A request for keys is exact, from whatever number the counter holds, if it asks for none, or if
    128 bits hold the distance of the last of them and its number, and either no key can be made of
    that number, or the first and the last are in the range of the kind. Otherwise it is not: the
    count ends, or the request fails after it has written the counter. Keys are only answered where
    the request is exact, and the counter is left alone or at the number of the integers; where the
    count ends nothing is written. Where the counter cannot be read, the request fails in the same
    way and changes nothing. Nothing is assumed of the document of the counter. -/
theorem reserves_exactly_iff (s : Sequence) (hunstaged : a.Unstaged)
    (hrequest : request ≠ .current) :
    (∀ e, (s.counter a).1 = .error e → 0 < request.size →
      (request.run s a).1 = .error e ∧ (request.run s a).2.documents = a.documents) ∧
    ∀ n rev, (s.counter a).1 = .ok (n, rev) →
      (request.Exact s n a ↔ request.size = 0 ∨ s.Reaches n request.size ∧
        ((s.goingOn n).keyAt request.size = none ∨ s.Covers n request.size)) ∧
      (∀ keys, (request.run s a).1 = .ok keys → request.Exact s n a) ∧
      ((request.run s a).2.documents = a.documents ∨ request.Stores s n a) ∧
      (0 < request.size → ¬s.Reaches n request.size →
        (∃ operation, (request.run s a).1 = .error (.overflow operation)) ∧
          (request.run s a).2.documents = a.documents) := by
  constructor
  · intro e hcounter hsize
    have hread : s.counter a = (.error e, a.served (.get s.counterId)) :=
      Prod.ext hcounter (s.counter_spec hunstaged).1
    rw [run_of_advance_error hrequest hsize (bind_of_error hread)]
    exact ⟨rfl, rfl⟩
  intro n rev hcounter
  rcases Nat.eq_zero_or_pos request.size with hzero | hsize
  · obtain ⟨hexact, hsame⟩ := exact_of_size_zero hrequest hzero s n a
    exact ⟨iff_of_true hexact (.inl hzero), fun _ _ => hexact, .inl hsame,
      fun hpos => absurd hzero (Nat.ne_of_gt hpos)⟩
  have hended := run_of_not_reaches hrequest hsize hunstaged hcounter
  suffices hcases : (request.Exact s n a ↔ s.Reaches n request.size ∧
      ((s.goingOn n).keyAt request.size = none ∨ s.Covers n request.size)) ∧
      ((request.run s a).2.documents = a.documents ∨ request.Stores s n a) by
    refine ⟨?_, fun keys => exact_of_answered hrequest hsize hunstaged hcounter, hcases.2,
      fun _ hfar => ⟨(hended hfar).1, (hended hfar).2.1⟩⟩
    rw [hcases.1, or_iff_right (Nat.ne_of_gt hsize)]
  by_cases hreaches : s.Reaches n request.size
  · cases hlast : (s.goingOn n).keyAt request.size with
    | none =>
      obtain ⟨hfails, hsame⟩ := run_of_no_key hrequest hsize hunstaged hcounter hreaches hlast
      exact ⟨iff_of_true (.inr ⟨hfails, hsame⟩) ⟨hreaches, .inl rfl⟩, .inl hsame⟩
    | some key =>
      obtain ⟨_, _, hstores⟩ := run_of_key hrequest hsize hunstaged hcounter hreaches hlast
      refine ⟨⟨fun hexact => ⟨hreaches, .inr ?_⟩, ?_⟩, .inr hstores⟩
      · exact covers_of_exact hrequest hsize hunstaged hcounter hreaches hlast hexact
      · rintro ⟨_, hnone | hcovers⟩
        · cases hnone
        · exact exact_of_covers hrequest hsize hunstaged hcounter hreaches hcovers
  · obtain ⟨_, hsame, hnot⟩ := hended hreaches
    exact ⟨iff_of_false hnot fun hexact => hreaches hexact.1, .inl hsame⟩

/-- An adapter of an empty store. -/
def untouched : Adapter := { connection := { store := fresh fun _ _ => 0 } }

theorem unstaged_untouched : untouched.Unstaged := rfl

theorem reserves_exactly_nearLimit :
    Request.Exact nearLimit nearLimit.startWith (.range 2) untouched := by
  have hcounter : (nearLimit.counter untouched).1 = .ok (nearLimit.startWith, none) := rfl
  have hreaches : nearLimit.Reaches nearLimit.startWith 2 :=
    ⟨⟨by decide, by decide⟩, by decide, by decide⟩
  have hcovers : nearLimit.Covers nearLimit.startWith 2 := ⟨by decide, by decide⟩
  have hrequest : Request.range 2 ≠ .current := nofun
  obtain ⟨_, hreserves⟩ := reserves_exactly_iff nearLimit unstaged_untouched hrequest
  exact (hreserves _ _ hcounter).1.mpr (.inr ⟨hreaches, .inr hcovers⟩)

/-- A sequence that starts at the largest number of 128 bits. -/
def topmost : Sequence where
  name := "top"
  kind := .bigInt
  startWith := Signed.wrap 128 170141183460469231731687303715884105727
  incrementBy := Signed.wrap 128 1

/-- A sequence of 64 bits that starts two numbers below them. -/
def below : Sequence where
  name := "below"
  kind := .number
  startWith := Signed.wrap 128 (-9223372036854775810)
  incrementBy := Signed.wrap 128 1

/-- Behind the largest number counting ends, without an error. A range that begins out of range and
    ends in it moves the counter and fails. -/
theorem requests_not_exact :
    (topmost.counter untouched).1 = .ok (topmost.startWith, none) ∧
      (Request.next.run topmost untouched).1 = .error (.overflow "add") ∧
      ¬Request.Exact topmost topmost.startWith .next untouched ∧
    (below.counter untouched).1 = .ok (below.startWith, none) ∧
      ((Request.range 3).run below untouched).1 =
        .error (.sequenceOverflow "below" (-9223372036854775809)) ∧
      ¬Request.Exact below below.startWith (.range 3) untouched := by
  have htop : (topmost.counter untouched).1 = .ok (topmost.startWith, none) := rfl
  have hbelow : (below.counter untouched).1 = .ok (below.startWith, none) := rfl
  have hnext : Request.next ≠ .current := nofun
  have hrange : Request.range 3 ≠ .current := nofun
  refine ⟨htop, rfl, ?_, hbelow, rfl, fun hexact => ?_⟩
  · have hfar : ¬topmost.Reaches topmost.startWith 1 := fun hreaches =>
      absurd hreaches.2.2 (by decide)
    exact (run_of_not_reaches hnext Nat.one_pos unstaged_untouched htop hfar).2.2
  · have hreaches : below.Reaches below.startWith 3 :=
      ⟨⟨by decide, by decide⟩, by decide, by decide⟩
    have hcovers := covers_of_exact hrange (Nat.succ_pos 2) unstaged_untouched hbelow hreaches rfl
      hexact
    exact absurd hcovers.1 (by decide)

end DocMapper.Sequence
