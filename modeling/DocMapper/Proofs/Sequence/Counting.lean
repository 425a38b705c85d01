import DocMapper.Proofs.Sequence.Counter

/-!
# Counting without gaps

Handles to one sequence ask for numbers in turn, each through an adapter of its own. Over a whole
run the numbers are issued in order, none twice and none left out: a request gets the numbers that
come next, or else it gets none and leaves the counter where it was. The latter happens only where
one of these numbers is out of range, or counting so far ends for want of bits.
-/

namespace DocMapper.Sequence

open DocMapper.Action Adapter MemoryStore

/-! ## The numbers of a sequence -/

/-- The number that is so many steps from the start. -/
def nth (s : Sequence) (k : Nat) : Int := s.startWith.val + k * s.incrementBy.val

/-- How many bits a number of the sequence has. -/
def bits (s : Sequence) : Nat := if s.kind = .number then 64 else 128

/-- The key that is so many steps from the start. There is none where the number is out of the
    range of the sequence's kind. -/
def keyAt (s : Sequence) (k : Nat) : Option Key :=
  match s.kind with
  | .number => (Signed.ofInt? 64 (s.nth k)).map .number
  | .bigInt => (Signed.ofInt? 128 (s.nth k)).map .bigInt
  | .text => none

variable {s : Sequence} {n : Signed 128} {j k i count : Nat} {key : Key}

theorem nth_add (s : Sequence) (k i : Nat) : s.nth (k + i) = s.nth k + i * s.incrementBy.val := by
  simp only [nth, Int.natCast_add, Int.add_mul, Int.add_assoc]

/-- The numbers go one way, so what lies between two of them in range is in range. -/
theorem fits_nth_of_between {bits : Nat} (hfirst : Signed.Fits bits (s.nth k))
    (hlast : Signed.Fits bits (s.nth (k + count))) (hle : i ≤ count) :
    Signed.Fits bits (s.nth (k + i)) := by
  obtain ⟨rest, rfl⟩ := Nat.exists_eq_add_of_le hle
  rw [← Nat.add_assoc, nth_add s (k + i) rest] at hlast
  rw [nth_add] at hlast ⊢
  rcases Int.le_total 0 s.incrementBy.val with hup | hdown
  · have hhere := Int.mul_nonneg (Int.natCast_nonneg i) hup
    have hthere := Int.mul_nonneg (Int.natCast_nonneg rest) hup
    exact hfirst.between hlast (by omega) (by omega)
  · have hhere := Int.mul_nonpos_of_nonneg_of_nonpos (Int.natCast_nonneg i) hdown
    have hthere := Int.mul_nonpos_of_nonneg_of_nonpos (Int.natCast_nonneg rest) hdown
    exact hlast.between hfirst (by omega) (by omega)

/-- A place has a key if the form can hold its number. -/
theorem isSome_keyAt_iff :
    (s.keyAt k).isSome ↔ s.kind ≠ .text ∧ Signed.Fits s.bits (s.nth k) := by
  unfold keyAt bits
  cases hkind : s.kind with
  | text => simp
  | number => simp [Signed.isSome_ofInt?_iff]
  | bigInt => simp [Signed.isSome_ofInt?_iff]

/-- Between two places that have keys every place has one. -/
theorem isSome_keyAt_of_between (hfirst : (s.keyAt k).isSome)
    (hlast : (s.keyAt (k + count)).isSome) (hle : i ≤ count) : (s.keyAt (k + i)).isSome := by
  obtain ⟨hkind, hfirst⟩ := isSome_keyAt_iff.mp hfirst
  obtain ⟨_, hlast⟩ := isSome_keyAt_iff.mp hlast
  exact isSome_keyAt_iff.mpr ⟨hkind, fits_nth_of_between hfirst hlast hle⟩

theorem fits_of_keyAt (hkey : (s.keyAt k).isSome) : Signed.Fits 128 (s.nth k) := by
  obtain ⟨_, hfits⟩ := isSome_keyAt_iff.mp hkey
  unfold bits at hfits
  by_cases hkind : s.kind = .number
  · rw [if_pos hkind] at hfits
    exact ⟨Int.le_trans (by decide) hfits.1, Int.lt_of_lt_of_le hfits.2 (by decide)⟩
  · rw [if_neg hkind] at hfits
    exact hfits

/-- The number of a place is made into its key. -/
theorem keyOf_of_keyAt (hval : n.val = s.nth k) (hkey : s.keyAt k = some key) :
    s.keyOf n = .ok key := by
  unfold keyAt at hkey
  unfold keyOf
  cases hkind : s.kind with
  | text =>
    rw [hkind] at hkey
    cases hkey
  | number =>
    simp only [hkind, Option.map_eq_some_iff] at hkey
    obtain ⟨small, hsmall, rfl⟩ := hkey
    simp only [hval, hsmall]
  | bigInt =>
    simp only [hkind, Option.map_eq_some_iff] at hkey
    obtain ⟨same, hsame, rfl⟩ := hkey
    rw [← hval, Signed.ofInt?_val, Option.some.injEq] at hsame
    simp only [hsame]

/-- A number that the form cannot hold is an overflow. -/
theorem keyOf_of_keyAt_none (hkind : s.kind ≠ .text) (hval : n.val = s.nth k)
    (hkey : s.keyAt k = none) : s.keyOf n = .error (.sequenceOverflow s.name (s.nth k)) := by
  unfold keyAt at hkey
  unfold keyOf
  cases hcase : s.kind with
  | text => exact absurd hcase hkind
  | number =>
    simp only [hcase, Option.map_eq_none_iff] at hkey
    simp only [hval, hkey]
  | bigInt =>
    simp only [hcase, Option.map_eq_none_iff, ← hval, Signed.ofInt?_val] at hkey
    cases hkey

/-- Where the numbers stand so many steps from the start, so many further are reached if 128 bits
    hold their distance and the number behind them. -/
theorem reaches_iff (hval : n.val = s.nth k) :
    s.Reaches n i ↔ Signed.Fits 128 (i * s.incrementBy.val) ∧ Signed.Fits 128 (s.nth (k + i)) := by
  rw [Reaches, hval, nth_add]

/-- Fewer steps are no further away. -/
theorem fits_distance_of_le (hfits : Signed.Fits 128 (count * s.incrementBy.val)) (hle : i ≤ count) :
    Signed.Fits 128 (i * s.incrementBy.val) := by
  obtain ⟨rest, rfl⟩ := Nat.exists_eq_add_of_le hle
  have hzero : Signed.Fits 128 0 := ⟨by decide, by decide⟩
  rw [Int.natCast_add, Int.add_mul] at hfits
  rcases Int.le_total 0 s.incrementBy.val with hup | hdown
  · have hhere := Int.mul_nonneg (Int.natCast_nonneg i) hup
    have hthere := Int.mul_nonneg (Int.natCast_nonneg rest) hup
    exact hzero.between hfits hhere (by omega)
  · have hhere := Int.mul_nonpos_of_nonneg_of_nonpos (Int.natCast_nonneg i) hdown
    have hthere := Int.mul_nonpos_of_nonneg_of_nonpos (Int.natCast_nonneg rest) hdown
    exact hfits.between hzero (by omega) hhere

/-- The key of a number that is reached, if the number is in range. -/
theorem keyAfter_of_keyAt (hval : n.val = s.nth k) (hreaches : s.Reaches n i)
    (hkey : s.keyAt (k + i) = some key) : s.keyAfter n i = .ok key := by
  obtain ⟨m, hafter, hm⟩ := after_of_reaches hreaches
  rw [hval, ← nth_add] at hm
  rw [keyAfter_of_ok hafter]
  exact keyOf_of_keyAt hm hkey

/-! ## Requests -/

/-- What a handle can ask for. -/
inductive Request where
  | next
  | range (count : Nat)
  | current

/-- How many numbers a request reserves. -/
def Request.size : Request → Nat
  | .next => 1
  | .range count => count
  | .current => 0

/-- Ask for the keys of a request. -/
def Request.run (s : Sequence) : Request → Action (List Key)
  | .next => return [← s.next]
  | .range count => s.range count
  | .current => return [← s.current]

/-- A request, what came of it, and the counter before and after it. -/
structure Reply where
  request : Request
  answer : Except Error (List Key)
  before : Option Document
  after : Option Document

/-- What comes of a request that is made through an adapter. -/
def Reply.of (s : Sequence) (request : Request) (a : Adapter) : Reply where
  request := request
  answer := (request.run s a).1
  before := a.documents.get? s.counterId
  after := (request.run s a).2.documents.get? s.counterId

/-- The keys that a reply has reserved. -/
def Reply.issued (reply : Reply) : List Key :=
  match reply.request, reply.answer with
  | .current, _ => []
  | _, .ok keys => keys
  | _, .error _ => []

theorem Reply.issued_of_ok {reply : Reply} {keys : List Key} (hrequest : reply.request ≠ .current)
    (hanswer : reply.answer = .ok keys) : reply.issued = keys := by
  obtain ⟨request, answer, before, after⟩ := reply
  cases hanswer
  cases request with
  | current => exact absurd rfl hrequest
  | _ => rfl

theorem Reply.issued_of_error {reply : Reply} {e : Error} (hanswer : reply.answer = .error e) :
    reply.issued = [] := by
  obtain ⟨request, answer, before, after⟩ := reply
  cases hanswer
  cases request <;> rfl

/-- The keys that replies have reserved, one after another. -/
def issued (replies : List Reply) : List Key := replies.flatMap Reply.issued

/-- How a request for so many keys fails: one of the numbers is out of range, or counting ends where
    128 bits do not hold the distance of the numbers or the last of them. -/
inductive Fails (s : Sequence) (k count : Nat) : Error → Prop
  | outOfRange {i : Nat} (hi : i < count) (hnone : s.keyAt (k + i + 1) = none) :
    Fails s k count (.sequenceOverflow s.name (s.nth (k + count)))
  | outOfReach (operation : String) (hfar : ¬(Signed.Fits 128 (count * s.incrementBy.val) ∧
      Signed.Fits 128 (s.nth (k + count)))) : Fails s k count (.overflow operation)

/-- The reply is right where so many numbers have been issued. The current key is the last of them.
    A reservation gets the keys that come next, or it fails and leaves the counter as it was. -/
def Reply.Right (s : Sequence) (k : Nat) (reply : Reply) : Prop :=
  (reply.request = .current → ∃ key, s.keyAt k = some key ∧ reply.answer = .ok [key]) ∧
  (reply.request ≠ .current →
    (∃ keys, reply.answer = .ok keys ∧
      keys.map some = (List.range reply.request.size).map fun i => s.keyAt (k + i + 1)) ∨
    ((∃ e, s.Fails k reply.request.size e ∧ reply.answer = .error e) ∧
      reply.after = reply.before))

/-- A run of requests with the replies to them, from store to store. Every request is made through
    some adapter that has no schema for the table of the counters. In between, the store may change
    in any way that leaves the counter as it is. -/
inductive Counts (s : Sequence) : MemoryStore → List Reply → MemoryStore → Prop
  | done (store : MemoryStore) : Counts s store [] store
  | asked {a : Adapter} {later : List Reply} {store final : MemoryStore} (request : Request)
      (hstore : a.connection.store = store) (hunstaged : a.Unstaged)
      (hregistry : a.registry.get? sequenceTable = none)
      (hlater : Counts s (request.run s a).2.connection.store later final) :
      Counts s store (Reply.of s request a :: later) final
  | elsewhere {store changed final : MemoryStore} {replies : List Reply}
      (hsame : changed.documents.get? s.counterId = store.documents.get? s.counterId)
      (hlater : Counts s changed replies final) : Counts s store replies final

/-! ## One request -/

section Step

variable {a : Adapter} (hstands : s.Stands n a.documents) (hunstaged : a.Unstaged)
  (hregistry : a.registry.get? sequenceTable = none) (hval : n.val = s.nth k)

theorem Stands.isSome_keyAt {documents : Dict Document} (hstands : s.Stands n documents)
    (hval : n.val = s.nth k) : s.kind ≠ .text ∧ (s.keyAt k).isSome := by
  obtain ⟨key, hkey⟩ := hstands.key
  have hkind : s.kind ≠ .text := by
    intro htext
    rw [keyOf, htext] at hkey
    cases hkey
  refine ⟨hkind, ?_⟩
  cases hat : s.keyAt k with
  | some found => rfl
  | none =>
    rw [keyOf_of_keyAt_none hkind hval hat] at hkey
    cases hkey

/-- The keys of numbers that are reached can be made if all are in range. -/
theorem mapM_keyAfter_of_isSome (hreaches : s.Reaches n count)
    (hkeys : ∀ i < count, (s.keyAt (k + (i + 1))).isSome) (hval : n.val = s.nth k) :
    ∃ keys, (List.range count).mapM (fun i => s.keyAfter n (i + 1)) = .ok keys ∧
      keys.map some = (List.range count).map fun i => s.keyAt (k + i + 1) := by
  have hdistance := ((reaches_iff hval).mp hreaches).1
  have hmade : ∀ indices : List Nat, (∀ i ∈ indices, i < count) →
      ∃ keys, indices.mapM (fun i => s.keyAfter n (i + 1)) = .ok keys ∧
        keys.map some = indices.map fun i => s.keyAt (k + i + 1) := by
    intro indices hindices
    induction indices with
    | nil => exact ⟨[], rfl, rfl⟩
    | cons i rest ih =>
      obtain ⟨hi, hrest⟩ := List.forall_mem_cons.mp hindices
      obtain ⟨keys, hmap, heq⟩ := ih hrest
      have hsome := hkeys i hi
      obtain ⟨key, hkey⟩ := Option.isSome_iff_exists.mp hsome
      have hnear : s.Reaches n (i + 1) := (reaches_iff hval).mpr
        ⟨fits_distance_of_le hdistance (Nat.succ_le_of_lt hi), fits_of_keyAt hsome⟩
      refine ⟨key :: keys, ?_, ?_⟩
      · rw [List.mapM_cons, keyAfter_of_keyAt hval hnear hkey, hmap]
        rfl
      · rw [List.map_cons, List.map_cons, heq, ← hkey]
        rfl
  exact hmade (List.range count) fun i hi => List.mem_range.mp hi

/-- The keys up to a number in range can all be made. -/
theorem mapM_keyAfter (hreaches : s.Reaches n count) (hfirst : (s.keyAt k).isSome)
    (hlast : (s.keyAt (k + count)).isSome) (hval : n.val = s.nth k) :
    ∃ keys, (List.range count).mapM (fun i => s.keyAfter n (i + 1)) = .ok keys ∧
      keys.map some = (List.range count).map fun i => s.keyAt (k + i + 1) :=
  mapM_keyAfter_of_isSome hreaches
    (fun _ hi => isSome_keyAt_of_between hfirst hlast (Nat.succ_le_of_lt hi)) hval

include hstands hunstaged hregistry hval

/-- A reservation moves the counter by as many steps as it asks for keys, or it fails. -/
theorem Stands.advance (hpos : 0 < count) :
    (∃ b m, s.Reaches n count ∧ (s.keyAt (k + count)).isSome ∧ s.advance count a = (.ok n, b) ∧
      s.Stands m b.documents ∧ m.val = s.nth (k + count)) ∨
    ∃ e, s.Fails k count e ∧ s.advance count a = (.error e, a.served (.get s.counterId)) := by
  by_cases hreaches : s.Reaches n count
  · obtain ⟨m, hafter, hm⟩ := after_of_reaches hreaches
    rw [hval, ← nth_add] at hm
    cases hkey : s.keyAt (k + count) with
    | some key =>
      obtain ⟨b, hadvance, hmoved⟩ := hstands.advance_of_key hunstaged hregistry hafter
        (keyOf_of_keyAt hm hkey)
      exact .inl ⟨b, m, hreaches, rfl, hadvance, hmoved, hm⟩
    | none =>
      have herror := keyOf_of_keyAt_none (hstands.isSome_keyAt hval).1 hm hkey
      rw [← keyAfter_of_ok hafter] at herror
      have hlast : s.keyAt (k + (count - 1) + 1) = none := by
        rw [Nat.add_assoc, Nat.sub_add_cancel hpos]
        exact hkey
      exact .inr ⟨_, .outOfRange (Nat.sub_lt hpos Nat.one_pos) hlast,
        hstands.advance_of_error hunstaged hregistry herror⟩
  · obtain ⟨operation, hafter⟩ := after_of_not_reaches hreaches
    exact .inr ⟨_, .outOfReach operation (mt (reaches_iff hval).mpr hreaches),
      hstands.advance_of_error hunstaged hregistry (keyAfter_of_error hafter)⟩

/-- A range answers the keys that come next, or fails and leaves the counter. -/
theorem Stands.range :
    (∃ b m keys, s.range count a = (.ok keys, b) ∧
      keys.map some = (List.range count).map (fun i => s.keyAt (k + i + 1)) ∧
      s.Stands m b.documents ∧ m.val = s.nth (k + count)) ∨
    ∃ e, s.Fails k count e ∧ s.range count a = (.error e, a.served (.get s.counterId)) := by
  unfold Sequence.range
  by_cases hzero : count = 0
  · subst hzero
    exact .inl ⟨a, n, [], rfl, rfl, hstands, hval⟩
  · rw [if_neg hzero]
    rcases hstands.advance hunstaged hregistry hval (Nat.pos_of_ne_zero hzero) with
      ⟨b, m, hreaches, hlast, hadvance, hafter, hm⟩ | ⟨e, hfails, hadvance⟩
    · obtain ⟨keys, hmap, hkeys⟩ :=
        mapM_keyAfter hreaches (hstands.isSome_keyAt hval).2 hlast hval
      refine .inl ⟨b, m, keys, ?_, hkeys, hafter, hm⟩
      rw [bind_of_ok hadvance, hmap]
      rfl
    · exact .inr ⟨e, hfails, bind_of_error hadvance⟩

/-- The next key is the one that comes next, or the request fails and leaves the counter. -/
theorem Stands.next :
    (∃ b m key, s.next a = (.ok key, b) ∧ s.keyAt (k + 1) = some key ∧
      s.Stands m b.documents ∧ m.val = s.nth (k + 1)) ∨
    ∃ e, s.Fails k 1 e ∧ s.next a = (.error e, a.served (.get s.counterId)) := by
  rcases hstands.advance hunstaged hregistry hval Nat.one_pos with
    ⟨b, m, hreaches, hlast, hadvance, hafter, hm⟩ | ⟨e, hfails, hadvance⟩
  · obtain ⟨key, hkey⟩ := Option.isSome_iff_exists.mp hlast
    refine .inl ⟨b, m, key, ?_, hkey, hafter, hm⟩
    rw [Sequence.next, bind_of_ok hadvance, keyAfter_of_keyAt hval hreaches hkey]
    rfl
  · exact .inr ⟨e, hfails, bind_of_error hadvance⟩

/-- A reservation is made as a whole or not at all. -/
theorem Stands.reserve {request : Request} (hrequest : request ≠ .current) :
    (∃ b m keys, request.run s a = (.ok keys, b) ∧
      keys.map some = (List.range request.size).map (fun i => s.keyAt (k + i + 1)) ∧
      s.Stands m b.documents ∧ m.val = s.nth (k + request.size)) ∨
    ∃ e, s.Fails k request.size e ∧
      request.run s a = (.error e, a.served (.get s.counterId)) := by
  cases request with
  | current => exact absurd rfl hrequest
  | range count => exact hstands.range hunstaged hregistry hval
  | next =>
    rcases hstands.next hunstaged hregistry hval with
      ⟨b, m, key, hnext, hkey, hafter, hm⟩ | ⟨e, hfails, hnext⟩
    · refine .inl ⟨b, m, [key], bind_of_ok hnext, ?_, hafter, hm⟩
      rw [List.map_singleton, ← hkey]
      rfl
    · exact .inr ⟨e, hfails, bind_of_error hnext⟩

/-- Every request is answered right, and the counter stands where the keys issued have brought
    it. -/
theorem Stands.reply (request : Request) :
    (Reply.of s request a).Right s k ∧ ∃ m, s.Stands m (request.run s a).2.documents ∧
      m.val = s.nth (k + (Reply.of s request a).issued.length) := by
  by_cases hcurrent : request = .current
  · subst hcurrent
    obtain ⟨key, hmade, hcurrent⟩ := hstands.current hunstaged hregistry
    obtain ⟨found, hfound⟩ := Option.isSome_iff_exists.mp (hstands.isSome_keyAt hval).2
    have hsame : found = key :=
      Except.ok.inj ((keyOf_of_keyAt hval hfound).symm.trans hmade)
    have hrun : Request.current.run s a = (.ok [key], a.served (.get s.counterId)) :=
      bind_of_ok hcurrent
    refine ⟨⟨fun _ => ⟨key, hsame ▸ hfound, ?_⟩, fun hnot => absurd rfl hnot⟩, n, ?_, hval⟩
    · rw [Reply.of, hrun]
    · rw [hrun]
      exact hstands
  · rcases hstands.reserve hunstaged hregistry hval hcurrent with
      ⟨b, m, keys, hrun, hkeys, hafter, hm⟩ | ⟨e, hfails, hrun⟩
    · have hanswer : (Reply.of s request a).answer = .ok keys := by rw [Reply.of, hrun]
      have hlength : keys.length = request.size := by
        have hlengths := congrArg List.length hkeys
        rwa [List.length_map, List.length_map, List.length_range] at hlengths
      refine ⟨⟨fun heq => absurd heq hcurrent, fun _ => .inl ⟨keys, hanswer, hkeys⟩⟩, m, ?_, ?_⟩
      · rw [hrun]
        exact hafter
      · rw [Reply.issued_of_ok hcurrent hanswer, hlength]
        exact hm
    · have hanswer : (Reply.of s request a).answer = .error e := by rw [Reply.of, hrun]
      have hsame : (Reply.of s request a).after = (Reply.of s request a).before := by
        rw [Reply.of, hrun]
        rfl
      refine ⟨⟨fun heq => absurd heq hcurrent, fun _ => .inr ⟨⟨e, hfails, hanswer⟩, hsame⟩⟩,
        n, ?_, ?_⟩
      · rw [hrun]
        exact hstands
      · rw [Reply.issued_of_error hanswer]
        exact hval

end Step

/-! ## Runs -/

variable {replies : List Reply} {store final : MemoryStore}

theorem issued_cons (reply : Reply) (later : List Reply) :
    issued (reply :: later) = reply.issued ++ issued later := List.flatMap_cons

/-- Along a run the counter stands where the keys issued so far have brought it, so every request
    is answered right. -/
theorem Counts.right (hcounts : s.Counts store replies final)
    (hstands : s.Stands n store.documents) (hval : n.val = s.nth k)
    {before later : List Reply} {reply : Reply} (hsplit : replies = before ++ reply :: later) :
    reply.Right s (k + (issued before).length) := by
  induction hcounts generalizing n k before with
  | done store => exact absurd hsplit.symm (by simp)
  | elsewhere hsame _ ih => exact ih (hstands.congr hsame) hval hsplit
  | @asked a rest store final request hstore hunstaged hregistry hlater ih =>
    subst hstore
    obtain ⟨hright, m, hafter, hm⟩ := hstands.reply hunstaged hregistry hval request
    cases before with
    | nil =>
      cases hsplit
      exact hright
    | cons first before =>
      cases hsplit
      have hlaterRight := ih hafter hm rfl
      rw [Nat.add_assoc] at hlaterRight
      rw [issued_cons, List.length_append]
      exact hlaterRight

/-- Right replies reserve the next keys, each as many as it asked for or none. -/
theorem Reply.Right.issued_eq {reply : Reply} (hright : reply.Right s k) :
    reply.issued.map some = (List.range reply.issued.length).map fun i => s.keyAt (k + i + 1) := by
  by_cases hcurrent : reply.request = .current
  · have hnone : reply.issued = [] := by rw [Reply.issued, hcurrent]
    rw [hnone]
    rfl
  · rcases hright.2 hcurrent with ⟨keys, hanswer, hkeys⟩ | ⟨⟨_, _, hanswer⟩, _⟩
    · have hlength := congrArg List.length hkeys
      rw [List.length_map, List.length_map, List.length_range] at hlength
      rw [Reply.issued_of_ok hcurrent hanswer, hkeys, hlength]
    · rw [Reply.issued_of_error hanswer]
      rfl

/-- Right replies issue the keys in their order, one after the other. -/
theorem issued_eq_of_right (hright : ∀ before reply later, replies = before ++ reply :: later →
      reply.Right s (k + (issued before).length)) :
    (issued replies).map some =
      (List.range (issued replies).length).map fun i => s.keyAt (k + i + 1) := by
  induction replies generalizing k with
  | nil => rfl
  | cons reply later ih =>
    have hfirst : reply.Right s k := hright [] reply later rfl
    have hlater := ih (k := k + reply.issued.length) fun before last rest hsplit => by
      have hlast := hright (reply :: before) last rest (by rw [hsplit]; rfl)
      rw [issued_cons, List.length_append, ← Nat.add_assoc] at hlast
      exact hlast
    rw [issued_cons, List.map_append, hfirst.issued_eq, hlater, List.length_append, List.range_add,
      List.map_append, List.map_map]
    refine congrArg _ (List.map_congr_left fun i _ => ?_)
    simp only [Function.comp_apply, Nat.add_assoc]

/-- The keys issued over a run are those of the numbers that follow the start, in order and without
    gaps, and every single reply is right where the keys before it have brought the counter. -/
theorem counts_without_gaps (hstart : (s.keyAt 0).isSome)
    (habsent : ¬IsLive store.documents s.counterId) (hcounts : s.Counts store replies final) :
    (issued replies).map some =
        (List.range (issued replies).length).map (fun i => s.keyAt (i + 1)) ∧
      ∀ before reply later, replies = before ++ reply :: later →
        reply.Right s (issued before).length := by
  have hval : s.startWith.val = s.nth 0 := by
    rw [nth, Int.natCast_zero, Int.zero_mul, Int.add_zero]
  obtain ⟨key, hkey⟩ := Option.isSome_iff_exists.mp hstart
  have hstands : s.Stands s.startWith store.documents :=
    ⟨⟨key, keyOf_of_keyAt hval hkey⟩, Or.inl ⟨rfl, habsent⟩⟩
  have hright : ∀ before reply later, replies = before ++ reply :: later →
      reply.Right s (0 + (issued before).length) :=
    fun before reply later hsplit => hcounts.right hstands hval hsplit
  refine ⟨?_, fun before reply later hsplit => ?_⟩
  · have hissued := issued_eq_of_right hright
    simpa only [Nat.zero_add] using hissued
  · have hreply := hright before reply later hsplit
    rwa [Nat.zero_add] at hreply

/-! ## Runs that can be computed -/

/-- The replies to requests that fresh handles make one after another, and the store in the end. -/
def ask (s : Sequence) : MemoryStore → List Request → List Reply × MemoryStore
  | store, [] => ([], store)
  | store, request :: rest =>
    let a : Adapter := { connection := { store } }
    let (later, final) := s.ask (request.run s a).2.connection.store rest
    (Reply.of s request a :: later, final)

theorem counts_ask (s : Sequence) (store : MemoryStore) (requests : List Request) :
    s.Counts store (s.ask store requests).1 (s.ask store requests).2 := by
  induction requests generalizing store with
  | nil => exact .done store
  | cons request rest ih => exact .asked request rfl rfl rfl (ih _)

/-- A sequence that starts seven numbers below the largest of 64 bits and goes on by threes. -/
def nearLimit : Sequence where
  name := "t_id"
  kind := .number
  startWith := Signed.wrap 128 9223372036854775800
  incrementBy := Signed.wrap 128 3

/-- Two numbers are left. The range that asks for one too many gets none of them, and the next
    request gets the one that is due. -/
theorem counts_without_gaps_nearLimit :
    let replies := (nearLimit.ask (fresh fun _ _ => 0) [.next, .range 2, .current, .next]).1
    issued replies =
        [.number (Signed.wrap 64 9223372036854775803),
          .number (Signed.wrap 64 9223372036854775806)] ∧
      ∀ before reply later, replies = before ++ reply :: later →
        reply.Right nearLimit (issued before).length := by
  intro replies
  have hissued : issued replies = [.number (Signed.wrap 64 9223372036854775803),
      .number (Signed.wrap 64 9223372036854775806)] := by
    decide +kernel
  obtain ⟨_, hright⟩ := counts_without_gaps (by decide) (not_isLive_of_absent rfl)
    (counts_ask nearLimit (fresh fun _ _ => 0) _)
  exact ⟨hissued, hright⟩

end DocMapper.Sequence
