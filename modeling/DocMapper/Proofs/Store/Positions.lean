import DocMapper.Proofs.Store.SortedFind

/-!
# Positions of queries

A query asks for a position: that of its bookmark, and as many documents further as it skips. The
store counts positions in 64 bits, and ends where a position needs more. Main statement: a query is
answered only where the position that it asks for fits, and the answer then goes on from there, with
a bookmark that stands behind the last document.
-/

namespace DocMapper.MemoryStore

/-- The position that a query asks for, if its bookmark has one: that of the bookmark, or the
    beginning, and as many documents further as the query skips. -/
def asked? (q : Query) : Option Nat :=
  (q.bookmark.elim (some 0) position?).map fun base => base.toNat + (q.skip.getD 0).toNat

/-- The answer holds what is found from a position on, up to the limit, and its bookmark is the
    position behind that. -/
structure GoesOnFrom (position : Nat) (hits : List Document) (q : Query) (answer : FindAnswer) :
    Prop where
  docs : answer.docs =
    ((hits.drop position).take (q.limit.getD usualLimit).toNat).map (project q.fields)
  bookmark : answer.bookmark = some (bookmarkAt (position + answer.docs.length))

variable {s : MemoryStore} {q : Query} {hits : List Document} {answer : FindAnswer}
  {position skipped first : UInt64} {n : Nat}

theorem further_of_fits (hfits : position.toNat + skipped.toNat < UInt64.size) :
    ∃ first, further position skipped = .ok first ∧
      first.toNat = position.toNat + skipped.toNat := by
  refine ⟨position + skipped, if_pos hfits, ?_⟩
  rw [UInt64.toNat_add]
  exact Nat.mod_eq_of_lt hfits

theorem further_of_not_fits (hfits : UInt64.size ≤ position.toNat + skipped.toNat) :
    further position skipped = .error .overflow := if_neg (Nat.not_lt_of_le hfits)

/-- A query begins at the position that it asks for. -/
theorem start_of_fits (hasked : asked? q = some n) (hfits : n < UInt64.size) :
    ∃ first, start q = .ok first ∧ first.toNat = n := by
  obtain ⟨base, hbase, rfl⟩ := Option.map_eq_some_iff.mp hasked
  cases hbookmark : q.bookmark with
  | none =>
    rw [hbookmark] at hbase
    cases hbase
    refine ⟨q.skip.getD 0, start_of_no_bookmark hbookmark, ?_⟩
    rw [UInt64.toNat_zero, Nat.zero_add]
  | some bookmark =>
    rw [hbookmark, Option.elim_some] at hbase
    simp only [start, hbookmark, hbase]
    exact further_of_fits hfits

/-- It begins nowhere if that position does not fit 64 bits, which takes a bookmark. -/
theorem start_of_not_fits (hasked : asked? q = some n) (hfits : UInt64.size ≤ n) :
    start q = .error .overflow := by
  obtain ⟨base, hbase, rfl⟩ := Option.map_eq_some_iff.mp hasked
  cases hbookmark : q.bookmark with
  | none =>
    rw [hbookmark] at hbase
    cases hbase
    have hskip : (q.skip.getD 0).toNat < UInt64.size := (q.skip.getD 0).toNat_lt
    rw [UInt64.toNat_zero, Nat.zero_add] at hfits
    exact absurd hskip (Nat.not_lt_of_le hfits)
  | some bookmark =>
    rw [hbookmark, Option.elim_some] at hbase
    simp only [start, hbookmark, hbase]
    exact further_of_not_fits hfits

/-- Wherever a query begins, it asks for that position. -/
theorem asked_of_start (hstart : start q = .ok first) : asked? q = some first.toNat := by
  have hasked : ∃ n, asked? q = some n := by
    unfold asked?
    cases hbookmark : q.bookmark with
    | none => exact ⟨_, rfl⟩
    | some bookmark =>
      cases hposition : position? bookmark with
      | none =>
        simp only [start, hbookmark, hposition] at hstart
        cases hstart
      | some base =>
        rw [Option.elim_some, hposition]
        exact ⟨_, rfl⟩
  obtain ⟨n, hasked⟩ := hasked
  rcases Nat.lt_or_ge n UInt64.size with hfits | hfits
  · obtain ⟨again, hagain, rfl⟩ := start_of_fits hasked hfits
    cases hstart.symm.trans hagain
    exact hasked
  · cases hstart.symm.trans (start_of_not_fits hasked hfits)

/-- A query is answered if its order is covered, its selector is answered and it asks for a
    position that fits 64 bits. -/
theorem exists_answer_iff : (∃ answer, s.answerQuery q = .ok answer) ↔
    CoversSort s.indexes q.sort ∧ (∃ hits, found s.documents q = .ok hits) ∧
      ∃ n, asked? q = some n ∧ n < UInt64.size := by
  constructor
  · rintro ⟨answer, hanswer⟩
    obtain ⟨hcovers, hits, first, hfound, hstart, _⟩ := answerQuery_eq_ok hanswer
    exact ⟨hcovers, ⟨hits, hfound⟩, _, asked_of_start hstart, first.toNat_lt⟩
  · rintro ⟨hcovers, ⟨hits, hfound⟩, n, hasked, hfits⟩
    obtain ⟨first, hstart, _⟩ := start_of_fits hasked hfits
    obtain ⟨answer, hanswer, _⟩ := answerQuery_of_found hcovers hfound hstart
    exact ⟨answer, hanswer⟩

/-- Every answer goes on from the position that is asked for. -/
theorem goesOnFrom_asked (hasked : asked? q = some n) (hfound : found s.documents q = .ok hits)
    (hanswer : s.answerQuery q = .ok answer) : GoesOnFrom n hits q answer := by
  obtain ⟨hcovers, _, first, _, hstart, _⟩ := answerQuery_eq_ok hanswer
  obtain ⟨again, hagain, hdocs, hbookmark⟩ := answerQuery_of_found hcovers hfound hstart
  cases hanswer.symm.trans hagain
  cases hasked.symm.trans (asked_of_start hstart)
  exact ⟨hdocs, hbookmark⟩

/-- Where the position does not fit, the query is not answered: the store ends. -/
theorem answerQuery_of_not_fits (hcovers : CoversSort s.indexes q.sort)
    (hfound : found s.documents q = .ok hits) (hasked : asked? q = some n)
    (hfits : UInt64.size ≤ n) : s.answerQuery q = .error .overflow := by
  obtain ⟨docs, hmatching, _⟩ := found_eq_ok hfound
  rw [answerQuery, if_pos hcovers, hmatching, start_of_not_fits hasked hfits]
  rfl

/-- A query is answered where its order is covered, its selector is answered for what can be found
    and the position that it asks for fits 64 bits; its bookmark, if any, has to be one. The answer
    holds what is found from that very position on, and its bookmark is the position behind. If all
    but the last holds, the store ends instead of telling of an error. -/
theorem find_position_exact_iff (s : MemoryStore) (q : Query) :
    ((∃ answer, (s.perform (.find q)).1 = .ok answer) ↔ CoversSort s.indexes q.sort ∧
        (∃ hits, found s.documents q = .ok hits) ∧ ∃ n, asked? q = some n ∧ n < UInt64.size) ∧
      ∀ n, asked? q = some n → ∀ hits, found s.documents q = .ok hits →
        (n < UInt64.size → ∃ first, start q = .ok first ∧ first.toNat = n) ∧
          (∀ answer, (s.perform (.find q)).1 = .ok answer → GoesOnFrom n hits q answer) ∧
            (CoversSort s.indexes q.sort →
              ((s.perform (.find q)).1 = .error .overflow ↔ UInt64.size ≤ n)) := by
  have hperform : (s.perform (.find q)).1 = (s.count .find).answerQuery q := rfl
  rw [hperform]
  refine ⟨exists_answer_iff, fun n hasked hits hfound => ⟨start_of_fits hasked,
    fun answer => goesOnFrom_asked hasked hfound, fun hcovers => ⟨fun hended => ?_, ?_⟩⟩⟩
  · by_contra hfits
    obtain ⟨answer, hanswer⟩ := exists_answer_iff.mpr
      ⟨hcovers, ⟨hits, hfound⟩, n, hasked, Nat.lt_of_not_le hfits⟩
    cases hended.symm.trans hanswer
  · exact answerQuery_of_not_fits hcovers hfound hasked

/-- Two letters. -/
def letterRun : List Call := [.bulk [[("_id", .str "a")], [("_id", .str "b")]]]

/-- A query for all from the last position that 64 bits hold, and so many documents further. -/
def fromLastPosition (skip : UInt64) : Query where
  selector := .empty
  skip := some skip
  bookmark := some "g1A18446744073709551615"

/-- From the last position on there is nothing. -/
theorem find_position_exact_iff_letters :
    let s := (fresh fun _ _ => 0).performAll letterRun
    asked? (fromLastPosition 0) = some 18446744073709551615 ∧
      ∃ hits answer, found s.documents (fromLastPosition 0) = .ok hits ∧
        (s.perform (.find (fromLastPosition 0))).1 = .ok answer ∧
        GoesOnFrom 18446744073709551615 hits (fromLastPosition 0) answer := by
  intro s
  have hasked : asked? (fromLastPosition 0) = some 18446744073709551615 := by decide +kernel
  have hfound : ∃ hits, found s.documents (fromLastPosition 0) = .ok hits :=
    ⟨_, found_of_no_sort rfl rfl⟩
  obtain ⟨hanswered, hexact⟩ := find_position_exact_iff s (fromLastPosition 0)
  obtain ⟨answer, hanswer⟩ := hanswered.mpr ⟨rfl, hfound, _, hasked, by decide⟩
  obtain ⟨hits, hfound⟩ := hfound
  obtain ⟨_, hanswers, _⟩ := hexact _ hasked hits hfound
  exact ⟨hasked, hits, answer, hfound, hanswer, hanswers answer hanswer⟩

/-- One document further the store ends, though the letters can be found. -/
theorem no_answer_behind_last_position :
    let s := (fresh fun _ _ => 0).performAll letterRun
    asked? (fromLastPosition 1) = some 18446744073709551616 ∧
      (∃ hits, found s.documents (fromLastPosition 1) = .ok hits) ∧
        (s.perform (.find (fromLastPosition 1))).1 = .error .overflow := by
  intro s
  have hasked : asked? (fromLastPosition 1) = some 18446744073709551616 := by decide +kernel
  have hfound : found s.documents (fromLastPosition 1) = .ok (Dict.values s.documents) :=
    found_of_no_sort rfl rfl
  exact ⟨hasked, ⟨_, hfound⟩, answerQuery_of_not_fits (s := s.count .find) rfl hfound hasked
    (by decide)⟩

end DocMapper.MemoryStore
