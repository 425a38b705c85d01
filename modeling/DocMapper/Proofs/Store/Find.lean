import DocMapper.Proofs.Number.Digits
import DocMapper.Proofs.Text.Parts
import DocMapper.Store.Memory

/-!
# Answers to queries

An answer is a slice of the documents that a query matches, in order: it begins where the query
says and goes on up to the limit, and its bookmark says where the slice ends. A bookmark reads back
as that position.
-/

namespace DocMapper.MemoryStore

/-- All documents that a query matches, in its order. -/
def found (documents : Dict Document) (q : Query) : Except StoreError (List Document) :=
  (matching q.selector documents).map fun hits =>
    hits.mergeSort fun a b => compareBy a b q.sort != .gt

/-- Every field of an order is covered by some index. -/
abbrev CoversSort (indexes : Dict IndexRequest) (sort : List SortField) : Prop :=
  (sort.all fun field => covers indexes field.field) = true

/-- The bookmark of a position. -/
def bookmarkAt (position : Nat) : String := bookmarkLead ++ toString position

variable {s : MemoryStore} {q : Query} {documents : Dict Document} {hits : List Document}
  {first : UInt64} {answer : FindAnswer}

/-- A bookmark spells its position. -/
theorem position?_bookmarkAt (position : UInt64) :
    position? (bookmarkAt position.toNat) = some position := by
  have hafter : Text.after? bookmarkLead (bookmarkAt position.toNat) =
      some (toString position.toNat) :=
    Text.after?_eq_some_iff.mpr rfl
  rw [position?, hafter, Option.bind_some, Reading.unsigned64?_toString]

/-- Without a bookmark the answer starts where the skip says. -/
theorem start_of_no_bookmark (hbookmark : q.bookmark = none) : start q = .ok (q.skip.getD 0) := by
  rw [start, hbookmark]

theorem further_zero (position : UInt64) : further position 0 = .ok position := by
  have hfits : position.toNat + (0 : UInt64).toNat < UInt64.size := position.toNat_lt
  rw [further, if_pos hfits, UInt64.add_zero]

/-- With a bookmark alone the answer starts at its position. -/
theorem start_of_bookmarkAt (hbookmark : q.bookmark = some (bookmarkAt first.toNat))
    (hskip : q.skip = none) : start q = .ok first := by
  simp only [start, hbookmark, position?_bookmarkAt, hskip, Option.getD_none, further_zero]

/-- What can be found: a live document that is not a design document. -/
def isFindable (entry : String × Document) : Bool :=
  !(Text.startsWith "_design/" entry.1 || entry.2.isDeleted)

/-- The first document is passed over where it cannot be found, and taken where it matches. -/
theorem matching_cons_eq_ok {selector : Selector} {entry : String × Document}
    (hmatching : matching selector (entry :: documents) = .ok hits) :
    (isFindable entry = false ∧ matching selector documents = .ok hits) ∨
      (isFindable entry = true ∧ ∃ held docs, selector.matches? entry.2 = .ok held ∧
        matching selector documents = .ok docs ∧
        hits = if held = true then entry.2 :: docs else docs) := by
  rw [matching] at hmatching
  split at hmatching
  · rename_i hhidden
    exact .inl ⟨by rw [isFindable, hhidden, Bool.not_true], hmatching⟩
  · rename_i hshown
    right
    refine ⟨by rw [isFindable, Bool.eq_false_iff.mpr hshown, Bool.not_false], ?_⟩
    split at hmatching
    · cases hmatching
    · rename_i held hheld
      cases hrest : matching selector documents with
      | error e =>
        rw [hrest] at hmatching
        cases hmatching
      | ok docs =>
        rw [hrest] at hmatching
        cases hmatching
        exact ⟨held, docs, hheld, rfl, rfl⟩

/-- Only live documents match, each of them once and in the order in which they are held. -/
theorem sublist_of_matching {selector : Selector}
    (hmatching : matching selector documents = .ok hits) :
    hits.Sublist (documents.values.filter fun doc => !doc.isDeleted) := by
  induction documents generalizing hits with
  | nil =>
    cases hmatching
    exact List.Sublist.slnil
  | cons entry rest ih =>
    have hlater : ((Dict.values rest).filter fun doc => !doc.isDeleted).Sublist
        ((Dict.values (entry :: rest)).filter fun doc => !doc.isDeleted) :=
      (List.sublist_cons_self entry.2 _).filter _
    obtain ⟨_, hrest⟩ | ⟨hfindable, held, docs, _, hrest, rfl⟩ := matching_cons_eq_ok hmatching
    · exact (ih hrest).trans hlater
    · cases held with
      | false => exact (ih hrest).trans hlater
      | true =>
        rw [isFindable, Bool.not_or, Bool.and_eq_true] at hfindable
        have hkept : (Dict.values (entry :: rest)).filter (fun doc => !doc.isDeleted) =
            entry.2 :: (Dict.values rest).filter fun doc => !doc.isDeleted :=
          List.filter_cons_of_pos hfindable.2
        rw [hkept]
        exact (ih hrest).cons_cons entry.2

/-- Hits are the matching documents in the order of the query. -/
theorem found_eq_ok (hfound : found documents q = .ok hits) :
    ∃ docs, matching q.selector documents = .ok docs ∧
      hits = docs.mergeSort fun a b => compareBy a b q.sort != .gt := by
  unfold found at hfound
  cases hmatching : matching q.selector documents with
  | error e =>
    rw [hmatching] at hfound
    cases hfound
  | ok docs =>
    rw [hmatching] at hfound
    cases hfound
    exact ⟨docs, rfl, rfl⟩

theorem found_of_matching (hmatching : matching q.selector documents = .ok hits) :
    found documents q = .ok (hits.mergeSort fun a b => compareBy a b q.sort != .gt) := by
  rw [found, hmatching]
  rfl

/-- Without an order to sort by, the documents come as they are held. -/
theorem found_of_no_sort (hsort : q.sort = [])
    (hmatching : matching q.selector documents = .ok hits) : found documents q = .ok hits := by
  rw [found, hmatching, hsort]
  exact congrArg Except.ok (List.mergeSort_of_pairwise (List.pairwise_of_forall fun _ _ => rfl))

theorem length_le_of_found (hfound : found documents q = .ok hits) :
    hits.length ≤ documents.length := by
  obtain ⟨docs, hmatching, rfl⟩ := found_eq_ok hfound
  calc (docs.mergeSort fun a b => compareBy a b q.sort != .gt).length
      = docs.length := List.length_mergeSort _
    _ ≤ (documents.values.filter fun doc => !doc.isDeleted).length :=
      (sublist_of_matching hmatching).length_le
    _ ≤ documents.values.length := List.length_filter_le _ _
    _ = documents.length := List.length_map _

/-- Every hit is a live document of the store. -/
theorem mem_of_found (hfound : found documents q = .ok hits) {doc : Document} (hmem : doc ∈ hits) :
    ∃ id, (id, doc) ∈ documents ∧ doc.isDeleted = false := by
  obtain ⟨docs, hmatching, rfl⟩ := found_eq_ok hfound
  have hlive := (sublist_of_matching hmatching).subset (List.mem_mergeSort.mp hmem)
  obtain ⟨hvalue, hdeleted⟩ := List.mem_filter.mp hlive
  obtain ⟨⟨id, own⟩, hentry, rfl⟩ := List.mem_map.mp hvalue
  rw [Bool.not_eq_true'] at hdeleted
  exact ⟨id, hentry, hdeleted⟩

/-- The answer to a query whose order is covered: a slice, and the bookmark behind it. -/
theorem answerQuery_of_found (hcovers : CoversSort s.indexes q.sort)
    (hfound : found s.documents q = .ok hits) (hstart : start q = .ok first) :
    ∃ answer, s.answerQuery q = .ok answer ∧
      answer.docs =
        ((hits.drop first.toNat).take (q.limit.getD usualLimit).toNat).map (project q.fields) ∧
      answer.bookmark = some (bookmarkAt (first.toNat + answer.docs.length)) := by
  obtain ⟨docs, hmatching, rfl⟩ := found_eq_ok hfound
  rw [answerQuery, if_pos hcovers, hmatching, hstart]
  exact ⟨_, rfl, rfl, rfl⟩

/-- An answer is a window of the hits, projected to the fields. -/
theorem answerQuery_eq_ok (hanswer : s.answerQuery q = .ok answer) :
    CoversSort s.indexes q.sort ∧ ∃ hits first, found s.documents q = .ok hits ∧
      start q = .ok first ∧ answer.docs =
        ((hits.drop first.toNat).take (q.limit.getD usualLimit).toNat).map (project q.fields) := by
  unfold answerQuery at hanswer
  by_cases hcovers : CoversSort s.indexes q.sort
  · rw [if_pos hcovers] at hanswer
    cases hmatching : matching q.selector s.documents with
    | error e =>
      rw [hmatching] at hanswer
      cases hanswer
    | ok docs =>
      rw [hmatching] at hanswer
      cases hstart : start q with
      | error e =>
        rw [hstart] at hanswer
        cases hanswer
      | ok first =>
        rw [hstart] at hanswer
        cases hanswer
        refine ⟨hcovers, _, first, ?_, rfl, rfl⟩
        rw [found, hmatching]
        rfl
  · rw [if_neg hcovers] at hanswer
    cases hanswer

/-- The store never answers without a bookmark. -/
theorem bookmark_of_answerQuery (hanswer : s.answerQuery q = .ok answer) :
    ∃ position, answer.bookmark = some (bookmarkAt position) := by
  obtain ⟨hcovers, hits, first, hfound, hstart, _⟩ := answerQuery_eq_ok hanswer
  obtain ⟨again, hagain, _, hbookmark⟩ := answerQuery_of_found hcovers hfound hstart
  cases hanswer.symm.trans hagain
  exact ⟨_, hbookmark⟩

/-- The end of a slice of fewer than 2 ^ 64 documents fits 64 bits, wherever the slice begins. -/
theorem end_of_slice_lt (hfits : hits.length < UInt64.size) (first : UInt64) (limit : Nat) :
    first.toNat + ((hits.drop first.toNat).take limit).length < UInt64.size := by
  have hlength : ((hits.drop first.toNat).take limit).length ≤ hits.length - first.toNat := by
    rw [List.length_take, List.length_drop]
    exact Nat.min_le_right _ _
  have hfirst : first.toNat < UInt64.size := first.toNat_lt
  omega

end DocMapper.MemoryStore
