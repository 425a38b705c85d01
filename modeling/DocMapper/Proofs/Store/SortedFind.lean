import DocMapper.Proofs.Store.Find
import DocMapper.Proofs.Store.Progress
import DocMapper.Proofs.Store.SortOrder
import DocMapper.Proofs.Traversal

/-!
# Sorted answers

The documents that a query brings are those that its selector matches, put in order by a sort that
leaves documents which tie as it finds them, that is in the order of their ids. Main statement: an
answer without a limit in effect is an ordered permutation of the documents that match.
-/

namespace DocMapper

/-! ## Stable sorting -/

section Stable

variable {α : Type} {cmp : α → α → Ordering} [Std.TransCmp cmp]

variable (cmp) in
theorem ne_gt_trans (a b c : α) (hab : (cmp a b != .gt) = true) (hbc : (cmp b c != .gt) = true) :
    (cmp a c != .gt) = true := by
  rw [bne_iff_ne, ne_eq, ← Ordering.isLE_iff_ne_gt] at hab hbc ⊢
  exact Std.TransCmp.isLE_trans hab hbc

variable (cmp) in
theorem ne_gt_total (a b : α) : (cmp a b != .gt || cmp b a != .gt) = true := by
  have hswap : cmp b a = (cmp a b).swap := Std.OrientedCmp.eq_swap
  rw [hswap]
  cases cmp a b <;> rfl

/-- What ties with one thing is left in the order in which it is found. -/
theorem filter_tied_mergeSort (l : List α) (a : α) :
    (l.mergeSort fun b c => cmp b c != .gt).filter (fun b => cmp b a == .eq) =
      l.filter fun b => cmp b a == .eq := by
  have htied : (l.filter fun b => cmp b a == .eq).Pairwise fun b c => (cmp b c != .gt) = true := by
    refine List.pairwise_of_forall_mem_list fun b hb c hc => ?_
    have hba := eq_of_beq (List.mem_filter.mp hb).2
    have hca := eq_of_beq (List.mem_filter.mp hc).2
    rw [Std.TransCmp.congr_left hba, Std.OrientedCmp.eq_symm hca]
    rfl
  -- The sort keeps every sublist that is in order already, and this one is.
  have hsub := (List.sublist_mergeSort (ne_gt_trans cmp) (ne_gt_total cmp) htied
    List.filter_sublist).filter fun b => cmp b a == .eq
  rw [List.filter_filter] at hsub
  simp only [Bool.and_self] at hsub
  refine (hsub.eq_of_length ?_).symm
  exact ((List.mergeSort_perm l _).filter _).length_eq.symm

/-- A stable sort puts things in order, and keeps between those that tie the relation in which they
    were listed. -/
theorem pairwise_mergeSort_stable {R : α → α → Prop} {l : List α} (hlisted : l.Pairwise R) :
    (l.mergeSort fun a b => cmp a b != .gt).Pairwise fun a b =>
      cmp a b = .lt ∨ cmp a b = .eq ∧ R a b := by
  refine List.pairwise_iff_forall_sublist.mpr fun {a b} hpair => ?_
  have hsorted := List.pairwise_mergeSort (ne_gt_trans cmp) (ne_gt_total cmp) l
  have hle := List.pairwise_iff_forall_sublist.mp hsorted hpair
  cases hab : cmp a b with
  | lt => exact .inl rfl
  | gt =>
    rw [hab] at hle
    cases hle
  | eq =>
    -- Among what ties with the second the sort has kept the order of the list.
    refine .inr ⟨rfl, List.pairwise_iff_forall_sublist.mp hlisted ?_⟩
    have htied := hpair.filter fun c => cmp c b == .eq
    rw [filter_tied_mergeSort] at htied
    have hboth : [a, b].filter (fun c => cmp c b == .eq) = [a, b] := by
      simp [hab, Std.ReflCmp.compare_self]
    rw [hboth] at htied
    exact htied.trans List.filter_sublist

end Stable

namespace MemoryStore

variable {documents : Dict Document} {selector : Selector} {hits : List Document}

/-! ## What matches -/

/-- The selector is answered for every document that can be found. -/
def Answerable (selector : Selector) (documents : Dict Document) : Prop :=
  ∀ entry ∈ documents, isFindable entry = true → ∃ held, selector.matches? entry.2 = .ok held

/-- An entry that can be found, with a document that the selector matches. -/
def Selects (selector : Selector) (entry : String × Document) : Prop :=
  isFindable entry = true ∧ (selector.matches? entry.2).toOption = some true

instance (selector : Selector) (entry : String × Document) : Decidable (Selects selector entry) :=
  inferInstanceAs (Decidable (_ ∧ _))

/-- The documents that can be found and match, in the order in which they are held. -/
def selected (selector : Selector) (documents : Dict Document) : List Document :=
  Dict.values (documents.filter fun entry => Selects selector entry)

theorem selected_cons (selector : Selector) (entry : String × Document) (rest : Dict Document) :
    selected selector (entry :: rest) =
      if Selects selector entry then entry.2 :: selected selector rest
      else selected selector rest := by
  simp only [selected, List.filter_cons, decide_eq_true_eq]
  split <;> rfl

theorem matching_cons_of_hidden {entry : String × Document} (hhidden : isFindable entry = false) :
    matching selector (entry :: documents) = matching selector documents := by
  rw [isFindable, Bool.not_eq_false'] at hhidden
  rw [matching, if_pos hhidden]

theorem matching_cons_of_findable {entry : String × Document} {held : Bool}
    (hfindable : isFindable entry = true) (hheld : selector.matches? entry.2 = .ok held) :
    matching selector (entry :: documents) = (matching selector documents).map fun docs =>
      if held then entry.2 :: docs else docs := by
  rw [isFindable, Bool.not_eq_true'] at hfindable
  rw [matching, if_neg (by rw [hfindable]; exact Bool.false_ne_true)]
  simp only [hheld]

/-- Matching succeeds where the selector is answered for all that can be found, and then brings
    what matches. -/
theorem matching_eq_ok_iff : matching selector documents = .ok hits ↔
    Answerable selector documents ∧ hits = selected selector documents := by
  induction documents generalizing hits with
  | nil =>
    constructor
    · intro hmatching
      cases hmatching
      exact ⟨List.forall_mem_nil _, rfl⟩
    · rintro ⟨_, rfl⟩
      rfl
  | cons entry rest ih =>
    rw [selected_cons, Answerable, List.forall_mem_cons]
    constructor
    · intro hmatching
      obtain ⟨hhidden, hrest⟩ | ⟨hfindable, held, docs, hheld, hrest, rfl⟩ :=
        matching_cons_eq_ok hmatching
      · obtain ⟨hanswered, rfl⟩ := ih.mp hrest
        refine ⟨⟨fun hfindable => ?_, hanswered⟩, ?_⟩
        · rw [hhidden] at hfindable
          cases hfindable
        · simp [Selects, hhidden]
      · obtain ⟨hanswered, rfl⟩ := ih.mp hrest
        refine ⟨⟨fun _ => ⟨held, hheld⟩, hanswered⟩, ?_⟩
        simp [Selects, hfindable, hheld]
    · rintro ⟨⟨hentry, hanswered⟩, rfl⟩
      have hrest := ih.mpr ⟨hanswered, rfl⟩
      cases hfindable : isFindable entry with
      | false =>
        rw [matching_cons_of_hidden hfindable, hrest, if_neg (by simp [Selects, hfindable])]
      | true =>
        obtain ⟨held, hheld⟩ := hentry hfindable
        rw [matching_cons_of_findable hfindable hheld, hrest]
        simp [Selects, hfindable, hheld, Except.map]

/-! ## Answers in order -/

/-- Two documents with ids, the first of which has the smaller one. -/
def IdBefore (a b : Document) : Prop := ∃ i j, a.id? = some i ∧ b.id? = some j ∧ i < j

/-- Documents that are held under their own ids are found in the order of their ids. -/
theorem WellKept.pairwise_selected (hkept : WellKept documents) (selector : Selector) :
    (selected selector documents).Pairwise IdBefore := by
  refine List.pairwise_map.mpr ?_
  refine ((hkept.ordered.filter _).imp_of_mem ?_)
  intro entry later hentry hlater hlt
  exact ⟨entry.1, later.1, hkept.id?_eq entry (List.mem_filter.mp hentry).1,
    hkept.id?_eq later (List.mem_filter.mp hlater).1, hlt⟩

variable {s : MemoryStore} {q : Query}

theorem start_of_beginning (hbookmark : q.bookmark = none) (hskip : q.skip.getD 0 = 0) :
    start q = .ok 0 := by
  rw [start_of_no_bookmark hbookmark, hskip]

/-- Without a limit in effect a query is answered with all that match, sorted. -/
theorem answerQuery_of_unlimited (hcovers : CoversSort s.indexes q.sort)
    (hskip : q.skip.getD 0 = 0) (hbookmark : q.bookmark = none) (hfields : q.fields = none)
    (hlimit : (selected q.selector s.documents).length ≤ (q.limit.getD usualLimit).toNat) :
    ((∃ answer, s.answerQuery q = .ok answer) ↔ Answerable q.selector s.documents) ∧
      ∀ answer, s.answerQuery q = .ok answer → answer.docs =
        (selected q.selector s.documents).mergeSort fun a b => compareBy a b q.sort != .gt := by
  have hstart := start_of_beginning hbookmark hskip
  refine ⟨⟨?_, ?_⟩, ?_⟩
  · rintro ⟨answer, hanswer⟩
    obtain ⟨_, hits, first, hfound, _⟩ := answerQuery_eq_ok hanswer
    obtain ⟨docs, hmatching, _⟩ := found_eq_ok hfound
    exact (matching_eq_ok_iff.mp hmatching).1
  · intro hanswerable
    have hfound := found_of_matching (matching_eq_ok_iff.mpr ⟨hanswerable, rfl⟩)
    obtain ⟨answer, hanswer, _⟩ := answerQuery_of_found hcovers hfound hstart
    exact ⟨answer, hanswer⟩
  · intro answer hanswer
    obtain ⟨_, hits, first, hfound, hfirst, hdocs⟩ := answerQuery_eq_ok hanswer
    obtain ⟨docs, hmatching, rfl⟩ := found_eq_ok hfound
    obtain ⟨_, rfl⟩ := matching_eq_ok_iff.mp hmatching
    cases hstart.symm.trans hfirst
    have hproject : project q.fields = id := by
      funext doc
      rw [hfields]
      rfl
    rw [hdocs, hproject, List.map_id, UInt64.toNat_zero, List.drop_zero, List.take_of_length_le]
    rwa [List.length_mergeSort]

/-- Documents in the order of their ids have different ids. -/
theorem nodup_ids_of_pairwise (hordered : hits.Pairwise IdBefore) :
    (hits.map Document.id?).Nodup := by
  refine List.pairwise_map.mpr (hordered.imp ?_)
  rintro a b ⟨i, j, ha, hb, hlt⟩ hsame
  rw [ha, hb] at hsame
  cases hsame
  exact String.lt_irrefl i hlt

/-- After any run of calls, a query whose order is covered by indexes, and that neither skips nor
    stops short, is answered where its selector is answered for every document that can be found.
    The answer then holds what the selector matches among them, each document once, in the order of
    the sort fields; documents that tie at all of them come in the order of their ids. -/
theorem find_sorts (digest : Option String → Document → UInt64) (calls : List Call) (q : Query) :
    let s := (fresh digest).performAll calls
    CoversSort s.indexes q.sort → q.skip.getD 0 = 0 → q.bookmark = none → q.fields = none →
      (selected q.selector s.documents).length ≤ (q.limit.getD usualLimit).toNat →
      ((∃ answer, (s.perform (.find q)).1 = .ok answer) ↔ Answerable q.selector s.documents) ∧
        ∀ answer, (s.perform (.find q)).1 = .ok answer →
          answer.docs.Perm (selected q.selector s.documents) ∧
            (answer.docs.map Document.id?).Nodup ∧
            answer.docs.Pairwise fun a b =>
              Precedes q.sort a b ∨ TieAt q.sort a b ∧ IdBefore a b := by
  intro s hcovers hskip hbookmark hfields hlimit
  have hperform : (s.perform (.find q)).1 = (s.count .find).answerQuery q := rfl
  have hkept : WellKept s.documents := wellKept_empty.performAll calls
  have hids := hkept.pairwise_selected q.selector
  obtain ⟨hanswered, hsorted⟩ :=
    answerQuery_of_unlimited hcovers hskip hbookmark hfields hlimit
  rw [hperform]
  refine ⟨hanswered, fun answer hanswer => ?_⟩
  rw [hsorted answer hanswer]
  have hperm := List.mergeSort_perm (selected q.selector s.documents)
    fun a b => compareBy a b q.sort != .gt
  refine ⟨hperm, ?_, ?_⟩
  · exact (hperm.map _).nodup_iff.mpr (nodup_ids_of_pairwise hids)
  · simp only [← compareBy_lt_iff, ← compareBy_eq_iff]
    exact pairwise_mergeSort_stable hids

/-- Tasks of several ranks, one of them without a rank, one that is deleted again and one that is
    under the id of a design document, and an index on ranks. -/
def rankedRun : List Call := [
  .createIndex { index := { fields := [.str "rank"] }, name := "by_rank" },
  .bulk [
    [("_id", .str "d"), ("kind", .str "task"), ("rank", .bool true)],
    [("_id", .str "c"), ("kind", .str "task")],
    [("_id", .str "b"), ("kind", .str "note"), ("rank", .bool true)],
    [("_id", .str "a"), ("kind", .str "task"), ("rank", .bool true)],
    [("_id", .str "e"), ("kind", .str "task"), ("rank", .str "high")],
    [("_id", .str "_design/f"), ("kind", .str "task"), ("rank", .null)],
    [("_id", .str "g"), ("kind", .str "task"), ("rank", .null)]],
  .destroy "g" (Revision.text 1 0)]

/-- All tasks, those of the highest rank first. -/
def tasksByRank : Query where
  selector := ⟨[("kind", .str "task")]⟩
  sort := [⟨"rank", .desc⟩]

theorem find_sorts_rankedRun :
    ∃ answer,
      (((fresh fun _ _ => 0).performAll rankedRun).perform (.find tasksByRank)).1 = .ok answer ∧
        (answer.docs.map Document.id?).Perm [some "a", some "c", some "d", some "e"] ∧
        answer.docs.Pairwise fun a b =>
          Precedes tasksByRank.sort a b ∨ TieAt tasksByRank.sort a b ∧ IdBefore a b := by
  obtain ⟨_, hsorts⟩ := find_sorts (fun _ _ => 0) rankedRun tasksByRank rfl rfl rfl rfl (by decide)
  obtain ⟨answer, hanswer⟩ : ∃ answer,
      (((fresh fun _ _ => 0).performAll rankedRun).perform (.find tasksByRank)).1 = .ok answer :=
    ⟨_, rfl⟩
  obtain ⟨hperm, _, hsorted⟩ := hsorts answer hanswer
  exact ⟨answer, hanswer, hperm.map Document.id?, hsorted⟩

end MemoryStore

end DocMapper
