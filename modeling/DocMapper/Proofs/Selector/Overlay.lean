import DocMapper.Proofs.Dict.Order
import DocMapper.Proofs.Selector.Turns

/-!
# Clauses put into a selector

Clauses that are put in one after another each take their key, and a warning tells of every
clause that had it and was not the same. Where no warning tells of one, the selector that results
asks for both: clauses are asked in key order, so the first that fails in one of the two selectors
is still in front of whatever is not asked there.
-/

namespace DocMapper

namespace Dict

variable {α : Type}

theorem get?_foldl_insert_of_ordered {d entries : Dict α} (hordered : Ordered entries)
    (key : String) : get? (entries.foldl (fun d entry => insert d entry.1 entry.2) d) key =
      (get? entries key).or (get? d key) := by
  rw [get?_foldl_insert_eq, ← get?_ofEntries, ofEntries_of_ordered hordered]

theorem lt_of_get? {key : String} {value : α} {rest : Dict α} {other : String} {found : α}
    (hordered : Ordered ((key, value) :: rest)) (hother : get? rest other = some found) :
    key < other :=
  (List.pairwise_cons.mp hordered).1 _ (mem_of_get? hother)

end Dict

namespace Selector

variable {base : Selector} {clauses : Fields} {doc : Document}

/-- The warning of a clause that replaces another one. -/
def overriding (base : Selector) (entry : String × Json) : Option Warning :=
  (base.get? entry.1).bind fun previous =>
    if previous.same entry.2 then none else some (.keyOverridden entry.1 previous entry.2)

/-- The warnings of the clauses that replace another one, in key order. -/
def overridden (base : Selector) (clauses : Fields) : List Warning :=
  clauses.filterMap base.overriding

theorem overriding_eq_some_iff {entry : String × Json} {w : Warning} :
    base.overriding entry = some w ↔ ∃ previous, base.get? entry.1 = some previous ∧
      previous.same entry.2 = false ∧ w = .keyOverridden entry.1 previous entry.2 := by
  rw [overriding, Option.bind_eq_some_iff]
  refine exists_congr fun previous => and_congr_right fun _ => ?_
  rw [Option.ite_none_left_eq_some, Bool.not_eq_true, Option.some_inj, eq_comm (a := w)]

theorem overlay_clauses (base : Selector) (clauses : Fields) : (base.overlay clauses).1.clauses =
    clauses.foldl (fun d entry => d.insert entry.1 entry.2) base.clauses := by
  induction clauses generalizing base with
  | nil => rfl
  | cons head rest ih => exact ih (base.insert head.1 head.2)

/-- A clause put in is in, and every key without one keeps what it has. -/
theorem get?_overlay (hordered : Dict.Ordered clauses) (key : String) :
    (base.overlay clauses).1.get? key = (Dict.get? clauses key).or (base.get? key) := by
  rw [get?, overlay_clauses, Dict.get?_foldl_insert_of_ordered hordered, get?]

theorem ordered_overlay (hbase : Dict.Ordered base.clauses) (clauses : Fields) :
    Dict.Ordered (base.overlay clauses).1.clauses := by
  rw [overlay_clauses]
  exact Dict.ordered_foldl_insert hbase

theorem overridden_insert {key : String} (clause : Json)
    (habsent : ∀ entry ∈ clauses, key < entry.1) :
    (base.insert key clause).overridden clauses = base.overridden clauses := by
  induction clauses with
  | nil => rfl
  | cons head rest ih =>
    obtain ⟨hhead, hrest⟩ := List.forall_mem_cons.mp habsent
    have hget : (base.insert key clause).get? head.1 = base.get? head.1 :=
      Dict.get?_insert_of_ne base.clauses clause (String.ne_of_lt hhead)
    have hoverriding : (base.insert key clause).overriding head = base.overriding head := by
      unfold overriding
      rw [hget]
    have htail := ih hrest
    unfold overridden at htail ⊢
    rw [List.filterMap_cons, List.filterMap_cons, hoverriding, htail]

/-- Putting clauses in warns of those that replace one that is not the same, and of no others. -/
theorem overlay_warnings (hordered : Dict.Ordered clauses) :
    (base.overlay clauses).2 = base.overridden clauses := by
  induction clauses generalizing base with
  | nil => rfl
  | cons head rest ih =>
    obtain ⟨key, clause⟩ := head
    obtain ⟨hfirst, hrest⟩ := List.pairwise_cons.mp hordered
    have hwarnings : ((base.insert key clause).overlay rest).2 = base.overridden rest := by
      rw [ih hrest, overridden_insert clause hfirst]
    rw [overlay]
    simp only [hwarnings, overridden, List.filterMap_cons, overriding]
    cases base.get? key with
    | none => rfl
    | some previous => cases hsame : previous.same clause <;> simp [hsame]

theorem same_of_overridden_eq_nil {key : String} {previous clause : Json}
    (hsilent : base.overridden clauses = []) (hprevious : base.get? key = some previous)
    (hclause : Dict.get? clauses key = some clause) : previous.same clause = true := by
  have hnone := List.filterMap_eq_nil_iff.mp hsilent (key, clause) (Dict.mem_of_get? hclause)
  cases hsame : previous.same clause with
  | true => rfl
  | false =>
    have hsome : base.overriding (key, clause) = some (.keyOverridden key previous clause) :=
      overriding_eq_some_iff.mpr ⟨previous, hprevious, hsame, rfl⟩
    rw [hnone] at hsome
    cases hsome

/-- Each warning tells of a key that both selectors have and what stands under it in both. -/
theorem mem_overridden_iff (hordered : Dict.Ordered clauses) {w : Warning} :
    w ∈ base.overridden clauses ↔ ∃ key previous clause, base.get? key = some previous ∧
      Dict.get? clauses key = some clause ∧ previous.same clause = false ∧
        w = .keyOverridden key previous clause := by
  unfold overridden
  rw [List.mem_filterMap]
  constructor
  · rintro ⟨⟨key, clause⟩, hmem, hwarning⟩
    obtain ⟨previous, hprevious, hdifferent, hw⟩ := overriding_eq_some_iff.mp hwarning
    exact ⟨key, previous, clause, hprevious, Dict.get?_of_mem hordered hmem, hdifferent, hw⟩
  · rintro ⟨key, previous, clause, hprevious, hclause, hdifferent, hw⟩
    exact ⟨(key, clause), Dict.mem_of_get? hclause,
      overriding_eq_some_iff.mpr ⟨previous, hprevious, hdifferent, hw⟩⟩

/-- No key is told of twice. -/
theorem nodup_overridden (hordered : Dict.Ordered clauses) : (base.overridden clauses).Nodup := by
  refine List.nodup_iff_pairwise_ne.mpr (List.Pairwise.filterMap _ ?_ hordered)
  rintro entry later hlt v hv w hw rfl
  obtain ⟨_, _, _, heq⟩ := overriding_eq_some_iff.mp hv
  obtain ⟨_, _, _, hlater⟩ := overriding_eq_some_iff.mp hw
  rw [heq] at hlater
  exact String.ne_of_lt hlt (Warning.keyOverridden.inj hlater).1

/-! ## Clauses asked in key order -/

/-- What the overlay has under a key, one of the two selectors has there. -/
theorem get?_of_overlay (hordered : Dict.Ordered clauses) {key : String} {clause : Json}
    (hget : (base.overlay clauses).1.get? key = some clause) :
    Dict.get? clauses key = some clause ∨ base.get? key = some clause := by
  rw [get?_overlay hordered] at hget
  exact (Option.or_eq_some_iff.mp hget).imp_right And.right

variable [PatternEngine]

/-- A selector is answered `true` when every clause holds. -/
theorem eval_eq_true_iff (hordered : Dict.Ordered clauses) : eval doc clauses = .ok true ↔
    ∀ key clause, Dict.get? clauses key = some clause → evalClause doc key clause = .ok true := by
  refine satisfied_iff_forall_clause.trans ⟨?_, ?_⟩
  · intro hall key clause hget
    exact hall (key, clause) (Dict.mem_of_get? hget)
  · rintro hall ⟨key, clause⟩ hmem
    exact hall key clause (Dict.get?_of_mem hordered hmem)

/-- A clause fails to hold, and those with smaller keys hold. -/
def FailsFirst (doc : Document) (clauses : Fields) (key : String) : Prop :=
  (∃ clause, Dict.get? clauses key = some clause ∧ evalClause doc key clause = .ok false) ∧
    ∀ other clause, Dict.get? clauses other = some clause → other < key →
      evalClause doc other clause = .ok true

/-- The first clause fails first, or it holds and another one fails first among the rest. -/
theorem failsFirst_cons_iff {first key : String} {clause : Json} {rest : Fields}
    (hordered : Dict.Ordered ((first, clause) :: rest)) :
    FailsFirst doc ((first, clause) :: rest) key ↔
      (key = first ∧ evalClause doc first clause = .ok false) ∨
        (evalClause doc first clause = .ok true ∧ FailsFirst doc rest key) := by
  have hself : Dict.get? ((first, clause) :: rest) first = some clause := by
    rw [Dict.get?, if_pos rfl]
  have hbehind : ∀ {other : String} {found : Json}, Dict.get? rest other = some found →
      first < other ∧ Dict.get? ((first, clause) :: rest) other = some found := by
    intro other found hget
    have hlt : first < other := Dict.lt_of_get? hordered hget
    rw [Dict.get?, if_neg (String.ne_of_lt hlt)]
    exact ⟨hlt, hget⟩
  constructor
  · rintro ⟨⟨found, hget, hfails⟩, hbelow⟩
    rw [Dict.get?] at hget
    split at hget
    · rename_i heq
      cases hget
      exact .inl ⟨heq.symm, heq ▸ hfails⟩
    · refine .inr ⟨hbelow first clause hself (hbehind hget).1, ⟨found, hget, hfails⟩, ?_⟩
      intro other held hother
      exact hbelow other held (hbehind hother).2
  · rintro (⟨rfl, hfails⟩ | ⟨hholds, ⟨found, hget, hfails⟩, hbelow⟩)
    · refine ⟨⟨clause, hself, hfails⟩, fun other held hother hlt => ?_⟩
      rw [Dict.get?, if_neg (String.ne_of_lt hlt).symm] at hother
      exact absurd hlt (String.lt_asymm (hbehind hother).1)
    · refine ⟨⟨found, (hbehind hget).2, hfails⟩, fun other held hother hlt => ?_⟩
      rw [Dict.get?] at hother
      split at hother
      · rename_i heq
        cases hother
        exact heq ▸ hholds
      · exact hbelow other held hother hlt

/-- A selector is answered `false` when some clause is the first to fail. -/
theorem eval_eq_false_iff (hordered : Dict.Ordered clauses) :
    eval doc clauses = .ok false ↔ ∃ key, FailsFirst doc clauses key := by
  induction clauses with
  | nil =>
    constructor
    · intro hfalse
      cases hfalse
    · rintro ⟨key, ⟨clause, hget, _⟩, _⟩
      cases hget
  | cons head rest ih =>
    obtain ⟨first, clause⟩ := head
    have hrest : Dict.Ordered rest := (List.pairwise_cons.mp hordered).2
    rw [eval_cons]
    by_cases hholds : evalClause doc first clause = .ok true
    · rw [hholds, inTurn_true, ih hrest]
      refine exists_congr fun key => ?_
      rw [failsFirst_cons_iff hordered, hholds]
      exact ⟨fun h => .inr ⟨rfl, h⟩, fun h => h.elim (fun ⟨_, hfalse⟩ => nomatch hfalse) And.right⟩
    · rw [inTurn_of_ne_true hholds]
      constructor
      · intro hfails
        exact ⟨first, (failsFirst_cons_iff hordered).mpr (.inl ⟨rfl, hfails⟩)⟩
      · rintro ⟨key, hfirst⟩
        rcases (failsFirst_cons_iff hordered).mp hfirst with ⟨_, hfails⟩ | ⟨htrue, _⟩
        · exact hfails
        · exact absurd htrue hholds

section Overlays

variable {added : Selector} {asked wanted : Bool}

/-- Where no clause is replaced by another one, each clause of the base is asked in the overlay. -/
theorem exists_clause_of_base (doc : Document) (hordered : Dict.Ordered clauses)
    (hsilent : base.overridden clauses = []) {key : String} {clause : Json}
    (hget : base.get? key = some clause) :
    ∃ kept, (base.overlay clauses).1.get? key = some kept ∧
      evalClause doc key kept = evalClause doc key clause := by
  rw [get?_overlay hordered]
  cases hclause : Dict.get? clauses key with
  | none => exact ⟨clause, hget, rfl⟩
  | some kept =>
    exact ⟨kept, rfl, (evalClause_of_same (same_of_overridden_eq_nil hsilent hget hclause) doc
      key).symm⟩

/-- The first clause to fail in the base is the first to fail in the overlay, if those with smaller
    keys that were put in hold. -/
theorem failsFirst_overlay_of_base (hordered : Dict.Ordered clauses)
    (hsilent : base.overridden clauses = []) {key : String}
    (hbase : FailsFirst doc base.clauses key)
    (hbelow : ∀ other clause, Dict.get? clauses other = some clause → other < key →
      evalClause doc other clause = .ok true) :
    FailsFirst doc (base.overlay clauses).1.clauses key := by
  obtain ⟨⟨clause, hget, hclause⟩, hsmaller⟩ := hbase
  obtain ⟨kept, hkept, hsame⟩ := exists_clause_of_base doc hordered hsilent hget
  refine ⟨⟨kept, hkept, hsame.trans hclause⟩, fun other found hfound hother => ?_⟩
  rcases get?_of_overlay hordered hfound with hput | hheld
  · exact hbelow other found hput hother
  · exact hsmaller other found hheld hother

/-- The first clause to fail among those put in is the first to fail in the overlay, if those of
    the base with smaller keys hold. -/
theorem failsFirst_overlay_of_added (hordered : Dict.Ordered clauses) {key : String}
    (hadded : FailsFirst doc clauses key)
    (hbelow : ∀ other clause, base.get? other = some clause → other < key →
      evalClause doc other clause = .ok true) :
    FailsFirst doc (base.overlay clauses).1.clauses key := by
  obtain ⟨⟨clause, hget, hclause⟩, hsmaller⟩ := hadded
  have hkept : (base.overlay clauses).1.get? key = some clause := by
    rw [get?_overlay hordered, hget, Option.some_or]
  refine ⟨⟨clause, hkept, hclause⟩, fun other found hfound hother => ?_⟩
  rcases get?_of_overlay hordered hfound with hput | hheld
  · exact hsmaller other found hput hother
  · exact hbelow other found hheld hother

/-- Where no clause is replaced by another one, the overlay asks for both selectors. -/
theorem matches_overlay (hbase : Dict.Ordered base.clauses) (hadded : Dict.Ordered added.clauses)
    (hsilent : base.overridden added.clauses = []) (hasked : base.matches? doc = .ok asked)
    (hwanted : added.matches? doc = .ok wanted) :
    (base.overlay added.clauses).1.matches? doc = .ok (asked && wanted) := by
  have hoverlay := ordered_overlay hbase added.clauses
  unfold matches? at hasked hwanted ⊢
  cases asked with
  | true =>
    have hall := (eval_eq_true_iff hbase).mp hasked
    cases wanted with
    | true =>
      have hput := (eval_eq_true_iff hadded).mp hwanted
      refine (eval_eq_true_iff hoverlay).mpr fun key clause hget => ?_
      exact (get?_of_overlay hadded hget).elim (hput key clause) (hall key clause)
    | false =>
      obtain ⟨key, hfails⟩ := (eval_eq_false_iff hadded).mp hwanted
      exact (eval_eq_false_iff hoverlay).mpr ⟨key, failsFirst_overlay_of_added hadded hfails
        fun other clause hget _ => hall other clause hget⟩
  | false =>
    obtain ⟨key, hfails⟩ := (eval_eq_false_iff hbase).mp hasked
    refine (eval_eq_false_iff hoverlay).mpr ?_
    cases wanted with
    | true =>
      have hput := (eval_eq_true_iff hadded).mp hwanted
      exact ⟨key, failsFirst_overlay_of_base hadded hsilent hfails
        fun other clause hget _ => hput other clause hget⟩
    | false =>
      obtain ⟨first, hfirst⟩ := (eval_eq_false_iff hadded).mp hwanted
      -- Of the two clauses that fail, the one with the smaller key decides.
      by_cases hlt : first < key
      · exact ⟨first, failsFirst_overlay_of_added hadded hfirst fun other clause hget hother =>
          hfails.2 other clause hget (String.lt_trans hother hlt)⟩
      · refine ⟨key, failsFirst_overlay_of_base hadded hsilent hfails
          fun other clause hget hother => hfirst.2 other clause hget ?_⟩
        by_cases heq : key = first
        · exact heq ▸ hother
        · exact String.lt_trans hother (Dict.lt_of_not_lt_of_ne hlt heq)

end Overlays

end Selector

end DocMapper
