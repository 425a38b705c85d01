import DocMapper.Proofs.Store.Write

/-!
# Attempts to write

Every call that writes is a list of attempts, as its caller sees them: the id, the revision that
came along, and the outcome. What the attempts on one id say about revisions is an argument about
such lists alone: successful attempts on one id move it from generation to generation, and since the
generation alone tells revisions apart, no revision is assigned twice and none is accepted twice.
-/

namespace DocMapper

/-- One attempt to write a document, and how it came out. -/
structure Attempt where
  id : Option String
  supplied : Option String
  byDestroy : Bool := false
  outcome : BulkOutcome

namespace Attempt

/-- A revision was assigned. -/
def Succeeds (a : Attempt) : Prop := a.outcome.rev ≠ none

/-- No revision was assigned, and the reason is a conflict; only a destroy may also find nothing
    to delete. -/
def Refused (a : Attempt) : Prop :=
  a.outcome.rev = none ∧ (a.outcome.error = some "conflict" ∨
    a.byDestroy = true ∧ a.outcome.error = some "not_found")

/-- The attempt is on this id and comes with this revision. -/
def Supplies (id rev : String) (a : Attempt) : Prop := a.id = some id ∧ a.supplied = some rev

/-- The revision that is current for an id after the attempt. -/
def next (id : String) (current : Option String) (a : Attempt) : Option String :=
  if a.id = some id then a.outcome.rev.or current else current

/-- The attempt obeys the revision rules of an id whose current revision is this one: it assigns
    the next generation, and it accepts the current revision only. -/
structure Fits (id : String) (current : Option String) (a : Attempt) : Prop where
  generation_eq : a.id = some id → ∀ rev, a.outcome.rev = some rev →
    Revision.generation rev = Revision.generationOf current + 1
  supplied_eq : a.id = some id → a.Succeeds → ∀ rev, a.supplied = some rev → current = some rev
  refused : a.id = some id → ¬a.Succeeds → ∀ rev, a.supplied = some rev → a.Refused

/-- The attempts obey the revision rules one after another. -/
def Fitting (id : String) : Option String → List Attempt → Prop
  | _, [] => True
  | current, a :: rest => a.Fits id current ∧ Fitting id (a.next id current) rest

/-- The revisions assigned to an id, in the order of the attempts. -/
def assigned (id : String) (attempts : List Attempt) : List String :=
  attempts.filterMap fun a => if a.id = some id then a.outcome.rev else none

/-- The revisions that came with the successful attempts on an id, in the order of the attempts. -/
def accepted (id : String) (attempts : List Attempt) : List String :=
  attempts.filterMap fun a => if a.id = some id ∧ a.outcome.rev.isSome then a.supplied else none

variable {id : String} {current : Option String} {a : Attempt} {attempts : List Attempt}

theorem fitting_append {later : List Attempt} : Fitting id current (attempts ++ later) ↔
    Fitting id current attempts ∧ Fitting id (attempts.foldl (next id) current) later := by
  induction attempts generalizing current with
  | nil => simp [Fitting]
  | cons a rest ih =>
    rw [List.cons_append, Fitting, Fitting, ih, List.foldl_cons, and_assoc]

/-- A successful attempt moves the id to the next generation. -/
theorem Fits.generationOf_next_of_succeeds (hfits : a.Fits id current) (hid : a.id = some id)
    (hsucceeds : a.Succeeds) :
    Revision.generationOf (a.next id current) = Revision.generationOf current + 1 := by
  obtain ⟨rev, hrev⟩ := Option.ne_none_iff_exists'.mp hsucceeds
  rw [next, if_pos hid, hrev, Option.some_or, Revision.generationOf_some]
  exact hfits.generation_eq hid rev hrev

/-- No attempt takes an id back to an earlier generation. -/
theorem Fits.generationOf_le_next (hfits : a.Fits id current) :
    Revision.generationOf current ≤ Revision.generationOf (a.next id current) := by
  by_cases hid : a.id = some id
  · by_cases hsucceeds : a.Succeeds
    · have hnext := hfits.generationOf_next_of_succeeds hid hsucceeds
      omega
    · have hrev : a.outcome.rev = none := Classical.not_not.mp hsucceeds
      have hnext : a.next id current = current := by
        rw [next, if_pos hid, hrev, Option.none_or]
      exact Nat.le_of_eq (congrArg Revision.generationOf hnext.symm)
  · have hnext : a.next id current = current := if_neg hid
    exact Nat.le_of_eq (congrArg Revision.generationOf hnext.symm)

/-- Whatever is assigned or accepted later belongs to no earlier generation. -/
theorem Fitting.generation_bounds (hfitting : Fitting id current attempts) :
    ∀ a ∈ attempts, a.id = some id →
      (∀ rev, a.outcome.rev = some rev → Revision.generationOf current < Revision.generation rev) ∧
      (a.Succeeds → ∀ rev, a.supplied = some rev →
        Revision.generationOf current ≤ Revision.generation rev) := by
  induction attempts generalizing current with
  | nil => simp
  | cons head rest ih =>
    obtain ⟨hfits, hrest⟩ := hfitting
    have hstep := hfits.generationOf_le_next
    intro a ha hid
    rcases List.mem_cons.mp ha with rfl | ha
    · constructor
      · intro rev hrev
        have hgeneration := hfits.generation_eq hid rev hrev
        omega
      · intro hsucceeds rev hsupplied
        have hcurrent := hfits.supplied_eq hid hsucceeds rev hsupplied
        exact Nat.le_of_eq (congrArg Revision.generationOf hcurrent)
    · obtain ⟨hassigned, haccepted⟩ := ih hrest a ha hid
      constructor
      · intro rev hrev
        exact Nat.lt_of_le_of_lt hstep (hassigned rev hrev)
      · intro hsucceeds rev hsupplied
        exact Nat.le_trans hstep (haccepted hsucceeds rev hsupplied)

theorem Fitting.refused (hfitting : Fitting id current attempts) :
    ∀ a ∈ attempts, a.id = some id → ¬a.Succeeds → ∀ rev, a.supplied = some rev → a.Refused := by
  induction attempts generalizing current with
  | nil => simp
  | cons head rest ih =>
    intro a ha
    rcases List.mem_cons.mp ha with rfl | ha
    · exact hfitting.1.refused
    · exact ih hfitting.2 a ha

/-! ## Successions -/

/-- What a successful attempt is assigned, and what it comes with, precedes the same of every
    later successful attempt. -/
theorem Fitting.generation_lt (hfitting : Fitting id current attempts) :
    attempts.Pairwise fun first second =>
      first.id = some id → second.id = some id → first.Succeeds → second.Succeeds →
        (∀ rev later, first.outcome.rev = some rev → second.outcome.rev = some later →
          Revision.generation rev < Revision.generation later) ∧
        (∀ rev later, first.supplied = some rev → second.supplied = some later →
          Revision.generation rev < Revision.generation later) := by
  induction attempts generalizing current with
  | nil => exact List.Pairwise.nil
  | cons first rest ih =>
    obtain ⟨hfits, hrest⟩ := hfitting
    refine List.Pairwise.cons ?_ (ih hrest)
    intro second hmem hfirst hsecond hsucceeds hagain
    -- The success of the first leaves the next generation current, and nothing falls below that.
    have hnext := hfits.generationOf_next_of_succeeds hfirst hsucceeds
    obtain ⟨hassigned, haccepted⟩ := hrest.generation_bounds second hmem hsecond
    constructor
    · intro rev later hrev hlater
      have hgeneration := hfits.generation_eq hfirst rev hrev
      have hbound := hassigned later hlater
      omega
    · intro rev later hrev hlater
      have hcurrent := hfits.supplied_eq hfirst hsucceeds rev hrev
      have hbound := haccepted hagain later hlater
      rw [hnext, hcurrent, Revision.generationOf_some] at hbound
      omega

/-- The generation that an id has reached counts the revisions that it was assigned. -/
theorem Fitting.generationOf_foldl_next (hfitting : Fitting id current attempts) :
    Revision.generationOf (attempts.foldl (next id) current) =
      Revision.generationOf current + (assigned id attempts).length := by
  induction attempts generalizing current with
  | nil => rfl
  | cons a rest ih =>
    obtain ⟨hfits, hrest⟩ := hfitting
    rw [List.foldl_cons, ih hrest]
    by_cases hid : a.id = some id
    · by_cases hsucceeds : a.Succeeds
      · obtain ⟨rev, hrev⟩ := Option.ne_none_iff_exists'.mp hsucceeds
        rw [hfits.generationOf_next_of_succeeds hid hsucceeds]
        simp only [assigned, List.filterMap_cons, if_pos hid, hrev, List.length_cons]
        omega
      · have hrev : a.outcome.rev = none := Classical.not_not.mp hsucceeds
        simp [assigned, next, hid, hrev]
    · simp [assigned, next, hid]

theorem Fitting.assigned_nodup (hfitting : Fitting id current attempts) :
    (assigned id attempts).Nodup := by
  refine List.pairwise_filterMap.mpr (hfitting.generation_lt.imp ?_)
  intro first second hlt rev hrev later hlater heq
  obtain ⟨hfirst, hrev⟩ := Option.ite_none_right_eq_some.mp hrev
  obtain ⟨hsecond, hlater⟩ := Option.ite_none_right_eq_some.mp hlater
  have hsucceeds : first.Succeeds := Option.ne_none_iff_exists'.mpr ⟨rev, hrev⟩
  have hagain : second.Succeeds := Option.ne_none_iff_exists'.mpr ⟨later, hlater⟩
  have hgeneration := (hlt hfirst hsecond hsucceeds hagain).1 rev later hrev hlater
  rw [heq] at hgeneration
  exact Nat.lt_irrefl _ hgeneration

theorem Fitting.accepted_nodup (hfitting : Fitting id current attempts) :
    (accepted id attempts).Nodup := by
  refine List.pairwise_filterMap.mpr (hfitting.generation_lt.imp ?_)
  intro first second hlt rev hrev later hlater heq
  obtain ⟨⟨hfirst, hsome⟩, hrev⟩ := Option.ite_none_right_eq_some.mp hrev
  obtain ⟨⟨hsecond, hagain⟩, hlater⟩ := Option.ite_none_right_eq_some.mp hlater
  have hgeneration := (hlt hfirst hsecond (Option.isSome_iff_ne_none.mp hsome)
    (Option.isSome_iff_ne_none.mp hagain)).2 rev later hrev hlater
  rw [heq] at hgeneration
  exact Nat.lt_irrefl _ hgeneration

/-- Of two attempts with one revision, the success of either means that the other is refused,
    whichever of them came first. -/
theorem Fitting.other_refused (hfitting : Fitting id current attempts) :
    attempts.Pairwise fun first second => ∀ rev, first.Supplies id rev → second.Supplies id rev →
      (first.Succeeds → second.Refused) ∧ (second.Succeeds → first.Refused) := by
  refine hfitting.generation_lt.imp_of_mem ?_
  intro first second hfirstmem hsecondmem hlt rev hfirst hsecond
  have hnotboth : first.Succeeds → ¬second.Succeeds := by
    intro hsucceeds hagain
    have hgeneration :=
      (hlt hfirst.1 hsecond.1 hsucceeds hagain).2 rev rev hfirst.2 hsecond.2
    exact Nat.lt_irrefl _ hgeneration
  constructor
  · intro hsucceeds
    exact hfitting.refused second hsecondmem hsecond.1 (hnotboth hsucceeds) rev hsecond.2
  · intro hagain
    have hfails : ¬first.Succeeds := fun hsucceeds => hnotboth hsucceeds hagain
    exact hfitting.refused first hfirstmem hfirst.1 hfails rev hfirst.2

end Attempt

end DocMapper
