import DocMapper.Proofs.Repository.Walk

/-!
# Statements through an adapter

Running a statement is heedful: models are made only of documents that the store has, and only the
revisions of these are remembered. The calls that a run makes are those of its plan, and what is made
of the answers makes no calls.
-/

namespace DocMapper

open DocMapper.Action Adapter MemoryStore

namespace Adapter

theorem connection_ask {a : Adapter} {subject : Option String} {call : Call}
    (hunstaged : a.Unstaged) :
    (ask subject call a).2.connection = a.connection.after [call] := by
  rw [ask_snd hunstaged]
  rfl

/-- The store holds the revisions in whole documents that are found. -/
def HoldsFound (q : Query) (documents : Dict Document) (answer : FindAnswer) : Prop :=
  q.fields = none → ∀ doc ∈ answer.docs, ∀ id rev, doc.id? = some id → doc.revision? = some rev →
    Holds documents id rev

/-- The documents found are documents that the store holds. -/
theorem brings_find (q : Query) : Brings (HoldsFound q) (find q) := by
  intro a b answer hunstaged hkept hfind hfields doc hmem id rev hid hrev
  obtain ⟨hanswer, rfl⟩ := ask_eq_ok hunstaged hfind
  obtain ⟨_, hits, first, hfound, _, hdocs⟩ := answerQuery_eq_ok hanswer
  rw [hdocs, hfields] at hmem
  obtain ⟨own, hown, rfl⟩ := List.mem_map.mp hmem
  exact hkept.holds_of_found hfound (List.mem_of_mem_drop (List.mem_of_mem_take hown)) hid hrev

end Adapter

namespace Model

variable {α : Type}

/-- The documents of groups are the documents that were grouped. -/
theorem mem_of_groupDocuments (attr : String) (type : Option AttributeType) (docs : List Document) :
    ∀ group ∈ groupDocuments attr type docs, ∀ doc ∈ group.2, doc ∈ docs := by
  -- The groups so far have documents of the list only, and each step adds one to a group.
  have hfold : ∀ (rest : List Document) (groups : Dict (List Document)),
      (∀ doc ∈ rest, doc ∈ docs) → (∀ group ∈ groups, ∀ doc ∈ group.2, doc ∈ docs) →
        ∀ group ∈ rest.foldl (fun groups doc =>
          let key := Aggregate.groupKey (Dict.get? doc attr) type
          groups.insert key ((groups.get? key).getD [] ++ [doc])) groups,
            ∀ doc ∈ group.2, doc ∈ docs := by
    intro rest
    induction rest with
    | nil => exact fun _ _ hgroups => hgroups
    | cons doc rest ih =>
      intro groups hdocs hgroups
      obtain ⟨hdoc, hrest⟩ := List.forall_mem_cons.mp hdocs
      refine ih _ hrest fun group hgroup => ?_
      rcases Dict.mem_of_mem_insert hgroup with rfl | hold
      · refine List.forall_mem_append.mpr ⟨?_, List.forall_mem_singleton.mpr hdoc⟩
        cases hget : groups.get? (Aggregate.groupKey (Dict.get? doc attr) type) with
        | none => exact List.forall_mem_nil _
        | some members => exact hgroups _ (Dict.mem_of_get? hget)
      · exact hgroups group hold
  exact hfold docs [] (fun _ => id) (List.forall_mem_nil _)

/-- Found documents may be remembered on the way to their rows. -/
theorem notes_rowsOf_of_found (m : Model α) {query : Query} {documents : Dict Document}
    {answer : FindAnswer} {docs : List Document} (hheld : HoldsFound query documents answer)
    (hdocs : ∀ doc ∈ docs, doc ∈ answer.docs) :
    Notes (Holds documents) (m.rowsOf query.fields.isSome docs) := by
  refine m.along_rowsOf fun hselected doc hmem id rev hid hrev => notes_remember ?_
  have hwhole : query.fields = none :=
    Option.isNone_iff_eq_none.mp (Option.isSome_eq_false_iff.mp hselected)
  exact hheld hwhole doc (hdocs doc hmem) id rev hid hrev

/-- A query remembers none but the documents that it found. -/
theorem heedful_findOutput (m : Model α) (query : Query) (groupBy : Option String) :
    Heedful (m.findOutput query groupBy) := by
  refine heedful_bind_of_notes (along_find (fun _ => allows_passing_any _) query) (brings_find query)
    fun documents answer hheld => ?_
  cases groupBy with
  | none => exact along_bind (m.notes_rowsOf_of_found hheld fun _ => id) fun _ _ => along_pure _
  | some attr =>
    refine along_bind (along_mapM fun group hgroup => ?_) fun _ _ => along_pure _
    exact along_bind (m.notes_rowsOf_of_found hheld (mem_of_groupDocuments _ _ _ group hgroup))
      fun _ _ => along_pure _

theorem heedful_carryOut (m : Model α) (plan : Plan) : Heedful (m.carryOut plan) := by
  cases plan with
  | view plan =>
    exact heedful_of_quiet
      (along_bind (along_viewAggregate fun _ _ _ => allows_passing_any _) fun _ _ => along_pure _)
  | find query manual groupBy =>
    cases manual with
    | none => exact m.heedful_findOutput query groupBy
    | some request =>
      exact heedful_of_quiet (along_bind along_get fun _ _ =>
        along_bind (along_scan (fun _ => allows_passing_any _) _ _) fun _ _ =>
          along_lift_bind fun _ _ => along_pure _)

/-- Executing a statement remembers nothing but what the store holds. -/
theorem heedful_execute (m : Model α) (s : Statement) : Heedful (m.execute s) :=
  heedful_bind_of_quiet (along_planOf s) fun plan => m.heedful_carryOut plan

theorem heedful_fetch (m : Model α) (s : Statement) : Heedful (m.fetch s) := by
  refine heedful_bind_of_pure (m.heedful_execute s) fun output => ?_
  split
  · exact ⟨.ok _, rfl⟩
  · exact ⟨.error _, rfl⟩
  · exact ⟨.error _, rfl⟩

/-- Aggregating remembers nothing beyond what executing does. -/
theorem heedful_aggregate (m : Model α) (s : Statement) : Heedful (m.aggregate s) := by
  refine heedful_bind_of_pure (m.heedful_execute s) fun output => ?_
  split
  · exact ⟨.ok _, rfl⟩
  · exact ⟨.error _, rfl⟩

theorem heedful_raw (m : Model α) (query : Query) : Heedful (m.raw query) :=
  heedful_bind_of_notes (along_find (fun _ => allows_passing_any _) query) (brings_find query)
    fun _ _ hheld => m.notes_rowsOf_of_found hheld fun _ => id

/-- A page makes the adapter remember what the store holds, whatever pager it starts from. -/
theorem heeds_page (m : Model α) (n : Nat) (q : Pager) {a : Adapter} (hunstaged : a.Unstaged)
    (hkept : WellKept a.documents) : Heeds a (m.page n q a).2 :=
  m.page_snd n q (Passes.refl (fun _ => True) a).heeds
    (fun _ => heeds_of_notes (m.along_rowsOf fun _ _ hmem => absurd hmem List.not_mem_nil))
    fun query => m.heedful_raw query a hunstaged hkept

/-! ## Calls of a plan -/

section Plans

variable {a : Adapter} {s : Statement} {plan : Plan} {warnings : List Warning}

theorem notes_rows (m : Model α) (selected : Bool) (docs : List Document) :
    Notes (fun _ _ => True) (m.rowsOf selected docs) :=
  m.along_rowsOf fun _ _ _ _ _ _ _ => notes_remember trivial

/-- A statement without a plan is refused before anything is done. -/
theorem execute_of_plan_error (m : Model α) {e : Error}
    (hplan : s.plan a.config.queryLimit = .error e) : m.execute s a = (.error e, a) :=
  bind_of_error (planOf_of_error hplan)

/-- A statement that can be planned is carried out by its plan. -/
theorem execute_of_plan (m : Model α)
    (hplan : s.plan a.config.queryLimit = .ok (plan, warnings)) :
    m.execute s a = m.carryOut plan a :=
  bind_of_ok (planOf_of_ok hplan)

/-- A view plan makes the calls of its aggregate. -/
theorem connection_carryOut_view (m : Model α) (plan : ViewPlan) :
    (m.carryOut (.view plan) a).2.connection = (viewAggregate plan a).2.connection :=
  connection_bind fun _ => along_pure _

/-- A plan without an aggregate asks its query once. -/
theorem connection_carryOut_find (m : Model α) (query : Query) (groupBy : Option String)
    (hunstaged : a.Unstaged) :
    (m.carryOut (.find query none groupBy) a).2.connection = a.connection.after [.find query] := by
  have hask : (Adapter.find query a).2.connection = a.connection.after [.find query] :=
    connection_ask hunstaged
  rw [← hask]
  refine connection_bind fun answer => ?_
  cases groupBy with
  | none => exact along_bind (m.notes_rows _ _) fun _ _ => along_pure _
  | some attr =>
    exact along_bind
      (along_mapM fun group _ => along_bind (m.notes_rows _ _) fun _ _ => along_pure _)
      fun _ _ => along_pure _

/-- An aggregate without views makes the calls of its scan. -/
theorem connection_carryOut_scan (m : Model α) (query : Query) (request : AggregateRequest)
    (groupBy : Option String) :
    (m.carryOut (.find query (some request) groupBy) a).2.connection =
      (scan query a.config.pageSize a).2.connection := by
  rw [carryOut, get_bind]
  exact connection_bind fun _ => along_bind (along_lift _) fun _ _ => along_pure _

end Plans

end Model

end DocMapper
