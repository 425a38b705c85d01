import DocMapper.Proofs.Dict.Entries
import DocMapper.Proofs.Statement.Grouping

/-!
# Groups of parts

Documents are grouped when the store has answered them, and where a statement selects attributes the
store answers no others. Main statement: a selection leaves the groups as they are exactly if it
keeps the attribute to group by, or if there is nothing that it could take from them.
-/

namespace DocMapper

open Adapter MemoryStore

/-! ## Plans with one selection more -/

namespace Statement

variable {s : Statement} {queryLimit : UInt64} {attr : String} {fields : List String}
  {query : Query} {warnings : List Warning}

theorem selection_add_select (s : Statement) (fields : List String) :
    (s.add (.select fields)).selection = s.selection ++ fields := by
  have heach : (s.add (.select fields)).each Clause.select? = s.each Clause.select? ++ [fields] := by
    rw [each, add, List.filterMap_append]
    rfl
  rw [selection, heach, List.flatten_append, List.flatten_singleton, selection]

theorem findPlan_add_select {table : String} {manual asked : Option AggregateRequest}
    {groupBy : Option String} (hfields : fields ≠ [])
    (hplan : s.findPlan queryLimit table manual = .ok (.find query asked groupBy, warnings)) :
    (s.add (.select fields)).findPlan queryLimit table manual =
      .ok (.find { query with fields := some (s.selection ++ fields) } asked groupBy, warnings) := by
  have hselection : ((s.add (.select fields)).each Clause.select?).flatten = s.selection ++ fields :=
    selection_add_select s fields
  have hsome : (s.selection ++ fields).isEmpty = false :=
    List.isEmpty_eq_false_iff.mpr (List.append_ne_nil_of_right_ne_nil _ hfields)
  simp only [findPlan, hselection, hsome] at hplan ⊢
  rw [each_add_of_none rfl, each_add_of_none rfl, last?_add_of_none rfl, last?_add_of_none rfl,
    last?_add_of_none rfl]
  split at hplan
  · cases hplan
  · cases hplan
    rfl

/-- With one selection more, a statement that groups asks for the attributes that it selects in
    all, and otherwise for the same. -/
theorem plan_add_select (hgroup : s.last? Clause.groupBy? = some attr) (hfields : fields ≠ [])
    (hplan : s.plan queryLimit = .ok (.find query none (some attr), warnings)) :
    (s.add (.select fields)).plan queryLimit =
      .ok (.find { query with fields := some (s.selection ++ fields) } none (some attr), warnings) := by
  obtain ⟨schema, htarget, haggregate, hfind⟩ := findPlan_of_groupBy hgroup hplan
  rw [plan_of_no_aggregate ((last?_add_of_none rfl s).trans htarget)
    ((last?_add_of_none rfl s).trans haggregate)]
  exact findPlan_add_select hfields hfind

end Statement

/-! ## Documents and their parts -/

namespace MemoryStore

/-- Whether documents keep an attribute where only some are asked for. -/
def Keeps (fields : Option (List String)) (attr : String) : Prop := ∀ names ∈ fields, attr ∈ names

theorem get?_project_of_keeps {fields : Option (List String)} {attr : String}
    (hkeeps : Keeps fields attr) (doc : Document) :
    Dict.get? (project fields doc) attr = Dict.get? doc attr := by
  cases fields with
  | none => rfl
  | some names =>
    have hfilter := Dict.get?_filter_keys (fun name => decide (name ∈ names)) doc attr
    rwa [if_pos (decide_eq_true (hkeeps names rfl))] at hfilter

theorem get?_project_of_not_keeps {fields : Option (List String)} {attr : String}
    (hdrops : ¬Keeps fields attr) (doc : Document) :
    Dict.get? (project fields doc) attr = none := by
  cases fields with
  | none => exact absurd (fun names hnames => by cases hnames) hdrops
  | some names =>
    have hmissing : attr ∉ names := by
      intro hmem
      refine hdrops fun other hother => ?_
      cases hother
      exact hmem
    have hfilter := Dict.get?_filter_keys (fun name => decide (name ∈ names)) doc attr
    rwa [if_neg (by rwa [decide_eq_true_eq])] at hfilter

/-- What a query answers in parts are the parts of what it answers in whole. -/
theorem answerQuery_fields {store : MemoryStore} {q : Query} {whole : FindAnswer}
    (hanswer : store.answerQuery { q with fields := none } = .ok whole)
    (fields : Option (List String)) : ∃ answer,
      store.answerQuery { q with fields } = .ok answer ∧
        answer.docs = whole.docs.map (project fields) := by
  obtain ⟨hcovers, hits, first, hfound, hstart, hwhole⟩ := answerQuery_eq_ok hanswer
  obtain ⟨answer, hanswer, hdocs, _⟩ :=
    answerQuery_of_found (q := { q with fields }) hcovers hfound hstart
  refine ⟨answer, hanswer, ?_⟩
  rw [hdocs, hwhole, List.map_map]
  rfl

end MemoryStore

namespace Model

variable {α : Type} {m : Model α} {a : Adapter} {s : Statement} {attr : String}
  {fields : List String} {query : Query} {whole : FindAnswer} {warnings : List Warning}
  {docs : List Document} {manual : Option AggregateRequest} {groupBy : Option String}

/-- The key of the group that a document without a value belongs to. -/
def missingKey : String := "undefined"

theorem groupOf_project_of_keeps {fields : Option (List String)} (hkeeps : Keeps fields attr)
    (m : Model α) (doc : Document) : m.groupOf attr (project fields doc) = m.groupOf attr doc := by
  rw [groupOf, get?_project_of_keeps hkeeps, groupOf]

theorem groupOf_project_of_not_keeps {fields : Option (List String)} (hdrops : ¬Keeps fields attr)
    (m : Model α) (doc : Document) : m.groupOf attr (project fields doc) = missingKey := by
  rw [groupOf, get?_project_of_not_keeps hdrops]
  rfl

/-- Documents under the keys that their parts have. -/
def groupsOfParts (m : Model α) (attr : String) (fields : Option (List String))
    (docs : List Document) : Dict (List Document) :=
  Dict.grouped (fun doc => m.groupOf attr (project fields doc)) docs

/-- Groups have, under the keys of documents, the rows that the parts of these documents make. -/
def MakesGroups (m : Model α) (fields : Option (List String)) (members : Dict (List Document))
    (groups : Dict (Rows α)) : Prop :=
  groups.keys = members.keys ∧ ∀ key, groups.get? key =
    (members.get? key).bind fun docs => (m.rowsIn fields.isSome (docs.map (project fields))).toOption

/-- The groups of rows where only parts are asked for: the parts of documents, under keys. -/
def partGroups (fields : List String) (members : Dict (List Document)) : Dict (Rows α) :=
  members.mapValues fun docs => .parts (docs.map (project (some fields)))

theorem ordered_groupsOfParts (m : Model α) (attr : String) (fields : Option (List String))
    (docs : List Document) : (m.groupsOfParts attr fields docs).Ordered :=
  Dict.ordered_grouped _ docs

theorem groupsIn_parts (m : Model α) (attr : String) (fields : List String)
    (docs : List Document) : m.groupsIn attr true (docs.map (project (some fields))) =
      .ok (partGroups fields (m.groupsOfParts attr (some fields) docs)) := by
  rw [groupsIn, Dict.grouped_map, Dict.mapValues, List.mapM_map, groupsOfParts, partGroups,
    Dict.mapValues]
  exact mapM_eq_ok_map fun group _ => rfl

/-- Parts determine their groups. -/
theorem makesGroups_parts_iff {members own : Dict (List Document)} (hmembers : members.Ordered)
    (hown : own.Ordered) : m.MakesGroups (some fields) members (partGroups fields own) ↔
      (partGroups fields own : Dict (Rows α)) = partGroups fields members := by
  constructor
  · intro hmakes
    refine Dict.eq_of_get?_eq (Dict.ordered_mapValues _ hown)
      (Dict.ordered_mapValues _ hmembers) fun key => ?_
    rw [hmakes.2, partGroups, Dict.get?_mapValues]
    cases members.get? key <;> rfl
  · intro heq
    rw [heq]
    refine ⟨Dict.keys_mapValues _ _, fun key => ?_⟩
    rw [partGroups, Dict.get?_mapValues]
    cases members.get? key <;> rfl

/-- Two lists of attributes make the same groups exactly if both keep the attribute to group by or
    neither does, or no document has a group other than that of missing values. -/
theorem partGroups_eq_iff {kept other : Option (List String)} :
    (partGroups fields (m.groupsOfParts attr kept docs) : Dict (Rows α)) =
        partGroups fields (m.groupsOfParts attr other docs) ↔
      (Keeps kept attr ↔ Keeps other attr) ∨ ∀ doc ∈ docs, m.groupOf attr doc = missingKey := by
  -- Where only one of them keeps it, the other has a single group.
  have hsplit : ∀ {kept other : Option (List String)}, Keeps kept attr → ¬Keeps other attr →
      (m.groupsOfParts attr kept docs).keys = (m.groupsOfParts attr other docs).keys →
        ∀ doc ∈ docs, m.groupOf attr doc = missingKey := by
    intro kept other hkept hother hkeys doc hdoc
    have hkey : m.groupOf attr doc ∈ (m.groupsOfParts attr kept docs).keys :=
      Dict.mem_keys_grouped_iff.mpr ⟨doc, hdoc, groupOf_project_of_keeps hkept m doc⟩
    rw [hkeys] at hkey
    obtain ⟨own, _, hown⟩ := Dict.mem_keys_grouped_iff.mp hkey
    rw [← hown, groupOf_project_of_not_keeps hother]
  constructor
  · intro heq
    have hkeys := congrArg Dict.keys heq
    rw [partGroups, partGroups, Dict.keys_mapValues, Dict.keys_mapValues] at hkeys
    by_cases hkept : Keeps kept attr <;> by_cases hother : Keeps other attr
    · exact .inl (iff_of_true hkept hother)
    · exact .inr (hsplit hkept hother hkeys)
    · exact .inr (hsplit hother hkept hkeys.symm)
    · exact .inl (iff_of_false hkept hother)
  · intro hsame
    have hgroups : m.groupsOfParts attr kept docs = m.groupsOfParts attr other docs := by
      refine Dict.grouped_congr fun doc hdoc => ?_
      by_cases hkept : Keeps kept attr <;> by_cases hother : Keeps other attr
      · rw [groupOf_project_of_keeps hkept, groupOf_project_of_keeps hother]
      · rw [groupOf_project_of_keeps hkept, groupOf_project_of_not_keeps hother]
        exact hsame.resolve_left (fun hiff => hother (hiff.mp hkept)) doc hdoc
      · rw [groupOf_project_of_not_keeps hkept, groupOf_project_of_keeps hother]
        exact (hsame.resolve_left (fun hiff => hkept (hiff.mpr hother)) doc hdoc).symm
      · rw [groupOf_project_of_not_keeps hkept, groupOf_project_of_not_keeps hother]
    rw [hgroups]

/-- A part makes a row at any rate, a whole document where there is a model in it. -/
theorem exists_entryOf_project (hdecodes : ∀ doc ∈ docs, ∃ x, m.modelOf doc = .ok x)
    (fields : Option (List String)) :
    ∀ doc ∈ docs, ∃ entry, m.entryOf fields.isSome (project fields doc) = .ok entry := by
  intro doc hdoc
  cases fields with
  | some names => exact ⟨.inr _, rfl⟩
  | none =>
    obtain ⟨x, hx⟩ := hdecodes doc hdoc
    exact ⟨.inl x, by rw [entryOf, project, hx]; rfl⟩

/-- Where every part makes a row, the groups have the rows that the parts of their documents make. -/
theorem exists_groupsIn (attr : String) {fields : Option (List String)}
    (hentries : ∀ doc ∈ docs, ∃ entry, m.entryOf fields.isSome (project fields doc) = .ok entry) :
    ∃ groups, m.groupsIn attr fields.isSome (docs.map (project fields)) = .ok groups ∧
      m.MakesGroups fields (m.groupsOfParts attr fields docs) groups := by
  have hrows : ∀ group ∈ Dict.grouped (m.groupOf attr) (docs.map (project fields)),
      ∃ entry : String × Rows α,
        (m.rowsIn fields.isSome group.2 >>= fun rows => .ok (group.1, rows)) = .ok entry := by
    rintro ⟨key, members⟩ hgroup
    obtain ⟨_, rfl⟩ := Dict.mem_grouped_iff.mp hgroup
    obtain ⟨rows, hrows⟩ := m.exists_rowsIn fun doc hdoc => by
      obtain ⟨own, hown, rfl⟩ := List.mem_map.mp (List.mem_of_mem_filter hdoc)
      exact hentries own hown
    exact ⟨(key, rows), by rw [hrows]; rfl⟩
  obtain ⟨groups, hgroups⟩ := exists_mapM_eq_ok hrows
  obtain ⟨hkeys, hget⟩ := Dict.get?_of_mapM hgroups
  rw [Dict.grouped_map, Dict.keys_mapValues] at hkeys
  refine ⟨groups, hgroups, hkeys, fun key => ?_⟩
  rw [hget, Dict.grouped_map, Dict.get?_mapValues, groupsOfParts]
  cases Dict.get? _ key <;> rfl

/-- A selection that is added to a statement that groups leaves the groups as they are, with the
    parts of the same documents in the same order, exactly if it neither drops the attribute to
    group by nor brings it in, or if all documents answered are in the group of missing values. -/
theorem select_keeps_groups_iff (m : Model α) (hunstaged : a.Unstaged)
    (hgroup : s.last? Clause.groupBy? = some attr)
    (hplan : s.plan a.config.queryLimit = .ok (.find query manual groupBy, warnings))
    (hfields : fields ≠ [])
    (hanswer : a.connection.store.answerQuery { query with fields := none } = .ok whole)
    (hdecodes : ∀ doc ∈ whole.docs, ∃ x, m.modelOf doc = .ok x) :
    ∃ groups parted, (m.execute s a).1 = .ok (.groups groups) ∧
      (m.execute (s.add (.select fields)) a).1 = .ok (.groups parted) ∧
      m.MakesGroups query.fields (m.groupsOfParts attr query.fields whole.docs) groups ∧
      (m.MakesGroups (some (s.selection ++ fields))
          (m.groupsOfParts attr query.fields whole.docs) parted ↔
        (attr ∈ s.selection ++ fields ↔ s.selection = [] ∨ attr ∈ s.selection) ∨
          ∀ doc ∈ whole.docs, m.groupOf attr doc = missingKey) := by
  obtain ⟨_, hfound, _, hselected⟩ := Statement.plan_of_groupBy hgroup hplan
  cases hfound
  obtain ⟨answer, hfirst, hdocs⟩ := answerQuery_fields hanswer query.fields
  obtain ⟨parts, hsecond, hparts⟩ := answerQuery_fields hanswer (some (s.selection ++ fields))
  obtain ⟨groups, hgroups, hmakes⟩ :=
    exists_groupsIn attr (exists_entryOf_project hdecodes query.fields)
  refine ⟨groups, partGroups (s.selection ++ fields)
    (m.groupsOfParts attr (some (s.selection ++ fields)) whole.docs), ?_, ?_, hmakes, ?_⟩
  · rw [m.execute_of_groups hplan (find_of_answer hunstaged hfirst), hdocs, hgroups]
    rfl
  · rw [m.execute_of_groups (Statement.plan_add_select hgroup hfields hplan)
      (find_of_answer hunstaged hsecond), hparts]
    exact congrArg (Except.map Output.groups)
      (m.groupsIn_parts attr (s.selection ++ fields) whole.docs)
  · have hall : Keeps (some (s.selection ++ fields)) attr ↔ attr ∈ s.selection ++ fields := by
      simp only [Keeps, Option.mem_some_iff, forall_eq']
    have hown : Keeps query.fields attr ↔ s.selection = [] ∨ attr ∈ s.selection := by
      rw [hselected]
      by_cases hempty : s.selection = [] <;> simp [Keeps, hempty]
    rw [makesGroups_parts_iff (m.ordered_groupsOfParts _ _ _) (m.ordered_groupsOfParts _ _ _),
      partGroups_eq_iff, hall, hown]

/-- With the color among the parts the groups stay, without it they do not. -/
theorem select_keeps_groups_iff_paintRack :
    let m := Model.plain shelfSchema [] []
    ∃ groups parted, (m.execute paintGroups paintRack).1 = .ok (.groups groups) ∧
      (m.execute (paintGroups.add (.select ["_id", "color"])) paintRack).1 = .ok (.groups parted) ∧
      m.MakesGroups none (m.groupsOfParts "color" none paintRack.documents.values) groups ∧
      m.MakesGroups (some ["_id", "color"])
        (m.groupsOfParts "color" none paintRack.documents.values) parted := by
  intro m
  obtain ⟨query, hplan, hfields, answer, hanswer, hdocs⟩ := plan_paintGroups
  have hwhole : paintRack.connection.store.answerQuery { query with fields := none } =
      .ok answer := by
    rw [← hfields]
    exact hanswer
  obtain ⟨groups, parted, hgroups, hparted, hmakes, hiff⟩ :=
    m.select_keeps_groups_iff (s := paintGroups) (a := paintRack) rfl rfl hplan
      (List.cons_ne_nil "_id" ["color"]) hwhole (by rw [hdocs]; exact decodes_paintRack)
  rw [hfields, hdocs] at hmakes hiff
  exact ⟨groups, parted, hgroups, hparted, hmakes, hiff.mpr (.inl (by decide))⟩

/-- Where only the ids of the items are selected, all of them end up in one group. -/
theorem select_merges_groups :
    let m := Model.plain shelfSchema [] []
    (∀ doc ∈ paintRack.documents.values, ∃ x, m.modelOf doc = .ok x) ∧
      ∃ groups parted, (m.execute paintGroups paintRack).1 = .ok (.groups groups) ∧
        (m.execute (paintGroups.add (.select ["_id"])) paintRack).1 = .ok (.groups parted) ∧
        groups.keys = ["null", "red", "undefined"] ∧ parted.keys = ["undefined"] := by
  intro m
  obtain ⟨query, hplan, hfields, answer, hanswer, hdocs⟩ := plan_paintGroups
  have hwhole : paintRack.connection.store.answerQuery { query with fields := none } =
      .ok answer := by
    rw [← hfields]
    exact hanswer
  obtain ⟨parts, hparts, hprojected⟩ := answerQuery_fields hwhole (some ["_id"])
  have hgroups := m.execute_of_groups hplan (find_of_answer (a := paintRack) rfl hanswer)
  have hgroup : paintGroups.last? Clause.groupBy? = some "color" := rfl
  have hparted := m.execute_of_groups
    (Statement.plan_add_select hgroup (List.cons_ne_nil "_id" []) hplan)
    (find_of_answer (a := paintRack) rfl hparts)
  obtain ⟨groups, hmade, hkeys, _⟩ :=
    exists_groupsIn "color" (exists_entryOf_project decodes_paintRack none)
  rw [hfields, hdocs] at hgroups
  rw [hprojected, hdocs] at hparted
  refine ⟨decodes_paintRack, groups, _, hgroups.trans (congrArg _ hmade), hparted.trans
    (congrArg _ (m.groupsIn_parts "color" ["_id"] _)), hkeys.trans (by decide), ?_⟩
  rw [partGroups, Dict.keys_mapValues]
  decide

end Model

end DocMapper
