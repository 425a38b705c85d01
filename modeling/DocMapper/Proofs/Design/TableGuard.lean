import DocMapper.Design.View
import DocMapper.Proofs.Script.Conjunctions

/-!
# The guard of a table

The map function of a declared view passes documents for which all its guards hold, joined with
`&&`, and the first guard asks for the table. Main statement: it decides for every document unless
the expression of an access rule binds more loosely than `&&`, since that stands there without
brackets.
-/

namespace DocMapper.ViewSpec

open Script

variable {s : ViewSpec}

/-- The guard that a document belongs to a table. -/
def tableGuard (table : String) : String :=
  (Guard.test .strictEqual tableField (.str table)).text "doc"

/-- All guards in one. -/
def joinedGuards (table : String) (s : ViewSpec) : String := " && ".intercalate (s.guards table)

/-- A map function without a map of its own checks the guards and emits. -/
theorem mapFunction_eq (hmap : s.map = none) (table : String) : s.mapFunction table =
    "function (doc) \x7b\n  if (!(" ++ s.joinedGuards table ++ ")) return;\n  emit(" ++
      s.emittedKey ++ ", " ++ s.emittedValue ++ ");\n\x7d" := by
  rw [mapFunction, hmap]
  rfl

theorem operand_doc : Operand "doc".toList := operand_of_all (by decide) (by decide)

/-- Every guard is an operand. -/
theorem operand_guard (g : Guard) : Operand (g.text "doc").toList := g.operand_text operand_doc

/-- The check that a document has a role. -/
def roleCheck (field role : String) : String :=
  "(" ++ docField field ++ " || []).indexOf(" ++ literal role ++ ") !== -1"

/-- A role check is a span, whatever its field and its role are. -/
theorem spans_roleCheck (field role : String) : ∃ top, Spans (roleCheck field role).toList top := by
  obtain ⟨top, hfield, -⟩ := operand_member operand_doc field
  have htext : (roleCheck field role).toList =
      ('(' :: ((Guard.member "doc" field).toList ++ (" || ".toList ++ ('[' :: [] ++ [']']))) ++
        [')']) ++ (".indexOf".toList ++
          (('(' :: Json.quote role ++ [')']) ++ " !== -1".toList)) := by
    simp [roleCheck, docField, literal, Json.text, Json.write]
  rw [htext]
  exact ⟨_, (hfield.append ((spans_of_isPlain (by decide)).append spans_nil.square)).round.append
    ((spans_of_isPlain (by decide)).append
      ((spans_quote role).round.append (spans_of_isPlain (by decide))))⟩

/-- The checks of an access rule stand in brackets. -/
theorem operand_roles {field : String} {names : List String} {mode : RoleMode} {guard : String}
    (hguard : authGuard (.roles field names mode) = some guard) : Operand guard.toList := by
  cases names with
  | nil => cases hguard
  | cons first others =>
    cases hguard
    have hchecks : ∀ text ∈ ((first :: others).map (roleCheck field)).map String.toList,
        ∃ top, Spans text top := by
      intro text htext
      obtain ⟨check, hcheck, rfl⟩ := List.mem_map.mp htext
      obtain ⟨role, -, rfl⟩ := List.mem_map.mp hcheck
      exact spans_roleCheck field role
    have hjoined : ∀ {joiner : String}, joiner.toList.all isPlain = true →
        Operand ("(" ++ joiner.intercalate ((first :: others).map (roleCheck field)) ++
          ")").toList := by
      intro joiner hjoiner
      obtain ⟨top, hspans⟩ := spans_intercalate (spans_of_isPlain hjoiner) hchecks
      rw [← String.toList_intercalate] at hspans
      rw [String.toList_append, String.toList_append]
      exact operand_round hspans
    cases mode with
    | any => exact hjoined (by decide)
    | all => exact hjoined (by decide)

/-- The guards in front of an access rule are operands, and the first asks for the table. -/
theorem guards_eq_append (table : String) (s : ViewSpec) :
    ∃ front, s.guards table = tableGuard table :: front ++ (s.auth.bind authGuard).toList ∧
      ∀ guard ∈ tableGuard table :: front, Operand guard.toList := by
  refine ⟨_, rfl, List.forall_mem_cons.mpr ⟨operand_guard _, List.forall_mem_append.mpr ⟨?_, ?_⟩⟩⟩
  · intro guard hguard
    obtain ⟨condition, -, rfl⟩ := Option.map_eq_some_iff.mp (Option.mem_toList.mp hguard)
    exact operand_guard condition.guard
  · intro guard hguard
    split at hguard
    · rw [List.mem_singleton.mp hguard]
      exact operand_guard _
    · cases hguard

theorem toList_joinedGuards (table : String) (s : ViewSpec) :
    (s.joinedGuards table).toList = joined ((s.guards table).map String.toList) :=
  String.toList_intercalate

theorem trim_tableGuard (table : String) :
    Text.trim (tableGuard table).toList = (tableGuard table).toList := by
  have htext : (tableGuard table).toList = 'd' :: ("oc[\"??table\"] === ".toList ++
      '"' :: table.toList.flatMap Json.escape) ++ ['"'] := by
    simp [tableGuard, Guard.text, Guard.member, Comparison.sign, Json.text, Json.write, Json.quote,
      tableField, Json.escape]
  rw [htext]
  exact Text.trim_of_ends (by decide) (by decide) _

/-- The guards leave nothing open, and something binds more loosely than `&&` exactly if it does in
    the expression of the access rule. -/
theorem closed_loose_joinedGuards (table : String)
    (hclosed : ∀ script, s.auth = some (.expression script) → Closed script.toList) :
    Closed (s.joinedGuards table).toList ∧
      (Loose (s.joinedGuards table).toList ↔
        ∃ script, s.auth = some (.expression script) ∧ Loose script.toList) := by
  obtain ⟨front, hguards, hfront⟩ := guards_eq_append table s
  have hoperands : ∀ text ∈ (tableGuard table :: front).map String.toList, Operand text := by
    intro text htext
    obtain ⟨guard, hguard, rfl⟩ := List.mem_map.mp htext
    exact hfront guard hguard
  rw [toList_joinedGuards, hguards, List.map_append]
  cases hauth : s.auth with
  | none =>
    obtain ⟨hends, hloose⟩ := closed_joined_of_operands (List.cons_ne_nil _ _) hoperands
    rw [Option.bind_none, Option.toList_none, List.map_nil, List.append_nil]
    exact ⟨hends, fun h => absurd h hloose, fun ⟨_, hscript, _⟩ => nomatch hscript⟩
  | some auth =>
    cases auth with
    | expression script =>
      obtain ⟨hends, hloose⟩ := closed_loose_joined hoperands script.toList
      refine ⟨hends.mpr (hclosed script hauth), hloose.trans ⟨fun h => ⟨script, rfl, h⟩, ?_⟩⟩
      rintro ⟨_, heq, h⟩
      cases heq
      exact h
    | roles field names mode =>
      have hall : ∀ text ∈ (tableGuard table :: front).map String.toList ++
          ((authGuard (.roles field names mode)).toList).map String.toList, Operand text := by
        refine List.forall_mem_append.mpr ⟨hoperands, fun text htext => ?_⟩
        obtain ⟨guard, hguard, rfl⟩ := List.mem_map.mp htext
        exact operand_roles (Option.mem_toList.mp hguard)
      obtain ⟨hends, hloose⟩ := closed_joined_of_operands
        (List.append_ne_nil_of_left_ne_nil (List.cons_ne_nil _ _) _) hall
      exact ⟨hends, fun h => absurd h hloose, fun ⟨_, hscript, _⟩ => nomatch hscript⟩

/-- The first alternative of the guards asks for the table. -/
theorem tableGuard_mem_operands (table : String) (s : ViewSpec) {first : List Char}
    (hfirst : first ∈ (alternatives (s.joinedGuards table).toList).head?) :
    (tableGuard table).toList ∈ operands first := by
  obtain ⟨front, hguards, hfront⟩ := guards_eq_append table s
  rw [toList_joinedGuards, hguards, List.cons_append, List.map_cons] at hfirst
  rw [← trim_tableGuard]
  exact trim_mem_operands_joined (hfront _ List.mem_cons_self) _ hfirst

/-- The guards of a map function leave nothing open, and the table is asked for by an operand of
    their first alternative. They have other alternatives, or anything else that binds more loosely
    than `&&`, exactly if the expression of the access rule has. Else they hold only of documents
    of the table, whatever their operands mean. The rule's expression has to be closed itself. -/
theorem table_decides_unless_loose (table : String) (hmap : s.map = none)
    (hclosed : ∀ script, s.auth = some (.expression script) → Closed script.toList) :
    s.mapFunction table = "function (doc) \x7b\n  if (!(" ++ s.joinedGuards table ++
        ")) return;\n  emit(" ++ s.emittedKey ++ ", " ++ s.emittedValue ++ ");\n\x7d" ∧
      Closed (s.joinedGuards table).toList ∧
      (∀ first ∈ (alternatives (s.joinedGuards table).toList).head?,
        (tableGuard table).toList ∈ operands first) ∧
      (Loose (s.joinedGuards table).toList ↔
        ∃ script, s.auth = some (.expression script) ∧ Loose script.toList) ∧
      (¬Loose (s.joinedGuards table).toList →
        ∀ truth, valueUnder truth (s.joinedGuards table).toList = true →
          truth (tableGuard table).toList = true) := by
  obtain ⟨hends, hloose⟩ := closed_loose_joinedGuards table hclosed
  refine ⟨mapFunction_eq hmap table, hends, fun _ => tableGuard_mem_operands table s, hloose,
    fun hone truth hvalue => true_of_valueUnder hone hvalue _ (tableGuard_mem_operands table s ?_)⟩
  rw [alternatives_of_not_loose hone]
  rfl

/-- A view with a condition, a constant of marks, and alternatives in brackets. -/
def bracketedSample : ViewSpec where
  kind := .count
  attr := "size"
  value := some (.literal (.str ") || (\""))
  condition := some (.or (.leaf "tag" .oneOf (.arr [.str "a,b"]))
    (.leaf "name" .regexp (.str "^[)]")))
  auth := some (.expression "(doc.public || doc.admin) && !/[|/]{2}/.test(doc.name)")

theorem table_decides_bracketedSample :
    Closed (bracketedSample.joinedGuards "t").toList ∧
      ∀ truth, valueUnder truth (bracketedSample.joinedGuards "t").toList = true →
        truth (tableGuard "t").toList = true := by
  have hclosed : ∀ script, bracketedSample.auth = some (.expression script) →
      Closed script.toList := by
    intro script hscript
    cases hscript
    exact ⟨true, by decide +kernel⟩
  obtain ⟨-, hends, -, hloose, hdecides⟩ := table_decides_unless_loose "t" rfl hclosed
  refine ⟨hends, hdecides fun h => ?_⟩
  obtain ⟨script, hscript, hscriptLoose⟩ := hloose.mp h
  cases hscript
  exact absurd hscriptLoose (by decide +kernel)

/-- A view for the public documents of a table and, as its author may mean, those of the
    administrator. -/
def publicOrAdminSample : ViewSpec where
  kind := .view
  attr := "name"
  auth := some (.expression "doc.public || doc.admin")

/-- The second alternative of an access rule lets documents of other tables pass. -/
theorem loose_expression_passes_other_tables :
    ¬∀ (table : String) (s : ViewSpec), s.map = none →
      (∀ script, s.auth = some (.expression script) → Closed script.toList) →
        ∀ truth, valueUnder truth (s.joinedGuards table).toList = true →
          truth (tableGuard table).toList = true := by
  intro hdecides
  have hclosed : ∀ script, publicOrAdminSample.auth = some (.expression script) →
      Closed script.toList := by
    intro script hscript
    cases hscript
    exact ⟨true, by decide +kernel⟩
  have htable := hdecides "t" publicOrAdminSample rfl hclosed
    (fun operand => operand == "doc.admin".toList) (by decide +kernel)
  exact absurd htable (by decide +kernel)

end DocMapper.ViewSpec
