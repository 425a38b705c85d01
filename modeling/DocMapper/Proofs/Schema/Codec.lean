import DocMapper.Proofs.Json.Record
import DocMapper.Schema.Codec

/-!
# Declarations as JSON

Main statement: conditions, selectors, queries, views and schemas are read back from their JSON
form as they were, unset, empty and null parts included, so no two of them are written alike.
-/

namespace DocMapper

open Record

/-! ## Conditions and queries -/

/-- A condition reads back from JSON, however deep it is nested. -/
theorem Condition.decode?_encode (c : Condition) : decode? c.encode = some c := by
  induction c with
  | leaf attr operator value =>
    have hoperator : Record.required [("attribute", .str attr), ("operator", operator.encode),
        ("value", value)] "operator" Operator.decode? = some operator :=
      (required_of_get? rfl).trans (Operator.decode?_encode operator)
    rw [encode, decode?, if_pos rfl, hoperator]
    rfl
  | not condition comparison ih =>
    have hcondition : decodeMember? "condition" [("comparison", comparison),
        ("condition", condition.encode)] = some condition := ih
    rw [encode, decode?, if_neg (by decide), if_pos rfl, hcondition]
    rfl
  | group left operator right ihleft ihright =>
    have hleft : decodeMember? "left" [("left", left.encode), ("operator", operator.encode),
        ("right", right.encode)] = some left := ihleft
    have hright : decodeMember? "right" [("left", left.encode), ("operator", operator.encode),
        ("right", right.encode)] = some right := ihright
    have hoperator : Record.required [("left", left.encode), ("operator", operator.encode),
        ("right", right.encode)] "operator" GroupOperator.decode? = some operator :=
      (required_of_get? rfl).trans (GroupOperator.decode?_encode operator)
    rw [encode, decode?, if_neg (by decide), if_neg (by decide), if_pos rfl, hleft, hright,
      hoperator]
    rfl

theorem Condition.encode_ne_null (c : Condition) : c.encode ≠ .null := by
  cases c <;> exact Json.noConfusion

theorem Direction.decode?_encode (d : Direction) : decode? d.encode = some d := by
  cases d <;> rfl

theorem SortField.decode?_encode (s : SortField) : decode? s.encode = some s := by
  rw [encode, decode?, Direction.decode?_encode]
  rfl

/-- The parts of a query under their names, in key order. -/
def Query.parts (q : Query) : Dict (Option Json) := [
  ("bookmark", q.bookmark.map .str),
  ("fields", q.fields.map .ofStrings),
  ("limit", q.limit.map .ofUInt64),
  ("selector", some q.selector.toJson),
  ("skip", q.skip.map .ofUInt64),
  ("sort", if q.sort.isEmpty then none else some (.arr (q.sort.map SortField.encode)))]

/-- A written query has its members in order. -/
theorem Query.ordered_parts (q : Query) : Dict.Ordered q.parts := by
  unfold Dict.Ordered parts
  simp only [List.pairwise_cons, List.forall_mem_cons]
  decide

/-- An order is left out where it is empty, and an empty one is read where there is none. -/
theorem Query.defaulted_sort (q : Query) {fields : Fields}
    (hget : fields.get? "sort" =
      if q.sort.isEmpty then none else some (.arr (q.sort.map SortField.encode))) :
    defaulted fields "sort" (list? SortField.decode?) [] = some q.sort := by
  rw [defaulted, hget]
  cases hsort : q.sort with
  | nil => rfl
  | cons first rest => exact list?_arr_map SortField.decode?_encode (first :: rest)

/-- A query is read back with every one of its parts. -/
theorem Query.decode?_encode (q : Query) : decode? q.encode = some q := by
  have hget := get?_present q.ordered_parts
  refine read_then (rfl : members? _ _ q.encode = some (present q.parts)) ?_
  refine read_then (required_of_get? (hget "selector")) ?_
  refine read_then (optional_of_get? strings?_ofStrings ofStrings_ne_null (hget "fields")) ?_
  refine read_then (q.defaulted_sort (hget "sort")) ?_
  refine read_then (optional_of_get? uint64?_ofUInt64 (fun _ => Json.noConfusion)
    (hget "limit")) ?_
  refine read_then (optional_of_get? uint64?_ofUInt64 (fun _ => Json.noConfusion)
    (hget "skip")) ?_
  exact read_then (optional_of_get? asString?_str str_ne_null (hget "bookmark")) rfl

/-! ## Views -/

theorem ViewKind.decode?_encode (k : ViewKind) : decode? k.encode = some k := by
  cases k <;> rfl

theorem ViewValue.decode?_encode (v : ViewValue) : decode? v.encode = some v := by
  cases v with
  | doc => rfl
  | fields names =>
    have hnames : decode? (fields names).encode = (strings? (.ofStrings names)).map fields := rfl
    rw [hnames, strings?_ofStrings, Option.map_some]
  | literal v => rfl

theorem ViewValue.encode_ne_null (v : ViewValue) : v.encode ≠ .null := by
  cases v <;> exact Json.noConfusion

theorem RoleMode.decode?_encode (m : RoleMode) : decode? m.encode = some m := by
  cases m <;> rfl

theorem ViewAuth.decode?_encode (a : ViewAuth) : decode? a.encode = some a := by
  cases a with
  | expression script => rfl
  | roles field names mode =>
    rw [encode, decode?, alternative?]
    refine read_then ((required_of_get? rfl).trans (asString?_str field)) ?_
    refine read_then ((required_of_get? rfl).trans (strings?_ofStrings names)) ?_
    exact read_then ((required_of_get? rfl).trans (RoleMode.decode?_encode mode)) rfl

theorem ViewAuth.encode_ne_null (a : ViewAuth) : a.encode ≠ .null := by
  cases a <;> exact Json.noConfusion

theorem list?_directions (directions : List Direction) :
    list? Direction.decode? (.arr (directions.map Direction.encode)) = some directions :=
  list?_arr_map Direction.decode?_encode directions

/-- A view specification is read back with every one of its parts. -/
theorem ViewSpec.decode?_encode (s : ViewSpec) : decode? s.encode = some s := by
  refine read_then rfl ?_
  refine read_then ((required_of_get? rfl).trans (ViewKind.decode?_encode s.kind)) ?_
  refine read_then ((required_of_get? rfl).trans (asString?_str s.attr)) ?_
  refine read_then (optional_orNull asString?_str str_ne_null s.name rfl) ?_
  refine read_then (optional_orNull asString?_str str_ne_null s.ddoc rfl) ?_
  refine read_then (optional_orNull strings?_ofStrings ofStrings_ne_null s.key rfl) ?_
  refine read_then (optional_orNull ViewValue.decode?_encode ViewValue.encode_ne_null s.value
    rfl) ?_
  refine read_then (optional_orNull asString?_str str_ne_null s.map rfl) ?_
  refine read_then (optional_orNull asString?_str str_ne_null s.reduce rfl) ?_
  refine read_then (optional_orNull Condition.decode?_encode Condition.encode_ne_null s.condition
    rfl) ?_
  refine read_then (optional_orNull ViewAuth.decode?_encode ViewAuth.encode_ne_null s.auth rfl) ?_
  refine read_then ((required_of_get? rfl).trans (strings?_ofStrings s.compositions)) ?_
  refine read_then ((required_of_get? rfl).trans (list?_directions s.directions)) ?_
  exact read_then ((required_of_get? rfl).trans (asBool?_bool s.returnDocs)) rfl

/-! ## Schemas -/

theorem AttributeType.decode?_encode (t : AttributeType) : decode? t.encode = some t := by
  cases t <;> rfl

theorem KeyKind.decode?_encode (k : KeyKind) : decode? k.encode = some k := by
  cases k <;> rfl

/-- An integer of 128 bits that JSON has: it fits 64 bits, signed or unsigned. -/
def SequenceOptions.FitsNumber (n : Signed 128) : Prop :=
  -9223372036854775808 ≤ n.val ∧ n.val < 18446744073709551616

/-- A bound is written if a number can hold it. -/
theorem SequenceOptions.encodeBound_eq_some_iff (n : Signed 128) :
    (∃ v, encodeBound n = some v) ↔ FitsNumber n := by
  unfold encodeBound Integer.ofInt? FitsNumber
  split <;> simp_all

/-- A bound that has a JSON form is read back. -/
theorem SequenceOptions.decodeBound?_of_encodeBound {n : Signed 128} {v : Json}
    (hwritten : encodeBound n = some v) : decodeBound? v = some n := by
  unfold encodeBound at hwritten
  obtain ⟨m, hm, rfl⟩ := Option.map_eq_some_iff.mp hwritten
  unfold Integer.ofInt? at hm
  split at hm
  · cases hm
    exact Signed.ofInt?_val n
  · cases hm

/-- The bounds of a sequence fit a JSON integer. -/
def SequenceOptions.BoundsFit (o : SequenceOptions) : Prop :=
  FitsNumber o.startWith ∧ FitsNumber o.incrementBy

/-- Options are written if their bounds are. -/
theorem SequenceOptions.encode?_eq_some_iff (o : SequenceOptions) :
    (∃ v, o.encode? = some v) ↔ o.BoundsFit := by
  rw [encode?, BoundsFit, ← encodeBound_eq_some_iff, ← encodeBound_eq_some_iff]
  constructor
  · rintro ⟨v, hwritten⟩
    obtain ⟨increment, hincrement, hwritten⟩ := Option.bind_eq_some_iff.mp hwritten
    obtain ⟨start, hstart, -⟩ := Option.bind_eq_some_iff.mp hwritten
    exact ⟨⟨start, hstart⟩, ⟨increment, hincrement⟩⟩
  · rintro ⟨⟨start, hstart⟩, ⟨increment, hincrement⟩⟩
    exact ⟨_, read_then hincrement (read_then hstart rfl)⟩

/-- Options that are written are read back. -/
theorem SequenceOptions.lossless : Lossless encode? decode? := by
  intro o v hwritten
  obtain ⟨increment, hincrement, hwritten⟩ := Option.bind_eq_some_iff.mp hwritten
  obtain ⟨start, hstart, hwritten⟩ := Option.bind_eq_some_iff.mp hwritten
  cases hwritten
  refine read_then rfl ?_
  refine read_then (optional_orNull asString?_str str_ne_null o.name rfl) ?_
  refine read_then ((required_of_get? rfl).trans (decodeBound?_of_encodeBound hstart)) ?_
  exact read_then ((required_of_get? rfl).trans (decodeBound?_of_encodeBound hincrement)) rfl

theorem SequenceOptions.encode?_ne_null {o : SequenceOptions} {v : Json}
    (hwritten : o.encode? = some v) : v ≠ .null := by
  obtain ⟨_, _, hwritten⟩ := Option.bind_eq_some_iff.mp hwritten
  obtain ⟨_, _, hwritten⟩ := Option.bind_eq_some_iff.mp hwritten
  cases hwritten
  exact Json.noConfusion

/-- An unset sequence is written as `null`, and a set one only if it has a form. -/
theorem PrimaryKey.encode?_eq_some {k : PrimaryKey} {v : Json} (hwritten : k.encode? = some v) :
    ∃ sequence, v = .obj [("attribute", .str k.attr), ("kind", k.kind.encode),
        ("sequence", sequence)] ∧
      ((k.sequence = none ∧ sequence = .null) ∨
        ∃ o, k.sequence = some o ∧ o.encode? = some sequence) := by
  obtain ⟨attr, kind, _ | o⟩ := k
  · cases hwritten
    exact ⟨.null, rfl, .inl ⟨rfl, rfl⟩⟩
  · obtain ⟨sequence, hsequence, hwritten⟩ := Option.bind_eq_some_iff.mp hwritten
    cases hwritten
    exact ⟨sequence, rfl, .inr ⟨o, rfl, hsequence⟩⟩

theorem PrimaryKey.lossless : Lossless encode? decode? := by
  intro k v hwritten
  obtain ⟨sequence, rfl, hsequence⟩ := encode?_eq_some hwritten
  refine read_then rfl ?_
  refine read_then ((required_of_get? rfl).trans (asString?_str k.attr)) ?_
  refine read_then ((required_of_get? rfl).trans (KeyKind.decode?_encode k.kind)) ?_
  rcases hsequence with ⟨hnone, rfl⟩ | ⟨o, hsome, hwritten⟩
  · refine read_then rfl ?_
    rw [← hnone]
    rfl
  · refine read_then (optional_of_set (SequenceOptions.lossless o sequence hwritten)
      (SequenceOptions.encode?_ne_null hwritten) rfl) ?_
    rw [← hsome]
    rfl

/-- A primary key is written if its sequence is. -/
theorem PrimaryKey.encode?_eq_some_iff (k : PrimaryKey) :
    (∃ v, k.encode? = some v) ↔ ∀ o, k.sequence = some o → o.BoundsFit := by
  obtain ⟨attr, kind, _ | o⟩ := k
  · exact Iff.intro (fun _ _ hset => nomatch hset) (fun _ => ⟨_, rfl⟩)
  · constructor
    · rintro ⟨v, hwritten⟩ o' hset
      cases hset
      obtain ⟨sequence, hsequence, -⟩ := Option.bind_eq_some_iff.mp hwritten
      exact o.encode?_eq_some_iff.mp ⟨sequence, hsequence⟩
    · intro hfit
      obtain ⟨sequence, hsequence⟩ := o.encode?_eq_some_iff.mpr (hfit o rfl)
      exact ⟨_, read_then hsequence rfl⟩

theorem IndexSpec.decode?_encode (s : IndexSpec) : decode? s.encode = some s := by
  refine read_then rfl ?_
  refine read_then ((required_of_get? rfl).trans (asString?_str s.attr)) ?_
  refine read_then ((required_of_get? rfl).trans (strings?_ofStrings s.compositions)) ?_
  exact read_then ((required_of_get? rfl).trans (list?_directions s.directions)) rfl

/-- A schema that is written is read back. -/
theorem Schema.lossless : Lossless encode? decode? := by
  intro s v hwritten
  obtain ⟨key, hkey, hwritten⟩ := Option.bind_eq_some_iff.mp hwritten
  cases hwritten
  refine read_then rfl ?_
  refine read_then ((required_of_get? rfl).trans (asString?_str s.table)) ?_
  refine read_then ((required_of_get? rfl).trans (PrimaryKey.lossless _ _ hkey)) ?_
  refine read_then ((required_of_get? rfl).trans
    (dict?_mapValues AttributeType.decode?_encode s.attributes)) ?_
  refine read_then ((required_of_get? rfl).trans
    (list?_arr_map IndexSpec.decode?_encode s.indexes)) ?_
  refine read_then ((required_of_get? rfl).trans
    (strings?_ofStrings s.defaultQueryAttributes)) ?_
  exact read_then ((required_of_get? rfl).trans
    (list?_arr_map ViewSpec.decode?_encode s.views)) rfl

/-- Only a sequence with a bound that JSON has no integer for leaves a schema without a form. -/
theorem Schema.encode?_eq_some_iff (s : Schema) :
    (∃ v, s.encode? = some v) ↔ ∀ o, s.primaryKey.sequence = some o → o.BoundsFit := by
  rw [← PrimaryKey.encode?_eq_some_iff]
  constructor
  · rintro ⟨v, hwritten⟩
    obtain ⟨key, hkey, -⟩ := Option.bind_eq_some_iff.mp hwritten
    exact ⟨key, hkey⟩
  · rintro ⟨key, hkey⟩
    exact ⟨_, read_then hkey rfl⟩

/-- Every condition, query, view and schema is read back from its JSON form, and no two are
    written alike. Only a schema may have no form, and then for the bounds of its sequence. -/
theorem forms_lose_nothing :
    Faithful (fun c => some c.encode) Condition.decode? ∧
    Faithful (fun s => some s.toJson) Selector.decode? ∧
    Faithful (fun s => some s.encode) SortField.decode? ∧
    Faithful (fun s => some (.arr (s.map SortField.encode))) (list? SortField.decode?) ∧
    Faithful (fun q => some q.encode) Query.decode? ∧
    Faithful (fun s => some s.encode) ViewSpec.decode? ∧
    Faithful Schema.encode? Schema.decode? ∧
    ∀ s : Schema, (∃ v, s.encode? = some v) ↔ ∀ o, s.primaryKey.sequence = some o → o.BoundsFit :=
  ⟨faithful_of_decode_encode Condition.decode?_encode,
    faithful_of_decode_encode fun _ => rfl,
    faithful_of_decode_encode SortField.decode?_encode,
    faithful_of_decode_encode (list?_arr_map SortField.decode?_encode),
    faithful_of_decode_encode Query.decode?_encode,
    faithful_of_decode_encode ViewSpec.decode?_encode,
    Schema.lossless.faithful,
    Schema.encode?_eq_some_iff⟩

end DocMapper
