import DocMapper.Proofs.Aggregate.GroupKeys
import DocMapper.Proofs.Dict.Grouping
import DocMapper.Statement.Output

/-!
# Groups and distinct values

Documents are grouped by the values that an aggregate would find distinct, as long as none of these
is a text that other values share as the key of their group. Main statement: which values are in one
group, and how the number of groups compares to that of the distinct values.
-/

namespace DocMapper.Aggregate

variable {type : Option AttributeType} {attr : String} {docs : List Document} {v w : Json}

/-- The groups of documents with a value, whatever it is. -/
def valuedGroups (attr : String) (type : Option AttributeType) (docs : List Document) :
    Dict (List Document) :=
  (Model.groupDocuments attr type docs).filter fun group =>
    group.2.any fun doc => (Dict.get? doc attr).isSome

theorem groupDocuments_eq_grouped (attr : String) (type : Option AttributeType)
    (docs : List Document) : Model.groupDocuments attr type docs =
      Dict.grouped (fun doc => groupKey (Dict.get? doc attr) type) docs := rfl

theorem nodup_keys_valuedGroups (attr : String) (type : Option AttributeType)
    (docs : List Document) : (valuedGroups attr type docs).keys.Nodup := by
  have hordered : Dict.Ordered (valuedGroups attr type docs) :=
    (Dict.ordered_grouped (fun doc => groupKey (Dict.get? doc attr) type) docs).filter _
  refine List.pairwise_map.mpr (List.Pairwise.imp ?_ hordered)
  intro first second hlt heq
  exact String.ne_of_lt hlt heq

/-- The keys of groups with a value are those of the values. -/
theorem mem_keys_valuedGroups_iff {k : String} :
    k ∈ (valuedGroups attr type docs).keys ↔
      ∃ v ∈ valuesAt attr docs, groupKey (some v) type = k := by
  rw [Dict.keys, valuedGroups, groupDocuments_eq_grouped, List.mem_map]
  constructor
  · rintro ⟨⟨key, members⟩, hgroup, rfl⟩
    obtain ⟨hmem, hvalued⟩ := List.mem_filter.mp hgroup
    obtain ⟨_, rfl⟩ := Dict.mem_grouped_iff.mp hmem
    obtain ⟨doc, hdoc, hsome⟩ := List.any_eq_true.mp hvalued
    obtain ⟨v, hv⟩ := Option.isSome_iff_exists.mp hsome
    obtain ⟨hdocs, hkey⟩ := List.mem_filter.mp hdoc
    refine ⟨v, mem_valuesAt_iff.mpr ⟨doc, hdocs, hv⟩, ?_⟩
    rw [← hv]
    exact of_decide_eq_true hkey
  · rintro ⟨v, hv, rfl⟩
    obtain ⟨doc, hdoc, hget⟩ := mem_valuesAt_iff.mp hv
    have hkey : groupKey (Dict.get? doc attr) type = groupKey (some v) type := by rw [hget]
    refine ⟨(_, _), List.mem_filter.mpr
      ⟨Dict.mem_grouped_iff.mpr ⟨⟨doc, hdoc, hkey⟩, rfl⟩, ?_⟩, rfl⟩
    refine List.any_eq_true.mpr ⟨doc, List.mem_filter.mpr ⟨hdoc, decide_eq_true hkey⟩, ?_⟩
    rw [hget, Option.isSome_some]

/-- There are as many groups with a value as classes of values by the keys of groups. -/
theorem length_valuedGroups (attr : String) (type : Option AttributeType) (docs : List Document) :
    (valuedGroups attr type docs).length =
      (firstOfEach (fun v => groupKey (some v) type) [] (valuesAt attr docs)).length := by
  have hperm : (valuedGroups attr type docs).keys.Perm
      ((firstOfEach (fun v => groupKey (some v) type) [] (valuesAt attr docs)).map
        fun v => groupKey (some v) type) :=
    (List.perm_ext_iff_of_nodup (nodup_keys_valuedGroups attr type docs)
      (nodup_map_firstOfEach _ _)).mpr fun k =>
        mem_keys_valuedGroups_iff.trans mem_map_firstOfEach_iff.symm
  have hlength := hperm.length_eq
  rwa [Dict.keys, List.length_map, List.length_map] at hlength

/-- A text that stands for itself is told apart from every other value. -/
theorem Coincides.eq_of_valueKey_eq (hcoincides : Coincides type (some v) (some w))
    (heq : valueKey v type = valueKey w type) : v = w := by
  obtain ⟨s, hs, hnone, _⟩ := hcoincides
  cases hs
  by_cases hw : ∃ t, w = .str t
  · obtain ⟨t, rfl⟩ := hw
    rcases valueKey_str_eq_iff.mp heq with rfl | ⟨hdate, millis, hread, _⟩
    · rfl
    · rw [instant?, if_pos hdate, hread] at hnone
      cases hnone
  · exact absurd heq (valueKey_str_ne (not_exists.mp hw) s)

/-- Grouping and distinct values agree but for texts that stand for themselves. Two values have one
    group exactly if both are missing, if distinct values count them as one, or if one of them is
    such a text and the key of the other's group. There are never more groups of documents with a
    value than distinct values, and as many exactly if no such text is the key of another value. -/
theorem groups_and_distinct :
    (∀ (type : Option AttributeType) (v w : Option Json),
      groupKey v type = groupKey w type ↔ (v = none ∧ w = none) ∨
        (∃ x y, v = some x ∧ w = some y ∧ valueKey x type = valueKey y type) ∨
        Coincides type v w ∨ Coincides type w v) ∧
      ∀ (schema : Schema) (attr : String) (docs : List Document), ∃ distinct,
        compute schema ⟨.distinct, some attr⟩ docs = .ok (.values distinct) ∧
          (valuedGroups attr (schema.attributeType? attr) docs).length ≤ distinct.length ∧
          ((valuedGroups attr (schema.attributeType? attr) docs).length = distinct.length ↔
            ∀ v ∈ valuesAt attr docs, ∀ w ∈ valuesAt attr docs,
              Coincides (schema.attributeType? attr) (some v) (some w) → v = w) := by
  refine ⟨fun type v w => groupKey_eq_iff, fun schema attr docs => ?_⟩
  generalize htype : schema.attributeType? attr = type
  have hfiner : ∀ x ∈ valuesAt attr docs, ∀ y ∈ valuesAt attr docs,
      valueKey x type = valueKey y type → groupKey (some x) type = groupKey (some y) type :=
    fun x _ y _ => groupKey_eq_of_valueKey_eq
  refine ⟨firstOfEach (valueKey · type) [] (valuesAt attr docs), by rw [← htype]; rfl, ?_⟩
  rw [length_valuedGroups]
  refine ⟨length_firstOfEach_le_of_finer hfiner, ?_⟩
  rw [length_firstOfEach_eq_iff_of_finer hfiner]
  constructor
  · intro hsame v hv w hw hcoincides
    refine hcoincides.eq_of_valueKey_eq (hsame v hv w hw ?_)
    exact groupKey_eq_iff.mpr (.inr (.inr (.inl hcoincides)))
  · intro hapart v hv w hw hkey
    rcases groupKey_eq_iff.mp hkey with ⟨hnone, _⟩ | ⟨x, y, hx, hy, heq⟩ | hvw | hwv
    · cases hnone
    · cases hx
      cases hy
      exact heq
    · rw [hapart v hv w hw hvw]
    · rw [hapart w hw v hv hwv]

/-- The number one and its text are in one group, and so are `null` and its text, although they are
    distinct values. -/
theorem texts_share_groups :
    groupKey (some (.num (.int ⟨1, by decide, by decide⟩))) none =
        groupKey (some (.str "1")) none ∧
      valueKey (.num (.int ⟨1, by decide, by decide⟩)) none ≠ valueKey (.str "1") none ∧
      (valuedGroups "size" none [[("size", .null)], [("size", .str "null")]]).length = 1 ∧
      computeAt .distinct "size" none [[("size", .null)], [("size", .str "null")]] =
        .ok (.values [.null, .str "null"]) := by
  refine ⟨?_, ?_, by decide, by decide⟩
  · decide +kernel
  · decide +kernel

end DocMapper.Aggregate
