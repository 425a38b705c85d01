import DocMapper.Json.Record
import DocMapper.Proofs.Dict.Order

/-!
# Records that are read back

What a member of a record was written for is read back from it, be it required, unset or left out.
-/

namespace DocMapper.Record

variable {α : Type} {encode : α → Json} {decode : Json → Option α} {fields : Fields} {name : String}

/-- A value has a JSON form from which it is read back. Some values may have none. -/
def Lossless (encode? : α → Option Json) (decode : Json → Option α) : Prop :=
  ∀ a v, encode? a = some v → decode v = some a

/-- No two values are written alike. -/
theorem Lossless.inj {encode? : α → Option Json} (hlossless : Lossless encode? decode) {a b : α}
    {v : Json} (ha : encode? a = some v) (hb : encode? b = some v) : a = b :=
  Option.some.inj ((hlossless a v ha).symm.trans (hlossless b v hb))

/-- Values are read back from their JSON form, and no two of them share one. -/
structure Faithful (encode? : α → Option Json) (decode : Json → Option α) : Prop where
  lossless : Lossless encode? decode
  apart : ∀ a b v, encode? a = some v → encode? b = some v → a = b

/-- What is read back is told apart. -/
theorem Lossless.faithful {encode? : α → Option Json} (hlossless : Lossless encode? decode) :
    Faithful encode? decode := ⟨hlossless, fun _ _ _ ha hb => hlossless.inj ha hb⟩

/-- Where every value has a form, reading it back is all there is to show. -/
theorem faithful_of_decode_encode (hread : ∀ a, decode (encode a) = some a) :
    Faithful (fun a => some (encode a)) decode := by
  refine Lossless.faithful fun a v hwritten => ?_
  cases hwritten
  exact hread a

/-! ## Lists and dictionaries -/

/-- A list of values that are read back is read back. -/
theorem list?_arr_map (hread : ∀ a, decode (encode a) = some a) (as : List α) :
    list? decode (.arr (as.map encode)) = some as := by
  rw [list?]
  induction as with
  | nil => rfl
  | cons a rest ih =>
    rw [List.map_cons, List.mapM_cons, hread, ih]
    rfl

theorem asString?_str (s : String) : (Json.str s).asString? = some s := rfl

theorem asBool?_bool (b : Bool) : (Json.bool b).asBool? = some b := rfl

theorem strings?_ofStrings (texts : List String) : strings? (.ofStrings texts) = some texts :=
  list?_arr_map asString?_str texts

/-- A dictionary of values that are read back is read back. -/
theorem dict?_mapValues (hread : ∀ a, decode (encode a) = some a) (d : Dict α) :
    dict? decode (.obj (d.mapValues encode)) = some d := by
  rw [dict?]
  induction d with
  | nil => rfl
  | cons entry rest ih =>
    rw [Dict.mapValues] at ih ⊢
    rw [List.map_cons, List.mapM_cons, hread, ih]
    rfl

theorem uint64?_ofUInt64 (n : UInt64) : uint64? (.ofUInt64 n) = some n :=
  Integer.toUInt64?_ofUInt64 n

/-! ## Members -/

/-- The members of a record are read one after another. -/
theorem read_then {β : Type} {first : Option α} {next : α → Option β} {a : α} {b : β}
    (hfirst : first = some a) (hnext : next a = some b) : first >>= next = some b := by
  rw [hfirst]
  exact hnext

theorem str_ne_null (s : String) : Json.str s ≠ .null := Json.noConfusion

theorem ofStrings_ne_null (texts : List String) : Json.ofStrings texts ≠ .null :=
  Json.noConfusion

/-- A required member is read from its value. -/
theorem required_of_get? {v : Json} (hget : fields.get? name = some v) :
    required fields name decode = decode v := by
  rw [required, hget, Option.bind_some]

/-- An optional member that is set is read from its value. -/
theorem optional_of_set {v : Json} {a : α} (hread : decode v = some a) (hset : v ≠ .null)
    (hget : fields.get? name = some v) : optional fields name decode = some (some a) := by
  rw [optional, hget]
  split
  · rename_i heq
    cases heq
  · rename_i heq
    exact absurd (Option.some.inj heq) hset
  · rename_i _ _ heq
    cases heq
    rw [hread, Option.map_some]

/-- An unset part is written as `null`, so no part that is set may be. -/
theorem optional_orNull (hread : ∀ a, decode (encode a) = some a) (hset : ∀ a, encode a ≠ .null)
    (part : Option α) (hget : fields.get? name = some (orNull encode part)) :
    optional fields name decode = some part := by
  cases part with
  | none => rw [optional, hget, orNull]
  | some a => exact optional_of_set (hread a) (hset a) hget

/-- An unset part may be left out as well. -/
theorem optional_of_get? (hread : ∀ a, decode (encode a) = some a) (hset : ∀ a, encode a ≠ .null)
    {part : Option α} (hget : fields.get? name = part.map encode) :
    optional fields name decode = some part := by
  cases part with
  | none => rw [optional, hget, Option.map_none]
  | some a => exact optional_of_set (hread a) (hset a) hget

/-- A member that is set is the one member under its name. -/
theorem get?_present {members : Dict (Option Json)} (hordered : Dict.Ordered members)
    (name : String) : Dict.get? (present members) name = (members.get? name).join := by
  induction members with
  | nil => rfl
  | cons head rest ih =>
    obtain ⟨key, part⟩ := head
    obtain ⟨hfirst, hrest⟩ := List.pairwise_cons.mp hordered
    rw [Dict.get?]
    cases part with
    | some v =>
      rw [present, Dict.get?, ih hrest]
      split <;> rfl
    | none =>
      rw [present, ih hrest]
      split
      · rename_i heq
        subst heq
        cases hget : Dict.get? rest key with
        | none => rfl
        | some part =>
          exact absurd (hfirst _ (Dict.mem_of_get? hget)) (String.lt_irrefl key)
      · rfl

end DocMapper.Record
