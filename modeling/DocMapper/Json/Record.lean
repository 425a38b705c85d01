import DocMapper.Json.Basic

/-!
# Records

How structured values are kept as JSON. A record is an object of its members, with unset
members left out or `null`; it may also be given as the array of its leading members in
declaration order. An alternative is an object with one member, or the name alone where
the alternative carries nothing. Members that a record does not know are ignored.
-/

namespace DocMapper.Record

/-- The members that are set, in the order given. -/
def present : List (String × Option Json) → Fields
  | [] => []
  | (name, some v) :: rest => (name, v) :: present rest
  | (_, none) :: rest => present rest

/-- A record of the members that are set; they are given in key order. -/
def ofMembers (members : List (String × Option Json)) : Json := .obj (present members)

/-- A set member, or `null`. -/
def orNull {α : Type} (encode : α → Json) : Option α → Json
  | some a => encode a
  | none => .null

/-- The members of a record with these names, of which the first `leading` at least must
    be there when the record is given as an array. -/
def members? (names : List String) (leading : Nat) : Json → Option Fields
  | .obj fields => some fields
  | .arr items =>
    if leading ≤ items.length ∧ items.length ≤ names.length then some (names.zip items) else none
  | _ => none

variable {α : Type}

/-- A member that has to be there. -/
def required (fields : Fields) (name : String) (decode : Json → Option α) : Option α :=
  (fields.get? name).bind decode

/-- A member that may be missing or `null`. -/
def optional (fields : Fields) (name : String) (decode : Json → Option α) : Option (Option α) :=
  match fields.get? name with
  | none | some .null => some none
  | some v => (decode v).map some

/-- A member with a value of its own where it is missing. -/
def defaulted (fields : Fields) (name : String) (decode : Json → Option α) (default : α) :
    Option α :=
  match fields.get? name with
  | none => some default
  | some v => decode v

/-- Every item of an array. -/
def list? (decode : Json → Option α) : Json → Option (List α)
  | .arr items => items.mapM decode
  | _ => none

/-- Every value of an object. -/
def dict? (decode : Json → Option α) : Json → Option (Dict α)
  | .obj fields => fields.mapM fun entry => (decode entry.2).map fun v => (entry.1, v)
  | _ => none

/-- Every text of an array. -/
def strings? : Json → Option (List String) := list? Json.asString?

/-- An unsigned integer of 64 bits. -/
def uint64? : Json → Option UInt64
  | .num n => n.toUInt64?
  | _ => none

/-- Any value. -/
def any? : Json → Option Json := some

/-- The name of an alternative and what it carries. -/
def alternative? : Json → Option (String × Option Json)
  | .str name => some (name, none)
  | .obj [(name, v)] => some (name, some v)
  | _ => none

/-- An alternative that carries nothing, or `null`. -/
def bareName? (v : Json) : Option String :=
  match alternative? v with
  | some (name, none) | some (name, some .null) => some name
  | _ => none

end DocMapper.Record
