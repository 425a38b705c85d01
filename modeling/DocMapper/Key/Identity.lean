import DocMapper.Error

/-!
# Document identity

A record's document id is the name of its table, the separator and the text of its key.
Since no table name contains the separator, the id says which table it belongs to.
-/

namespace DocMapper

/-- What stands between the parts of generated names. -/
def separator : String := "__"

namespace Identity

/-- The id of a record's document. -/
def documentId (table : String) (key : Key) : Except Error String :=
  if Text.contains separator table then .error (.idAmbiguous table)
  else .ok (table ++ separator ++ key.toText)

/-- The text of the key in a document id. -/
def keyText (table id : String) : Except Error String :=
  match Text.after? (table ++ separator) id with
  | some text => .ok text
  | none => .error (.foreignId id table)

/-- The key of a kind that a text writes. -/
def key (kind : KeyKind) (raw : String) : Except Error Key :=
  match Key.ofText kind raw with
  | .ok key => .ok key
  | .error cause => .error (if kind = .number then .badNumber raw cause else .badBigInt raw cause)

/-- The key that a document id of a table holds. -/
def keyOf (table : String) (kind : KeyKind) (id : String) : Except Error Key := do
  key kind (← keyText table id)

end Identity

end DocMapper
