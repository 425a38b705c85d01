import DocMapper.Condition.Compile
import DocMapper.Design.View
import DocMapper.Store.Message

/-!
# Indexes

The indexes that models need: one on the table field for all models, and for every declared
index, default query attribute and view key a plain one, restricted to the table, and one
for each direction. Indexes are known by name, and of those with one name the first stays.
-/

namespace DocMapper

namespace IndexRequest

/-- A request that keeps the index in a design document of its own name. -/
def named (name : String) (index : IndexDefinition) : IndexRequest :=
  { index, name, ddoc := some name }

/-- Add the requests whose names are not there yet. -/
def addNew (requests extra : List IndexRequest) : List IndexRequest :=
  extra.foldl (fun requests r =>
    if requests.any (·.name = r.name) then requests else requests ++ [r]) requests

/-- The index on the table field alone. -/
def onTable : IndexRequest := named (separator.intercalate ["table", "index"])
  { fields := [.str tableField] }

/-- The name of an index on an attribute. -/
def nameOf (table : String) (attributes : List String) (direction : Option Direction) : String :=
  separator.intercalate
    (table :: attributes ++ (direction.map Direction.name).toList ++ ["index"])

/-- The index without directions, for documents of the table only. -/
def plain (table : String) (attributes : List String) : IndexRequest :=
  named (nameOf table attributes none) {
    fields := (tableField :: attributes).map .str
    partialFilter := some (.equals tableField (.str table)) }

/-- The index in one direction. -/
def directed (table : String) (attributes : List String) (direction : Direction) :
    IndexRequest :=
  named (nameOf table attributes (some direction)) {
    fields := (tableField :: attributes).map fun name => .obj [(name, direction.encode)] }

/-- The plain index and those in the given directions; none given stands for both. -/
def onAttributes (table : String) (attributes : List String) (directions : List Direction) :
    List IndexRequest :=
  plain table attributes ::
    (if directions.isEmpty then [.asc, .desc] else directions).map (directed table attributes)

/-- The indexes on the key of a view. -/
def ofView (table : String) (spec : ViewSpec) : List IndexRequest :=
  match spec.keyFields with
  | [] => []
  | key => onAttributes table key spec.directions

/-- The indexes on the keys of all views that the models declare. -/
def ofViews (schemas : List Schema) : List IndexRequest :=
  addNew [] (schemas.flatMap fun s => s.views.flatMap (ofView s.table))

/-- The indexes that a model declares on its attributes. -/
def ofSchema (s : Schema) : List IndexRequest :=
  s.indexes.flatMap (fun spec =>
    onAttributes s.table (spec.attr :: spec.compositions) spec.directions) ++
  s.defaultQueryAttributes.flatMap fun attr => onAttributes s.table [attr] []

/-- All indexes that the models need. -/
def generate (schemas : List Schema) : List IndexRequest :=
  addNew [onTable] (schemas.flatMap ofSchema ++ ofViews schemas)

end IndexRequest

end DocMapper
