import DocMapper.Aggregate.Basic
import DocMapper.Schema.Basic

/-!
# Clauses of statements

A statement is put together clause by clause. Clauses that restrict, select or sort add up;
of the others the last one counts.
-/

namespace DocMapper

/-- One clause of a statement. -/
inductive Clause where
  /-- The model whose records are asked for. -/
  | target (schema : Schema)
  | select (names : List String)
  | filter (condition : Condition)
  | groupBy (attr : String)
  | aggregate (request : AggregateRequest)
  | orderBy (field : SortField)
  | limit (n : UInt64)
  | offset (n : UInt64)
deriving DecidableEq

namespace Clause

/-- The schema of a target clause. -/
def target? : Clause → Option Schema
  | .target schema => some schema
  | _ => none

/-- The names of a selection. -/
def select? : Clause → Option (List String)
  | .select names => some names
  | _ => none

/-- The condition of a filter. -/
def filter? : Clause → Option Condition
  | .filter condition => some condition
  | _ => none

/-- The attribute to group by. -/
def groupBy? : Clause → Option String
  | .groupBy attr => some attr
  | _ => none

/-- The aggregate that is asked for. -/
def aggregate? : Clause → Option AggregateRequest
  | .aggregate request => some request
  | _ => none

/-- The field to sort by. -/
def orderBy? : Clause → Option SortField
  | .orderBy field => some field
  | _ => none

/-- The number of a limit. -/
def limit? : Clause → Option UInt64
  | .limit n => some n
  | _ => none

/-- The number of an offset. -/
def offset? : Clause → Option UInt64
  | .offset n => some n
  | _ => none

end Clause

/-- A statement: its clauses in the order they were given. -/
structure Statement where
  clauses : List Clause
deriving DecidableEq

namespace Statement

/-- The statement that asks for all records of a model. -/
def ofSchema (schema : Schema) : Statement := ⟨[.target schema]⟩

/-- Add a clause. -/
def add (s : Statement) (c : Clause) : Statement := ⟨s.clauses ++ [c]⟩

/-- What clauses of one kind say, in order. -/
def each {α : Type} (s : Statement) (part : Clause → Option α) : List α :=
  s.clauses.filterMap part

/-- What the last clause of a kind says. -/
def last? {α : Type} (s : Statement) (part : Clause → Option α) : Option α :=
  (s.each part).getLast?

end Statement

end DocMapper
