import DocMapper.Json.Basic

/-!
# Aggregates

What can be asked about many documents at once, and what the answers look like.
-/

namespace DocMapper

/-- The kind of an aggregate. -/
inductive AggregateKind where
  | count
  | countDistinct
  | distinct
  | sum
  | min
  | max
  | avg
deriving DecidableEq, Repr

namespace AggregateKind

/-- The name of an aggregate. -/
def name : AggregateKind → String
  | .count => "count"
  | .countDistinct => "countDistinct"
  | .distinct => "distinct"
  | .sum => "sum"
  | .min => "min"
  | .max => "max"
  | .avg => "avg"

/-- All aggregates by name. -/
def names : List (String × AggregateKind) := [
  ("count", .count), ("countDistinct", .countDistinct), ("distinct", .distinct), ("sum", .sum),
  ("min", .min), ("max", .max), ("avg", .avg)]

/-- The aggregate with a name. -/
def ofName? (name : String) : Option AggregateKind := Dict.get? names name

end AggregateKind

/-- An aggregate of an attribute; a count of documents has none. -/
structure AggregateRequest where
  kind : AggregateKind
  attr : Option String
deriving DecidableEq, Repr

/-- The answer to an aggregate. -/
inductive AggregateOutput where
  | count (n : Nat)
  | number (x : Quantity)
  | value (v : Option Json)
  | values (vs : List Json)
deriving DecidableEq

namespace AggregateOutput

/-- A count. -/
def asCount? : AggregateOutput → Option Nat
  | .count n => some n
  | _ => none

/-- A number, or a count as a number. -/
def asNumber? : AggregateOutput → Option Quantity
  | .number x => some x
  | .count n => some (.ofRatio false (n * Double.one) 1)
  | _ => none

end AggregateOutput

end DocMapper
