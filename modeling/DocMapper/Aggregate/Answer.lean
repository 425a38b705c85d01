import DocMapper.Aggregate.Plan

/-!
# Aggregates out of view rows

The answer to an aggregate, read off the rows of the views that were asked for it.
-/

namespace DocMapper

namespace ViewRow

/-- What a row reports: its value, or its key where the value is `null`. -/
def report (row : ViewRow) : Json := if row.value.isNull then row.key else row.value

/-- What a row tells apart: its key, or its value where the key is `null`. -/
def subject (row : ViewRow) : Json := if row.key.isNull then row.value else row.key

/-- The row's value, or its document where the value is `null` and a document came. -/
def content (row : ViewRow) : Json :=
  match row.value, row.doc with
  | .null, some doc => .obj doc
  | v, _ => v

end ViewRow

namespace ViewAnswer

/-- What the first row reports. -/
def first? (answer : ViewAnswer) : Option Json := answer.rows.head?.map ViewRow.report

/-- What the first row reports, as a number; zero if there is none. -/
def total (answer : ViewAnswer) : Double := (answer.first?.bind Json.asDouble?).getD .zero

/-- A reported count: an integer as it is, any other number cut to one. -/
def countOf : Json → Option Nat
  | .num n => some (match n.toUInt64? with
    | some count => count.toNat
    | none => n.toDouble.toNat64)
  | _ => none

/-- The answer to an aggregate that one view answers. -/
def output (kind : AggregateKind) (spec : ViewSpec) (answer : ViewAnswer) : AggregateOutput :=
  if kind = .countDistinct then .count answer.rows.length
  else if kind = .distinct then .values (answer.rows.map ViewRow.subject)
  else if spec.returnDocs then .values (answer.rows.map ViewRow.content)
  else match kind with
    | .count => .count ((answer.first?.bind countOf).getD 0)
    | .sum | .avg => .number (.finite answer.total)
    | _ => .value (answer.first?.filter fun v => !v.isNull)

/-- The average that a sum and a count give; zero for a count of zero. -/
def average (sums counts : ViewAnswer) : AggregateOutput :=
  if counts.total.magnitude = 0 then .number (.finite .zero)
  else .number (sums.total.div counts.total)

end ViewAnswer

end DocMapper
