import DocMapper.Condition.Codec
import DocMapper.Schema.Codec
import DocMapper.Statement.Pages
import DocMapper.Store.Codec

/-!
# Reports

Plans, warnings and results as JSON, for callers that look at them from outside. Computed
numbers are reported as text, so that no digit is lost.
-/

namespace DocMapper

/-- A record as JSON: every member has its place, in whatever order they are given. -/
def report (members : List (String × Json)) : Json := .obj (Dict.ofEntries members)

/-- A whole number as JSON. -/
def Json.ofNat (n : Nat) : Json := .ofUInt64 (UInt64.ofNat n)

/-- A text that may be missing. -/
def Json.ofText : Option String → Json := Record.orNull .str

/-- The warning as JSON. -/
def Warning.encode (w : Warning) : Json :=
  match w with
  | .keyOverridden key previous replacement => report [("kind", .str "SelectorKeyOverridden"),
      ("key", .str key), ("previous", previous), ("replacement", replacement),
      ("text", .str w.text)]
  | .defaultLimit limit => report [("kind", .str "DefaultLimitApplied"),
      ("limit", .ofUInt64 limit), ("text", .str w.text)]
  | .store _ => report [("kind", .str "Store"), ("text", .str w.text)]

/-! ## Plans -/

/-- The request as JSON. -/
def AggregateRequest.encode (r : AggregateRequest) : Json :=
  report [("kind", .str r.kind.name), ("attribute", .ofText r.attr)]

/-- The descriptor as JSON. -/
def ViewDescriptor.encode (d : ViewDescriptor) : Json :=
  report [("ddoc", .str d.ddoc), ("view", .str d.view), ("options", d.options.encode),
    ("spec", d.spec.encode)]

/-- The views as JSON. -/
def ViewTarget.encode : ViewTarget → Json
  | .single d => report [("single", d.encode)]
  | .average sum count =>
    report [("average", report [("sum", sum.encode), ("count", count.encode)])]

/-- The plan as JSON. -/
def ViewPlan.encode (p : ViewPlan) : Json :=
  report [("request", p.request.encode), ("target", p.target.encode)]

/-- The plan as JSON. -/
def Plan.encode : Plan → Json
  | .find query manual groupBy => report [("find", report [("query", query.encode),
      ("manual", Record.orNull AggregateRequest.encode manual), ("group_by", .ofText groupBy)])]
  | .view p => report [("view", p.encode)]

/-- The clause as JSON: its name and what it says. -/
def Clause.encode : Clause → Json
  | .target schema => .ofStrings ["from", schema.table]
  | .select names => .arr [.str "select", .ofStrings names]
  | .filter c => .arr [.str "where", c.encode]
  | .groupBy attr => .ofStrings ["group", attr]
  | .aggregate r => .arr [.str "aggregate", .str r.kind.name, .ofText r.attr]
  | .orderBy f => .ofStrings ["order", f.field, f.direction.name]
  | .limit n => .arr [.str "limit", .ofUInt64 n]
  | .offset n => .arr [.str "offset", .ofUInt64 n]

/-! ## Results -/

/-- The number as JSON. -/
def Quantity.encode (x : Quantity) : Json := .str x.text

/-- The answer as JSON. -/
def AggregateOutput.encode : AggregateOutput → Json
  | .count n => report [("count", .ofNat n)]
  | .number x => report [("number", x.encode)]
  | .value v => report [("value", v.getD .null)]
  | .values vs => report [("values", .arr vs)]

/-- The rows as JSON. -/
def Rows.encode {α : Type} (model : α → Json) (rows : Rows α) : Json :=
  report [
    (match rows with
      | .models xs => ("models", .arr (xs.map model))
      | .parts docs => ("partial", .arr (docs.map .obj))),
    ("len", .ofNat rows.size), ("empty", .bool (rows.size = 0))]

/-- The output as JSON. -/
def Output.encode {α : Type} (model : α → Json) : Output α → Json
  | .rows found => report [("rows", found.encode model)]
  | .groups found => report [("groups", .obj (found.mapValues (Rows.encode model)))]
  | .aggregate answer => report [("aggregate", answer.encode)]

/-- Where a pager stands. -/
def Pager.encode (p : Pager) : Json :=
  report [("size", .ofUInt64 p.size), ("limit", Record.orNull .ofUInt64 p.limit),
    ("current", .ofNat p.current), ("bookmark", .ofText p.bookmark)]

end DocMapper
