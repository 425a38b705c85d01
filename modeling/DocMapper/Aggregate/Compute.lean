import DocMapper.Aggregate.Value
import DocMapper.Selector.Matching

/-!
# Aggregates of documents

An aggregate computed over documents at hand. Missing values and `null` count for nothing,
except that `null` is one of the distinct values.
-/

namespace DocMapper.Aggregate

/-- The first item of each class of items with one key, in order. -/
def firstOfEach {α : Type} (key : α → String) : List String → List α → List α
  | _, [] => []
  | seen, x :: rest =>
    if key x ∈ seen then firstOfEach key seen rest
    else x :: firstOfEach key (key x :: seen) rest

/-- The values of an attribute, where there is one. -/
def valuesAt (attr : String) (docs : List Document) : List Json :=
  docs.filterMap fun doc => doc.get? attr

/-- The sum of values; the first one that is no number refuses it. -/
def sum (operation attr : String) (type : Option AttributeType) (values : List Json) :
    Except Error Quantity :=
  values.foldlM (fun total v =>
    match numeric v type with
    | some x => .ok (total.add x)
    | none => .error (.notNumeric operation attr (typeName v))) (.finite .zero)

/-- The value whose number is better than all before it; values without a number are passed
    over, and the first of equals stays. -/
def extreme (better : Double → Double → Bool) (type : Option AttributeType)
    (values : List Json) : Option Json :=
  (values.foldl (fun best v =>
    match numeric v type, best with
    | none, best => best
    | some x, none => some (x, v)
    | some x, some (y, w) => if better x y then some (x, v) else some (y, w))
    (none : Option (Double × Json))).map Prod.snd

/-- A count as a double precision number. -/
def countNumber (n : Nat) : Double := (Integer.ofUInt64 (UInt64.ofNat n)).toDouble

/-- An aggregate of whole documents. -/
def computeWhole (kind : AggregateKind) (docs : List Document) : AggregateOutput :=
  match kind with
  | .count => .count docs.length
  | .countDistinct => .count (firstOfEach (fun doc => (Json.obj doc).text) [] docs).length
  | .distinct => .values []
  | .sum => .number (.finite (countNumber docs.length))
  | .avg => .number (.finite .zero)
  | .min | .max => .value none

/-- An aggregate of an attribute. -/
def computeAt (kind : AggregateKind) (attr : String) (type : Option AttributeType)
    (docs : List Document) : Except Error AggregateOutput :=
  let values := valuesAt attr docs
  let present := values.filter fun v => !v.isNull
  match kind with
  | .count => .ok (.count present.length)
  | .countDistinct => .ok (.count (firstOfEach (valueKey · type) [] present).length)
  | .distinct => .ok (.values (firstOfEach (valueKey · type) [] values))
  | .sum => (sum "SUM" attr type present).map .number
  | .avg =>
    if present.isEmpty then .ok (.number (.finite .zero))
    else (sum "AVG" attr type present).map fun total =>
      .number (total.div (countNumber present.length))
  | .min => .ok (.value (extreme (fun x y => x.compare y == .lt) type present))
  | .max => .ok (.value (extreme (fun x y => x.compare y == .gt) type present))

/-- The answer to an aggregate over documents. -/
def compute (schema : Schema) (request : AggregateRequest) (docs : List Document) :
    Except Error AggregateOutput :=
  match request.attr with
  | none => .ok (computeWhole request.kind docs)
  | some attr => computeAt request.kind attr (schema.attributeType? attr) docs

end DocMapper.Aggregate
