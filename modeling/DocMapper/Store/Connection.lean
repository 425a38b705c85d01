import DocMapper.Store.Memory

/-!
# Connections to a store

A connection hands calls to a store and keeps a log of them. Answers may be staged in
advance, to stand in for the store's: the next call of the primitive gets the staged answer,
and the store does not hear of it.
-/

namespace DocMapper

/-- A store with staged answers and the calls made so far. -/
structure Connection where
  store : MemoryStore
  staged : (p : Primitive) → List (Except StoreError p.Answer) := fun _ => []
  log : List Call := []

namespace Connection

/-- Stage an answer behind those that are staged already. -/
def stage (c : Connection) (p : Primitive) (answer : Except StoreError p.Answer) : Connection :=
  { c with staged := fun q => if h : p = q then c.staged q ++ [h ▸ answer] else c.staged q }

/-- Drop the first staged answer of a primitive. -/
def unstage (c : Connection) (p : Primitive) : Connection :=
  { c with staged := fun q => if q = p then (c.staged q).tail else c.staged q }

/-- Make a call. -/
def perform (c : Connection) (call : Call) : Except StoreError call.Answer × Connection :=
  let c := { c with log := c.log ++ [call] }
  match c.staged call.primitive with
  | answer :: _ => (answer, c.unstage call.primitive)
  | [] =>
    let (answer, store) := c.store.perform call
    (answer, { c with store })

end Connection

end DocMapper
