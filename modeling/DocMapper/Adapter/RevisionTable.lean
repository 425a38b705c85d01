import DocMapper.Dict

/-!
# Remembered revisions

The revision last seen for each document id, for at most so many ids. When there is no room
the id that was recorded longest ago goes first. Every recording has a stamp of its own, and
the order lists the stamps that count, oldest first. A table is meant to see fewer recordings than
64 bits can count.
-/

namespace DocMapper

/-- Revisions by document id, with the order in which the ids were last recorded. -/
structure RevisionTable where
  capacity : Nat := 10000
  /-- The number of recordings so far. -/
  clock : Nat := 0
  byId : Dict (Nat × String) := []
  order : List (Nat × String) := []
deriving DecidableEq, Repr

namespace RevisionTable

/-- The number of ids with a revision. -/
def size (t : RevisionTable) : Nat := t.byId.length

/-- The revision last recorded for an id. -/
def get? (t : RevisionTable) (id : String) : Option String := (t.byId.get? id).map Prod.snd

/-- Forget an id. -/
def forget (t : RevisionTable) (id : String) : RevisionTable :=
  match t.byId.get? id with
  | none => t
  | some (stamp, _) =>
    { t with byId := t.byId.erase id, order := t.order.filter fun entry => entry.1 ≠ stamp }

/-- Drop the oldest ids until there are no more than the capacity allows. -/
def evict (capacity : Nat) (byId : Dict (Nat × String)) :
    List (Nat × String) → Dict (Nat × String) × List (Nat × String)
  | [] => (byId, [])
  | (stamp, id) :: rest =>
    if byId.length > capacity then evict capacity (byId.erase id) rest
    else (byId, (stamp, id) :: rest)

/-- Record a revision for an id. Without any capacity nothing is recorded. -/
def record (t : RevisionTable) (id rev : String) : RevisionTable :=
  if t.capacity = 0 then t
  else
    let stamp := t.clock + 1
    let (byId, order) := evict t.capacity (t.byId.insert id (stamp, rev))
      ((t.forget id).order ++ [(stamp, id)])
    { t with clock := stamp, byId, order }

end RevisionTable

end DocMapper
