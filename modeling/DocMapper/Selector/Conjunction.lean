import DocMapper.Query.Warning
import DocMapper.Selector.Basic

/-!
# Conjunctions of selectors

Nested conjunctions flatten into one, and a selector can be added to another so that both
have to hold. Where both have a plain clause under one key the added one replaces the
other, which is reported.
-/

namespace DocMapper.Selector

mutual

/-- A member of a conjunction without the conjunctions in it: a member that is itself one
    conjunction and nothing else gives way to its members. -/
def flattenMember : Json → List Json
  | .obj [(key, .arr members)] =>
    if key = "$and" then flattenMembers members else [.obj [(key, .arr members)]]
  | member => [member]
termination_by structural member => member

/-- The members of a conjunction without the conjunctions in them, from left to right. -/
def flattenMembers : List Json → List Json
  | [] => []
  | member :: rest => flattenMember member ++ flattenMembers rest
termination_by structural members => members

end

/-- Flatten a selector that is one conjunction; any other stays as it is. -/
def flatten (s : Selector) : Selector :=
  match s.conjunction? with
  | some members => allOf (flattenMembers members)
  | none => s

/-- Add the members that are not there yet. -/
def addMissing (members extra : List Json) : List Json :=
  extra.foldl (fun members m => if members.any m.same then members else members ++ [m]) members

/-- Put clauses in one after another, reporting those that replace a different one. -/
def overlay (base : Selector) : Fields → Selector × List Warning
  | [] => (base, [])
  | (key, clause) :: rest =>
    let warning := match base.get? key with
      | some previous =>
        if previous.same clause then [] else [Warning.keyOverridden key previous clause]
      | none => []
    let (merged, warnings) := overlay (base.insert key clause) rest
    (merged, warning ++ warnings)

/-- The selector that asks for both: a conjunction takes in the base's clauses as members, a
    disjunction becomes a member beside them, and plain clauses join those of the base. -/
def merge (base added : Selector) : Selector × List Warning :=
  match added.singleGroup? with
  | some (.and, members) => (allOf (addMissing (flattenMembers members) base.members), [])
  | some (.or, _) => (allOf (added.toJson :: base.members), [])
  | none => overlay base added.clauses

end DocMapper.Selector
