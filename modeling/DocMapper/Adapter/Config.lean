import DocMapper.Json.Record

/-!
# Settings of an adapter

How many rows a query without a limit may bring, how many a scan asks for at once, and how
many revisions are remembered.
-/

namespace DocMapper

/-- The settings of an adapter. -/
structure Config where
  queryLimit : UInt64 := 250
  pageSize : UInt64 := 250
  revisionCapacity : UInt64 := 10000
deriving DecidableEq, Repr

namespace Config

/-- The settings as JSON. -/
def encode (c : Config) : Json := .obj [
  ("page_size", .ofUInt64 c.pageSize),
  ("query_limit", .ofUInt64 c.queryLimit),
  ("revision_capacity", .ofUInt64 c.revisionCapacity)]

/-- The settings that a JSON value keeps; a missing one has its usual value. -/
def decode? (v : Json) : Option Config := do
  let fields ← Record.members? ["query_limit", "page_size", "revision_capacity"] 0 v
  return {
    queryLimit := ← Record.defaulted fields "query_limit" Record.uint64? 250
    pageSize := ← Record.defaulted fields "page_size" Record.uint64? 250
    revisionCapacity := ← Record.defaulted fields "revision_capacity" Record.uint64? 10000 }

end Config

end DocMapper
