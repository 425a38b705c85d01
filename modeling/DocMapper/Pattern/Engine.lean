import DocMapper.Pattern.Reader

/-!
# Engines for patterns

What patterns are and where they occur is for an engine to say, which whoever matches documents is
given. The engine that is run reads the grammar of `DocMapper.Pattern.Reader`. Classes of letters
by their property, patterns with comments and the switches `R`, `x` and `-u` are not read, and are
refused as what is no pattern.
-/

namespace DocMapper

/-- An engine for patterns. What it reads as a pattern it looks for in texts, and what it does not
    it refuses with a reason. -/
class PatternEngine where
  search : String → Except String (String → Bool)

/-- The engine that is run. -/
instance Pattern.engine : PatternEngine where
  search text :=
    match ofText? text with
    | some pattern => .ok pattern.occursIn
    | none => .error "regex parse error"

end DocMapper
