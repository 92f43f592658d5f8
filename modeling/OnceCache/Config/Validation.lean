import OnceCache.Config.Basic

namespace OnceCache

inductive ConfigError
  | zeroBodyLimit
  | bodyLimitAboveMemory (body memory : UInt64)
  | intervalTooShort
  -- The first clean-up would never come.
  | intervalUnbounded
  deriving DecidableEq

namespace ConfigError

inductive Kind
  | invalidLimit
  | invalidInterval
  | conflict
  deriving DecidableEq

def kind : ConfigError → Kind
  | zeroBodyLimit => .invalidLimit
  | bodyLimitAboveMemory .. => .conflict
  | intervalTooShort | intervalUnbounded => .invalidInterval

def Kind.describe : Kind → String
  | invalidLimit => "Invalid size limit: "
  | invalidInterval => "Invalid interval: "
  | conflict => "Configuration conflict: "

end ConfigError

namespace Config

def minCleanupInterval : Duration := ⟨10000000, by decide⟩

-- The first condition that a configuration breaks, if it breaks one.
def check (c : Config) : Except ConfigError Unit :=
  if !c.isEnabled then .ok ()
  else if c.maxEntryBytes = 0 then .error .zeroBodyLimit
  else if c.maxEntryBytes > c.maxMemoryBytes then
    .error (.bodyLimitAboveMemory c.maxEntryBytes c.maxMemoryBytes)
  else if c.autoCleanup && c.cleanupInterval < minCleanupInterval then .error .intervalTooShort
  else if c.autoCleanup && c.cleanupInterval = .longest then .error .intervalUnbounded
  else .ok ()

end Config

def ConfigError.text (e : ConfigError) : String :=
  e.kind.describe ++ match e with
    | zeroBodyLimit => "max_entry_bytes cannot be zero when caching is enabled"
    | bodyLimitAboveMemory body memory =>
      s!"max_entry_bytes ({body}) exceeds max_memory_bytes ({memory})"
    | intervalTooShort => "cleanup_interval must be at least " ++ Config.minCleanupInterval.text
    | intervalUnbounded => "cleanup_interval cannot be unbounded with auto_cleanup enabled"

end OnceCache
