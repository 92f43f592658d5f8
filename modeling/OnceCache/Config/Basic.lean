import OnceCache.Text.Quoted
import OnceCache.Time.Duration

namespace OnceCache

@[ext]
structure Config where
  maxEntries : UInt64
  maxMemoryBytes : UInt64
  maxEntryBytes : UInt64
  -- How long bodies live. Zero keeps them until they make room.
  defaultTtl : Duration
  autoCleanup : Bool
  cleanupInterval : Duration
  deriving DecidableEq

namespace Config

def standard : Config where
  maxEntries := 1000
  maxMemoryBytes := 100 * 1024 * 1024
  maxEntryBytes := 10 * 1024 * 1024
  defaultTtl := .ofSeconds 600
  autoCleanup := true
  cleanupInterval := .ofSeconds 60

instance : Inhabited Config := ⟨standard⟩

def aggressive : Config where
  maxEntries := 5000
  maxMemoryBytes := 500 * 1024 * 1024
  maxEntryBytes := 50 * 1024 * 1024
  defaultTtl := .ofSeconds 3600
  autoCleanup := true
  cleanupInterval := .ofSeconds 30

def conservative : Config where
  maxEntries := 200
  maxMemoryBytes := 20 * 1024 * 1024
  maxEntryBytes := 1024 * 1024
  defaultTtl := .ofSeconds 60
  autoCleanup := true
  cleanupInterval := .ofSeconds 120

-- A store that takes every body and keeps none.
def noCache : Config where
  maxEntries := 0
  maxMemoryBytes := 0
  maxEntryBytes := 0
  defaultTtl := .zero
  autoCleanup := false
  cleanupInterval := .longest

def isEnabled (c : Config) : Bool := c.maxEntries > 0 && c.maxMemoryBytes > 0

def ttl (c : Config) : Option Duration := if c.defaultTtl.isZero then none else some c.defaultTtl

-- The most bytes a body can have and be stored.
def bodyLimit (c : Config) : UInt64 := min c.maxEntryBytes c.maxMemoryBytes

def debug (c : Config) : String :=
  Quoted.record "CacheConfig" [
    ("max_entries", toString c.maxEntries),
    ("max_memory_bytes", toString c.maxMemoryBytes),
    ("max_entry_bytes", toString c.maxEntryBytes),
    ("default_ttl", c.defaultTtl.text),
    ("auto_cleanup", Quoted.bool c.autoCleanup),
    ("cleanup_interval", c.cleanupInterval.text)]

end Config

end OnceCache
