import OnceCache.Error
import OnceCache.Time.Duration

namespace OnceCache

inductive Event
  | hit (key : Key) (size : Nat)
  | miss (key : Key)
  | readFailed (key : Key) (error : Error)
  | generationFailed (key : Key) (message : String)
  | writeFailed (key : Key) (size : Nat) (error : Error)
  -- A request asked not to be served the stored body.
  | readSkipped
  -- Bodies were dropped to make room for one of `size` bytes.
  | evicted (count size : Nat) (maxEntries maxMemoryBytes : UInt64)
  | expired (removed remaining : Nat)
  | cleanupTooFrequent (interval : Duration)
  | cleanupWithoutRuntime
  | contentTypeRefused (value : String)
  -- A response reports a fault of the server.
  | responseFailed (target : String) (status : Nat) (message : String)
  -- A response reports a fault of the request.
  | requestRejected (target : String) (status : Nat) (message : String)
  deriving DecidableEq

namespace Event

inductive Level
  | debug
  | warn
  | error
  deriving DecidableEq, Repr

def Level.name : Level → String
  | debug => "DEBUG"
  | warn => "WARN"
  | error => "ERROR"

def level : Event → Level
  | hit .. | miss .. | generationFailed .. | readSkipped | evicted .. | expired ..
  | requestRejected .. => .debug
  | readFailed .. | writeFailed .. | cleanupTooFrequent .. | cleanupWithoutRuntime => .warn
  | contentTypeRefused .. | responseFailed .. => .error

def target : Event → String
  | hit .. | miss .. | readFailed .. | generationFailed .. | writeFailed .. =>
    "statcache::cache::generate"
  | readSkipped => "statcache::cache::directive"
  | evicted .. | expired .. | cleanupTooFrequent .. | cleanupWithoutRuntime =>
    "statcache::cache::memory_store"
  | contentTypeRefused .. | responseFailed .. | requestRejected .. => "statcache::responder"

def message : Event → String
  | hit .. => "Cache hit"
  | miss .. => "Cache miss"
  | readFailed .. => "Byte store read failed, regenerating"
  | generationFailed .. => "Generation failed, nothing cached"
  | writeFailed .. => "Failed to store generated body, serving uncached"
  | readSkipped => "Request carries a no-cache directive, bypassing stored body"
  | evicted .. => "Store evicted entries to make room"
  | expired .. => "Removed expired entries"
  | cleanupTooFrequent .. => "Cleanup interval too short, store cleanup disabled"
  | cleanupWithoutRuntime =>
    "No tokio runtime available for store cleanup - expired entries are dropped on read only"
  | contentTypeRefused .. => "Invalid content type, keeping previous value"
  | responseFailed .. => "Response generation failed"
  | requestRejected .. => "Rejected request"

def fields : Event → List (String × String)
  | hit key size => [("key", key.text), ("size", toString size)]
  | miss key => [("key", key.text)]
  | readFailed key error => [("key", key.text), ("error", error.text)]
  | generationFailed key message => [("key", key.text), ("error", message)]
  | writeFailed key size error =>
    [("key", key.text), ("size", toString size), ("error", error.text)]
  | readSkipped | cleanupWithoutRuntime => []
  | evicted count size maxEntries maxMemoryBytes =>
    [("evicted_count", toString count), ("entry_size", toString size),
      ("max_entries", toString maxEntries), ("max_memory", toString maxMemoryBytes)]
  | expired removed remaining =>
    [("removed", toString removed), ("remaining", toString remaining)]
  | cleanupTooFrequent interval => [("interval", interval.text)]
  | contentTypeRefused value => [("content_type", value)]
  | responseFailed target status message | requestRejected target status message =>
    [("uri", target), ("status", toString status), ("error", message)]

end Event

end OnceCache
