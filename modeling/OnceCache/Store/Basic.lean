import OnceCache.Event
import OnceCache.Generation.Basic

namespace OnceCache

-- What an operation on a state answers, the state after it, and what it tells the log.
structure Reply (σ α : Type) where
  answer : α
  state : σ
  log : List Event := []

class ByteStore (σ : Type) where
  read : σ → Instant → Key → Reply σ (Except Error Body)
  write : σ → Instant → Key → Body → Reply σ (Except Error Unit)

end OnceCache
