import OnceCache.Config.Basic
import OnceCache.Stats
import OnceCache.Store.Basic
import OnceCache.Store.StoredBody

namespace OnceCache

@[ext]
structure MemoryStore where
  config : Config
  bodies : Table Key StoredBody := ∅
  entryCount : UInt64 := 0
  memoryUsage : UInt64 := 0
  stats : Stats := {}
  cleaning : Bool := false

namespace MemoryStore

def create (config : Config) : MemoryStore := { config }

instance : Inhabited MemoryStore := ⟨create default⟩

def record (s : MemoryStore) (c : Counter) : MemoryStore := { s with stats := s.stats.record c }

def takeOut (s : MemoryStore) (key : Key) (b : StoredBody) : MemoryStore :=
  { s with
    bodies := s.bodies.erase key
    entryCount := s.entryCount - 1
    memoryUsage := s.memoryUsage - b.size }

def putIn (s : MemoryStore) (key : Key) (b : StoredBody) : MemoryStore :=
  { s with
    bodies := s.bodies.insert key b
    entryCount := s.entryCount + 1
    memoryUsage := s.memoryUsage + b.size }

def remove (s : MemoryStore) (key : Key) : Bool × MemoryStore :=
  match s.bodies.find? key with
  | some b => (true, s.takeOut key b)
  | none => (false, s)

def clear (s : MemoryStore) : MemoryStore :=
  s.bodies.pairs.foldl (fun s p => s.takeOut p.1 p.2) s

-- Whether one more body of `incoming` bytes is within the limits. A sum of `2 ^ 64` and more counts
-- as `2 ^ 64 - 1`.
def hasRoom (s : MemoryStore) (incoming : UInt64) : Bool :=
  s.entryCount < s.config.maxEntries &&
    min (s.memoryUsage.toNat + incoming.toNat) (UInt64.size - 1) ≤ s.config.maxMemoryBytes.toNat

-- The bodies from the least to the most recently used. Those of equal last use are in the order of
-- their keys.
def byLastUse (s : MemoryStore) : List (Key × StoredBody) :=
  s.bodies.pairs.mergeSort fun p q => p.2.lastUse ≤ q.2.lastUse

def evict (incoming : UInt64) : List (Key × StoredBody) → MemoryStore → Nat × MemoryStore
  | [], s => (0, s)
  | (key, b) :: candidates, s =>
    if s.hasRoom incoming then (0, s)
    else
      let (count, s) := evict incoming candidates ((s.takeOut key b).record .eviction)
      (count + 1, s)

def makeRoom (s : MemoryStore) (incoming : UInt64) : Nat × MemoryStore :=
  if s.hasRoom incoming then (0, s) else evict incoming s.byLastUse s

-- Stores a body that lives for some time, or until it makes room. A store that keeps nothing takes
-- every body. A body that is too long is refused, and then nothing changes. The body before under
-- the key is removed first, so that it does not count against the limits.
def setWithTtl (s : MemoryStore) (now : Instant) (key : Key) (body : Body)
    (ttl : Option Duration) : Reply MemoryStore (Except Error Unit) :=
  if !s.config.isEnabled then ⟨.ok (), s, []⟩
  else if s.config.bodyLimit.toNat < body.size then
    ⟨.error (.payloadTooLarge key body.size s.config.bodyLimit.toNat), s, []⟩
  else
    let b := StoredBody.create body ttl now
    let (evicted, s) := (s.remove key).2.makeRoom b.size
    let log :=
      if evicted = 0 then []
      else [.evicted evicted body.size s.config.maxEntries s.config.maxMemoryBytes]
    ⟨.ok (), s.putIn key b, log⟩

def set (s : MemoryStore) (now : Instant) (key : Key) (body : Body) :
    Reply MemoryStore (Except Error Unit) :=
  s.setWithTtl now key body s.config.ttl

def get (s : MemoryStore) (now : Instant) (key : Key) : Reply MemoryStore (Except Error Body) :=
  match s.bodies.find? key with
  | none => ⟨.error (.notFound key), s.record .miss, []⟩
  | some b =>
    if b.isExpired now then
      ⟨.error (.notFound key), ((s.takeOut key b).record .expiration).record .miss, []⟩
    else
      ⟨.ok b.body, { s with bodies := s.bodies.insert key (b.use now) }.record .hit, []⟩

-- Whether a body is stored under a key and has not expired. This is no use of the body.
def contains (s : MemoryStore) (now : Instant) (key : Key) : Bool :=
  match s.bodies.find? key with
  | some b => !b.isExpired now
  | none => false

def size (s : MemoryStore) : Nat := s.bodies.size

def isEmpty (s : MemoryStore) : Bool := s.bodies.isEmpty

def memoryPercent (s : MemoryStore) : Float :=
  if s.config.maxMemoryBytes = 0 then 0.0
  else s.memoryUsage.toFloat / s.config.maxMemoryBytes.toFloat * 100.0

def debug (s : MemoryStore) : String :=
  Quoted.record "MemoryByteCache" [
    ("entries", toString s.size),
    ("memory_usage", toString s.memoryUsage),
    ("config", s.config.debug)]

instance : ByteStore MemoryStore where
  read := get
  write := set

end MemoryStore

end OnceCache
