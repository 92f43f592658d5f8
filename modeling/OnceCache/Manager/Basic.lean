import OnceCache.Coordination.Handle
import OnceCache.Stats
import OnceCache.Store.Basic

namespace OnceCache

structure Manager (σ : Type) where
  coordinator : Coordinator := {}
  store : σ
  stats : Stats := {}

namespace Manager

variable {σ : Type}

def record (m : Manager σ) (c : Counter) : Manager σ := { m with stats := m.stats.record c }

def depart (m : Manager σ) (id : PartyId) : Manager σ :=
  { m with coordinator := m.coordinator.depart id }

variable [ByteStore σ]

def read (m : Manager σ) (now : Instant) (key : Key) : Reply (Manager σ) (Except Error Body) :=
  let r := ByteStore.read m.store now key
  ⟨r.answer, { m with store := r.state }, r.log⟩

def write (m : Manager σ) (now : Instant) (key : Key) (body : Body) :
    Reply (Manager σ) (Except Error Unit) :=
  let r := ByteStore.write m.store now key body
  ⟨r.answer, { m with store := r.state }, r.log⟩

def debug (m : Manager σ) : String :=
  Quoted.record "CacheManager" [("keys", toString m.coordinator.registry.size)] true

end Manager

end OnceCache
