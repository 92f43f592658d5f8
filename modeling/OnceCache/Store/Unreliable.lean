import OnceCache.Store.Memory

namespace OnceCache

structure UnreliableStore where
  memory : MemoryStore
  readsFail : Bool := false
  writesFail : Bool := false

namespace UnreliableStore

def read (s : UnreliableStore) (now : Instant) (key : Key) :
    Reply UnreliableStore (Except Error Body) :=
  if s.readsFail then ⟨.error ((Error.store "connection reset").withKey key), s, []⟩
  else
    let r := s.memory.get now key
    ⟨r.answer, { s with memory := r.state }, r.log⟩

def write (s : UnreliableStore) (now : Instant) (key : Key) (body : Body) :
    Reply UnreliableStore (Except Error Unit) :=
  if s.writesFail then ⟨.error ((Error.store "disk full").withKey key), s, []⟩
  else
    let r := s.memory.set now key body
    ⟨r.answer, { s with memory := r.state }, r.log⟩

instance : ByteStore UnreliableStore := ⟨read, write⟩

end UnreliableStore

end OnceCache
