import OnceCache.Store.Basic

namespace OnceCache

-- What is done with a store, and what it answers.
inductive Access
  | read (key : Key) (answer : Except Error Body)
  | write (key : Key) (body : Body) (answer : Except Error Unit)

namespace Access

-- A read that found a body.
def isFind : Access → Bool
  | read _ (.ok _) => true
  | read _ (.error _) | write .. => false

-- A write that the store refused.
def isRefusal : Access → Bool
  | write _ _ (.error _) => true
  | read .. | write _ _ (.ok _) => false

end Access

-- A store with a record of what is done with it. The store does as it would without the record.
structure JournaledStore (σ : Type) where
  store : σ
  journal : List Access := []

namespace JournaledStore

variable {σ : Type} [ByteStore σ]

def read (s : JournaledStore σ) (now : Instant) (key : Key) :
    Reply (JournaledStore σ) (Except Error Body) :=
  let r := ByteStore.read s.store now key
  ⟨r.answer, ⟨r.state, s.journal ++ [.read key r.answer]⟩, r.log⟩

def write (s : JournaledStore σ) (now : Instant) (key : Key) (body : Body) :
    Reply (JournaledStore σ) (Except Error Unit) :=
  let r := ByteStore.write s.store now key body
  ⟨r.answer, ⟨r.state, s.journal ++ [.write key body r.answer]⟩, r.log⟩

instance : ByteStore (JournaledStore σ) := ⟨read, write⟩

end JournaledStore

end OnceCache
