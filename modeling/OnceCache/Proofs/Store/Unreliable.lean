import OnceCache.Proofs.Store.Removal
import OnceCache.Store.Unreliable

namespace OnceCache.UnreliableStore

variable {s : UnreliableStore} {now : Instant} {key : Key} {body : Body}

-- What a read leads to. It is answered with a stored body, or fails and leaves no more than there
-- was.
inductive Reads (s : UnreliableStore) (now : Instant) (key : Key) :
    Except Error Body → UnreliableStore → Prop
  | found {b : StoredBody} :
    s.memory.bodies.find? key = some b →
    Reads s now key (.ok b.body) { s with memory := s.memory.touch now key b }
  | failed {e : Error} {memory : MemoryStore} :
    s.memory.Shrunk memory → Reads s now key (.error e) { s with memory }

theorem reads (s : UnreliableStore) (now : Instant) (key : Key) :
    s.Reads now key (s.read now key).answer (s.read now key).state := by
  unfold read
  split
  case isTrue => exact .failed .refl
  case isFalse =>
    cases hb : s.memory.bodies.find? key
    case none =>
      rw [MemoryStore.get_of_none hb]
      exact .failed ⟨rfl, id⟩
    case some b =>
      cases he : b.isExpired now
      case false =>
        rw [MemoryStore.get_of_some hb he]
        exact .found hb
      case true =>
        have hs : s.memory.Shrunk (s.memory.takeOut key b) := .takeOut
        simp only [MemoryStore.get, hb, he, if_true]
        exact .failed ⟨hs.config, hs.bodies⟩

-- What a write leads to. One that is not accepted changes nothing.
inductive Writes (s : UnreliableStore) (now : Instant) (key : Key) (body : Body) :
    Except Error Unit → UnreliableStore → Prop
  | refused {e : Error} : Writes s now key body (.error e) s
  | ignored : s.memory.config.isEnabled = false → Writes s now key body (.ok ()) s
  | stored {memory : MemoryStore} :
    s.memory.config.isEnabled → s.memory.Shrunk memory →
    Writes s now key body (.ok ())
      { s with memory := memory.putIn key (.create body s.memory.config.ttl now) }

theorem writes (s : UnreliableStore) (now : Instant) (key : Key) (body : Body) :
    s.Writes now key body (s.write now key body).answer (s.write now key body).state := by
  unfold write
  split
  case isTrue => exact .refused
  case isFalse =>
    unfold MemoryStore.set MemoryStore.setWithTtl
    split
    case isTrue he => exact .ignored (by simpa using he)
    case isFalse he =>
      split
      case isTrue => exact .refused
      case isFalse =>
        exact .stored (by simpa using he) (.trans .remove .makeRoom)

-- Whether a write is accepted.
def accepts (s : UnreliableStore) (body : Body) : Bool :=
  !s.writesFail && (!s.memory.config.isEnabled || body.size ≤ s.memory.config.bodyLimit.toNat)

-- It does not depend on what is stored.
theorem write_isOk : (s.write now key body).answer.isOk = s.accepts body := by
  unfold write accepts MemoryStore.set MemoryStore.setWithTtl
  split
  case isTrue h => simp [h, Except.isOk, Except.toBool]
  case isFalse h =>
    split
    case isTrue he => simp_all [Except.isOk, Except.toBool]
    case isFalse he =>
      split
      case isTrue hl => simp_all [Except.isOk, Except.toBool]
      case isFalse hl => simp_all [Except.isOk, Except.toBool]

end OnceCache.UnreliableStore
