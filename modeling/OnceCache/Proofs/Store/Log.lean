import OnceCache.Proofs.Event
import OnceCache.Proofs.Store.Journal
import OnceCache.Store.Unreliable

namespace OnceCache

-- A store that answers as it likes, but says nothing in the name of others.
class SincereStore (σ : Type) [ByteStore σ] : Prop where
  read : ∀ (store : σ) now key, ∀ e ∈ (ByteStore.read store now key).log, e.isOfStore
  write : ∀ (store : σ) now key body, ∀ e ∈ (ByteStore.write store now key body).log, e.isOfStore

theorem MemoryStore.get_log {s : MemoryStore} {now : Instant} {key : Key} :
    (s.get now key).log = [] := by
  unfold get
  split
  case h_1 => rfl
  case h_2 => split <;> rfl

theorem MemoryStore.isOfStore_of_mem_setWithTtl {s : MemoryStore} {now : Instant} {key : Key}
    {body : Body} {ttl : Option Duration} :
    ∀ e ∈ (s.setWithTtl now key body ttl).log, e.isOfStore := by
  unfold setWithTtl
  split
  case isTrue => nofun
  case isFalse =>
    split
    case isTrue => nofun
    case isFalse =>
      intro e he
      dsimp only at he
      split at he
      case isTrue => cases he
      case isFalse => exact List.mem_singleton.mp he ▸ rfl

instance : SincereStore MemoryStore where
  read s now key e he := by
    rw [show (ByteStore.read s now key).log = [] from MemoryStore.get_log] at he
    cases he
  write _ _ _ _ := MemoryStore.isOfStore_of_mem_setWithTtl

instance : SincereStore UnreliableStore where
  read s now key := by
    change ∀ e ∈ (s.read now key).log, e.isOfStore
    unfold UnreliableStore.read
    split
    case isTrue => nofun
    case isFalse => exact SincereStore.read s.memory now key
  write s now key body := by
    change ∀ e ∈ (s.write now key body).log, e.isOfStore
    unfold UnreliableStore.write
    split
    case isTrue => nofun
    case isFalse => exact SincereStore.write s.memory now key body

instance {σ : Type} [ByteStore σ] [SincereStore σ] : SincereStore (JournaledStore σ) where
  read s := SincereStore.read s.store
  write s := SincereStore.write s.store

-- What there is to tell of what is done with the store for a request.
def Access.told : Access → List Event
  | read key (.ok body) => [.hit key body.size]
  | read key (.error e) => [.unread key e]
  | write _ _ (.ok _) => []
  | write key body (.error e) => [.writeFailed key body.size e]

end OnceCache
