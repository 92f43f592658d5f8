import OnceCache.Proofs.Execution.Step
import OnceCache.Store.Memory

namespace OnceCache.Execution

variable {σ ε : Type} {s : State σ ε} {i j id : PartyId} {key : Key} {lock : LockId}

-- A lock call that was told that the lock of its key is its own, or a request whose generation is
-- under way.
def Onlooker.Owns (o : Onlooker ε) (id : PartyId) (key : Key) : Prop :=
  ∃ v, o.live.find? id = some v ∧ v.key = key ∧ v.isOwner

namespace State

-- Every key has one owner at most. The lock of a key is thrown away with the last party that came
-- for it and made anew later, so this takes that nobody uses or awaits a lock that was thrown away.
structure Exclusive (s : State σ ε) : Prop where
  owner   : ∀ {i j key}, s.onlooker.Owns i key → s.onlooker.Owns j key → i = j
  holder  : ∀ {id key}, s.onlooker.Owns id key → ∃ lock,
    s.coordinator.registry.locks.find? key = some lock ∧
      (s.coordinator.lineOf lock).holder = some id
  current : ∀ {id p}, s.coordinator.parties.find? id = some p →
    s.coordinator.registry.locks.find? p.key = some p.lock
  inLine  : ∀ {id lock}, id ∈ (s.coordinator.lineOf lock).parties →
    ∃ p, s.coordinator.parties.find? id = some p ∧ p.lock = lock

namespace Faithful

theorem owns_iff (h : s.Faithful) :
    s.onlooker.Owns id key ↔
      ∃ p, s.coordinator.parties.find? id = some p ∧ p.key = key ∧ p.stage.isOwner := by
  constructor
  case mp =>
    intro ⟨v, hv, hk, ho⟩
    obtain ⟨p, hp, rfl⟩ := h.party_of_live hv
    exact ⟨p, hp, hk, ho⟩
  case mpr =>
    intro ⟨p, hp, hk, ho⟩
    exact ⟨p.sighting, h.live_of_party hp, hk, ho⟩

theorem exclusive (h : s.Faithful) : s.Exclusive where
  owner hi hj := by
    obtain ⟨p, hp, hk, ho⟩ := h.owns_iff.mp hi
    obtain ⟨q, hq, hk', ho'⟩ := h.owns_iff.mp hj
    exact h.sound.owner_unique hq hp (hk'.trans hk.symm) (h.sound.first hq ho') ho
  holder h' := by
    obtain ⟨p, hp, rfl, ho⟩ := h.owns_iff.mp h'
    exact ⟨p.lock, h.sound.lock hp, h.sound.first hp ho⟩
  current := h.sound.lock
  inLine hm := by
    obtain ⟨p, hp, hl, _⟩ := (h.sound.mem_iff _ _).mp hm
    exact ⟨p, hp, hl⟩

-- Whoever gets past the lock of a key in one step finds nobody else who owns the key.
theorem unowned [ByteStore σ] {t : State σ ε} {action : Action σ ε} {look : Look ε}
    (h : s.Stepped action t) (hl : t.looks = s.looks ++ [(id, look)])
    (ha : look.answer ≠ .pending false) (ho : s.onlooker.Owns j look.key) : j = id := by
  cases h
  case quiet hq => simp [hq.looks] at hl
  case tended => simp [looks] at hl
  case looked r id' generation p d stage answer hk hr hq hlook =>
    rw [hlook.looks, hq.looks, List.append_cancel_left_eq, List.singleton_inj] at hl
    obtain ⟨rfl, rfl⟩ := Prod.mk.inj hl
    obtain ⟨v, hv, hvk, hvo⟩ := ho
    obtain ⟨q, hq, hqk, hqo⟩ := hr.owns_iff.mp ⟨v, hk hv, hvk, hvo⟩
    cases hlook.outcome hr
    case waits hw _ => exact absurd hw ha
    case turns hf _ => exact hr.sound.owner_unique hlook.party hq hqk.symm hf hqo
    case continues hf _ => exact hr.sound.owner_unique hlook.party hq hqk.symm hf hqo

end Faithful

end State

-- Mutual exclusion: whatever happens in which order, a key has one owner at most, and a request
-- that gets past the lock in the next step gets past it alone.
theorem mutual_exclusion [ByteStore σ] (describe : ε → String) (store : σ) (start : Instant)
    (actions : List (Action σ ε)) :
    let s := (State.init store start).run describe actions
    s.Exclusive ∧ ∀ action id look,
      (s.step describe action).looks = s.looks ++ [(id, look)] → look.answer ≠ .pending false →
      ∀ j, s.onlooker.Owns j look.key → j = id := by
  intro s
  have h : s.Faithful := State.Faithful.init.run
  exact ⟨h.exclusive, fun _ _ _ hl ha _ ho => State.Faithful.unowned h.stepped hl ha ho⟩

-- The lock of a key is thrown away with the first request for it. Of the two lock calls of one
-- handle that come after it, one owns the key, and the other waits for the lock of the key by now.
def renewed : List (Action MemoryStore String) := [
  .start ⟨"k"⟩ .standard fun _ => .pending,
  .cancel 0,
  .allocate ⟨"k"⟩,
  .askLock 1,
  .askLock 1]

theorem mutual_exclusion_renewed :
    let s := (State.init default 0).run (·) renewed
    (s.coordinator.registry.locks.find? ⟨"k"⟩ = some 1 ∧ (s.coordinator.lineOf 1).parties = [2, 3] ∧
      s.onlooker.Owns 2 ⟨"k"⟩) ∧
    ∀ j, s.onlooker.Owns j ⟨"k"⟩ → j = 2 := by
  have h : ((State.init default 0).run (·) renewed).onlooker.Owns 2 ⟨"k"⟩ :=
    ⟨⟨⟨"k"⟩, .call 1, true⟩, by decide⟩
  have ⟨hx, _⟩ := mutual_exclusion (·) default 0 renewed
  exact ⟨⟨by decide, by decide, h⟩, fun j hj => hx.owner hj h⟩

end OnceCache.Execution
