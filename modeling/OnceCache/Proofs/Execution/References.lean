import OnceCache.Proofs.Execution.Faithful
import OnceCache.Store.Memory

namespace OnceCache.Execution

variable {σ ε : Type} {s : State σ ε} {id : PartyId} {key : Key} {v : Sighting} {p : Party}

namespace State

-- How a party that is there can go. A lock call can be dropped at any time, and the guard that it
-- has come to can also be unlocked. A handle is there as long as its lock calls.
inductive Parting (s : State σ ε) (id : PartyId) (v : Sighting) : Action σ ε → Prop
  | request {d : Directive} :
    s.live.find? id = some v → v.role = .request d → Parting s id v (.cancel id)
  | call {i : PartyId} :
    s.live.find? id = some v → v.role = .call i → Parting s id v (.abandon id)
  | guard {i : PartyId} :
    s.live.find? id = some v → v.role = .call i → v.isOwner → Parting s id v (.unlock id)
  | handle :
    s.live.find? id = some v → v.role = .handle →
    (∀ {j w}, s.live.find? j = some w → w.role ≠ .call id) → Parting s id v (.free id)

-- A party is gone, with its reference if it had one. Other keys have as many references as before.
structure Parted (s : State σ ε) (id : PartyId) (v : Sighting) (t : State σ ε) : Prop where
  live     : t.live = s.live.erase id
  count    : t.onlooker.count v.key + (if v.isCall then 0 else 1) = s.onlooker.count v.key
  refCount : t.coordinator.registry.refCount v.key =
    if t.onlooker.count v.key = 0 then none else some (t.onlooker.count v.key)
  others   : ∀ key, v.key ≠ key →
    t.coordinator.registry.refCount key = s.coordinator.registry.refCount key

-- The registry of a manager counts exactly the handles and the requests that have come and not
-- gone, and each of them can go.
structure Exact [ByteStore σ] (describe : ε → String) (s : State σ ε) : Prop where
  counted  : ∀ key n,
    s.coordinator.registry.refCount key = some n ↔ 0 < n ∧ s.onlooker.count key = n
  absent   : ∀ key, s.coordinator.registry.refCount key = none ↔ s.onlooker.count key = 0
  keys     : s.coordinator.registry.locks.keys = s.coordinator.registry.references.keys
  contains : ∀ key, s.coordinator.registry.contains key =
    (s.coordinator.registry.refCount key).isSome
  size     : s.coordinator.registry.size = s.coordinator.registry.snapshot.length
  isEmpty  : s.coordinator.registry.isEmpty = s.coordinator.registry.snapshot.isEmpty
  snapshot : ∀ key n, (key, n) ∈ s.coordinator.registry.snapshot ↔
    s.coordinator.registry.refCount key = some n
  lock     : ∀ {i j p q}, s.coordinator.parties.find? i = some p →
    s.coordinator.parties.find? j = some q → (p.lock = q.lock ↔ p.key = q.key)
  shares   : ∀ {i j v w}, s.live.find? i = some v → s.live.find? j = some w →
    v.role = .handle → w.role = .handle →
    s.coordinator.sharesLock i j = .ok (decide (v.key = w.key))
  release  : ∀ {id v}, s.live.find? id = some v → v.isCall = false →
    s.coordinator.registry.release v.key =
      .ok (s.onlooker.count v.key - 1, (s.coordinator.depart id).registry)
  parted   : ∀ {id v action}, s.Parting id v action → s.Parted id v (s.step describe action)
  drained  : (∀ key, s.onlooker.count key = 0) →
    s.live = ∅ ∧ s.coordinator.registry.locks = ∅ ∧ s.coordinator.registry.references = ∅

namespace Faithful

theorem live_eq (h : s.Faithful) : s.live = s.coordinator.parties.map Party.sighting :=
  Table.ext_find? fun id => by rw [h.live, Table.find?_map]

theorem count_eq (h : s.Faithful) : s.onlooker.count key = s.coordinator.referrers key := by
  have hl : s.onlooker.live = _ := h.live_eq
  have hp (p : Party) : p.sighting.isCall = false ↔ p.stage.handle? = none := by
    rw [Sighting.isCall, Party.sighting, ← Stage.handle?_eq]
    simp
  rw [Onlooker.count, hl, Table.count_map]
  simp only [hp]
  rfl

theorem refCount_eq (h : s.Faithful) : s.coordinator.registry.refCount key =
    if s.onlooker.count key = 0 then none else some (s.onlooker.count key) := by
  rw [h.count_eq]
  exact h.sound.counts.references key

theorem handle?_of_live (h : s.Faithful) (hv : s.live.find? id = some v) (hr : v.role = .handle) :
    ∃ p, s.coordinator.handle? id = .ok p ∧ s.coordinator.parties.find? id = some p ∧
      p.key = v.key := by
  obtain ⟨p, hp, rfl⟩ := h.party_of_live hv
  have hs : p.stage = .handle := Stage.role_eq_handle_iff.mp hr
  exact ⟨p, Coordinator.handle?_eq_ok_iff.mpr ⟨hp, hs⟩, hp, rfl⟩

theorem handle?_of_isCall (hv : p.sighting.isCall = false) : p.stage.handle? = none := by
  rw [Stage.handle?_eq]
  simpa [Sighting.isCall, Party.sighting] using hv

theorem count_depart (h : s.Faithful) (hp : s.coordinator.parties.find? id = some p)
    (key : Key) : (s.coordinator.depart id).referrers key +
      (if p.key = key ∧ p.sighting.isCall = false then 1 else 0) = s.onlooker.count key := by
  rw [h.count_eq, ← Coordinator.referrers_depart hp, Sighting.isCall, Party.sighting,
    Stage.handle?_eq]
  simp

section Parting

variable [ByteStore σ] {describe : ε → String} {action : Action σ ε}

omit [ByteStore σ] in
theorem handle?_of_role {i : PartyId} (hr : p.sighting.role = .call i) :
    p.stage.handle?.isSome := by
  rw [Stage.handle?_eq, show p.stage.role = .call i from hr]
  rfl

-- Whoever is dropped is gone and has left the line of its key.
theorem step_of_parting (describe : ε → String) (h : s.Faithful) (hd : s.Parting id v action) :
    ∃ p, s.coordinator.parties.find? id = some p ∧ p.sighting = v ∧ s.coordinator.Unused id ∧
      s.step describe action = s.update (s.coordinator.depart id) (s.onlooker.went id) := by
  have hv : s.live.find? id = some v := by cases hd <;> assumption
  obtain ⟨p, hp, rfl⟩ := h.party_of_live hv
  refine ⟨p, hp, rfl, ?_⟩
  cases hd
  case request d _ hr =>
    have hs : p.stage.isRequest := Stage.isRequest_iff.mpr ⟨d, congrArg Role.directive? hr⟩
    exact ⟨h.unused hp hs, by rw [State.step, Manager.cancel_eq hp hs]; rfl⟩
  case call i _ hr =>
    refine ⟨h.sound.unused_of_isInLine hp (Stage.isInLine_of_handle? (handle?_of_role hr)), ?_⟩
    rw [State.step, Coordinator.abandon_eq hp (handle?_of_role hr)]
    rfl
  case guard i _ hr ho =>
    refine ⟨h.sound.unused_of_isInLine hp (Stage.isInLine_of_handle? (handle?_of_role hr)), ?_⟩
    rw [State.step, Coordinator.unlock_eq hp (handle?_of_role hr) ho]
    rfl
  case handle _ hr hu =>
    have hunused : s.coordinator.Unused id := fun {j q} hq hi =>
      hu (h.live_of_party hq) (Coordinator.role_of_handle? hi)
    refine ⟨hunused, ?_⟩
    rw [State.step, Coordinator.free_eq hp (Stage.role_eq_handle_iff.mp hr) hunused]
    rfl

theorem parted (h : s.Faithful) (hd : s.Parting id v action) :
    s.Parted id v (s.step describe action) := by
  obtain ⟨p, hp, rfl, hu, he⟩ := h.step_of_parting describe hd
  have ht : (s.update (s.coordinator.depart id) (s.onlooker.went id)).Faithful := h.depart hu
  rw [he]
  constructor
  case live => rfl
  case count =>
    rw [ht.count_eq, ← h.count_depart hp]
    cases p.sighting.isCall <;> simp [State.update, coordinator, Party.sighting]
  case refCount => exact ht.refCount_eq
  case others =>
    intro key hk
    have hk : ¬p.key = key := hk
    have hc := h.count_depart hp key
    rw [if_neg fun hn => hk hn.left] at hc
    rw [ht.refCount_eq, h.refCount_eq, ht.count_eq, ← hc]
    rfl

end Parting

theorem exact [ByteStore σ] {describe : ε → String} (h : s.Faithful) : s.Exact describe where
  counted key n := by
    rw [h.refCount_eq]
    split
    case isTrue hz => simp [hz]; omega
    case isFalse hz => simp; omega
  absent key := by
    rw [h.refCount_eq]
    split <;> simp_all
  keys := h.sound.counts.keys_eq
  contains _ := h.sound.counts.contains_eq
  size := Table.size_eq_of_keys_eq h.sound.counts.keys_eq
  isEmpty := by
    have : s.coordinator.registry.size = s.coordinator.registry.snapshot.length :=
      Table.size_eq_of_keys_eq h.sound.counts.keys_eq
    rw [Registry.isEmpty, this]
    cases s.coordinator.registry.snapshot <;> rfl
  snapshot key n := Table.find?_eq_some_iff.symm
  lock := h.sound.lock_eq_iff
  shares hi hj hv hw := by
    obtain ⟨p, hp, hp', hk⟩ := h.handle?_of_live hi hv
    obtain ⟨q, hq, hq', hk'⟩ := h.handle?_of_live hj hw
    rw [Coordinator.sharesLock_eq hp hq, ← hk, ← hk']
    simp [h.sound.lock_eq_iff hp' hq']
  release hv hc := by
    obtain ⟨p, hp, rfl⟩ := h.party_of_live hv
    have hd := h.count_depart hp p.key
    rw [if_pos ⟨rfl, hc⟩] at hd
    have hr := h.sound.release hp (handle?_of_isCall hc)
    rwa [Nat.eq_sub_of_add_eq hd] at hr
  parted := h.parted
  drained hc := by
    refine ⟨Table.eq_empty_iff.mpr fun id => ?_, h.sound.counts.eq_empty fun key => ?_⟩
    · rw [h.live, Option.map_eq_none_iff]
      cases hp : s.coordinator.parties.find? id
      case none => rfl
      case some p => exact absurd (h.count_eq.symm.trans (hc p.key)) (h.sound.referrers_ne_zero hp)
    · rw [← h.count_eq, hc]

end Faithful

end State

-- Whatever happens in which order, the registry counts exactly the handles and the requests that
-- are there, and none of them is ever refused when it gives its reference up.
theorem registry_exact [ByteStore σ] (describe : ε → String) (store : σ) (start : Instant)
    (actions : List (Action σ ε)) :
    ((State.init store start).run describe actions).Exact describe :=
  State.Faithful.init.run.exact

end OnceCache.Execution
