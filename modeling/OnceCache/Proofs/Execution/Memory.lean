import OnceCache.Proofs.Execution.Step
import OnceCache.Proofs.Manager.Memory

namespace OnceCache.Execution

open Manager

variable {ε : Type} {s t : State MemoryStore ε} {id : PartyId} {p : Party} {d : Directive}
variable {progress : Progress ε} {answer : Poll ε} {store : MemoryStore} {start : Instant}
variable {config : Config} {k : Key} {j : PartyId} {v : Sighting} {stage : Stage}
variable {generation : Generation ε}

namespace State

-- A new manager of an empty store.
abbrev blank (config : Config) (start : Instant) : State MemoryStore ε :=
  init (.create config) start

-- What a look leads to at a store in memory whose bodies last: a wait, a hit, or what the
-- generation has come to. In the last case there is no body that could have been served, and the
-- reads that found nothing may be one more.
inductive Effect (s : State MemoryStore ε) (id : PartyId) (p : Party) (d : Directive)
    (progress : Progress ε) (answer : Poll ε) (store : MemoryStore) : Prop
  | waits :
    p.stage.isOwner = false → (s.coordinator.lineOf p.lock).holder ≠ some id →
    answer = .pending false → store = s.store → Effect s id p d progress answer store
  | hits {b : StoredBody} :
    p.stage.isOwner = false → d = .standard → s.store.bodies.find? p.key = some b →
    answer = .finished (.ok ⟨b.body, .hit⟩) false → store = s.store.touch s.now p.key b →
    Effect s id p d progress answer store
  | generates {n : UInt64} :
    (s.coordinator.lineOf p.lock).holder = some id →
    (d = .standard → s.store.bodies.find? p.key = none) →
    answer = (conclude s.store s.now p.key d.freshStatus progress).1 →
    store = (conclude s.store s.now p.key d.freshStatus progress).2.withMisses n →
    Effect s id p d progress answer store

theorem Outcome.effect (h : s.Outcome id p d progress answer store) (hl : s.store.Lasting start)
    (hn : s.store.config.Outlasts start s.now)
    (ha : p.stage.isOwner → d = .standard → s.store.bodies.find? p.key = none) :
    s.Effect id p d progress answer store := by
  cases h
  case waits hw hh ha hs => exact .waits hw hh ha hs
  case turns hw hh ho =>
    cases d
    case noCache =>
      obtain ⟨ha, hs⟩ := Prod.mk.inj ho
      exact .generates hh (fun h => by cases h) ha hs
    case standard =>
      cases hb : s.store.bodies.find? p.key
      case none =>
        rw [attend_of_none hb] at ho
        obtain ⟨ha, hs⟩ := Prod.mk.inj (ho.trans conclude_withMisses)
        exact .generates hh (fun _ => hb) ha hs
      case some b =>
        rw [attend_of_some hb (hl hb hn)] at ho
        obtain ⟨ha, hs⟩ := Prod.mk.inj ho
        exact .hits hw rfl hb ha hs
  case continues hw hh ho =>
    obtain ⟨ho, hs⟩ := Prod.mk.inj ho
    exact .generates hh (ha hw) ho hs

namespace Effect

-- A generation changes a store only if it comes to a body, which is then written.
theorem generates_cases {m : MemoryStore} {now : Instant} {key : Key} {status : Status}
    {n : UInt64} (hs : store = (conclude m now key status progress).2.withMisses n) :
    progress.body? = none ∧ store = m.withMisses n ∨
      ∃ body u, progress.body? = some body ∧ m.Written now key body u ∧ store = u.withMisses n := by
  cases hb : progress.body?
  case none => exact .inl ⟨rfl, by rw [hs, conclude_of_body?_eq_none hb]⟩
  case some body =>
    rw [conclude_of_body?_eq_some hb] at hs
    exact .inr ⟨body, _, rfl, MemoryStore.written, hs⟩

theorem config_eq (h : s.Effect id p d progress answer store) :
    store.config = s.store.config := by
  cases h
  case waits hs => rw [hs]
  case hits hs => rw [hs]; rfl
  case generates hs =>
    obtain ⟨_, rfl⟩ | ⟨_, u, _, hw, rfl⟩ := generates_cases hs
    case inl => rfl
    case inr => exact hw.config

theorem lasting (h : s.Effect id p d progress answer store) (hl : s.store.Lasting start)
    (hn : start ≤ s.now) : store.Lasting start := by
  cases h
  case waits hs => rwa [hs]
  case hits b _ _ hb _ hs =>
    rw [hs]
    exact hl.touch hb
  case generates hs =>
    obtain ⟨_, rfl⟩ | ⟨_, u, _, hw, rfl⟩ := generates_cases hs
    case inl => exact hl
    case inr => exact hl.write hn hw

-- Where there is no body, none appears, unless a request that is first in line is done with it.
theorem find?_eq_none (h : s.Effect id p d progress answer store)
    (hk : s.store.bodies.find? k = none)
    (hne : (s.coordinator.lineOf p.lock).holder = some id → answer.isFinished → p.key ≠ k) :
    store.bodies.find? k = none := by
  cases h
  case waits hs => rwa [hs]
  case hits b _ _ hb _ hs =>
    have : p.key ≠ k := fun he => by simp [← he, hb] at hk
    rw [hs]
    exact (Table.find?_insert_of_ne this).trans hk
  case generates hh _ ha hs =>
    obtain ⟨_, rfl⟩ | ⟨body, u, hb, hw, rfl⟩ := generates_cases hs
    case inl => exact hk
    case inr =>
      have : p.key ≠ k := hne hh (by rw [ha, conclude_of_body?_eq_some hb]; rfl)
      cases hu : u.bodies.find? k
      case none => exact hu
      case some b =>
        cases hw.find? hu
        case inl hb => simp [hk] at hb
        case inr hb => exact absurd hb.left this

end Effect

-- While one party is first in line, nobody else owns its key.
theorem Faithful.key_ne (h : s.Faithful) (hp : s.coordinator.parties.find? id = some p)
    (hh : (s.coordinator.lineOf p.lock).holder = some id) (hv : s.live.find? j = some v)
    (ho : v.isOwner) (hj : id ≠ j) : p.key ≠ v.key := by
  intro hk
  obtain ⟨q, hq, rfl⟩ := h.party_of_live hv
  exact hj (h.sound.owner_unique hp hq hk hh ho).symm

-- Bodies last, and a request that found no body can rely on it until it is done.
structure Settled (s : State MemoryStore ε) (config : Config) (start : Instant) : Prop where
  faithful : s.Faithful
  config   : s.store.config = config
  begun    : start ≤ s.now
  lasting  : s.store.Lasting start
  absent   : ∀ {id v}, s.live.find? id = some v → v.isOwner → v.directive = some .standard →
    s.store.bodies.find? v.key = none

namespace Settled

theorem blank : (blank config start : State MemoryStore ε).Settled config start where
  faithful  := .init
  config    := rfl
  begun     := Nat.le_refl _
  lasting h := by cases h
  absent h  := by cases h

theorem quiet {request? : Option (Key × Directive)} (h : s.Settled config start)
    (ht : t.Faithful) (hq : s.Quiet request? t) : t.Settled config start where
  faithful := ht
  config   := hq.store ▸ h.config
  begun    := Nat.le_trans h.begun hq.now
  lasting  := hq.store ▸ h.lasting
  absent hv ho hd := by
    rw [hq.store]
    cases hq.requests hv (by simp [hd])
    case inl hv => exact h.absent hv ho hd
    case inr hv =>
      obtain ⟨_, _, _, _, rfl⟩ := hv
      cases ho

theorem effect (h : s.Settled config start) (hn : config.Outlasts start s.now)
    (hl : s.Looking id generation t p d stage answer) :
    s.Effect id p d (generation (s.coordinator.since id s.now)) answer t.store := by
  refine (hl.outcome h.faithful).effect h.lasting (h.config ▸ hn) fun ho hd => ?_
  exact h.absent (h.faithful.live_of_party hl.party) ho (hl.directive.trans (congrArg some hd))

theorem look (h : s.Settled config start) (hn : config.Outlasts start s.now)
    (hl : s.Looking id generation t p d stage answer) : t.Settled config start where
  faithful := h.faithful.of_looking hl
  config   := (h.effect hn hl).config_eq.trans h.config
  begun    := hl.now ▸ h.begun
  lasting  := (h.effect hn hl).lasting h.lasting h.begun
  absent {j v} hv ho hd := by
    have he := h.effect hn hl
    rw [hl.live] at hv
    split at hv
    case isTrue =>
      -- The request itself has a generation under way, so it found no body and has written none.
      cases answer <;> cases hv
      case pending generating =>
        cases ho
        cases hd
        cases he
        case waits ha _ => cases ha
        case hits ha _ => cases ha
        case generates hh hb ha hs =>
          exact (Effect.generates hh hb ha hs).find?_eq_none (hb rfl) fun _ h => by cases h
    case isFalse hj =>
      exact he.find?_eq_none (h.absent hv ho hd) fun hh _ =>
        h.faithful.key_ne hl.party hh hv ho hj

end Settled

end State

end OnceCache.Execution
