import OnceCache.Proofs.Execution.Memory

namespace OnceCache.Execution.State

variable {σ ε : Type} [ByteStore σ]

-- It is the turn of whoever is first in line for a key.
def IsNext (s : State σ ε) (id : PartyId) (key : Key) : Prop :=
  ∃ lock, s.coordinator.registry.locks.find? key = some lock ∧
    (s.coordinator.lineOf lock).holder = some id

-- In the next look at a request its generation runs.
def RunsNext (describe : ε → String) (s : State σ ε) (id : PartyId) : Prop :=
  ∀ generation, ∃ look, (s.step describe (.poll id generation)).looks = s.looks ++ [(id, look)] ∧
    look.answer.ran

-- Somebody goes without having stored anything. Everybody else stays as they are, and if the next
-- in line for the key is a request, then it generates.
structure Spares (describe : ε → String) (s : State MemoryStore ε) (id : PartyId) (key : Key)
    (t : State MemoryStore ε) : Prop where
  bodies : t.store.bodies = s.store.bodies
  live   : t.live = s.live.erase id
  next   : ∀ {lock j rest v}, s.coordinator.registry.locks.find? key = some lock →
    (s.coordinator.lineOf lock).parties = id :: j :: rest → s.live.find? j = some v →
    v.directive.isSome → t.RunsNext describe j

variable {s t : State MemoryStore ε} {id j : PartyId} {p : Party} {v : Sighting} {start : Instant}
variable {config : Config} {describe : ε → String}

namespace Settled

-- Whoever is first in line for a key without a body generates.
theorem runsNext (h : s.Settled config start) (hn : config.Outlasts start s.now)
    (hv : s.live.find? id = some v) (hd : v.directive.isSome) (hx : s.IsNext id v.key)
    (hb : s.store.bodies.find? v.key = none) : s.RunsNext describe id := by
  intro generation
  obtain ⟨lock, hlock, hf⟩ := hx
  obtain ⟨p, hp, rfl⟩ := h.faithful.party_of_live hv
  obtain ⟨d, stage, answer, hl : s.Looking id generation (s.look describe id generation) ..⟩ :=
    h.faithful.looking hp (Stage.isRequest_of_directive? hd)
  refine ⟨_, hl.looks, ?_⟩
  cases h.effect hn hl
  case waits hw _ _ =>
    cases hlock.symm.trans (h.faithful.sound.lock hp)
    exact absurd hf hw
  case hits hb' _ _ => cases hb.symm.trans hb'
  case generates ha _ => exact ha ▸ Manager.conclude_ran

theorem spares (h : s.Settled config start) (ht : t.Settled config start)
    (hn : config.Outlasts start t.now) (hp : s.coordinator.parties.find? id = some p)
    (hc : t.coordinator = s.coordinator.depart id) (hl : t.live = s.live.erase id)
    (hb : t.store.bodies = s.store.bodies) (hk : s.store.bodies.find? p.key = none) :
    s.Spares describe id p.key t where
  bodies := hb
  live   := hl
  next {lock j rest v} hlock hline hj hd := by
    have hs := h.faithful.sound
    have hj' : j ∈ (s.coordinator.lineOf lock).parties := by simp [hline]
    obtain ⟨q, hq, rfl, _⟩ := (hs.mem_iff _ _).mp hj'
    have hkey : p.key = q.key := hs.counts.distinct hlock (hs.lock hq)
    have hne : id ≠ j := by
      have := hline ▸ hs.nodup q.lock
      simp_all
    have hq' : t.coordinator.parties.find? j = some q := by
      rw [hc, Coordinator.depart_parties, Table.find?_erase_of_ne hne, hq]
    have hf : (t.coordinator.lineOf q.lock).holder = some j := by
      have hp' : p.lock = q.lock := hs.lock_eq hp hq hkey
      rw [hc, Coordinator.lineOf_depart hp, if_pos hp', Line.holder, Line.leave, hline]
      simp [Ne.symm hne]
    have hv : q.sighting = v := Option.some.inj ((h.faithful.live_of_party hq).symm.trans hj)
    subst hv
    refine ht.runsNext hn (ht.faithful.live_of_party hq') hd ?_ ?_
    · exact ⟨q.lock, ht.faithful.sound.lock hq', hf⟩
    · have : s.store.bodies.find? q.key = none := hkey ▸ hk
      rwa [hb]

end Settled

end OnceCache.Execution.State
