import OnceCache.Proofs.Execution.History
import OnceCache.Proofs.Execution.Memory
import OnceCache.Proofs.Store.Capacity

namespace OnceCache.Execution

variable {σ ε : Type}

-- The body that a generation came to that was looked at.
def Look.fresh? (look : Look ε) : Option Body :=
  if look.answer.ran then look.progress.body? else none

-- A body was generated for a key.
def WasGenerated (looks : List (PartyId × Look ε)) (key : Key) (body : Body) : Prop :=
  ∃ id look, (id, look) ∈ looks ∧ look.key = key ∧ look.fresh? = some body

theorem wasGenerated_append {looks : List (PartyId × Look ε)} {id : PartyId} {look : Look ε}
    {key : Key} {body : Body} :
    WasGenerated (looks ++ [(id, look)]) key body ↔
      WasGenerated looks key body ∨ look.key = key ∧ look.fresh? = some body := by
  constructor
  case mp =>
    intro ⟨i, l, hm, h⟩
    rw [List.mem_append, List.mem_singleton] at hm
    cases hm
    case inl hm => exact .inl ⟨i, l, hm, h⟩
    case inr he =>
      cases he
      exact .inr h
  case mpr =>
    intro h
    cases h
    case inl h =>
      obtain ⟨i, l, hm, h⟩ := h
      exact ⟨i, l, List.mem_append_left _ hm, h⟩
    case inr h => exact ⟨id, look, List.mem_append_right _ (.head _), h⟩

namespace State

-- What a look yields: no body at all, or the stored one, or a fresh one if there was none.
inductive Yields (s : State MemoryStore ε) (p : Party) (look : Look ε) (store : MemoryStore) : Prop
  | nothing :
    look.fresh? = none → (∀ served generated, look.answer ≠ .finished (.ok served) generated) →
    (∀ key, store.content? key = s.store.content? key) → Yields s p look store
  | stored {body : Body} :
    p.stage.isOwner = false → s.store.content? p.key = some body → look.fresh? = none →
    look.answer = .finished (.ok ⟨body, .hit⟩) false →
    (∀ key, store.content? key = s.store.content? key) → Yields s p look store
  | fresh {body : Body} :
    s.store.content? p.key = none → look.fresh? = some body →
    look.answer = .finished (.ok ⟨body, .miss⟩) true →
    (∀ key, store.content? key = if p.key = key then some body else s.store.content? key) →
    Yields s p look store

variable {s t : State MemoryStore ε} {id : PartyId} {p : Party} {d : Directive} {key : Key}
variable {stage : Stage} {answer : Poll ε} {generation : Generation ε} {progress : Progress ε}
variable {config : Config} {start : Instant} {store : MemoryStore} {body : Body}
variable {K : Finset Key} {L : Key → Nat} {describe : ε → String}
variable {action : Action MemoryStore ε} {actions : List (Action MemoryStore ε)}

theorem Effect.yields (h : s.Effect id p .standard progress answer store) (time : Instant)
    (ha : s.store.Accounted) (hc : s.store.config.HasRoomFor K L)
    (hb : ∀ {k b}, s.store.bodies.find? k = some b → k ∈ K ∧ b.body.size ≤ L k) (hk : p.key ∈ K)
    (hf : ∀ {body}, progress.body? = some body → answer.ran →
      body.size ≤ L p.key ∧ body.size ≤ s.store.config.maxEntryBytes.toNat) :
    store.Accounted ∧ store.stats.evictions = s.store.stats.evictions ∧
      s.Yields p ⟨p.key, .standard, time, progress, answer⟩ store := by
  cases h
  case waits hw _ ha' hs =>
    subst ha' hs
    refine ⟨ha, rfl, .nothing rfl ?_ fun _ => rfl⟩
    simp
  case hits b hw _ hb' ha' hs =>
    subst ha' hs
    refine ⟨ha.touch hb', rfl, .stored hw ?_ rfl rfl fun _ => MemoryStore.content?_touch hb'⟩
    rw [MemoryStore.content?, hb']
    rfl
  case generates n _ hn ha' hs =>
    have hr : answer.ran := ha' ▸ Manager.conclude_ran
    cases hbody : progress.body?
    case none =>
      rw [Manager.conclude_of_body?_eq_none hbody] at hs
      subst hs
      refine ⟨⟨ha.entryCount, ha.memoryUsage⟩, rfl, .nothing ?_ ?_ fun _ => rfl⟩
      · simp [Look.fresh?, hbody]
      · intro served generated he
        have := Manager.body?_of_conclude (ha'.symm.trans he)
        simp [hbody] at this
    case some body =>
      obtain ⟨hl, he⟩ := hf hbody hr
      obtain ⟨hset, heq⟩ := ha.set s.now hc hb (hn rfl) hk hl he
      rw [Manager.conclude_of_body?_eq_some hbody] at ha' hs
      have hs : store =
          (s.store.putIn p.key (.create body s.store.config.ttl s.now)).withMisses n := heq ▸ hs
      rw [heq] at hset
      subst hs
      refine ⟨⟨hset.entryCount, hset.memoryUsage⟩, rfl, .fresh ?_ ?_ ha' fun k => ?_⟩
      · rw [MemoryStore.content?, hn rfl]
        rfl
      · simp [Look.fresh?, hr, hbody]
      · exact MemoryStore.content?_putIn

-- The accounts are right and nothing was evicted, so what was generated for a key is what is stored
-- under it. All requests accept stored bodies, and their keys are among some.
structure Stocked (K : Finset Key) (s : State MemoryStore ε) : Prop where
  accounted : s.store.Accounted
  evictions : s.store.stats.evictions = 0
  asked     : ∀ {id v d}, s.live.find? id = some v → v.directive = some d →
    d = .standard ∧ v.key ∈ K
  looked    : ∀ {id look}, (id, look) ∈ s.looks → look.key ∈ K
  kept      : ∀ {key body}, s.store.content? key = some body ↔ WasGenerated s.looks key body

-- One body is generated for a key at most, and its request is served it as a miss. Every other
-- request that is served is served that body as a hit, and its own generation has never run.
structure GeneratedOnce (s : State σ ε) : Prop where
  once : s.looks.Pairwise fun a b =>
    a.2.fresh?.isSome → b.2.fresh?.isSome → a.2.key ≠ b.2.key
  miss : ∀ {id look body}, (id, look) ∈ s.looks → look.fresh? = some body →
    look.answer = .finished (.ok ⟨body, .miss⟩) true
  hit  : ∀ {id look served generated}, (id, look) ∈ s.looks →
    look.answer = .finished (.ok served) generated → look.fresh? = none →
    served.status = .hit ∧ WasGenerated s.looks look.key served.body ∧
      ∀ {other}, (id, other) ∈ s.looks → other.answer.ran = false

section Look

variable {look : Look ε}

theorem Stocked.asked_of_looking (h : s.Stocked K) (hs : s.Faithful)
    (hl : s.Looking id generation t p d stage answer) : d = .standard ∧ p.key ∈ K :=
  h.asked (hs.live_of_party hl.party) hl.directive

theorem Stocked.of_yields (h : s.Stocked K) (hs : s.Faithful)
    (hl : s.Looking id generation t p d stage answer) (hlooks : t.looks = s.looks ++ [(id, look)])
    (hk : look.key = p.key) (ha : t.store.Accounted)
    (he : t.store.stats.evictions = s.store.stats.evictions) (hy : s.Yields p look t.store) :
    t.Stocked K where
  accounted := ha
  evictions := he.trans h.evictions
  asked {j v d'} hv hd := by
    rw [hl.live] at hv
    split at hv
    case isTrue =>
      cases answer <;> cases hv
      cases hd
      exact h.asked_of_looking hs hl
    case isFalse => exact h.asked hv hd
  looked {j look'} hm := by
    rw [hlooks, List.mem_append, List.mem_singleton] at hm
    cases hm
    case inl hm => exact h.looked hm
    case inr he =>
      cases he
      rw [hk]
      exact (h.asked_of_looking hs hl).right
  kept {key body} := by
    rw [hlooks, wasGenerated_append, hk]
    cases hy
    case nothing hf _ hc => simp [hc, hf, h.kept]
    case stored hf _ hc => simp [hc, hf, h.kept]
    case fresh body' hn hf _ hc =>
      rw [hc, hf]
      split
      case isTrue hkey =>
        have : ¬WasGenerated s.looks key body := fun hg => by
          have := h.kept.mpr hg
          simp [← hkey, hn] at this
        simp [this, hkey]
      case isFalse hkey => simp [hkey, h.kept]

theorem GeneratedOnce.of_yields (h : s.GeneratedOnce) (hr : s.Recorded) (hst : s.Stocked K)
    (hs : s.Faithful) (hl : s.Looking id generation t p d stage answer)
    (hlooks : t.looks = s.looks ++ [(id, look)]) (hk : look.key = p.key)
    (hy : s.Yields p look t.store) : t.GeneratedOnce where
  once := by
    rw [hlooks]
    refine List.pairwise_append.mpr ⟨h.once, List.pairwise_singleton _ _, ?_⟩
    intro a ha b hb hfa hfb he
    cases List.mem_singleton.mp hb
    have ⟨body, hbody⟩ := Option.isSome_iff_exists.mp hfa
    have hc : s.store.content? p.key = some body :=
      hst.kept.mpr ⟨a.1, a.2, ha, he.trans hk, hbody⟩
    cases hy
    case nothing hf _ _ => simp [hf] at hfb
    case stored hf _ _ => simp [hf] at hfb
    case fresh hn _ _ _ => simp [hn] at hc
  miss {j look' body} hm hf := by
    rw [hlooks, List.mem_append, List.mem_singleton] at hm
    cases hm
    case inl hm => exact h.miss hm hf
    case inr he =>
      cases he
      cases hy
      case nothing hf' _ _ => simp [hf'] at hf
      case stored hf' _ _ => simp [hf'] at hf
      case fresh hf' ha _ =>
        cases hf'.symm.trans hf
        exact ha
  hit {j look' served generated} hm ha hf := by
    have hv := hs.live_of_party hl.party
    have hd : p.sighting.directive.isSome := by
      rw [show p.sighting.directive = some d from hl.directive]
      rfl
    rw [hlooks, List.mem_append, List.mem_singleton] at hm
    rw [hlooks, wasGenerated_append]
    cases hm
    case inl hm =>
      have ⟨hstatus, hg, ho⟩ := h.hit hm ha hf
      refine ⟨hstatus, .inl hg, fun {other} hm' => ?_⟩
      rw [List.mem_append, List.mem_singleton] at hm'
      cases hm'
      case inl hm' => exact ho hm'
      case inr he =>
        -- A request that was done is not looked at again.
        cases he
        have ⟨_, ha', _⟩ := hr.pending hv hd hm
        cases ha.symm.trans ha'
    case inr he =>
      cases he
      cases hy
      case nothing hn _ => exact absurd ha (hn _ _)
      case fresh hf' _ _ => simp [hf'] at hf
      case stored body hw hc _ ha' _ =>
        cases ha.symm.trans ha'
        refine ⟨rfl, .inl (hk ▸ hst.kept.mp hc), fun {other} hm' => ?_⟩
        rw [List.mem_append, List.mem_singleton] at hm'
        cases hm'
        case inl hm' => exact hr.unran hv hd hm' hw
        case inr he =>
          cases he
          rw [ha]
          rfl

end Look

structure Working (config : Config) (start : Instant) (K : Finset Key) (s : State MemoryStore ε) :
    Prop extends s.Settled config start, s.Recorded, s.Stocked K, s.GeneratedOnce

namespace Working

theorem blank : (blank config start : State MemoryStore ε).Working config start K where
  toSettled := .blank
  toRecorded := .init
  accounted := .create
  evictions := rfl
  asked h := by cases h
  looked h := by cases h
  kept := by
    intro key body
    constructor
    case mp => exact fun h => by cases h
    case mpr => exact fun ⟨_, _, h, _⟩ => by cases h
  once := .nil
  miss h := by cases h
  hit h := by cases h

theorem quiet {request? : Option (Key × Directive)} (h : s.Working config start K)
    (ht : t.Faithful) (hq : s.Quiet request? t)
    (hr : ∀ {key d}, request? = some (key, d) → d = .standard ∧ key ∈ K) :
    t.Working config start K where
  toSettled := h.toSettled.quiet ht hq
  toRecorded := h.toRecorded.quiet hq
  accounted := hq.store ▸ h.accounted
  evictions := hq.store ▸ h.evictions
  asked hv hd := by
    cases hq.requests hv (by simp [hd])
    case inl hv => exact h.asked hv hd
    case inr hv =>
      obtain ⟨_, key, d, he, rfl⟩ := hv
      cases hd
      exact hr he
  looked hm := h.looked (hq.looks ▸ hm)
  kept := by
    intro key body
    rw [hq.store, hq.looks]
    exact h.kept
  once := hq.looks ▸ h.once
  miss hm := h.miss (hq.looks ▸ hm)
  hit hm := by
    rw [hq.looks] at hm ⊢
    exact h.hit hm

theorem look (h : s.Working config start K) (hn : config.Outlasts start s.now)
    (hc : config.HasRoomFor K L) (hl : s.Looking id generation t p d stage answer)
    (hf : ∀ {id look body}, (id, look) ∈ t.looks → look.fresh? = some body →
      body.size ≤ L look.key ∧ body.size ≤ config.maxEntryBytes.toNat) :
    t.Working config start K := by
  obtain ⟨rfl, hk⟩ := h.asked_of_looking h.faithful hl
  have hnew := hl.looks ▸ List.mem_append_right s.looks (.head [])
  have ⟨ha, he, hy⟩ := (h.effect hn hl).yields s.now h.accounted (h.config ▸ hc)
    (fun {k b} hb => by
      have hg : s.store.content? k = some b.body := by rw [MemoryStore.content?, hb]; rfl
      obtain ⟨i, l, hm, rfl, hfresh⟩ := h.kept.mp hg
      exact ⟨h.looked hm, (hf (hl.looks ▸ List.mem_append_left _ hm) hfresh).left⟩)
    hk
    (fun {body} hb hr => h.config ▸ hf hnew (by simp [Look.fresh?, hb, hr]))
  exact {
    toSettled       := h.toSettled.look hn hl
    toRecorded      := h.toRecorded.look h.faithful hl
    toStocked       := h.toStocked.of_yields h.faithful hl hl.looks rfl ha he hy
    toGeneratedOnce :=
      h.toGeneratedOnce.of_yields h.toRecorded h.toStocked h.faithful hl hl.looks rfl hy }

theorem step (h : s.Working config start K) (hc : config.HasRoomFor K L)
    (hr : ∀ {key d}, action.request? = some (key, d) → d = .standard ∧ key ∈ K)
    (ht : ∀ {change}, action = .tend change → change = fun now store => (store.cleanUp now).state)
    (hn : config.Outlasts start (s.step describe action).now)
    (hf : ∀ {id look body}, (id, look) ∈ (s.step describe action).looks →
      look.fresh? = some body →
      body.size ≤ L look.key ∧ body.size ≤ config.maxEntryBytes.toNat) :
    (s.step describe action).Working config start K := by
  have hft : (s.step describe action).Faithful := h.faithful.step
  have hs : s.Stepped action (s.step describe action) := h.faithful.stepped
  generalize s.step describe action = t at hft hs hn hf
  cases hs
  case quiet hq => exact h.quiet hft hq hr
  case tended change =>
    -- Nothing has expired, so a clean-up does nothing.
    have : change s.now s.store = s.store := by
      rw [ht rfl]
      exact congrArg _ (MemoryStore.cleanUp_eq fun hb => h.lasting hb (h.config ▸ hn))
    rw [this]
    exact h
  case looked r id generation p d stage answer _ hrf hq hl =>
    exact (h.quiet hrf hq hr).look (hl.now ▸ hn) hc hl hf

theorem run (h : s.Working config start K) (hc : config.HasRoomFor K L)
    (hr : ∀ {action}, action ∈ actions → ∀ {key d}, action.request? = some (key, d) →
      d = .standard ∧ key ∈ K)
    (ht : ∀ {change}, .tend change ∈ actions → change = fun now store => (store.cleanUp now).state)
    (hn : config.Outlasts start (s.run describe actions).now)
    (hf : ∀ {id look body}, (id, look) ∈ (s.run describe actions).looks →
      look.fresh? = some body →
      body.size ≤ L look.key ∧ body.size ≤ config.maxEntryBytes.toNat) :
    (s.run describe actions).Working config start K := by
  induction actions generalizing s
  case nil => exact h
  case cons action actions hi =>
    have hft : (s.step describe action).Faithful := h.faithful.step
    have ⟨hlater, hmore⟩ := hft.run_later describe actions
    have hs := h.step hc (hr (.head _)) (fun he => ht (he ▸ .head _)) (hn.mono hlater)
      (fun hm => hf (hmore hm))
    exact hi hs (fun hm => hr (.tail _ hm)) (fun hm => ht (.tail _ hm)) hn hf

end Working

end State

end OnceCache.Execution
