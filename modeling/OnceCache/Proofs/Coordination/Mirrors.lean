import OnceCache.Proofs.Coordination.HandleRun

namespace OnceCache

open Handles

namespace Coordinator

variable {keys : List Key} {key : Key} {c c' d d' : Coordinator} {i j id : PartyId}
variable {p q : Party} {stage : Stage}

section Rename

variable {f : PartyId → PartyId} {isHolder : Bool}

theorem handle?_rename : (stage.rename f).handle? = stage.handle?.map f := by
  cases stage <;> rfl

theorem isOwner_rename : (stage.rename f).isOwner = stage.isOwner := by
  cases stage <;> rfl

theorem rename_eq_handle_iff : stage.rename f = .handle ↔ stage = .handle := by
  cases stage <;> simp [Stage.rename]

theorem rename_told : (told i isHolder).rename f = told (f i) isHolder := by
  cases isHolder <;> rfl

end Rename

-- Two coordinators that cannot be told apart by the handles of a key and their lock calls. The
-- second one knows no others.
structure Mirrors (keys : List Key) (key : Key) (c d : Coordinator) : Prop where
  next     : d.nextParty = number keys key c.nextParty
  refCount : d.registry.refCount key = c.registry.refCount key
  own      : ∀ {id}, id ∈ c.queue key → keys[id]? = some key
  queue    : d.queue key = (c.queue key).map (number keys key)
  parties  : ∀ {id}, keys[id]? = some key →
    (d.parties.find? (number keys key id)).map (fun q => (q.key, q.stage)) =
      (c.parties.find? id).map fun p => (p.key, p.stage.rename (number keys key))
  onto     : ∀ {j q}, d.parties.find? j = some q →
    ∃ id, keys[id]? = some key ∧ number keys key id = j

namespace Mirrors

section Party

variable (h : Mirrors keys key c d) (hi : keys[i]? = some key)
include h hi

-- A party of the key is there, at the same stage, or it is not there.
theorem party_cases :
    (c.parties.find? i = none ∧ d.parties.find? (number keys key i) = none) ∨
      ∃ p q, c.parties.find? i = some p ∧ d.parties.find? (number keys key i) = some q ∧
        q.key = p.key ∧ q.stage = p.stage.rename (number keys key) := by
  have hp := h.parties hi
  cases hc : c.parties.find? i
  case none => exact .inl ⟨rfl, by simpa [hc] using hp⟩
  case some p =>
    obtain ⟨q, hq, he⟩ := Option.map_eq_some_iff.mp (hc ▸ hp)
    obtain ⟨hk, hs⟩ := Prod.mk.inj he
    exact .inr ⟨p, q, rfl, hq, hk, hs⟩

theorem handle?_cases :
    (∃ m, c.handle? i = .error m ∧ d.handle? (number keys key i) = .error m) ∨
      ∃ p q, c.handle? i = .ok p ∧ d.handle? (number keys key i) = .ok q ∧ q.key = p.key := by
  unfold handle?
  obtain ⟨hc, hd⟩ | ⟨p, q, hp, hq, hk, hs⟩ := h.party_cases hi
  case inl =>
    rw [hc, hd]
    exact .inl ⟨_, rfl, rfl⟩
  case inr =>
    rw [hp, hq]
    simp only [hs, rename_eq_handle_iff]
    split
    case isTrue => exact .inr ⟨p, q, rfl, rfl, hk⟩
    case isFalse => exact .inl ⟨_, rfl, rfl⟩

theorem call?_cases :
    (∃ m, c.call? i = .error m ∧ d.call? (number keys key i) = .error m) ∨
      ∃ p q, c.call? i = .ok p ∧ d.call? (number keys key i) = .ok q ∧ q.key = p.key ∧
        q.stage = p.stage.rename (number keys key) := by
  unfold call?
  obtain ⟨hc, hd⟩ | ⟨p, q, hp, hq, hk, hs⟩ := h.party_cases hi
  case inl =>
    rw [hc, hd]
    exact .inl ⟨_, rfl, rfl⟩
  case inr =>
    rw [hp, hq]
    dsimp only
    rw [hs, handle?_rename, Option.isSome_map]
    split
    case isTrue => exact .inr ⟨p, q, rfl, rfl, hk, hs⟩
    case isFalse => exact .inl ⟨_, rfl, rfl⟩

-- To leave is to leave the queue.
theorem filter_queue : (d.queue key).filter (· ≠ number keys key i) =
    ((c.queue key).filter (· ≠ i)).map (number keys key) := by
  rw [h.queue, List.filter_map]
  refine congrArg _ (List.filter_congr fun j hj => decide_eq_decide.mpr (not_congr ?_))
  exact ⟨number_inj (h.own hj) hi, congrArg _⟩

-- A handle has lock calls in the one run exactly if it has some in the other.
theorem unused_iff (hc : c.Registered) (hn : ∀ {id p}, c.parties.find? id = some p →
    keys[id]? = some p.key) : d.Unused (number keys key i) ↔ c.Unused i := by
  constructor
  case mp =>
    intro hu j q hq hcall
    obtain ⟨p, hp, _, hk⟩ := hc.calls hq hcall
    have hj : keys[j]? = some key := by rw [hn hq, ← hk, ← hn hp, hi]
    obtain ⟨hq', _⟩ | ⟨p', q', hp', hq', _, hs⟩ := h.party_cases hj
    case inl => cases hq'.symm.trans hq
    case inr =>
      cases hp'.symm.trans hq
      exact hu hq' (by rw [hs, handle?_rename, hcall, Option.map_some])
  case mpr =>
    intro hu j' q hq hcall
    obtain ⟨j, hj, rfl⟩ := h.onto hq
    obtain ⟨_, hq'⟩ | ⟨p', q', hp', hq', _, hs⟩ := h.party_cases hj
    case inl => cases hq'.symm.trans hq
    case inr =>
      cases hq'.symm.trans hq
      rw [hs, handle?_rename] at hcall
      obtain ⟨i', hi', he⟩ := Option.map_eq_some_iff.mp hcall
      obtain ⟨p, hp, _, hk⟩ := hc.calls hp' hi'
      have : keys[i']? = some key := by rw [hn hp, hk, ← hn hp', hj]
      exact hu hp' (number_inj this hi he ▸ hi')

end Party

-- Somebody comes in both runs.
theorem come (h : Mirrors keys key c d) (hn : keys[c.nextParty]? = some key)
    (hk : q.key = p.key) (hs : q.stage = p.stage.rename (number keys key))
    (hcn : c'.nextParty = c.nextParty + 1)
    (hc : ∀ j, c'.parties.find? j = if c.nextParty = j then some p else c.parties.find? j)
    (hdn : d'.nextParty = d.nextParty + 1)
    (hd : ∀ j, d'.parties.find? j = if d.nextParty = j then some q else d.parties.find? j)
    (hr : d'.registry.refCount key = c'.registry.refCount key)
    (ho : ∀ {id}, id ∈ c'.queue key → keys[id]? = some key)
    (hq : d'.queue key = (c'.queue key).map (number keys key)) : Mirrors keys key c' d' where
  next     := by rw [hdn, hcn, number_succ hn, if_pos rfl, h.next]
  refCount := hr
  own      := ho
  queue    := hq
  parties {j} hj := by
    rw [hc, hd, h.next]
    by_cases he : c.nextParty = j
    case pos => simp [he, hk, hs]
    case neg =>
      have : number keys key c.nextParty ≠ number keys key j := fun hn' => he (number_inj hn hj hn')
      simpa [he, this] using h.parties hj
  onto {j q} hj := by
    rw [hd] at hj
    split at hj
    case isTrue he => exact ⟨c.nextParty, hn, h.next ▸ he⟩
    case isFalse => exact h.onto hj

theorem allocate (h : Mirrors keys key c d) (hn : keys[c.nextParty]? = some key)
    (hc : c.Sound) (hd : d.Sound) :
    Mirrors keys key (c.enter key .handle).2 (d.enter key .handle).2 := by
  refine h.come (p := c.newcomer key .handle) (q := d.newcomer key .handle) hn rfl rfl
    enter_nextParty (fun _ => find?_enter) enter_nextParty (fun _ => find?_enter) ?_ ?_ ?_
  · have := h.refCount
    unfold Registry.refCount at this ⊢
    rw [enter_registry, enter_registry, Registry.acquire_references, Registry.acquire_references,
      this]
  · exact fun hm => h.own (hc.queue_allocate ▸ hm)
  · rw [hc.queue_allocate, hd.queue_allocate, h.queue]

section Moves

variable (h : Mirrors keys key c d) (hi : keys[i]? = some key)
variable (hp : c.parties.find? i = some p) (hq : d.parties.find? (number keys key i) = some q)
include h hi hp hq

theorem setStage {stage' : Stage} (hs : stage' = stage.rename (number keys key)) :
    Mirrors keys key (c.setStage i stage) (d.setStage (number keys key i) stage') where
  next     := h.next
  refCount := h.refCount
  own      := h.own
  queue    := h.queue
  parties {j} hj := by
    rw [find?_setStage hp, find?_setStage hq]
    have hk := h.parties hi
    by_cases he : i = j
    case pos =>
      simp only [hp, hq, Option.map_some, Option.some.injEq, Prod.mk.injEq] at hk
      simp [he, hk, hs]
    case neg =>
      have : number keys key i ≠ number keys key j := fun hn => he (number_inj hi hj hn)
      simpa [he, this] using h.parties hj
  onto {j q} hj := by
    rw [find?_setStage hq] at hj
    split at hj
    case isTrue he => exact ⟨i, hi, he⟩
    case isFalse => exact h.onto hj

variable (hk : p.key = key) (hk' : q.key = key)
include hk hk'

-- The one is first in its queue exactly if the other is.
theorem isFirst_eq (hc : c.Registered) (hd : d.Registered) :
    d.isFirst (number keys key i) q = c.isFirst i p := by
  rw [Bool.eq_iff_iff, hc.isFirst_iff hp, hd.isFirst_iff hq, hk, hk', h.queue, List.head?_map,
    Option.map_eq_some_iff]
  constructor
  case mp =>
    rintro ⟨j, hj, hn⟩
    have : keys[j]? = some key := h.own (List.mem_of_head? hj)
    exact number_inj this hi hn ▸ hj
  case mpr => exact fun hf => ⟨i, hf, rfl⟩

theorem arriveCall (hn : keys[c.nextParty]? = some key) (hc : c.Registered) (hd : d.Registered) :
    Mirrors keys key (c.arrive (newCall p i)).2 (d.arrive (newCall q (number keys key i))).2 := by
  subst hk
  have hlock := hc.lock hp
  have hlock' := hd.lock hq
  have hl : (c.arrive (newCall p i)).2.queue p.key = c.queue p.key ++ [c.nextParty] :=
    queue_arrive (p := newCall p i) hlock rfl
  have hl' : (d.arrive (newCall q (number keys p.key i))).2.queue q.key =
      d.queue q.key ++ [d.nextParty] :=
    queue_arrive (p := newCall q (number keys p.key i)) hlock' rfl
  rw [hk'] at hl'
  refine h.come (p := newCall p i) (q := newCall q (number keys p.key i)) hn hk' rfl
    arrive_nextParty (fun _ => find?_arrive) arrive_nextParty (fun _ => find?_arrive) ?_ ?_ ?_
  · rw [arrive_registry, arrive_registry, h.refCount]
  · intro j hm
    rw [hl, List.mem_append, List.mem_singleton] at hm
    obtain hm | rfl := hm
    case inl => exact h.own hm
    case inr => exact hn
  · rw [hl, hl', h.queue, h.next, List.map_append, List.map_singleton]

theorem depart (hs : q.stage = p.stage.rename (number keys key)) (hc : c.Sound) (hd : d.Sound)
    (hu : c.Unused i) (hu' : d.Unused (number keys key i)) :
    Mirrors keys key (c.depart i) (d.depart (number keys key i)) := by
  subst hk
  have hl := hc.queue_depart hu hp
  have hl' := hd.queue_depart hu' hq
  rw [hk'] at hl'
  constructor
  case next => rw [depart_nextParty, depart_nextParty, h.next]
  case refCount =>
    have hr := h.refCount
    have hcall : q.stage.handle? = p.stage.handle?.map (number keys p.key) := by
      rw [hs, handle?_rename]
    cases hh : p.stage.handle? <;> rw [hh] at hcall
    case none =>
      have hrc : c.registry.release p.key = .ok (_, (c.depart i).registry) := hc.release hp hh
      have hrd : d.registry.release q.key = .ok (_, (d.depart _).registry) := hd.release hq hcall
      rw [hk'] at hrd
      unfold Registry.refCount at hr ⊢
      rw [Registry.release_references hrc, Registry.release_references hrd, if_pos rfl,
        if_pos rfl, hr]
    case some =>
      rw [depart_registry hp, depart_registry hq, released_of_call (by rw [hcall]; rfl),
        released_of_call (by rw [hh]; rfl), hr]
  case own => exact fun hm => h.own (List.mem_filter.mp (hl ▸ hm)).left
  case queue => rw [hl, hl', h.filter_queue hi]
  case parties =>
    intro j hj
    rw [depart_parties, depart_parties, Table.find?_erase, Table.find?_erase]
    by_cases he : i = j
    case pos => simp [he]
    case neg =>
      have : number keys p.key i ≠ number keys p.key j := fun hn => he (number_inj hi hj hn)
      simpa [he, this] using h.parties hj
  case onto => exact fun hj => h.onto (find?_depart_eq_some_iff.mp hj).right

end Moves

-- What happens to other keys makes no difference.
theorem untouched (h : Mirrors keys key c d) (hu : c.Untouched key c')
    (hk : ∀ {id p}, c.parties.find? id = some p → keys[id]? = some p.key)
    (hk' : ∀ {id p}, c'.parties.find? id = some p → keys[id]? = some p.key)
    (hn : number keys key c'.nextParty = number keys key c.nextParty) :
    Mirrors keys key c' d where
  next     := h.next.trans hn.symm
  refCount := h.refCount.trans hu.refCount.symm
  own hm   := h.own (hu.queue ▸ hm)
  queue    := hu.queue ▸ h.queue
  parties {j} hj := by
    have : c'.parties.find? j = c.parties.find? j := by
      refine Option.ext fun p => ?_
      constructor
      case mp =>
        intro hp
        exact (hu.parties (Option.some.inj ((hk' hp).symm.trans hj))).mp hp
      case mpr =>
        intro hp
        exact (hu.parties (Option.some.inj ((hk hp).symm.trans hj))).mpr hp
    rw [this]
    exact h.parties hj
  onto := h.onto

theorem sharesLock (h : Mirrors keys key c d) (hi : keys[i]? = some key)
    (hj : keys[j]? = some key) (hc : c.Sound) (hd : d.Sound) :
    d.sharesLock (number keys key i) (number keys key j) = c.sharesLock i j := by
  obtain ⟨m, hp, hq⟩ | ⟨p, q, hp, hq, he⟩ := h.handle?_cases hi
  case inl =>
    rw [Coordinator.sharesLock, Coordinator.sharesLock, hp, hq]
    rfl
  case inr =>
    obtain ⟨m, hp', hq'⟩ | ⟨p', q', hp', hq', he'⟩ := h.handle?_cases hj
    case inl =>
      rw [Coordinator.sharesLock, Coordinator.sharesLock, hp, hq, hp', hq']
      rfl
    case inr =>
      have hl : p.lock = p'.lock ↔ p.key = p'.key :=
        hc.lock_eq_iff (handle?_eq_ok_iff.mp hp).left (handle?_eq_ok_iff.mp hp').left
      have hl' : q.lock = q'.lock ↔ q.key = q'.key :=
        hd.lock_eq_iff (handle?_eq_ok_iff.mp hq).left (handle?_eq_ok_iff.mp hq').left
      rw [sharesLock_eq hp hp', sharesLock_eq hq hq']
      simp [hl, hl', he, he']

end Mirrors

-- The same is answered, or refused for the same reason, and then there is still no difference.
inductive Agrees (keys : List Key) (key : Key) :
    Except Misuse (Verdict × Coordinator) → Except Misuse (Verdict × Coordinator) → Prop
  | refused (misuse : Misuse) : Agrees keys key (.error misuse) (.error misuse)
  | done (verdict : Verdict) {c d : Coordinator} :
    Mirrors keys key c d →
    Agrees keys key (.ok (verdict, c)) (.ok (verdict.rename (number keys key), d))

section Demand

variable (h : Mirrors keys key c d) (hi : keys[i]? = some key) (hc : c.Sound) (hd : d.Sound)
variable (hk : ∀ {id p}, c.parties.find? id = some p → keys[id]? = some p.key)
include h hi hc hd hk

theorem Mirrors.askLock
    (hn : ∀ {call isHolder c'}, c.askLock i = .ok (call, isHolder, c') →
      keys[c.nextParty]? = some key) :
    Agrees keys key (Demand.askLock.on? c i) (Demand.askLock.on? d (number keys key i)) := by
  obtain ⟨m, hp, hq⟩ | ⟨p, q, hp, hq, he⟩ := h.handle?_cases hi
  case inl =>
    simp only [Demand.on?, Coordinator.askLock, hp, hq]
    exact .refused m
  case inr =>
    obtain ⟨hp, hs⟩ := handle?_eq_ok_iff.mp hp
    obtain ⟨hq, hs'⟩ := handle?_eq_ok_iff.mp hq
    have ha : c.askLock i = _ := hc.askLock_eq hp hs
    have ha' : d.askLock (number keys key i) = _ := hd.askLock_eq hq hs'
    have hnext : keys[c.nextParty]? = some key := hn ha
    have hpk : p.key = key := Option.some.inj ((hk hp).symm.trans hi)
    have hqk : q.key = key := he.trans hpk
    have hm : Mirrors keys key _ _ :=
      h.arriveCall hi hp hq hpk hqk hnext hc.toRegistered hd.toRegistered
    have hpc : (c.arrive (newCall p i)).2.parties.find? c.nextParty = _ := find?_arrive_self
    have hqc : (d.arrive (newCall q (number keys key i))).2.parties.find? d.nextParty = _ :=
      find?_arrive_self
    rw [h.next] at hqc ha'
    have hf := hm.isFirst_eq hnext hpc hqc hpk hqk (hc.toRegistered.arriveCall hp hs)
      (hd.toRegistered.arriveCall hq hs')
    rw [Demand.on?, Demand.on?, ha, ha', hf]
    exact .done (.asked c.nextParty _) (hm.setStage hnext hpc hqc rename_told.symm)

-- What can be asked of a lock call.
theorem Mirrors.demand_call {x : Demand} (hx : x = .pollLock ∨ x = .abandon ∨ x = .unlock) :
    Agrees keys key (x.on? c i) (x.on? d (number keys key i)) := by
  obtain ⟨m, hp, hq⟩ | ⟨p, q, hp, hq, he, hs⟩ := h.call?_cases hi
  case inl =>
    obtain rfl | rfl | rfl := hx
    all_goals
      simp only [Demand.on?, pollLock, abandon, unlock, guard?, hp, hq]
      exact .refused m
  case inr =>
    obtain ⟨hp', hcall⟩ := call?_eq_ok_iff.mp hp
    obtain ⟨hq', hcall'⟩ := call?_eq_ok_iff.mp hq
    have hpk : p.key = key := Option.some.inj ((hk hp').symm.trans hi)
    have hqk : q.key = key := he.trans hpk
    have hdepart : Mirrors keys key (c.depart i) (d.depart (number keys key i)) :=
      h.depart hi hp' hq' hpk hqk hs hc hd
        (hc.unused_of_isInLine hp' (Stage.isInLine_of_handle? hcall))
        (hd.unused_of_isInLine hq' (Stage.isInLine_of_handle? hcall'))
    obtain rfl | rfl | rfl := hx
    case inl =>
      obtain ⟨i', hi'⟩ := Option.isSome_iff_exists.mp hcall
      have hi'' : q.stage.handle? = some (number keys key i') := by
        rw [hs, handle?_rename, hi', Option.map_some]
      have hf := h.isFirst_eq hi hp' hq' hpk hqk hc.toRegistered hd.toRegistered
      rw [Demand.on?, Demand.on?, hc.pollLock_eq hp' hi', hd.pollLock_eq hq' hi'', hf]
      exact .done (.learned _) (h.setStage hi hp' hq' rename_told.symm)
    case inr.inl =>
      rw [Demand.on?, Demand.on?, abandon_eq hp' hcall, abandon_eq hq' hcall']
      exact .done .done hdepart
    case inr.inr =>
      have ho : q.stage.isOwner = p.stage.isOwner := by rw [hs, isOwner_rename]
      cases hp_owner : p.stage.isOwner <;> rw [hp_owner] at ho
      case true =>
        rw [Demand.on?, Demand.on?, unlock_eq hp' hcall hp_owner, unlock_eq hq' hcall' ho]
        exact .done .done hdepart
      case false =>
        simp only [Demand.on?, unlock, guard?, hp, hq, bind, Except.bind, hp_owner, ho]
        exact .refused _

theorem Mirrors.free :
    Agrees keys key (Demand.free.on? c i) (Demand.free.on? d (number keys key i)) := by
  obtain ⟨m, hp, hq⟩ | ⟨p, q, hp, hq, he⟩ := h.handle?_cases hi
  case inl =>
    simp only [Demand.on?, Coordinator.free, hp, hq]
    exact .refused m
  case inr =>
    obtain ⟨hp', hs⟩ := handle?_eq_ok_iff.mp hp
    obtain ⟨hq', hs'⟩ := handle?_eq_ok_iff.mp hq
    have hpk : p.key = key := Option.some.inj ((hk hp').symm.trans hi)
    have huse : d.isInUse (number keys key i) = c.isInUse i := by
      have hu := h.unused_iff hi hc.toRegistered hk
      rw [← isInUse_eq_false_iff, ← isInUse_eq_false_iff] at hu
      revert hu
      cases d.isInUse (number keys key i) <;> cases c.isInUse i <;> simp
    cases hu : c.isInUse i <;> rw [hu] at huse
    case false =>
      have hun : c.Unused i := isInUse_eq_false_iff.mp hu
      have hun' : d.Unused (number keys key i) := isInUse_eq_false_iff.mp huse
      rw [Demand.on?, Demand.on?, free_eq hp' hs hun, free_eq hq' hs' hun']
      have hstage : q.stage = p.stage.rename (number keys key) := by rw [hs, hs']; rfl
      exact .done .done (h.depart hi hp' hq' hpk (he.trans hpk) hstage hc hd hun hun')
    case true =>
      simp only [Demand.on?, Coordinator.free, hp, hq, bind, Except.bind, hu, huse]
      exact .refused _

theorem Mirrors.demand {x : Demand}
    (hn : ∀ {call isHolder c'}, x.on? c i = .ok (.asked call isHolder, c') →
      keys[c.nextParty]? = some key) :
    Agrees keys key (x.on? c i) (x.on? d (number keys key i)) := by
  cases x
  case askLock => exact h.askLock hi hc hd hk fun ha => hn (by rw [Demand.on?, ha]; rfl)
  case pollLock => exact h.demand_call hi hc hd hk (.inl rfl)
  case abandon => exact h.demand_call hi hc hd hk (.inr (.inl rfl))
  case unlock => exact h.demand_call hi hc hd hk (.inr (.inr rfl))
  case free => exact h.free hi hc hd hk

end Demand

end Coordinator

end OnceCache
