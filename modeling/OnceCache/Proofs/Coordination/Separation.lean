import OnceCache.Proofs.Coordination.Handle

namespace OnceCache

namespace Registry

variable {r r' : Registry} {key k : Key} {n : Nat}

theorem release_references (h : r.release key = .ok (n, r')) :
    r'.references.find? k =
      if key = k then (r.references.find? key).bind fun m => if m ≤ 1 then none else some (m - 1)
      else r.references.find? k := by
  unfold release at h
  split at h
  case h_1 => cases h
  case h_2 count hc =>
    split at h <;> cases h
    case isTrue hl => simp [Table.find?_erase, hc, hl]
    case isFalse hl => simp [Table.find?_insert, hc, hl]

-- A key is forgotten or keeps its lock, and all others keep theirs.
theorem release_locks (h : r.release key = .ok (n, r')) :
    r'.locks.find? k = r.locks.find? k ∨ key = k ∧ r'.locks.find? k = none := by
  unfold release at h
  split at h
  case h_1 => cases h
  case h_2 =>
    split at h <;> cases h
    case isTrue =>
      by_cases hk : key = k
      case pos => exact .inr ⟨hk, hk ▸ Table.find?_erase_self⟩
      case neg => exact .inl (Table.find?_erase_of_ne hk)
    case isFalse => exact .inl rfl

end Registry

namespace Coordinator

-- Those who asked for the lock of a key and have not given it up, in the order of their asking. The
-- first of them owns the lock.
def queue (c : Coordinator) (key : Key) : List PartyId :=
  ((c.registry.locks.find? key).map fun lock => (c.lineOf lock).parties).getD []

-- Nothing happens to a key: those who refer to it are the same and are as they were, and so are its
-- lock, its references and its queue.
structure Untouched (key : Key) (c c' : Coordinator) : Prop where
  lock     : c'.registry.locks.find? key = c.registry.locks.find? key
  refCount : c'.registry.refCount key = c.registry.refCount key
  queue    : c'.queue key = c.queue key
  parties  : ∀ {id p}, p.key = key → (c'.parties.find? id = some p ↔ c.parties.find? id = some p)

variable {c c' c'' : Coordinator} {id j : PartyId} {p : Party} {key k : Key} {stage : Stage}
variable {lock : LockId} {isHolder : Bool}

section Queue

theorem queue_of_lock (h : c.registry.locks.find? key = some lock) :
    c.queue key = (c.lineOf lock).parties := by
  rw [queue, h]
  rfl

theorem Registered.queue_eq (h : c.Registered) (hp : c.parties.find? id = some p) :
    c.queue p.key = (c.lineOf p.lock).parties :=
  queue_of_lock (h.lock hp)

theorem Registered.isFirst_iff (h : c.Registered) (hp : c.parties.find? id = some p) :
    c.isFirst id p ↔ (c.queue p.key).head? = some id := by
  rw [isFirst_eq, h.queue_eq hp]
  rfl

-- A lock that is used for one key is not used for another.
theorem Registered.lock_ne (h : c.Registered) (hp : c.parties.find? id = some p)
    (hk : p.key ≠ key) (hl : c.registry.locks.find? key = some lock) : p.lock ≠ lock :=
  fun he => hk (h.counts.distinct (h.lock hp) (he ▸ hl))

-- Whoever is in the queue of a key refers to it.
theorem Sound.mem_queue_iff (h : c.Sound) : id ∈ c.queue key ↔
    ∃ p, c.parties.find? id = some p ∧ p.key = key ∧ p.stage.isInLine := by
  constructor
  case mp =>
    intro hm
    cases hl : c.registry.locks.find? key
    case none => simp [queue, hl] at hm
    case some lock =>
      rw [queue_of_lock hl, h.mem_iff] at hm
      obtain ⟨p, hp, rfl, hi⟩ := hm
      exact ⟨p, hp, h.counts.distinct (h.lock hp) hl, hi⟩
  case mpr =>
    rintro ⟨p, hp, rfl, hi⟩
    rw [h.queue_eq hp, h.mem_iff]
    exact ⟨p, hp, rfl, hi⟩

theorem Sound.queue_depart (h : c.Sound) (hu : c.Unused id) (hp : c.parties.find? id = some p) :
    (c.depart id).queue p.key = (c.queue p.key).filter (· ≠ id) := by
  have hd : (c.depart id).Sound := h.depart hu
  have hr : (c.depart id).registry.Counts (c.depart id).referrers ∧ ∀ key,
    (c.depart id).referrers key ≠ 0 → (c.depart id).registry.locks.find? key = _ :=
    h.depart_locks hp
  by_cases hz : (c.depart id).referrers p.key = 0
  case pos =>
    -- The lock is gone since nobody is left.
    rw [queue, (hr.left.locks _).mpr hz]
    refine (List.filter_eq_nil_iff.mpr fun j hj hne => ?_).symm
    obtain ⟨q, hq, hk, _⟩ := h.mem_queue_iff.mp hj
    have hq' : (c.depart id).parties.find? j = some q :=
      find?_depart_eq_some_iff.mpr ⟨Ne.symm (of_decide_eq_true hne), hq⟩
    exact hd.referrers_ne_zero hq' (hk ▸ hz)
  case neg =>
    have hl : (c.depart id).registry.locks.find? p.key = some p.lock :=
      (hr.right _ hz).trans (h.lock hp)
    rw [queue_of_lock hl, h.queue_eq hp, lineOf_depart hp, if_pos rfl]
    rfl

-- Whoever wants the lock of a key in use joins its queue.
theorem queue_arrive (hl : c.registry.locks.find? p.key = some p.lock)
    (hi : p.stage.isInLine) : (c.arrive p).2.queue p.key = c.queue p.key ++ [c.nextParty] := by
  have hl' : (c.arrive p).2.registry.locks.find? p.key = some p.lock := by rwa [arrive_registry]
  rw [queue_of_lock hl', queue_of_lock hl, lineOf_arrive, if_pos ⟨rfl, hi⟩]
  rfl

-- A handle that comes does not ask for the lock yet.
theorem Sound.queue_allocate (h : c.Sound) : (c.enter key .handle).2.queue key = c.queue key := by
  have hl : (c.enter key .handle).2.registry.locks.find? key = some (c.registry.acquire key).1 := by
    rw [enter_registry, Registry.acquire_locks, if_pos rfl]
  rw [queue_of_lock hl, lineOf_enter, if_neg (by simp [Stage.isInLine])]
  obtain ha | ⟨hn, hi, _⟩ := Registry.acquire_lock c.registry key
  case inl => rw [queue_of_lock ha]
  case inr =>
    -- Nobody waits for a lock that is new.
    rw [hi, queue, hn]
    refine List.eq_nil_iff_forall_not_mem.mpr fun j hj => ?_
    obtain ⟨q, hq, he, _⟩ := (h.mem_iff _ _).mp hj
    exact Nat.lt_irrefl _ (h.counts.fresh (he ▸ h.lock hq))

end Queue

namespace Untouched

theorem refl : c.Untouched key c where
  lock      := rfl
  refCount  := rfl
  queue     := rfl
  parties _ := .rfl

theorem trans (h : c.Untouched key c') (h' : c'.Untouched key c'') : c.Untouched key c'' where
  lock       := h'.lock.trans h.lock
  refCount   := h'.refCount.trans h.refCount
  queue      := h'.queue.trans h.queue
  parties hk := (h'.parties hk).trans (h.parties hk)

theorem setStage (hp : c.parties.find? id = some p) (hk : p.key ≠ key) :
    c.Untouched key (c.setStage id stage) where
  lock     := rfl
  refCount := rfl
  queue    := rfl
  parties {j q} hq := by
    rw [find?_setStage hp]
    split
    case isTrue he =>
      -- Whoever changes its stage does not refer to the key.
      rw [← he, hp]
      constructor
      all_goals
        intro h
        cases h
        exact absurd hq hk
    case isFalse => exact .rfl

-- Whoever comes for another lock joins another line.
theorem arrive (hn : c.parties.find? c.nextParty = none) (hk : p.key ≠ key)
    (hl : c.registry.locks.find? key ≠ some p.lock) : c.Untouched key (c.arrive p).2 where
  lock := by rw [arrive_registry]
  refCount := by rw [arrive_registry]
  queue := by
    unfold Coordinator.queue
    rw [arrive_registry]
    cases hlock : c.registry.locks.find? key
    case none => rfl
    case some lock =>
      have hne : p.lock ≠ lock := fun he => hl (he ▸ hlock)
      simp only [Option.map_some, lineOf_arrive, hne, false_and, if_false]
  parties {j q} hq := by
    rw [find?_arrive]
    split
    case isTrue he =>
      rw [← he, hn]
      constructor
      all_goals
        intro h
        cases h
      exact absurd hq hk
    case isFalse => exact .rfl

theorem enter (h : c.Registered) (hk : k ≠ key) : c.Untouched key (c.enter k stage).2 := by
  have hw : c.Untouched key (c.withReference k) := by
    constructor
    case lock => rw [Registry.acquire_locks, if_neg hk]
    case refCount =>
      rw [Registry.refCount, Registry.acquire_references, if_neg hk]
      rfl
    case queue =>
      unfold Coordinator.queue
      rw [Registry.acquire_locks, if_neg hk]
      rfl
    case parties => exact fun _ => .rfl
  refine hw.trans (arrive (p := c.newcomer k stage) h.unused hk fun hl => hk ?_)
  have hc : (c.registry.acquire k).2.Counts (Registry.oneMore c.referrers k) := h.counts.acquire
  exact hc.distinct (by rw [Registry.acquire_locks, if_pos rfl]) hl

theorem depart (h : c.Registered) (hp : c.parties.find? id = some p) (hk : p.key ≠ key) :
    c.Untouched key (c.depart id) := by
  have hr : (c.depart id).registry.locks.find? key = c.registry.locks.find? key ∧
      (c.depart id).registry.refCount key = c.registry.refCount key := by
    cases hs : p.stage.handle?
    case none =>
      have hr : c.registry.release p.key = .ok (_, (c.depart id).registry) := h.release hp hs
      refine ⟨(Registry.release_locks hr).resolve_right fun he => hk he.left, ?_⟩
      rw [Registry.refCount, Registry.release_references hr, if_neg hk]
      rfl
    case some i =>
      rw [depart_registry hp, released_of_call (by rw [hs]; rfl)]
      exact ⟨rfl, rfl⟩
  constructor
  case lock => exact hr.left
  case refCount => exact hr.right
  case queue =>
    unfold Coordinator.queue
    rw [hr.left]
    cases hl : c.registry.locks.find? key
    case none => rfl
    case some lock => simp [lineOf_depart hp, h.lock_ne hp hk hl]
  case parties =>
    intro j q hq
    rw [find?_depart_eq_some_iff]
    refine and_iff_right_of_imp fun hj he => hk ?_
    cases hp.symm.trans (he ▸ hj)
    exact hq

section Handles

variable (h : c.Sound) (hk : ∀ {p}, c.parties.find? id = some p → p.key ≠ key)
include h hk

theorem pollLock (ha : c.pollLock id = .ok (isHolder, c')) : c.Untouched key c' := by
  obtain ⟨p, i, hp, _, _, rfl⟩ := h.of_pollLock ha
  exact setStage hp (hk hp)

theorem askLock (ha : c.askLock id = .ok (j, isHolder, c')) : c.Untouched key c' := by
  obtain ⟨p, hp, hs, rfl, hr⟩ := of_askLock ha
  have hne : p.key ≠ key := hk hp
  have hd : (c.arrive (newCall p id)).2.Sound := h.arriveCall hp hs
  have hc : c.Untouched key (c.arrive (newCall p id)).2 :=
    arrive (p := newCall p id) h.unused hne fun hl => h.lock_ne hp hne hl rfl
  refine hc.trans (pollLock hd (fun {q} hq => ?_) hr)
  cases find?_arrive_self.symm.trans hq
  exact hne

theorem goes (hg : c.Goes id p c') : c.Untouched key c' :=
  hg.eq ▸ depart h.toRegistered hg.party (hk hg.party)

end Handles

end Untouched

end Coordinator

end OnceCache
