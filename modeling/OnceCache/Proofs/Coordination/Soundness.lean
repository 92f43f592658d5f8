import OnceCache.Proofs.Coordination.Registry
import OnceCache.Proofs.Coordination.Role

namespace OnceCache

namespace Line

variable {l : Line} {id p : PartyId}

@[simp]
theorem mem_join : p ∈ (l.join id).parties ↔ p ∈ l.parties ∨ p = id := by
  simp [join]

@[simp]
theorem mem_leave : p ∈ (l.leave id).parties ↔ p ∈ l.parties ∧ p ≠ id := by
  simp [leave]

theorem nodup_join (h : l.parties.Nodup) (hn : id ∉ l.parties) : (l.join id).parties.Nodup := by
  refine List.nodup_append.mpr ⟨h, List.pairwise_singleton _ _, fun a ha b hb he => hn ?_⟩
  exact List.mem_singleton.mp hb ▸ he ▸ ha

theorem nodup_leave (h : l.parties.Nodup) : (l.leave id).parties.Nodup :=
  h.filter _

-- When the holder leaves, the others move up.
theorem parties_of_holder (h : l.holder = some id) (hn : l.parties.Nodup) :
    l.parties = id :: (l.leave id).parties := by
  obtain ⟨parties⟩ := l
  cases parties
  case nil => cases h
  case cons first rest =>
    cases h
    have hr : ∀ j ∈ rest, decide (j ≠ id) := fun j hj => decide_eq_true fun he =>
      (List.nodup_cons.mp hn).left (he ▸ hj)
    change id :: rest = id :: (id :: rest).filter (· ≠ id)
    rw [List.filter_cons_of_neg (by simp), List.filter_eq_self.mpr hr]

end Line

namespace Coordinator

variable {c : Coordinator} {id j : PartyId} {p : Party} {key : Key} {stage : Stage}
variable {lock : LockId} {line : Line}

@[simp]
theorem setLine_registry : (c.setLine lock line).registry = c.registry :=
  rfl

@[simp]
theorem setLine_parties : (c.setLine lock line).parties = c.parties :=
  rfl

@[simp]
theorem setLine_nextParty : (c.setLine lock line).nextParty = c.nextParty :=
  rfl

@[simp]
theorem lineOf_setStage : (c.setStage id stage).lineOf lock = c.lineOf lock :=
  rfl

theorem find?_setStage (h : c.parties.find? id = some p) :
    (c.setStage id stage).parties.find? j =
      if id = j then some { p with stage } else c.parties.find? j := by
  simp [setStage, Table.find?_modify, h]

theorem setStage_self (h : c.parties.find? id = some p) : c.setStage id p.stage = c := by
  refine Coordinator.ext rfl rfl (Table.ext_find? fun j => ?_) rfl
  rw [find?_setStage h]
  split
  case isTrue he => exact he ▸ h.symm
  case isFalse => rfl

-- How many handles and requests there are for a key.
def referrers (c : Coordinator) (key : Key) : Nat :=
  c.parties.count fun p => p.2.key = key ∧ p.2.stage.handle? = none

-- No lock call of a party is there.
def Unused (c : Coordinator) (id : PartyId) : Prop :=
  ∀ {j q}, c.parties.find? j = some q → q.stage.handle? ≠ some id

-- Every handle and every request is counted in the registry under its key, and the lock of a party
-- is the one that the registry has for its key now. A lock call does not outlive its handle.
structure Registered (c : Coordinator) : Prop where
  counts : c.registry.Counts c.referrers
  lock   : ∀ {id p}, c.parties.find? id = some p → c.registry.locks.find? p.key = some p.lock
  fresh  : ∀ {id p}, c.parties.find? id = some p → id < c.nextParty
  calls  : ∀ {id p i}, c.parties.find? id = some p → p.stage.handle? = some i →
    ∃ q, c.parties.find? i = some q ∧ q.stage = .handle ∧ q.key = p.key

-- The line in front of a lock is made up of the parties that asked for it, each of them once, and
-- whoever uses the lock is the first of them.
structure Orderly (c : Coordinator) : Prop where
  mem_iff : ∀ id lock, id ∈ (c.lineOf lock).parties ↔
    ∃ p, c.parties.find? id = some p ∧ p.lock = lock ∧ p.stage.isInLine
  nodup   : ∀ lock, (c.lineOf lock).parties.Nodup
  first   : ∀ {id p}, c.parties.find? id = some p → p.stage.isOwner →
    (c.lineOf p.lock).holder = some id

structure Sound (c : Coordinator) : Prop extends Registered c, Orderly c

namespace Registered

variable {q : Party} {i : PartyId}

theorem unused (h : c.Registered) : c.parties.find? c.nextParty = none := by
  cases hf : c.parties.find? c.nextParty
  case none => rfl
  case some => exact absurd (h.fresh hf) (Nat.lt_irrefl _)

-- Only handles have lock calls.
theorem unused_of_isInLine (h : c.Registered) (hp : c.parties.find? id = some p)
    (hi : p.stage.isInLine) : c.Unused id := by
  intro j q hq hs
  obtain ⟨p', hp', hs', _⟩ := h.calls hq hs
  cases hp.symm.trans hp'
  exact Stage.isInLine_iff.mp hi hs'

-- Whoever has to do with a key, there is somebody who refers to it: a lock call has its handle.
theorem referrer (h : c.Registered) (hq : c.parties.find? j = some q) : ∃ i p,
    c.parties.find? i = some p ∧ p.key = q.key ∧ p.stage.handle? = none ∧
      (i = j ∨ q.stage.handle? = some i) := by
  cases hs : q.stage.handle?
  case none => exact ⟨j, q, hq, rfl, hs, .inl rfl⟩
  case some i =>
    obtain ⟨p, hp, hh, hk⟩ := h.calls hq hs
    exact ⟨i, p, hp, hk, by rw [hh]; rfl, .inr rfl⟩

theorem referrers_ne_zero (h : c.Registered) (hq : c.parties.find? j = some q) :
    c.referrers q.key ≠ 0 := by
  obtain ⟨i, p, hp, hk, hs, _⟩ := h.referrer hq
  exact Nat.pos_iff_ne_zero.mp (Table.count_pos_iff.mpr ⟨i, p, hp, by simp [hk, hs]⟩)

-- A party goes from one stage to another and stays what it is.
theorem setStage (h : c.Registered) (hp : c.parties.find? id = some p)
    (hr : stage.role = p.stage.role) : (c.setStage id stage).Registered where
  counts := by
    have : (c.setStage id stage).referrers = c.referrers := funext fun _ =>
      Table.count_modify fun q hq => by
        cases hp.symm.trans hq
        simp [Stage.handle?_of_role hr]
    exact this ▸ h.counts
  lock {j q} hj := by
    rw [find?_setStage hp] at hj
    split at hj
    case isTrue =>
      cases hj
      have := h.lock hp
      exact this
    case isFalse => exact h.lock hj
  fresh {j q} hj := by
    rw [find?_setStage hp] at hj
    split at hj
    case isTrue he => exact he ▸ h.fresh hp
    case isFalse => exact h.fresh hj
  calls {j q i} hj hs := by
    rw [find?_setStage hp] at hj
    have hcall : ∃ q', c.parties.find? i = some q' ∧ q'.stage = .handle ∧ q'.key = q.key := by
      split at hj
      case isTrue =>
        cases hj
        have := h.calls hp (Stage.handle?_of_role hr ▸ hs)
        exact this
      case isFalse => exact h.calls hj hs
    obtain ⟨q', hq', hs', hk⟩ := hcall
    rw [find?_setStage hp]
    split
    case isTrue he =>
      cases hp.symm.trans (he ▸ hq')
      exact ⟨_, rfl, (Stage.eq_handle_of_role hr).mpr hs', hk⟩
    case isFalse => exact ⟨q', hq', hs', hk⟩

end Registered

section Admit

@[simp]
theorem arrive_registry : (c.arrive p).2.registry = c.registry := by
  rw [arrive]
  dsimp only
  split <;> rfl

theorem arrive_parties : (c.arrive p).2.parties = c.parties.insert c.nextParty p := by
  rw [arrive]
  dsimp only
  split <;> rfl

theorem arrive_nextParty : (c.arrive p).2.nextParty = c.nextParty + 1 := by
  rw [arrive]
  dsimp only
  split <;> rfl

theorem find?_arrive : (c.arrive p).2.parties.find? j =
    if c.nextParty = j then some p else c.parties.find? j := by
  rw [arrive_parties, Table.find?_insert]

theorem find?_arrive_self : (c.arrive p).2.parties.find? c.nextParty = some p := by
  rw [find?_arrive, if_pos rfl]

theorem lineOf_arrive : (c.arrive p).2.lineOf lock =
    if p.lock = lock ∧ p.stage.isInLine then (c.lineOf lock).join c.nextParty
    else c.lineOf lock := by
  rw [arrive]
  cases hs : p.stage.isInLine
  case false => simp [lineOf]
  case true =>
    simp only [if_true, join, lineOf_setLine, and_true]
    split
    case isTrue he =>
      rw [he]
      rfl
    case isFalse => rfl

-- Nobody comes as an owner, since nobody can come before those who are there.
theorem Orderly.arrive (h : c.Orderly) (hn : c.parties.find? c.nextParty = none)
    (ho : p.stage.isOwner = false) : (c.arrive p).2.Orderly := by
  have hm (lock : LockId) : c.nextParty ∉ (c.lineOf lock).parties := by simp [h.mem_iff, hn]
  constructor
  case mem_iff =>
    intro j lock
    rw [lineOf_arrive, find?_arrive]
    by_cases hj : c.nextParty = j
    case pos =>
      subst hj
      have := hm lock
      simp only [if_true, Option.some.injEq, exists_eq_left']
      split <;> simp_all
    case neg =>
      simp only [if_neg hj, ← h.mem_iff]
      split <;> simp [Ne.symm hj]
  case nodup =>
    intro lock
    rw [lineOf_arrive]
    split
    case isTrue => exact Line.nodup_join (h.nodup lock) (hm lock)
    case isFalse => exact h.nodup lock
  case first =>
    intro j q hj hq
    rw [find?_arrive] at hj
    rw [lineOf_arrive]
    split at hj
    case isTrue =>
      cases hj
      simp [ho] at hq
    case isFalse =>
      have := h.first hj hq
      split
      case isTrue => exact Line.holder_join this
      case isFalse => exact this

end Admit

section Call

-- A lock call of a handle that was not told anything yet.
abbrev newCall (q : Party) (i : PartyId) : Party := { q with stage := .waiting i }

variable {q : Party} {i : PartyId}

theorem Registered.arriveCall (h : c.Registered) (hq : c.parties.find? i = some q)
    (hs : q.stage = .handle) : (c.arrive (newCall q i)).2.Registered where
  counts := by
    have : (c.arrive (newCall q i)).2.referrers = c.referrers := by
      funext k
      rw [referrers, arrive_parties, Table.count_insert_of_find?_none h.unused]
      simp [referrers, Stage.handle?]
    rw [arrive_registry, this]
    exact h.counts
  lock {j p} hj := by
    rw [find?_arrive] at hj
    rw [arrive_registry]
    split at hj
    case isTrue =>
      cases hj
      have := h.lock hq
      exact this
    case isFalse => exact h.lock hj
  fresh {j p} hj := by
    rw [find?_arrive] at hj
    rw [arrive_nextParty]
    split at hj
    case isTrue he => exact he ▸ Nat.lt_succ_self _
    case isFalse => exact Nat.lt_succ_of_lt (h.fresh hj)
  calls {j p i'} hj hp := by
    rw [find?_arrive] at hj
    have hcall : ∃ q', c.parties.find? i' = some q' ∧ q'.stage = .handle ∧ q'.key = p.key := by
      split at hj
      case isTrue =>
        cases hj
        cases hp
        exact ⟨q, hq, hs, rfl⟩
      case isFalse => exact h.calls hj hp
    obtain ⟨q', hq', hrest⟩ := hcall
    have : c.nextParty ≠ i' := Nat.ne_of_gt (h.fresh hq')
    exact ⟨q', by rwa [find?_arrive, if_neg this], hrest⟩

theorem Sound.arriveCall (h : c.Sound) (hq : c.parties.find? i = some q) (hs : q.stage = .handle) :
    (c.arrive (newCall q i)).2.Sound where
  toRegistered := h.toRegistered.arriveCall hq hs
  toOrderly    := h.toOrderly.arrive h.unused rfl

end Call

section Enter

-- A newcomer with its lock.
abbrev newcomer (c : Coordinator) (key : Key) (stage : Stage) : Party :=
  ⟨key, (c.registry.acquire key).1, stage⟩

-- The coordinator with one more reference to a key.
abbrev withReference (c : Coordinator) (key : Key) : Coordinator :=
  { c with registry := (c.registry.acquire key).2 }

theorem enter_eq :
    c.enter key stage = (c.withReference key).arrive (c.newcomer key stage) :=
  rfl

theorem enter_registry : (c.enter key stage).2.registry = (c.registry.acquire key).2 := by
  rw [enter_eq, arrive_registry]

theorem find?_enter : (c.enter key stage).2.parties.find? j =
    if c.nextParty = j then some (c.newcomer key stage) else c.parties.find? j := by
  rw [enter_eq, find?_arrive]

theorem find?_enter_self :
    (c.enter key stage).2.parties.find? c.nextParty = some (c.newcomer key stage) := by
  rw [find?_enter, if_pos rfl]

theorem enter_nextParty : (c.enter key stage).2.nextParty = c.nextParty + 1 := by
  rw [enter_eq, arrive_nextParty]

theorem lineOf_enter :
    (c.enter key stage).2.lineOf lock =
      if (c.registry.acquire key).1 = lock ∧ stage.isInLine then (c.lineOf lock).join c.nextParty
      else c.lineOf lock := by
  rw [enter_eq, lineOf_arrive]
  rfl

theorem Registered.enter (h : c.Registered) (hs : stage.handle? = none) :
    (c.enter key stage).2.Registered where
  counts := by
    have : (c.enter key stage).2.referrers = Registry.oneMore c.referrers key := by
      funext k
      have hn : (c.withReference key).parties.find? (c.withReference key).nextParty = none :=
        h.unused
      rw [referrers, enter_eq, arrive_parties, Table.count_insert_of_find?_none hn,
        Registry.oneMore]
      simp [referrers, hs, eq_comm]
    rw [enter_registry, this]
    exact h.counts.acquire
  lock {j q} hj := by
    rw [find?_enter] at hj
    rw [enter_registry]
    split at hj
    case isTrue =>
      cases hj
      simp [Registry.acquire_locks]
    case isFalse => exact Registry.acquire_keeps (h.lock hj)
  fresh {j q} hj := by
    rw [find?_enter] at hj
    rw [enter_nextParty]
    split at hj
    case isTrue he => exact he ▸ Nat.lt_succ_self _
    case isFalse => exact Nat.lt_succ_of_lt (h.fresh hj)
  calls {j q i} hj hq := by
    rw [find?_enter] at hj
    split at hj
    case isTrue =>
      cases hj
      cases hs.symm.trans hq
    case isFalse =>
      obtain ⟨q', hq', hrest⟩ := h.calls hj hq
      have : c.nextParty ≠ i := Nat.ne_of_gt (h.fresh hq')
      exact ⟨q', by rwa [find?_enter, if_neg this], hrest⟩

theorem Sound.enter (h : c.Sound) (hs : stage.handle? = none) (ho : stage.isOwner = false) :
    (c.enter key stage).2.Sound where
  toRegistered := h.toRegistered.enter hs
  toOrderly    := by
    have hr : (c.withReference key).Orderly := { h.toOrderly with }
    exact hr.arrive h.unused ho

end Enter

section Depart

theorem depart_of_none (h : c.parties.find? id = none) : c.depart id = c := by
  simp [depart, h]

theorem depart_parties : (c.depart id).parties = c.parties.erase id := by
  cases h : c.parties.find? id
  case none => rw [depart_of_none h, Table.erase_of_find?_none h]
  case some p => simp [depart, h, leave]

theorem find?_depart_eq_some_iff {q : Party} :
    (c.depart id).parties.find? j = some q ↔ id ≠ j ∧ c.parties.find? j = some q := by
  rw [depart_parties, Table.find?_erase_eq_some_iff]

theorem depart_nextParty : (c.depart id).nextParty = c.nextParty := by
  cases h : c.parties.find? id <;> simp [depart, h, leave]

theorem depart_registry (h : c.parties.find? id = some p) :
    (c.depart id).registry = c.released p := by
  simp only [depart, h, leave, released, setLine_registry]

-- A lock call has no reference to give up.
theorem released_of_call (h : p.stage.handle?.isSome) : c.released p = c.registry := by
  obtain ⟨i, hi⟩ := Option.isSome_iff_exists.mp h
  rw [released, hi]

theorem released_of_release {n : Nat} {r : Registry} (h : p.stage.handle? = none)
    (hr : c.registry.release p.key = .ok (n, r)) : c.released p = r := by
  rw [released, h, hr]

theorem lineOf_depart (h : c.parties.find? id = some p) :
    (c.depart id).lineOf lock =
      if p.lock = lock then (c.lineOf lock).leave id else c.lineOf lock := by
  have : (c.depart id).lineOf lock = (c.leave id p).lineOf lock := by
    simp only [depart, h]
    rfl
  rw [this, leave, lineOf_setLine]
  split
  case isTrue he => rw [he]
  case isFalse => rfl

theorem referrers_depart (hp : c.parties.find? id = some p) (key : Key) :
    (c.depart id).referrers key + (if p.key = key ∧ p.stage.handle? = none then 1 else 0) =
      c.referrers key := by
  rw [referrers, depart_parties, referrers, ← Table.count_erase_add hp]
  simp

theorem Registered.counts_oneMore (h : c.Registered) (hp : c.parties.find? id = some p)
    (hs : p.stage.handle? = none) :
    c.registry.Counts (Registry.oneMore (c.depart id).referrers p.key) := by
  have : Registry.oneMore (c.depart id).referrers p.key = c.referrers := by
    funext k
    rw [← referrers_depart hp, Registry.oneMore]
    simp [hs, eq_comm]
  exact this ▸ h.counts

-- Whoever has a reference can give it up: the registry never refuses.
theorem Registered.release (h : c.Registered) (hp : c.parties.find? id = some p)
    (hs : p.stage.handle? = none) :
    c.registry.release p.key = .ok ((c.depart id).referrers p.key, (c.depart id).registry) := by
  have ⟨r, hr, _⟩ := (h.counts_oneMore hp hs).release
  rw [hr, depart_registry hp, released_of_release hs hr]

-- The keys of those who stay keep their locks.
theorem Registered.depart_locks (h : c.Registered) (hp : c.parties.find? id = some p) :
    (c.depart id).registry.Counts (c.depart id).referrers ∧
      ∀ key, (c.depart id).referrers key ≠ 0 →
        (c.depart id).registry.locks.find? key = c.registry.locks.find? key := by
  cases hs : p.stage.handle?
  case none =>
    have ⟨r, hr, hc, hk⟩ := (h.counts_oneMore hp hs).release
    rw [depart_registry hp, released_of_release hs hr]
    exact ⟨hc, hk⟩
  case some i =>
    have he : (c.depart id).referrers = c.referrers :=
      funext fun key => by simpa [hs] using referrers_depart hp key
    rw [depart_registry hp, released_of_call (by rw [hs]; rfl), he]
    exact ⟨h.counts, fun _ _ => rfl⟩

theorem Registered.depart (h : c.Registered) (hu : c.Unused id) : (c.depart id).Registered := by
  cases hp : c.parties.find? id
  case none => rwa [depart_of_none hp]
  case some p =>
    have ⟨hc, hk⟩ := h.depart_locks hp
    constructor
    case counts => exact hc
    case lock =>
      intro j q hj
      have hj := find?_depart_eq_some_iff.mp hj
      have hq : (c.depart id).referrers q.key ≠ 0 := by
        obtain ⟨i, p', hp', hk', hs, hi⟩ := h.referrer hj.right
        have hne : id ≠ i := by
          rintro rfl
          exact hi.elim hj.left (hu hj.right)
        refine Nat.pos_iff_ne_zero.mp (Table.count_pos_iff.mpr ⟨i, p', ?_, by simp [hk', hs]⟩)
        exact find?_depart_eq_some_iff.mpr ⟨hne, hp'⟩
      rw [hk _ hq]
      exact h.lock hj.right
    case fresh =>
      intro j q hj
      rw [depart_nextParty]
      exact h.fresh (find?_depart_eq_some_iff.mp hj).right
    case calls =>
      intro j q i hj hs
      have hj := (find?_depart_eq_some_iff.mp hj).right
      obtain ⟨q', hq', hrest⟩ := h.calls hj hs
      have hne : id ≠ i := fun he => hu hj (he ▸ hs)
      exact ⟨q', find?_depart_eq_some_iff.mpr ⟨hne, hq'⟩, hrest⟩

theorem Orderly.depart (h : c.Orderly) : (c.depart id).Orderly := by
  cases hp : c.parties.find? id
  case none => rwa [depart_of_none hp]
  case some p =>
    constructor
    case mem_iff =>
      intro j lock
      rw [lineOf_depart hp, depart_parties, Table.find?_erase]
      by_cases hj : id = j
      case pos =>
        subst hj
        have := h.mem_iff id lock
        split <;> simp_all
      case neg =>
        rw [if_neg hj, ← h.mem_iff]
        split <;> simp [Ne.symm hj]
    case nodup =>
      intro lock
      rw [lineOf_depart hp]
      split
      case isTrue => exact Line.nodup_leave (h.nodup lock)
      case isFalse => exact h.nodup lock
    case first =>
      intro j q hj ho
      have hj := find?_depart_eq_some_iff.mp hj
      have := h.first hj.right ho
      rw [lineOf_depart hp]
      split
      case isTrue => exact Line.holder_leave this (Ne.symm hj.left)
      case isFalse => exact this

theorem Sound.depart (h : c.Sound) (hu : c.Unused id) : (c.depart id).Sound where
  toRegistered := h.toRegistered.depart hu
  toOrderly    := h.toOrderly.depart

end Depart

-- A party goes from one stage to another and stays what it is.
theorem Sound.setStage (h : c.Sound) (hp : c.parties.find? id = some p)
    (hr : stage.role = p.stage.role)
    (ho : stage.isOwner → (c.lineOf p.lock).holder = some id) : (c.setStage id stage).Sound where
  toRegistered := h.toRegistered.setStage hp hr
  mem_iff j lock := by
    rw [lineOf_setStage, h.mem_iff, find?_setStage hp]
    split
    case isTrue he => simp [← he, hp, Stage.isInLine_of_role hr]
    case isFalse => rfl
  nodup := h.nodup
  first {j q} hj hq := by
    rw [find?_setStage hp] at hj
    split at hj
    case isTrue he =>
      cases hj
      exact he ▸ ho hq
    case isFalse => exact h.first hj hq

section Exclusion

-- Parties of one key have the lock that the registry has for it, so they have one lock.
theorem Registered.lock_eq {i : PartyId} {q : Party} (h : c.Registered)
    (hp : c.parties.find? id = some p) (hq : c.parties.find? i = some q) (hk : p.key = q.key) :
    p.lock = q.lock := by
  have := h.lock hp
  rw [hk, h.lock hq] at this
  exact (Option.some.inj this).symm

theorem Registered.lock_eq_iff {i : PartyId} {q : Party} (h : c.Registered)
    (hp : c.parties.find? id = some p) (hq : c.parties.find? i = some q) :
    p.lock = q.lock ↔ p.key = q.key := by
  constructor
  case mp => exact fun he => h.counts.distinct (h.lock hp) (he ▸ h.lock hq)
  case mpr => exact h.lock_eq hp hq

-- An owner is the first in the line of its key, and a line has one first.
theorem Sound.owner_unique {i : PartyId} {q : Party} (h : c.Sound)
    (hp : c.parties.find? id = some p) (hq : c.parties.find? i = some q) (hk : p.key = q.key)
    (hf : (c.lineOf p.lock).holder = some id) (ho : q.stage.isOwner) : i = id := by
  have := h.first hq ho
  rw [← h.lock_eq hp hq hk, hf] at this
  exact (Option.some.inj this).symm

end Exclusion

theorem Sound.empty : Sound {} where
  counts  := Registry.Counts.empty
  lock h  := by simp at h
  fresh h := by simp at h
  calls h := by simp at h
  mem_iff := by simp [lineOf]
  nodup _ := List.nodup_nil
  first h := by simp at h

end Coordinator

end OnceCache
