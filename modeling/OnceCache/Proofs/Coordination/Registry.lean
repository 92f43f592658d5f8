import OnceCache.Coordination.Registry
import OnceCache.Proofs.Table

namespace OnceCache.Registry

variable {r : Registry} {n : Key → Nat} {key : Key}

-- A registry that stands for a number of references to each key. It knows a key exactly if that
-- number is not zero, and then it knows both a lock of its own for the key and the number.
structure Counts (r : Registry) (n : Key → Nat) : Prop where
  references : ∀ key, r.references.find? key = if n key = 0 then none else some (n key)
  locks      : ∀ key, r.locks.find? key = none ↔ n key = 0
  distinct   : ∀ {k k' lock}, r.locks.find? k = some lock → r.locks.find? k' = some lock → k = k'
  fresh      : ∀ {k lock}, r.locks.find? k = some lock → lock < r.nextLock

namespace Counts

theorem empty : Counts {} fun _ => 0 where
  references _ := rfl
  locks _      := by simp
  distinct h   := by simp at h
  fresh h      := by simp at h

theorem getD_references (h : r.Counts n) : (r.references.find? key).getD 0 = n key := by
  rw [h.references]
  split <;> simp_all

-- The locks and the numbers of references belong to the same keys.
theorem keys_eq (h : r.Counts n) : r.locks.keys = r.references.keys := by
  refine Table.keys_eq_of_isSome_eq fun key => ?_
  have := h.locks key
  rw [h.references]
  cases hl : r.locks.find? key <;> split <;> simp_all

-- A key is in use exactly if there are references to it.
theorem contains_eq (h : r.Counts n) : r.contains key = (r.refCount key).isSome := by
  rw [contains, Table.contains, refCount, h.references]
  have := h.locks key
  cases hl : r.locks.find? key <;> split <;> simp_all

theorem eq_empty (h : r.Counts n) (hn : ∀ key, n key = 0) : r.locks = ∅ ∧ r.references = ∅ := by
  constructor
  case left => exact Table.eq_empty_iff.mpr fun key => (h.locks key).mpr (hn key)
  case right => exact Table.eq_empty_iff.mpr fun key => by rw [h.references, if_pos (hn key)]

end Counts

-- The number of references after one more to a key.
def oneMore (n : Key → Nat) (key : Key) : Key → Nat := fun k => n k + if k = key then 1 else 0

@[simp]
theorem oneMore_self : oneMore n key key = n key + 1 := by
  simp [oneMore]

theorem oneMore_of_ne {k : Key} (h : key ≠ k) : oneMore n key k = n k := by
  simp [oneMore, Ne.symm h]

theorem acquire_references {k : Key} :
    (r.acquire key).2.references.find? k =
      if key = k then some ((r.references.find? key).getD 0 + 1) else r.references.find? k := by
  unfold acquire
  split <;> exact Table.find?_insert

theorem acquire_locks {k : Key} :
    (r.acquire key).2.locks.find? k =
      if key = k then some (r.acquire key).1 else r.locks.find? k := by
  unfold acquire
  split
  case h_1 lock h =>
    split
    case isTrue he => exact he ▸ h
    case isFalse => rfl
  case h_2 => exact Table.find?_insert

-- The lock that is handed out is the one of the key, or one that no key has had.
theorem acquire_lock (r : Registry) (key : Key) :
    r.locks.find? key = some (r.acquire key).1 ∨
      r.locks.find? key = none ∧ (r.acquire key).1 = r.nextLock ∧
        (r.acquire key).2.nextLock = r.nextLock + 1 := by
  unfold acquire
  split
  case h_1 lock h => exact .inl h
  case h_2 h => exact .inr ⟨h, rfl, rfl⟩

theorem nextLock_le_acquire : r.nextLock ≤ (r.acquire key).2.nextLock := by
  unfold acquire
  split <;> simp

-- A lock that is known stays the lock of its key.
theorem acquire_keeps {k : Key} {lock : LockId}
    (hl : r.locks.find? k = some lock) : (r.acquire key).2.locks.find? k = some lock := by
  rw [acquire_locks]
  split
  case isTrue he =>
    subst he
    cases acquire_lock r key
    case inl ha => exact ha ▸ hl
    case inr ha => simp [ha.left] at hl
  case isFalse => exact hl

theorem Counts.acquire (h : r.Counts n) : (r.acquire key).2.Counts (oneMore n key) where
  references k := by
    rw [acquire_references, h.getD_references, h.references]
    by_cases hk : key = k
    case pos => simp [← hk]
    case neg => simp [hk, oneMore_of_ne hk]
  locks k := by
    rw [acquire_locks]
    by_cases hk : key = k
    case pos => simp [← hk]
    case neg => simp [hk, oneMore_of_ne hk, h.locks]
  distinct {k k' lock} hk hk' := by
    rw [acquire_locks] at hk hk'
    -- A new lock is no old one; an old one belongs to its key alone.
    have hnew {k : Key} (hl : r.locks.find? k = some (r.acquire key).1) : key = k := by
      cases acquire_lock r key
      case inl ha => exact h.distinct ha hl
      case inr ha =>
        exact absurd (h.fresh hl) (by simp [ha.right.left])
    split at hk <;> split at hk'
    case isTrue.isTrue hl hr => exact hl ▸ hr
    case isTrue.isFalse hl _ =>
      simp only [Option.some.injEq] at hk
      exact hl ▸ hnew (hk ▸ hk')
    case isFalse.isTrue _ hr =>
      simp only [Option.some.injEq] at hk'
      exact hr ▸ (hnew (hk' ▸ hk)).symm
    case isFalse.isFalse => exact h.distinct hk hk'
  fresh {k lock} hk := by
    rw [acquire_locks] at hk
    split at hk
    case isTrue =>
      simp only [Option.some.injEq] at hk
      subst hk
      cases acquire_lock r key
      case inl ha => exact Nat.lt_of_lt_of_le (h.fresh ha) nextLock_le_acquire
      case inr ha => simp [ha.right]
    case isFalse => exact Nat.lt_of_lt_of_le (h.fresh hk) nextLock_le_acquire

-- With its last reference a key is forgotten.
theorem Counts.forget (h : r.Counts (oneMore n key)) (hz : n key = 0) :
    Counts { r with locks := r.locks.erase key, references := r.references.erase key } n where
  references k := by
    by_cases hk : key = k
    case pos => simp [← hk, hz]
    case neg => simp [Table.find?_erase, hk, h.references, oneMore_of_ne hk]
  locks k := by
    by_cases hk : key = k
    case pos => simp [← hk, hz]
    case neg => simp [Table.find?_erase, hk, h.locks, oneMore_of_ne hk]
  distinct hk hk' := by
    rw [Table.find?_erase_eq_some_iff] at hk hk'
    exact h.distinct hk.right hk'.right
  fresh hk := by
    rw [Table.find?_erase_eq_some_iff] at hk
    exact h.fresh hk.right

theorem Counts.decrease (h : r.Counts (oneMore n key)) (hz : n key ≠ 0) :
    Counts { r with references := r.references.insert key (n key) } n where
  references k := by
    by_cases hk : key = k
    case pos => simp [← hk, hz]
    case neg => simp [Table.find?_insert, hk, h.references, oneMore_of_ne hk]
  locks k := by
    by_cases hk : key = k
    case pos => simp [← hk, h.locks, hz]
    case neg => simp [h.locks, oneMore_of_ne hk]
  distinct := h.distinct
  fresh    := h.fresh

-- A reference that is there can be given up, and the registry then stands for one less.
theorem Counts.release (h : r.Counts (oneMore n key)) :
    ∃ r', r.release key = .ok (n key, r') ∧ r'.Counts n ∧
      ∀ k, n k ≠ 0 → r'.locks.find? k = r.locks.find? k := by
  have href : r.references.find? key = some (n key + 1) := by simp [h.references]
  by_cases hz : n key = 0
  case pos =>
    refine ⟨_, by simp [Registry.release, href, hz], h.forget hz, fun k hk => ?_⟩
    have hne : key ≠ k := fun he => hk (he ▸ hz)
    exact Table.find?_erase_of_ne hne
  case neg =>
    have : ¬n key + 1 ≤ 1 := by omega
    exact ⟨_, by simp [Registry.release, href, this], h.decrease hz, fun _ _ => rfl⟩

end OnceCache.Registry
