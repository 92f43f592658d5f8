import OnceCache.Table

open Std List

namespace OnceCache.Table

variable {α β γ : Type} [Ord α] [TransOrd α] [LawfulEqOrd α] [DecidableEq α]
variable {t u : Table α β} {k k' : α} {v : β}

section

omit [LawfulEqOrd α] [DecidableEq α]

theorem pairs_nodup : t.pairs.Nodup :=
  t.ascending.imp fun h he => by simp [he] at h

omit [TransOrd α] in
theorem keys_ascending : t.keys.Pairwise fun k k' => (compare k k').isLT :=
  List.pairwise_map.mpr t.ascending

theorem keys_nodup : t.keys.Nodup :=
  keys_ascending.imp fun h he => by simp [he] at h

end

omit [TransOrd α] in
theorem mem_keys_iff : k ∈ t.keys ↔ ∃ v, t.find? k = some v := by
  simp only [find?_eq_some_iff, keys, mem_map, Prod.exists, exists_and_right, exists_eq_right]

omit [LawfulEqOrd α] in
-- Without its first key a table has the other keys.
theorem keys_erase_of_cons {ks : List α} (h : t.keys = k :: ks) : (t.erase k).keys = ks := by
  have hn : k ∉ ks := (nodup_cons.mp (h ▸ t.keys_nodup)).left
  have he : (t.erase k).keys = t.keys.filter (· ≠ k) := by
    rw [keys, keys, List.filter_map]
    rfl
  rw [he, h, filter_cons_of_neg (by simp)]
  exact filter_eq_self.mpr fun j hj => decide_eq_true fun he => hn (he ▸ hj)

-- A table is determined by its answers, since its pairs stand in the order of their keys.
theorem ext_find? (h : ∀ k, t.find? k = u.find? k) : t = u := by
  have hm (p : α × β) : p ∈ t.pairs ↔ p ∈ u.pairs := by
    rw [← find?_eq_some_iff (t := t), ← find?_eq_some_iff (t := u), h]
  have hp : t.pairs ~ u.pairs := (perm_ext_iff_of_nodup t.pairs_nodup u.pairs_nodup).mpr hm
  refine Table.ext (hp.eq_of_pairwise (fun p q _ _ hpq hqp => ?_) t.ascending u.ascending)
  simp only [Ordering.isLT_iff_eq_lt] at hpq hqp
  exact absurd hqp (OrientedCmp.not_lt_of_lt hpq)

omit [TransOrd α] in
theorem find?_eq_none_iff : t.find? k = none ↔ k ∉ t.keys := by
  constructor
  case mp =>
    intro h hk
    have ⟨p, hp, he⟩ := List.mem_map.mp hk
    have : t.find? k = some p.2 := find?_eq_some_iff.mpr (he ▸ hp)
    simp [h] at this
  case mpr =>
    intro h
    cases hf : t.find? k
    case none => rfl
    case some v => exact absurd (List.mem_map.mpr ⟨_, find?_eq_some_iff.mp hf, rfl⟩) h

omit [TransOrd α] in
theorem find?_erase : (t.erase k).find? k' = if k = k' then none else t.find? k' := by
  split
  case isTrue h => exact h ▸ find?_erase_self
  case isFalse h => exact find?_erase_of_ne h

omit [TransOrd α] in
theorem find?_erase_eq_some_iff :
    (t.erase k).find? k' = some v ↔ k ≠ k' ∧ t.find? k' = some v := by
  rw [find?_erase]
  split <;> simp_all

theorem find?_modify {f : β → β} :
    (t.modify k f).find? k' = if k = k' then (t.find? k).map f else t.find? k' := by
  unfold modify
  split
  case h_1 v h => simp [find?_insert, h]
  case h_2 h =>
    split
    case isTrue he => simp [← he, h]
    case isFalse => rfl

theorem erase_of_find?_none (h : t.find? k = none) : t.erase k = t := by
  refine ext_find? fun k' => ?_
  rw [find?_erase]
  split
  case isTrue he => rw [← he, h]
  case isFalse => rfl

-- The pair under a key first, and then all others.
theorem perm_cons_erase (h : t.find? k = some v) : t.pairs ~ (k, v) :: (t.erase k).pairs := by
  have hn : (k, v) ∉ (t.erase k).pairs := by simp [← find?_eq_some_iff]
  refine (perm_ext_iff_of_nodup t.pairs_nodup (nodup_cons.mpr ⟨hn, pairs_nodup⟩)).mpr fun p => ?_
  obtain ⟨k', w⟩ := p
  rw [mem_cons, ← find?_eq_some_iff, ← find?_eq_some_iff, find?_erase]
  by_cases hk : k = k'
  case pos =>
    subst hk
    simp [h, eq_comm]
  case neg => simp [hk, Ne.symm hk]

theorem insert_perm : (t.insert k v).pairs ~ (k, v) :: (t.erase k).pairs := by
  have he : (t.insert k v).erase k = t.erase k :=
    ext_find? fun k' => by by_cases hk : k = k' <;> simp [find?_erase, find?_insert, hk]
  exact he ▸ perm_cons_erase find?_insert_self

theorem insert_perm_of_find?_none (h : t.find? k = none) :
    (t.insert k v).pairs ~ (k, v) :: t.pairs := by
  have := insert_perm (t := t) (k := k) (v := v)
  rwa [erase_of_find?_none h] at this

theorem eq_empty_iff : t = ∅ ↔ ∀ k, t.find? k = none := by
  constructor
  case mp => exact fun h k => h ▸ find?_empty
  case mpr => exact fun h => ext_find? fun k => by rw [h, find?_empty]

-- The table with every value changed.
def map (f : β → γ) (t : Table α β) : Table α γ where
  pairs := t.pairs.map fun p => (p.1, f p.2)
  ascending := List.pairwise_map.mpr t.ascending

omit [TransOrd α] [LawfulEqOrd α] in
@[simp]
theorem find?_map {f : β → γ} : (t.map f).find? k = (t.find? k).map f := by
  simp only [find?, map, List.find?_map, Option.map_map]
  rfl

-- Tables that know the same keys have them in the same order.
theorem keys_eq_of_isSome_eq {u : Table α γ} (h : ∀ k, (t.find? k).isSome = (u.find? k).isSome) :
    t.keys = u.keys := by
  have hk {δ : Type} (t : Table α δ) : (t.map fun _ => ()).keys = t.keys := by simp [keys, map]
  rw [← hk t, ← hk u]
  refine congrArg keys (ext_find? fun k => ?_)
  have := h k
  rw [find?_map, find?_map]
  cases ht : t.find? k <;> cases hu : u.find? k <;> simp_all

omit [TransOrd α] [LawfulEqOrd α] [DecidableEq α] in
theorem size_eq_of_keys_eq {u : Table α γ} (h : t.keys = u.keys) : t.size = u.size := by
  have := congrArg length h
  simpa [keys, size] using this

-- What the pairs of a table come to together.
def sum (t : Table α β) (f : α × β → Nat) : Nat := (t.pairs.map f).foldr (· + ·) 0

section

variable {f : α × β → Nat}

omit [TransOrd α] [LawfulEqOrd α] [DecidableEq α] in
theorem sum_eq_of_perm_cons {p : α × β} (h : t.pairs ~ p :: u.pairs) :
    t.sum f = u.sum f + f p := by
  have := (h.map f).sum_nat
  rw [map_cons, sum_cons, Nat.add_comm] at this
  exact this

theorem sum_insert_of_find?_none (h : t.find? k = none) :
    (t.insert k v).sum f = t.sum f + f (k, v) :=
  sum_eq_of_perm_cons (insert_perm_of_find?_none h)

theorem sum_erase_add (h : t.find? k = some v) : (t.erase k).sum f + f (k, v) = t.sum f :=
  (sum_eq_of_perm_cons (perm_cons_erase h)).symm

-- A value that comes to the same can take the place of another.
theorem sum_insert_of_find?_some {w : β} (h : t.find? k = some v) (hf : f (k, w) = f (k, v)) :
    (t.insert k w).sum f = t.sum f := by
  rw [sum_eq_of_perm_cons insert_perm, hf, sum_erase_add h]

omit [TransOrd α] [LawfulEqOrd α] [DecidableEq α] in
theorem sum_map {g : β → γ} {f : α × γ → Nat} :
    (t.map g).sum f = t.sum fun p => f (p.1, g p.2) := by
  simp only [sum, map, List.map_map]
  rfl

omit [TransOrd α] [LawfulEqOrd α] [DecidableEq α] in
theorem sum_one : (t.sum fun _ => 1) = t.size := by
  change (t.pairs.map fun _ => 1).sum = t.pairs.length
  rw [List.map_const', List.sum_replicate_nat, Nat.mul_one]

theorem size_insert_of_find?_none (h : t.find? k = none) : (t.insert k v).size = t.size + 1 := by
  rw [← sum_one, ← sum_one, sum_insert_of_find?_none h]

theorem size_insert_of_find?_some {w : β} (h : t.find? k = some v) :
    (t.insert k w).size = t.size := by
  rw [← sum_one, ← sum_one]
  exact sum_insert_of_find?_some h rfl

theorem size_erase_add (h : t.find? k = some v) : (t.erase k).size + 1 = t.size := by
  rw [← sum_one, ← sum_one, ← sum_erase_add h]

end

-- How many pairs of a table satisfy a test.
def count (t : Table α β) (q : α × β → Bool) : Nat := t.pairs.countP q

section

variable {q : α × β → Bool}

omit [TransOrd α] [LawfulEqOrd α] [DecidableEq α] in
theorem count_eq_sum : t.count q = t.sum fun p => if q p then 1 else 0 := by
  simp only [count, sum]
  induction t.pairs
  case nil => rfl
  case cons p pairs hi => rw [countP_cons, hi, map_cons, foldr_cons, Nat.add_comm]

theorem count_insert_of_find?_none (h : t.find? k = none) :
    (t.insert k v).count q = t.count q + if q (k, v) then 1 else 0 := by
  rw [count_eq_sum, count_eq_sum, sum_insert_of_find?_none h]

theorem count_erase_add (h : t.find? k = some v) :
    (t.erase k).count q + (if q (k, v) then 1 else 0) = t.count q := by
  rw [count_eq_sum, count_eq_sum, ← sum_erase_add h]

-- A change of a value that does not matter to the test does not matter to the count.
theorem count_modify {f : β → β} (hq : ∀ v, t.find? k = some v → q (k, f v) = q (k, v)) :
    (t.modify k f).count q = t.count q := by
  unfold modify
  split
  case h_1 v h =>
    rw [count_eq_sum, count_eq_sum]
    exact sum_insert_of_find?_some h (by rw [hq v h])
  case h_2 => rfl

omit [TransOrd α] [LawfulEqOrd α] [DecidableEq α] in
theorem count_map {f : β → γ} {q : α × γ → Bool} :
    (t.map f).count q = t.count fun p => q (p.1, f p.2) := by
  rw [count_eq_sum, count_eq_sum, sum_map]

omit [TransOrd α] in
theorem count_pos_iff : 0 < t.count q ↔ ∃ k v, t.find? k = some v ∧ q (k, v) := by
  simp only [count, countP_pos_iff, Prod.exists, find?_eq_some_iff]

end

end OnceCache.Table
