
namespace OnceCache

open Std

-- A finite map. Its pairs ascend strictly by key, so each key occurs at most once.
@[ext]
structure Table (α β : Type) [Ord α] where
  pairs : List (α × β)
  ascending : pairs.Pairwise (fun p q => (compare p.1 q.1).isLT)

namespace Table

variable {α β : Type} [Ord α]

-- Puts a pair in its place, in front of the first greater key and instead of an equal one.
def place (k : α) (v : β) : List (α × β) → List (α × β)
  | [] => [(k, v)]
  | p :: rest =>
    match compare k p.1 with
    | .lt => (k, v) :: p :: rest
    | .eq => (k, v) :: rest
    | .gt => p :: place k v rest

theorem mem_place {k : α} {v : β} {pairs : List (α × β)} {p : α × β} (h : p ∈ place k v pairs) :
    p = (k, v) ∨ p ∈ pairs := by
  induction pairs with
  | nil => simpa [place] using h
  | cons q rest ih =>
    unfold place at h
    split at h
    case h_1 => simpa using h
    case h_2 => exact (List.mem_cons.mp h).imp_right (.tail _ ·)
    case h_3 =>
      cases List.mem_cons.mp h
      case inl h => exact .inr (h ▸ .head _)
      case inr h => exact (ih h).imp_right (.tail _ ·)

theorem place_ascending [TransOrd α] {k : α} {v : β} {pairs : List (α × β)}
    (h : pairs.Pairwise (fun p q => (compare p.1 q.1).isLT)) :
    (place k v pairs).Pairwise (fun p q => (compare p.1 q.1).isLT) := by
  induction pairs with
  | nil => simp [place]
  | cons p rest ih =>
    have ⟨hp, hr⟩ := List.pairwise_cons.mp h
    unfold place
    split
    case h_1 hk =>
      refine List.pairwise_cons.mpr ⟨fun q hq => ?_, h⟩
      cases List.mem_cons.mp hq
      case inl hq => simp [hq, hk]
      case inr hq =>
        have := hp q hq
        simp only [Ordering.isLT_iff_eq_lt] at this ⊢
        exact TransCmp.lt_trans hk this
    case h_2 hk =>
      refine List.pairwise_cons.mpr ⟨fun q hq => ?_, hr⟩
      have := hp q hq
      simp only [Ordering.isLT_iff_eq_lt] at this ⊢
      exact TransCmp.lt_of_eq_of_lt hk this
    case h_3 hk =>
      refine List.pairwise_cons.mpr ⟨fun q hq => ?_, ih hr⟩
      cases mem_place hq
      case inl hq =>
        subst hq
        simpa using OrientedCmp.gt_iff_lt.mp hk
      case inr hq => exact hp q hq

def empty : Table α β := ⟨[], .nil⟩

instance : EmptyCollection (Table α β) := ⟨empty⟩

instance : Inhabited (Table α β) := ⟨empty⟩

def find? [DecidableEq α] (t : Table α β) (k : α) : Option β :=
  (t.pairs.find? fun p => p.1 = k).map (·.2)

def contains [DecidableEq α] (t : Table α β) (k : α) : Bool := (t.find? k).isSome

def size (t : Table α β) : Nat := t.pairs.length

def isEmpty (t : Table α β) : Bool := t.pairs.isEmpty

def keys (t : Table α β) : List α := t.pairs.map (·.1)

def insert [TransOrd α] (t : Table α β) (k : α) (v : β) : Table α β :=
  ⟨place k v t.pairs, place_ascending t.ascending⟩

def filter (t : Table α β) (keep : α → β → Bool) : Table α β :=
  ⟨t.pairs.filter fun p => keep p.1 p.2, t.ascending.filter _⟩

def erase [DecidableEq α] (t : Table α β) (k : α) : Table α β := t.filter fun k' _ => k' ≠ k

def modify [TransOrd α] [DecidableEq α] (t : Table α β) (k : α) (f : β → β) : Table α β :=
  match t.find? k with
  | some v => t.insert k (f v)
  | none => t

section Laws

variable [DecidableEq α] [TransOrd α] [LawfulEqOrd α] {t : Table α β} {k k' : α} {v : β}

omit [TransOrd α] [LawfulEqOrd α] in
@[simp]
theorem find?_empty : (∅ : Table α β).find? k = none := rfl

omit [TransOrd α] in
theorem find?_place (pairs : List (α × β)) :
    ((place k v pairs).find? fun p => p.1 = k').map (·.2) =
      if k = k' then some v else (pairs.find? fun p => p.1 = k').map (·.2) := by
  induction pairs with
  | nil => by_cases h : k = k' <;> simp [place, h]
  | cons p rest ih =>
    unfold place
    split
    case h_1 => by_cases h : k = k' <;> simp [List.find?_cons, h]
    case h_2 hk =>
      have hk := compare_eq_iff_eq.mp hk
      by_cases h : p.1 = k' <;> simp [hk, h]
    case h_3 hk =>
      by_cases hp : p.1 = k'
      case pos =>
        have : k ≠ k' := fun h => by simp [h, hp] at hk
        simp [hp, this]
      case neg => simp [hp, ih]

theorem find?_insert : (t.insert k v).find? k' = if k = k' then some v else t.find? k' :=
  find?_place t.pairs

@[simp]
theorem find?_insert_self : (t.insert k v).find? k = some v := by
  simp [find?_insert]

theorem find?_insert_of_ne (h : k ≠ k') : (t.insert k v).find? k' = t.find? k' := by
  simp [find?_insert, h]

omit [TransOrd α] in
-- A pair is in the table exactly when its key is answered with its value.
theorem find?_eq_some_iff : t.find? k = some v ↔ (k, v) ∈ t.pairs := by
  obtain ⟨pairs, h⟩ := t
  simp only [find?]
  induction pairs with
  | nil => simp
  | cons p rest ih =>
    have ⟨hp, hr⟩ := List.pairwise_cons.mp h
    by_cases hk : p.1 = k
    case pos =>
      subst hk
      have : (p.1, v) ∉ rest := fun hm => by simpa using hp _ hm
      simp [this, Prod.ext_iff, eq_comm]
    case neg =>
      have : (k, v) ≠ p := fun h => hk (h ▸ rfl)
      simp [hk, this, ih hr]

omit [TransOrd α] in
@[simp]
theorem find?_erase_self : (t.erase k).find? k = none := by
  cases h : (t.erase k).find? k
  case none => rfl
  case some v => simp [find?_eq_some_iff, erase, filter] at h

omit [TransOrd α] in
theorem find?_erase_of_ne (h : k ≠ k') : (t.erase k).find? k' = t.find? k' := by
  apply Option.ext
  intro v
  rw [find?_eq_some_iff, find?_eq_some_iff]
  simp [erase, filter, Ne.symm h]

end Laws

end Table

end OnceCache
