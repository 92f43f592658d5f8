import OnceCache.Proofs.Text.Bytes

namespace OnceCache.Bytes

variable {sep x : UInt8} {s t a b part : Bytes} {f : UInt8 → UInt8}

section Parts

-- A part of a byte string without separators. On each side there is one, or the string ends.
def IsPart (sep : UInt8) (s part : Bytes) : Prop :=
  sep ∉ part ∧ ∃ before after, s = before ++ part ++ after ∧
    (before = [] ∨ ∃ a, before = a ++ [sep]) ∧ (after = [] ∨ ∃ b, after = sep :: b)

theorem split_ne_nil : split sep s ≠ [] := by
  cases s with
  | nil => simp [split]
  | cons x s =>
    unfold split
    split
    case isTrue => simp
    case isFalse => split <;> simp

-- The parts of two strings that are joined by a separator are the parts of both.
theorem split_join : split sep (a ++ sep :: b) = split sep a ++ split sep b := by
  induction a with
  | nil => simp [split]
  | cons x a hi =>
    by_cases hx : x = sep
    case pos => simp [split, hx, hi]
    case neg =>
      obtain ⟨part, parts, hp⟩ : ∃ part parts, split sep a = part :: parts :=
        List.exists_cons_of_ne_nil split_ne_nil
      simp [split, hx, hi, hp]

theorem isPart_of_mem_split (h : part ∈ split sep s) : IsPart sep s part := by
  -- By induction on what follows the first separator.
  induction hn : s.length using Nat.strongRecOn generalizing s with
  | ind n hi =>
    by_cases hs : sep ∈ s
    case neg =>
      rw [split_of_not_mem hs, List.mem_singleton] at h
      exact ⟨h ▸ hs, [], [], by simp [h], .inl rfl, .inl rfl⟩
    case pos =>
      obtain ⟨a, t, rfl, ha⟩ := List.eq_append_cons_of_mem hs
      rw [split_append ha] at h
      cases h
      case head => exact ⟨ha, [], sep :: t, by simp, .inl rfl, .inr ⟨t, rfl⟩⟩
      case tail h =>
        have hl : t.length < n := by
          rw [← hn, List.length_append, List.length_cons]
          omega
        obtain ⟨hp, before, after, rfl, hb, ha⟩ := hi _ hl h rfl
        refine ⟨hp, a ++ sep :: before, after, by simp, .inr ?_, ha⟩
        obtain rfl | ⟨c, rfl⟩ := hb
        case inl => exact ⟨a, rfl⟩
        case inr => exact ⟨a ++ sep :: c, by simp⟩

theorem mem_split_of_isPart (h : IsPart sep s part) : part ∈ split sep s := by
  obtain ⟨hp, before, after, rfl, hb, ha⟩ := h
  have hpart : part ∈ split sep (part ++ after) := by
    obtain rfl | ⟨a, rfl⟩ := ha
    case inl => simp [split_of_not_mem hp]
    case inr => simp [split_append hp]
  obtain rfl | ⟨b, rfl⟩ := hb
  case inl => exact hpart
  case inr =>
    rw [List.append_assoc, List.append_assoc, List.singleton_append, split_join]
    exact List.mem_append_right _ hpart

theorem mem_split_iff : part ∈ split sep s ↔ IsPart sep s part :=
  ⟨isPart_of_mem_split, mem_split_of_isPart⟩

-- A change of bytes that makes no separator and loses none does not matter to where they are.
theorem split_map (h : ∀ x, f x = sep ↔ x = sep) :
    split sep (s.map f) = (split sep s).map (List.map f) := by
  induction s with
  | nil => rfl
  | cons x s hi =>
    by_cases hx : x = sep
    case pos => simp [split, hx, h, hi]
    case neg =>
      obtain ⟨part, parts, hp⟩ : ∃ part parts, split sep s = part :: parts :=
        List.exists_cons_of_ne_nil split_ne_nil
      simp [split, hx, h, hi, hp]

theorem all_intercalate {p : UInt8 → Bool} {parts : List Bytes} (h : p sep) :
    ([sep].intercalate parts).all p = parts.all (·.all p) := by
  induction parts with
  | nil => rfl
  | cons part parts hi =>
    cases parts with
    | nil => simp
    | cons next rest => simp [List.intercalate_cons_cons, hi, h]

end Parts

section Front

-- What stands in front of the first separator.
def IsFront (sep : UInt8) (s front : Bytes) : Prop :=
  sep ∉ front ∧ (s = front ∨ ∃ rest, s = front ++ sep :: rest)

theorem cut_eq_iff : (cut sep s).1 = a ↔ IsFront sep s a := by
  constructor
  case mp =>
    rintro rfl
    by_cases hs : sep ∈ s
    case neg => simp [cut_of_not_mem hs, IsFront, hs]
    case pos =>
      obtain ⟨a, t, rfl, ha⟩ := List.eq_append_cons_of_mem hs
      simp [cut_append ha, IsFront, ha]
  case mpr =>
    rintro ⟨ha, rfl | ⟨rest, rfl⟩⟩
    case inl => rw [cut_of_not_mem ha]
    case inr => rw [cut_append ha]

theorem cut_map (h : ∀ x, f x = sep ↔ x = sep) : (cut sep (s.map f)).1 = (cut sep s).1.map f := by
  induction s with
  | nil => rfl
  | cons x s hi => by_cases hx : x = sep <;> simp [cut, hx, h, hi]

end Front

end OnceCache.Bytes
