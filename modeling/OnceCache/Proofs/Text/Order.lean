import OnceCache.Proofs.Text.Bytes

namespace OnceCache.Bytes

variable {c d : Char} {s t : String} {m n : Nat}

section Byte

variable (hm : m < 256) (hn : n < 256)
include hm hn

theorem byte_lt_iff : UInt8.ofNat m < UInt8.ofNat n ↔ m < n := by
  rw [UInt8.lt_iff_toNat_lt, UInt8.toNat_ofNat_of_lt' hm, UInt8.toNat_ofNat_of_lt' hn]

theorem byte_eq_iff : UInt8.ofNat m = UInt8.ofNat n ↔ m = n := by
  rw [← UInt8.toNat_inj, UInt8.toNat_ofNat_of_lt' hm, UInt8.toNat_ofNat_of_lt' hn]

end Byte

theorem digit_lt (h : m < n) : m / 64 < n / 64 ∨ m / 64 = n / 64 ∧ m % 64 < n % 64 := by
  omega

-- The bytes of a character tell it apart from any greater one, and no byte after them matters.
theorem utf8EncodeChar_append_lt (h : c < d) {b b' : Bytes} :
    String.utf8EncodeChar c ++ b < String.utf8EncodeChar d ++ b' := by
  have hv : c.val.toNat < d.val.toNat := h
  have hd : d.val.toNat < 0x110000 := by
    obtain h | h := d.valid <;> omega
  simp only [String.utf8EncodeChar]
  generalize c.val.toNat = v, d.val.toNat = w at hv hd
  -- The digits of both to the base 64, from the last one on.
  have hq (n : Nat) : n / 64 / 64 = n / 4096 ∧ n / 4096 / 64 = n / 262144 := by omega
  obtain ⟨hv₁, hv₂⟩ := hq v
  obtain ⟨hw₁, hw₂⟩ := hq w
  have h₁ := digit_lt hv
  have h₂ (h : v / 64 < w / 64) := digit_lt h
  have h₃ (h : v / 4096 < w / 4096) := digit_lt h
  have h₄ : v / 262144 % 8 = v / 262144 ∧ w / 262144 % 8 = w / 262144 := by omega
  repeat' split
  all_goals
    simp (disch := omega) only [List.cons_append, List.nil_append, List.cons_lt_cons_iff,
      byte_lt_iff, byte_eq_iff]
    omega

theorem ofText_lt_of_lt (h : s < t) : ofText s < ofText t := by
  have h : s.toList < t.toList := h
  rw [ofText_eq, ofText_eq]
  generalize s.toList = l, t.toList = l' at h
  induction l generalizing l'
  case nil =>
    cases l'
    case nil => exact absurd h (List.not_lt_nil _)
    case cons d l' =>
      have hd : String.utf8EncodeChar d ≠ [] := String.utf8EncodeChar_ne_nil
      obtain ⟨b, rest, he⟩ := List.exists_cons_of_ne_nil hd
      rw [List.flatMap_nil, List.flatMap_cons, he]
      exact List.nil_lt_cons ..
  case cons c l hi =>
    cases l'
    case nil => exact absurd h (List.not_lt_nil _)
    case cons d l' =>
      rw [List.flatMap_cons, List.flatMap_cons]
      obtain hc | ⟨rfl, hl⟩ := List.cons_lt_cons_iff.mp h
      case inl => exact utf8EncodeChar_append_lt hc
      case inr => exact List.append_left_lt (hi l' hl)

-- Texts are in the order of their bytes.
theorem ofText_lt_iff : ofText s < ofText t ↔ s < t := by
  constructor
  case mp =>
    intro h
    refine String.not_le.mp fun hle => ?_
    by_cases hlt : t < s
    case pos => exact List.lt_asymm h (ofText_lt_of_lt hlt)
    case neg =>
      have : s = t := String.le_antisymm (String.not_lt.mp hlt) hle
      exact List.lt_irrefl _ (this ▸ h)
  case mpr => exact ofText_lt_of_lt

end OnceCache.Bytes
