import OnceCache.Json.Numeral
import OnceCache.Proofs.Text.Bytes

namespace OnceCache.Json.Numeral

open Bytes (isDigit ofText)

-- What digits stand for, one by one.
def values (s : Bytes) : List Nat := s.map fun b => b.toNat - 0x30

def IsDigits (s : Bytes) : Prop := s ≠ [] ∧ ∀ b ∈ s, isDigit b

-- Only a zero that stands alone starts with a zero.
def IsWhole (s : Bytes) : Prop := IsDigits s ∧ (s.head? = some 0x30 → s = [0x30])

inductive Sign : Bytes → Bool → Prop
  | absent : Sign [] false
  | minus  : Sign [0x2D] true

inductive Fraction : Bytes → Option (List Nat) → Prop
  | absent : Fraction [] none
  | digits {s} : IsDigits s → Fraction (0x2E :: s) (some (values s))

inductive Exponent : Bytes → Option (Bool × List Nat) → Prop
  | absent : Exponent [] none
  | bare {b s}  : b = 0x65 ∨ b = 0x45 → IsDigits s → Exponent (b :: s) (some (false, values s))
  | plus {b s}  : b = 0x65 ∨ b = 0x45 → IsDigits s →
    Exponent (b :: 0x2B :: s) (some (false, values s))
  | minus {b s} : b = 0x65 ∨ b = 0x45 → IsDigits s →
    Exponent (b :: 0x2D :: s) (some (true, values s))

-- A numeral as it is written.
inductive Written : Bytes → Numeral → Prop
  | intro {sign whole fraction exponent n f e} :
    Sign sign n → IsWhole whole → Fraction fraction f → Exponent exponent e →
    Written (sign ++ (whole ++ (fraction ++ exponent))) ⟨n, values whole, f, e⟩

-- What can follow a numeral: anything that does not go on with it.
def Ends (rest : Bytes) : Prop :=
  ∀ b ∈ rest.head?, isDigit b = false ∧ b ≠ 0x2E ∧ b ≠ 0x65 ∧ b ≠ 0x45

variable {s rest : Bytes} {n : Numeral}

section Scan

theorem digits_append (hs : ∀ b ∈ s, isDigit b) (hr : ∀ b ∈ rest.head?, isDigit b = false) :
    digits (s ++ rest) = (values s, rest) := by
  have ht : rest.takeWhile isDigit = [] ∧ rest.dropWhile isDigit = rest := by
    cases rest <;> simp_all
  rw [digits, List.takeWhile_append_of_pos hs, List.dropWhile_append_of_pos hs, ht.left, ht.right,
    List.append_nil]
  rfl

theorem someDigits_append (hs : IsDigits s) (hr : ∀ b ∈ rest.head?, isDigit b = false) :
    someDigits (s ++ rest) = .ok (values s, rest) := by
  obtain ⟨hn, hs⟩ := hs
  rw [someDigits, digits_append hs hr]
  cases s
  case nil => exact absurd rfl hn
  case cons => rfl

theorem readWhole_append (hs : IsWhole s) (hr : ∀ b ∈ rest.head?, isDigit b = false) :
    readWhole (s ++ rest) = .ok (values s, rest) := by
  obtain ⟨hd, hz⟩ := hs
  rw [readWhole, someDigits_append hd hr]
  simp only [bind, Except.bind]
  split
  case h_1 he =>
    -- A zero in front of more digits is none of a whole part.
    obtain ⟨b, c, t, rfl⟩ : ∃ b c t, s = b :: c :: t := by
      rcases s with _ | ⟨b, _ | ⟨c, t⟩⟩
      all_goals simp [values] at he
      exact ⟨b, c, t, rfl⟩
    have hb : isDigit b := hd.right b (by simp)
    have hb : b = 0x30 := by
      simp [values, isDigit, UInt8.le_iff_toNat_le, ← UInt8.toNat_inj] at he hb ⊢
      omega
    simpa using hz (by rw [hb]; rfl)
  case h_2 => rfl

theorem not_isDigit_of_exponent {e : Option (Bool × List Nat)} (h : Exponent s e) (hr : Ends rest) :
    ∀ b ∈ (s ++ rest).head?, isDigit b = false ∧ b ≠ 0x2E := by
  cases h
  case absent => exact fun b hb => ⟨(hr b hb).left, (hr b hb).right.left⟩
  all_goals
    rename_i hb _
    rcases hb with rfl | rfl <;> simp <;> decide

theorem not_isDigit_of_fraction {f : Option (List Nat)} (h : Fraction s f)
    (hr : ∀ b ∈ rest.head?, isDigit b = false ∧ b ≠ 0x2E) :
    ∀ b ∈ (s ++ rest).head?, isDigit b = false := by
  cases h
  case absent => exact fun b hb => (hr b hb).left
  case digits =>
    simp
    decide

theorem readFraction_append {f : Option (List Nat)} (h : Fraction s f)
    (hr : ∀ b ∈ rest.head?, isDigit b = false ∧ b ≠ 0x2E) :
    readFraction (s ++ rest) = .ok (f, rest) := by
  cases h
  case absent =>
    cases rest
    case nil => rfl
    case cons b rest =>
      rw [List.nil_append, readFraction]
      intro _ h
      exact (hr b rfl).right (List.cons.inj h).left
  case digits s hs =>
    change readFraction (0x2E :: (s ++ rest)) = _
    rw [readFraction, someDigits_append hs fun b hb => (hr b hb).left]
    rfl

theorem ne_of_isDigit (hs : IsDigits s) {b : UInt8} (hb : isDigit b = false) {t : Bytes} :
    s ++ rest ≠ b :: t := by
  obtain ⟨hn, hs⟩ := hs
  cases s
  case nil => exact absurd rfl hn
  case cons c s =>
    intro h
    obtain rfl := (List.cons.inj h).left
    simp [hs c] at hb

theorem readSign_append (hs : IsDigits s) : readSign (s ++ rest) = (false, s ++ rest) := by
  rw [readSign]
  case x_1 => exact fun _ => ne_of_isDigit hs rfl
  case x_2 => exact fun _ => ne_of_isDigit hs rfl

theorem readExponent_append {e : Option (Bool × List Nat)} (h : Exponent s e) (hr : Ends rest) :
    readExponent (s ++ rest) = .ok (e, rest) := by
  have hd : ∀ b ∈ rest.head?, isDigit b = false := fun b hb => (hr b hb).left
  cases h
  case absent =>
    cases rest
    case nil => rfl
    case cons b rest =>
      have hb := (hr b rfl).right.right
      rw [List.nil_append, readExponent, if_neg (not_or.mpr hb)]
  case bare b s hb hs =>
    rw [List.cons_append, readExponent, if_pos hb, readSign_append hs]
    simp only [someDigits_append hs hd]
    rfl
  case plus b s hb hs =>
    simp only [List.cons_append, readExponent, if_pos hb, readSign, someDigits_append hs hd]
    rfl
  case minus b s hb hs =>
    simp only [List.cons_append, readExponent, if_pos hb, readSign, someDigits_append hs hd]
    rfl

-- A numeral is scanned as it is written.
theorem scan_append (h : Written s n) (hr : Ends rest) : scan (s ++ rest) = .ok (n, rest) := by
  cases h
  case intro sign whole fraction exponent _ _ _ hs hw hf he =>
    have hexponent := not_isDigit_of_exponent he hr
    have hwhole := readWhole_append hw (not_isDigit_of_fraction hf hexponent)
    have hfraction := readFraction_append hf hexponent
    have hread := readExponent_append he hr
    simp only [List.append_assoc, scan]
    cases hs
    case absent =>
      split
      case h_1 h => exact absurd h (ne_of_isDigit hw.left rfl)
      case h_2 => simp [bind, Except.bind, hwhole, hfraction, hread, pure, Except.pure]
    case minus => simp [bind, Except.bind, hwhole, hfraction, hread, pure, Except.pure]

end Scan

section Decimal

variable {ds : List Nat} {m k d : Nat}

-- The digit of a number below ten.
def digit (d : Nat) : UInt8 := .ofNat (0x30 + d)

-- A whole number without a sign.
structure IsDecimal (s : Bytes) (k : Nat) : Prop where
  whole : IsWhole s
  value : value (values s) = k

theorem IsDecimal.written (hs : IsDecimal s k) : Written s ⟨false, values s, none, none⟩ := by
  simpa using Written.intro .absent hs.whole .absent .absent

theorem digit_toNat (h : d < 10) : (digit d).toNat = 0x30 + d := by
  rw [digit, UInt8.toNat_ofNat']
  omega

theorem isDigit_digit (h : d < 10) : isDigit (digit d) := by
  have := digit_toNat h
  simp [isDigit, UInt8.le_iff_toNat_le]
  omega

theorem value_values_append (h : d < 10) :
    value (values (s ++ [digit d])) = value (values s) * 10 + d := by
  simp [values, value, digit_toNat h]

theorem isDecimal_digit (h : d < 10) : IsDecimal [digit d] d := by
  refine ⟨⟨⟨by simp, by simpa using isDigit_digit h⟩, by simp⟩, ?_⟩
  simp [values, value, digit_toNat h]

-- A digit can be put after any whole number but zero.
theorem IsDecimal.append (hs : IsDecimal s k) (hk : 0 < k) (h : d < 10) :
    IsDecimal (s ++ [digit d]) (k * 10 + d) := by
  obtain ⟨⟨⟨hn, hs⟩, hz⟩, rfl⟩ := hs
  refine ⟨⟨⟨by simp, fun b hb => ?_⟩, fun hhead => ?_⟩, value_values_append h⟩
  case refine_1 =>
    rcases List.mem_append.mp hb with hb | hb
    case inl => exact hs b hb
    case inr =>
      obtain rfl := List.mem_singleton.mp hb
      exact isDigit_digit h
  case refine_2 =>
    cases s
    case nil => exact absurd rfl hn
    case cons b s =>
      rw [hz hhead] at hk
      cases hk

theorem ofText_digitChar (h : d < 10) : ofText (String.ofList [Nat.digitChar d]) = [digit d] := by
  have hall : ∀ d : Fin 10, ofText (String.ofList [Nat.digitChar d]) = [digit d] := by decide
  exact hall ⟨d, h⟩

theorem isDecimal_toString : IsDecimal (ofText (toString k)) k := by
  induction k using Nat.strongRecOn with
  | ind k hi =>
    rw [Nat.toString_eq_ofList_toDigits]
    by_cases h : k < 10
    case pos =>
      rw [Nat.toDigits_of_lt_base h, ofText_digitChar h]
      exact isDecimal_digit h
    case neg =>
      have hd : k % 10 < 10 := Nat.mod_lt k (by decide)
      have hk : k / 10 < k ∧ 0 < k / 10 := by omega
      rw [Nat.toDigits_of_base_le (by decide) (Nat.le_of_not_lt h), String.ofList_append,
        Bytes.ofText_append, ofText_digitChar hd, ← Nat.toString_eq_ofList_toDigits]
      have := (hi _ hk.left).append hk.right hd
      rwa [Nat.div_add_mod'] at this

theorem le_value (n : Nat) (ds : List Nat) : n ≤ ds.foldl (fun n d => n * 10 + d) n := by
  induction ds generalizing n with
  | nil => exact Nat.le_refl n
  | cons d ds hi =>
    have := hi (n * 10 + d)
    rw [List.foldl_cons]
    omega

theorem leading_of_lt (h : ds.foldl (fun n d => n * 10 + d) m < UInt64.size) :
    leading m ds = (ds.foldl (fun n d => n * 10 + d) m, 0) := by
  induction ds generalizing m with
  | nil => rfl
  | cons d ds hi =>
    have := le_value (m * 10 + d) ds
    rw [leading, if_pos (Nat.lt_of_le_of_lt this h), hi h, List.foldl_cons]

-- Rounding adds one unit of the last place at most, and that is below the number itself.
theorem round53_le : round53 m ≤ 2 * m + 1 := by
  have hunit : 1 <<< (m.log2 + 1 - 53) ≤ m + 1 := by
    rw [Nat.one_shiftLeft]
    by_cases hm : m = 0
    case pos =>
      subst hm
      decide
    case neg =>
      have hle : 2 ^ (m.log2 + 1 - 53) ≤ 2 ^ m.log2 := Nat.pow_le_pow_right (by decide) (by omega)
      have hlog : 2 ^ m.log2 ≤ m := Nat.log2_self_le hm
      omega
  have hmul : m / (1 <<< (m.log2 + 1 - 53)) * (1 <<< (m.log2 + 1 - 53)) ≤ m :=
    Nat.div_mul_le_self ..
  simp only [round53, Nat.add_mul, Nat.one_mul]
  split <;> omega

theorem productIsFinite_of_lt (h : m < UInt64.size) : productIsFinite m 0 := by
  have hm := round53_le (m := m)
  have hone : round53 (Nat.pow 10 0) = 1 := by decide
  have hoverflow : 2 * UInt64.size + 1 < overflow := by decide
  rw [productIsFinite, hone, decide_eq_true_iff]
  omega

theorem inRange_of_lt (h : value ds < UInt64.size) : inRange ⟨false, ds, none, none⟩ := by
  have hl : leading 0 ds = (value ds, 0) := leading_of_lt h
  simp [inRange, hl, productIsFinite_of_lt h]

-- A whole number of 64 bits is in the range of binary64, and read as it is written.
theorem read_append (hs : IsDecimal s k) (hk : k < UInt64.size) (hr : Ends rest) :
    read (s ++ rest) = .ok (⟨false, values s, none, none⟩, rest) := by
  have hin : inRange ⟨false, values s, none, none⟩ := inRange_of_lt (hs.value ▸ hk)
  rw [read, scan_append hs.written hr]
  exact if_pos hin

theorem toNat?_of_lt {bound : Nat} (hs : IsDecimal s k) (hk : k < bound) :
    toNat? ⟨false, values s, none, none⟩ bound = some k := by
  simp [toNat?, hs.value, hk]

end Decimal

end OnceCache.Json.Numeral
