import OnceCache.Proofs.Json.Text

namespace OnceCache.Json.Text

instance : DecidablePred IsPlain :=
  fun b => inferInstanceAs (Decidable (b ≠ 0x22 ∧ b ≠ 0x5C ∧ 0x20 ≤ b))

-- The forms of text between quotes. Any escape of four digits is one.
inductive IsSpelling : Bytes → Prop
  | nil : IsSpelling []
  | plain {b s} : IsPlain b → IsSpelling s → IsSpelling (b :: s)
  | letter {b c s} : escaped? b = some c → IsSpelling s → IsSpelling (0x5C :: b :: s)
  | code {w x y z n s} : hex4? w x y z = some n → IsSpelling s →
    IsSpelling (0x5C :: 0x75 :: w :: x :: y :: z :: s)

-- A text and one of the ways to write it between quotes.
inductive Spells : Bytes → Bytes → Prop
  | nil : Spells [] []
  | plain {b s t} : IsPlain b → Spells s t → Spells (b :: s) (b :: t)
  | letter {b c s t} : escaped? b = some c → Spells s t → Spells (0x5C :: b :: s) (c :: t)
  | code {w x y z n s t} : hex4? w x y z = some n → isHighSurrogate n = false →
    isLowSurrogate n = false → Spells s t →
    Spells (0x5C :: 0x75 :: w :: x :: y :: z :: s) (utf8 n ++ t)
  | pair {w x y z n w' x' y' z' m s t} : hex4? w x y z = some n → isHighSurrogate n →
    hex4? w' x' y' z' = some m → isLowSurrogate m → Spells s t →
    Spells (0x5C :: 0x75 :: w :: x :: y :: z :: 0x5C :: 0x75 :: w' :: x' :: y' :: z' :: s)
      (utf8 (Text.pair n m) ++ t)

variable {b c : UInt8} {s t rest : Bytes}

theorem ne_of_escaped? (h : escaped? b = some c) : b ≠ 0x75 := by
  rintro rfl
  cases h

theorem not_isLowSurrogate {n : Nat} (h : isHighSurrogate n) : isLowSurrogate n = false := by
  simp [isHighSurrogate, isLowSurrogate] at h ⊢
  omega

theorem read_escaped (h : escaped? b = some c) : read (0x5C :: b :: s) = prepend [c] (read s) := by
  rw [read]
  case x_1 => exact ne_of_escaped? h
  simp only [h]

theorem skip_escaped (h : escaped? b = some c) : skip (0x5C :: b :: s) = skip s := by
  rw [skip, h]
  case x_1 => exact ne_of_escaped? h
  rfl

theorem skip_cons (h : IsPlain b) : skip (b :: s) = skip s := by
  obtain ⟨hq, he, hb⟩ := h
  rw [skip, if_neg (UInt8.not_lt.mpr hb)]
  case x_1 => exact hq
  case x_2 => exact he

theorem Spells.isSpelling (h : Spells s t) : IsSpelling s := by
  induction h with
  | nil => exact .nil
  | plain hb _ hi => exact .plain hb hi
  | letter hb _ hi => exact .letter hb hi
  | code hn _ _ _ hi => exact .code hn hi
  | pair hn _ hm _ _ hi => exact .code hn (.code hm hi)

-- What stands for itself spells itself.
theorem spells_self (h : s.all fun b => IsPlain b) : Spells s s := by
  induction s with
  | nil => exact .nil
  | cons b s hi =>
    rw [List.all_cons, Bool.and_eq_true, decide_eq_true_iff] at h
    exact .plain h.left (hi h.right)

-- Every way to write a text is read as that text.
theorem Spells.read (h : Spells s t) : read (s ++ 0x22 :: rest) = .ok (t, rest) := by
  induction h with
  | nil => rfl
  | plain hb _ hi => rw [List.cons_append, read_cons hb, hi]; rfl
  | letter hb _ hi =>
    simp only [List.cons_append]
    rw [read_escaped hb, hi]
    rfl
  | code hn hhigh hlow _ hi => simp [Text.read, hn, hhigh, hlow, hi, prepend]
  | pair hn hhigh hm hlow _ hi =>
    simp [Text.read, hn, hhigh, not_isLowSurrogate hhigh, hm, hlow, hi, prepend]

-- A spelling stands for one text only.
theorem Spells.eq {u : Bytes} (h : Spells s t) (h' : Spells s u) : t = u := by
  have hread : Text.read (s ++ [0x22]) = .ok (t, []) := h.read
  cases hread.symm.trans h'.read
  rfl

theorem IsSpelling.skip (h : IsSpelling s) : skip (s ++ 0x22 :: rest) = .ok rest := by
  induction h with
  | nil => rfl
  | plain hb _ hi =>
    rw [List.cons_append, skip_cons hb, hi]
  | letter hb _ hi =>
    simp only [List.cons_append]
    rw [skip_escaped hb, hi]
  | code hn _ hi => simp [Text.skip, hn, hi]

theorem of_prepend {front : Bytes} (h : prepend front (read s) = .ok (t, rest))
    (hread : ∀ {t rest}, read s = .ok (t, rest) → ∃ u, s = u ++ 0x22 :: rest ∧ Spells u t) :
    ∃ u t', s = u ++ 0x22 :: rest ∧ front ++ t' = t ∧ Spells u t' := by
  cases hr : read s with
  | error =>
    rw [hr] at h
    cases h
  | ok r =>
    rw [hr] at h
    cases h
    obtain ⟨u, hu, hs⟩ := hread hr
    exact ⟨u, _, hu, rfl, hs⟩

-- Nothing is read as a text but a way to write it.
theorem spells_of_read (h : read s = .ok (t, rest)) :
    ∃ u, s = u ++ 0x22 :: rest ∧ Spells u t := by
  fun_induction Text.read s generalizing t rest
  case case2 =>
    cases h
    exact ⟨[], rfl, .nil⟩
  case case9 hn _ hhigh _ _ _ _ _ _ hm hlow hi =>
    obtain ⟨u, t, rfl, rfl, hs⟩ := of_prepend h hi
    exact ⟨_, rfl, .pair hn hhigh hm hlow hs⟩
  case case14 hn hlow hhigh hi =>
    obtain ⟨u, t, rfl, rfl, hs⟩ := of_prepend h hi
    exact ⟨_, rfl, .code hn (eq_false_of_ne_true hhigh) (eq_false_of_ne_true hlow) hs⟩
  case case16 hb hi =>
    obtain ⟨u, t, rfl, rfl, hs⟩ := of_prepend h hi
    exact ⟨_, rfl, .letter hb hs⟩
  case case19 hq he hb hi =>
    obtain ⟨u, t, rfl, rfl, hs⟩ := of_prepend h hi
    exact ⟨_, rfl, .plain ⟨hq, he, UInt8.not_lt.mp hb⟩ hs⟩
  all_goals cases h

-- What is read of a spelling ends with it.
theorem IsSpelling.rest_of_read {rest' : Bytes} (hs : IsSpelling s)
    (h : read (s ++ 0x22 :: rest) = .ok (t, rest')) : rest' = rest ∧ Spells s t := by
  have ⟨u, hu, ht⟩ := spells_of_read h
  have hskip : Text.skip (s ++ 0x22 :: rest) = .ok rest' := by
    rw [hu]
    exact ht.isSpelling.skip
  obtain rfl : rest = rest' := Except.ok.inj (hs.skip.symm.trans hskip)
  exact ⟨rfl, List.append_cancel_right hu ▸ ht⟩

end OnceCache.Json.Text
