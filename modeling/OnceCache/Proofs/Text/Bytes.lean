import OnceCache.Text.Bytes

namespace OnceCache.Bytes

section Text

variable {s t : String} {c : Char} {b : UInt8}

-- A text is what its characters are, one after the other.
theorem ofText_eq : ofText s = s.toList.flatMap String.utf8EncodeChar := by
  rw [ofText, ← String.utf8Encode_toList, List.utf8Encode, List.data_toByteArray]

@[simp]
theorem ofText_empty : ofText "" = [] := rfl

@[simp]
theorem ofText_append : ofText (s ++ t) = ofText s ++ ofText t := by
  simp [ofText_eq]

@[simp]
theorem ofText_inj : ofText s = ofText t ↔ s = t := by
  constructor
  case mp =>
    intro h
    have := congrArg toText? h
    simpa using this
  case mpr => exact congrArg ofText

theorem ofText_of_toText? {b : Bytes} (h : b.toText? = some s) : ofText s = b := by
  unfold toText? String.fromUTF8? at h
  split at h <;> cases h
  rfl

theorem ofText_ofList {l : List Char} :
    ofText (String.ofList l) = l.flatMap String.utf8EncodeChar := by
  rw [ofText_eq, String.toList_ofList]

theorem ofText_join {l : List String} : ofText (String.join l) = l.flatMap ofText := by
  rw [ofText_eq, String.toList_join, List.flatMap_assoc]
  exact congrArg (List.flatMap · l) (funext fun _ => ofText_eq.symm)

theorem ofText_intercalate {l : List String} :
    ofText (s.intercalate l) = (ofText s).intercalate (l.map ofText) := by
  rw [ofText_eq, String.toList_intercalate]
  induction l with
  | nil => simp
  | cons t l hi =>
    cases l with
    | nil => simp [ofText_eq]
    | cons => simp_all [ofText_eq]

-- A character of ASCII is one byte.
theorem utf8EncodeChar_ofNat (h : b < 0x80) :
    String.utf8EncodeChar (Char.ofNat b.toNat) = [b] := by
  have hb : b.toNat < 128 := h
  have hv : b.toNat.isValidChar := .inl (by omega)
  have hc : (Char.ofNat b.toNat).val.toNat = b.toNat := by
    have : Char.ofNat b.toNat = Char.ofNatAux b.toNat hv := dif_pos hv
    rw [this]
    rfl
  simp [String.utf8EncodeChar, hc, Nat.le_of_lt_succ hb]

end Text

section Separators

variable {sep : UInt8} {a b : Bytes}

theorem cut_of_not_mem (h : sep ∉ a) : cut sep a = (a, none) := by
  induction a with
  | nil => rfl
  | cons x a hi =>
    have ⟨hx, ha⟩ := List.ne_and_not_mem_of_not_mem_cons h
    rw [cut, if_neg (Ne.symm hx), hi ha]

theorem cut_append (h : sep ∉ a) : cut sep (a ++ sep :: b) = (a, some b) := by
  induction a with
  | nil => simp [cut]
  | cons x a hi =>
    have ⟨hx, ha⟩ := List.ne_and_not_mem_of_not_mem_cons h
    rw [List.cons_append, cut, if_neg (Ne.symm hx), hi ha]

theorem split_of_not_mem (h : sep ∉ a) : split sep a = [a] := by
  induction a with
  | nil => rfl
  | cons x a hi =>
    have ⟨hx, ha⟩ := List.ne_and_not_mem_of_not_mem_cons h
    rw [split, if_neg (Ne.symm hx), hi ha]

theorem split_append (h : sep ∉ a) : split sep (a ++ sep :: b) = a :: split sep b := by
  induction a with
  | nil => simp [split]
  | cons x a hi =>
    have ⟨hx, ha⟩ := List.ne_and_not_mem_of_not_mem_cons h
    rw [List.cons_append, split, if_neg (Ne.symm hx), hi ha]

-- Parts without the separator can be told apart when they are put together with it.
theorem split_intercalate {parts : List Bytes} (hn : parts ≠ [])
    (h : ∀ part ∈ parts, sep ∉ part) : split sep ([sep].intercalate parts) = parts := by
  induction parts with
  | nil => exact absurd rfl hn
  | cons part parts hi =>
    cases parts with
    | nil => simpa using split_of_not_mem (h part (by simp))
    | cons next rest =>
      have hp : sep ∉ part := h part (by simp)
      have hr : split sep ([sep].intercalate (next :: rest)) = next :: rest :=
        hi (by simp) fun q hq => h q (by simp [List.mem_cons.mp hq])
      rw [List.intercalate_cons_cons, List.append_assoc, List.singleton_append, split_append hp, hr]

end Separators

end OnceCache.Bytes
