import Mathlib.Data.List.Sort
import OnceCache.Http.Form
import OnceCache.Http.Target
import OnceCache.Proofs.Text.Bytes

namespace OnceCache.Http.Form

open Bytes (ofText)

section Bytes

variable {b n : UInt8} {s t : Bytes}

-- The bytes that occur in a name or a value as it is written.
def isWritten (b : UInt8) : Bool := isPlain b || b = 0x2B || b = 0x25

theorem lt_of_isPlain (h : isPlain b) : b < 0x80 := by
  simp only [isPlain, Bytes.isAlphanumeric, Bytes.isDigit] at h
  grind

theorem ne_of_isPlain (h : isPlain b) : b ≠ 0x2B ∧ b ≠ 0x25 := by
  constructor <;> (rintro rfl; cases h)

-- The separators do not occur in what is written.
theorem ne_of_isWritten (h : isWritten b) : b ≠ 0x26 ∧ b ≠ 0x3D := by
  constructor <;> (rintro rfl; cases h)

theorem isQueryByte_of_isWritten (h : isWritten b) : Resource.isQueryByte b := by
  simp [isWritten, isPlain, Bytes.isAlphanumeric, Bytes.isDigit, UInt8.le_iff_toNat_le,
    ← UInt8.toNat_inj] at h
  simp [Resource.isQueryByte, UInt8.le_iff_toNat_le, ← UInt8.toNat_inj]
  omega

theorem div_lt (b : UInt8) : b / 16 < 16 := by
  have := b.toNat_lt
  rw [UInt8.lt_iff_toNat_lt, UInt8.toNat_div]
  simp only [UInt8.reduceToNat]
  omega

theorem mod_lt (b : UInt8) : b % 16 < 16 := by
  rw [UInt8.lt_iff_toNat_lt, UInt8.toNat_mod]
  exact Nat.mod_lt _ (by decide)

theorem div_mul_add_mod (b : UInt8) : b / 16 * 16 + b % 16 = b := by
  have := b.toNat_lt
  rw [← UInt8.toNat_inj]
  simp [UInt8.toNat_add]
  omega

-- A hexadecimal digit is one byte, and is read as what it was written for.
theorem utf8EncodeChar_hexDigit (h : n < 16) :
    ∃ x, String.utf8EncodeChar (hexDigit n) = [x] ∧ Bytes.hexDigit? x = some n ∧ isPlain x := by
  have hall : ∀ m : Fin 16,
      let x := UInt8.ofNat (hexDigit (.ofNat m)).toNat
      String.utf8EncodeChar (hexDigit (.ofNat m)) = [x] ∧
        Bytes.hexDigit? x = some (.ofNat m) ∧ isPlain x := by decide
  have hn : UInt8.ofNat n.toNat = n := UInt8.ofNat_toNat
  exact ⟨_, hn ▸ hall ⟨n.toNat, h⟩⟩

theorem decodeBytes_cons (hp : b ≠ 0x2B) (hc : b ≠ 0x25) :
    decodeBytes (b :: s) = b :: decodeBytes s := by
  rw [decodeBytes] <;> simp_all

-- What a byte is written as is read as that byte.
theorem decodeBytes_encodeByte :
    decodeBytes ((encodeByte b).flatMap String.utf8EncodeChar ++ t) = b :: decodeBytes t := by
  unfold encodeByte
  split
  case isTrue hb =>
    have ⟨hp, hc⟩ := ne_of_isPlain hb
    simp [Bytes.utf8EncodeChar_ofNat (lt_of_isPlain hb), decodeBytes_cons hp hc]
  case isFalse =>
    split
    case isTrue hb =>
      subst hb
      rfl
    case isFalse =>
      have ⟨x, hx, hh, _⟩ := utf8EncodeChar_hexDigit (div_lt b)
      have ⟨y, hy, hl, _⟩ := utf8EncodeChar_hexDigit (mod_lt b)
      have hb : hexByte? x y = some b := by simp [hexByte?, hh, hl, div_mul_add_mod b]
      have hp : String.utf8EncodeChar '%' = [0x25] := rfl
      simp [hx, hy, hp, decodeBytes, hb]

theorem isWritten_of_mem_encodeByte {x : UInt8}
    (h : x ∈ (encodeByte b).flatMap String.utf8EncodeChar) : isWritten x := by
  unfold encodeByte at h
  split at h
  case isTrue hb =>
    simp [Bytes.utf8EncodeChar_ofNat (lt_of_isPlain hb)] at h
    simp [h, isWritten, hb]
  case isFalse =>
    split at h
    case isTrue hb =>
      have hp : String.utf8EncodeChar '+' = [0x2B] := rfl
      simp [hp] at h
      simp [h, isWritten]
    case isFalse =>
      have ⟨y, hy, _, hpy⟩ := utf8EncodeChar_hexDigit (div_lt b)
      have ⟨z, hz, _, hpz⟩ := utf8EncodeChar_hexDigit (mod_lt b)
      have hp : String.utf8EncodeChar '%' = [0x25] := rfl
      simp [hy, hz, hp] at h
      rcases h with rfl | rfl | rfl
      case inl => rfl
      all_goals simp [isWritten, hpy, hpz]

end Bytes

section Parameters

variable {s t : String} {p q : Parameter} {ps qs : List Parameter} {b : UInt8}

theorem ofText_encode : ofText (encode s) =
    (ofText s).flatMap fun b => (encodeByte b).flatMap String.utf8EncodeChar := by
  rw [encode, Bytes.ofText_ofList, List.flatMap_assoc]

theorem isWritten_of_mem_encode (h : b ∈ ofText (encode s)) : isWritten b := by
  rw [ofText_encode, List.mem_flatMap] at h
  have ⟨_, _, hb⟩ := h
  exact isWritten_of_mem_encodeByte hb

-- A text is read as it was before it was written.
theorem decode_encode : decode (ofText (encode s)) = s := by
  have hall (t : Bytes) : decodeBytes
      (t.flatMap fun b => (encodeByte b).flatMap String.utf8EncodeChar) = t := by
    induction t with
    | nil => rfl
    | cons b t hi => rw [List.flatMap_cons, decodeBytes_encodeByte, hi]
  rw [decode, ofText_encode, hall, Bytes.toTextRepaired_ofText]

theorem ofText_writeParameter : ofText (writeParameter p) =
    ofText (encode p.1) ++ 0x3D :: ofText (encode p.2) := by
  have he : ofText "=" = [0x3D] := rfl
  simp [writeParameter, he]

theorem readParameter_writeParameter : readParameter (ofText (writeParameter p)) = p := by
  have hn : 0x3D ∉ ofText (encode p.1) := fun h =>
    (ne_of_isWritten (isWritten_of_mem_encode h)).right rfl
  simp [readParameter, ofText_writeParameter, Bytes.cut_append hn, decode_encode]

theorem not_mem_writeParameter : 0x26 ∉ ofText (writeParameter p) := by
  rw [ofText_writeParameter, List.mem_append, List.mem_cons]
  rintro (h | h | h)
  case inl => exact (ne_of_isWritten (isWritten_of_mem_encode h)).left rfl
  case inr.inl => cases h
  case inr.inr => exact (ne_of_isWritten (isWritten_of_mem_encode h)).left rfl

theorem ofText_write : ofText (write ps) =
    [(0x26 : UInt8)].intercalate (ps.map fun p => ofText (writeParameter p)) := by
  have ha : ofText "&" = [0x26] := rfl
  rw [write, Bytes.ofText_intercalate, List.map_map, ha]
  rfl

-- Reading gives the parameters back that were written.
theorem read_write : read (write ps) = ps := by
  cases ps with
  | nil => rfl
  | cons p ps =>
    generalize hqs : p :: ps = qs
    have hn : qs.map (fun p => ofText (writeParameter p)) ≠ [] := by simp [← hqs]
    have hparts : ∀ part ∈ qs.map (fun p => ofText (writeParameter p)), 0x26 ∉ part := by
      intro part hpart
      obtain ⟨q, _, rfl⟩ := List.mem_map.mp hpart
      exact not_mem_writeParameter
    have hkept : ∀ part ∈ qs.map (fun p => ofText (writeParameter p)), !part.isEmpty := by
      intro part hpart
      obtain ⟨q, _, rfl⟩ := List.mem_map.mp hpart
      simp [ofText_writeParameter]
    rw [read, ofText_write, Bytes.split_intercalate hn hparts, List.filter_eq_self.mpr hkept,
      List.map_map]
    exact List.map_id'' (fun q => readParameter_writeParameter) qs

-- A written query can stand in a target as it is.
theorem isQueryByte_of_mem_write (h : b ∈ ofText (write ps)) : Resource.isQueryByte b := by
  have hparameter (p : Parameter) (hp : b ∈ ofText (writeParameter p)) :
      Resource.isQueryByte b := by
    rw [ofText_writeParameter, List.mem_append, List.mem_cons] at hp
    rcases hp with hp | rfl | hp
    case inr.inl => rfl
    all_goals exact isQueryByte_of_isWritten (isWritten_of_mem_encode hp)
  rw [ofText_write] at h
  induction ps with
  | nil => simp at h
  | cons p ps hi =>
    cases ps with
    | nil => exact hparameter p (by simpa using h)
    | cons q ps =>
      simp only [List.map_cons, List.intercalate_cons_cons, List.mem_append,
        List.mem_singleton] at h hi
      rcases h with (h | rfl) | h
      case inl.inl => exact hparameter p h
      case inl.inr => rfl
      case inr => exact hi h

end Parameters

section Sorting

variable {ps qs : List Parameter} {p q : Parameter} {name value : String}

-- The values of a name, in order.
def values (ps : List Parameter) (name : String) : List String :=
  (ps.filter (·.1 = name)).map (·.2)

-- Parameters in the order of their names.
def IsOrdered (ps : List Parameter) : Prop := ps.Pairwise fun p q => (compare p.1 q.1).isLE

-- The parameters of a list in the order of their names, those of one name in the order in which
-- they were.
structure IsSorting (ps qs : List Parameter) : Prop where
  perm    : qs.Perm ps
  ordered : IsOrdered qs
  stable  : ∀ name, values qs name = values ps name

theorem values_cons : values (p :: ps) name =
    if p.1 = name then p.2 :: values ps name else values ps name := by
  by_cases h : p.1 = name <;> simp [values, h]

@[simp]
theorem values_nil : values [] name = [] := rfl

theorem mem_values_iff : value ∈ values ps name ↔ (name, value) ∈ ps := by
  simp [values]

theorem isLE_trans (p q r : Parameter) : (compare p.1 q.1).isLE → (compare q.1 r.1).isLE →
    (compare p.1 r.1).isLE := Std.TransCmp.isLE_trans

theorem isLE_total (p q : Parameter) : (compare p.1 q.1).isLE || (compare q.1 p.1).isLE := by
  have : compare q.1 p.1 = (compare p.1 q.1).swap := Std.OrientedCmp.eq_swap
  rw [this]
  cases compare p.1 q.1 <;> rfl

theorem isOrdered_sort : IsOrdered (sort ps) := List.pairwise_mergeSort isLE_trans isLE_total ps

-- Sorting does not mix up the values of a name.
theorem values_sort : values (sort ps) name = values ps name := by
  have hs : (ps.filter (·.1 = name)).Sublist (sort ps) := by
    refine List.sublist_mergeSort isLE_trans isLE_total ?_ List.filter_sublist
    refine List.pairwise_filter.mpr (List.pairwise_of_forall fun p q hp hq => ?_)
    rw [of_decide_eq_true hp, of_decide_eq_true hq]
    exact Std.ReflCmp.isLE_rfl
  have hf : ((ps.filter (·.1 = name)).filter (·.1 = name)).Sublist
      ((sort ps).filter (·.1 = name)) := hs.filter _
  have hl : (ps.filter (·.1 = name)).length = ((sort ps).filter (·.1 = name)).length :=
    ((List.mergeSort_perm ps _).filter _).length_eq.symm
  rw [List.filter_filter] at hf
  simp only [Bool.and_self] at hf
  rw [values, values, hf.eq_of_length hl]

theorem isSorting_sort : IsSorting ps (sort ps) where
  perm := List.mergeSort_perm ..
  ordered := isOrdered_sort
  stable _ := values_sort

namespace IsOrdered

-- No name comes before the first one.
theorem le_of_mem (h : IsOrdered (p :: ps)) (hq : q ∈ p :: ps) : (compare p.1 q.1).isLE := by
  rcases List.mem_cons.mp hq with rfl | hq
  case inl => exact Std.ReflCmp.isLE_rfl
  case inr => exact List.rel_of_pairwise_cons h hq

-- The first name is the first one of any other ordered list with the same names.
theorem le_of_values (hq : IsOrdered (q :: qs))
    (h : values (q :: qs) p.1 = p.2 :: values ps p.1) : (compare q.1 p.1).isLE := by
  have : p.2 ∈ values (q :: qs) p.1 := by simp [h]
  exact hq.le_of_mem (mem_values_iff.mp this)

-- Nothing but the values of each name tells ordered lists apart.
theorem eq (hp : IsOrdered ps) (hq : IsOrdered qs)
    (h : ∀ name, values ps name = values qs name) : ps = qs := by
  induction ps generalizing qs with
  | nil =>
    cases qs with
    | nil => rfl
    | cons q qs => simpa [values_cons] using h q.1
  | cons p ps hi =>
    cases qs with
    | nil => simpa [values_cons] using h p.1
    | cons q qs =>
      have hpq : (compare p.1 q.1).isLE := hp.le_of_values (by simpa [values_cons] using h q.1)
      have hqp : (compare q.1 p.1).isLE :=
        hq.le_of_values (by simpa [values_cons] using (h p.1).symm)
      have he : p.1 = q.1 :=
        Std.LawfulEqCmp.eq_of_compare (Std.OrientedCmp.isLE_antisymm hpq hqp)
      have hv : p.2 :: values ps p.1 = q.2 :: values qs p.1 := by
        simpa [values_cons, he] using h p.1
      have hpq : p = q := Prod.ext he (List.cons.inj hv).left
      subst hpq
      have ht : ps = qs := by
        refine hi hp.of_cons hq.of_cons fun name => ?_
        have := h name
        by_cases hn : p.1 = name <;> simpa [values_cons, hn] using this
      rw [ht]

end IsOrdered

theorem sort_eq_iff : sort ps = sort qs ↔ ∀ name, values ps name = values qs name := by
  constructor
  case mp =>
    intro h name
    rw [← values_sort, h, values_sort]
  case mpr =>
    intro h
    refine isOrdered_sort.eq isOrdered_sort fun name => ?_
    rw [values_sort, values_sort, h]

end Sorting

end OnceCache.Http.Form
