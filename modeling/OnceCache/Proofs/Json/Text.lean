import OnceCache.Json.Value
import OnceCache.Proofs.Text.Bytes

namespace OnceCache.Json

namespace Text

open Bytes (ofText)

variable {b : UInt8} {c : Char} {s rest : Bytes}

-- The bytes that stand for themselves between quotes.
def IsPlain (b : UInt8) : Prop := b ≠ 0x22 ∧ b ≠ 0x5C ∧ 0x20 ≤ b

@[simp]
theorem prepend_nil {r : Except Fault (Bytes × Bytes)} : prepend [] r = r := by
  cases r <;> rfl

theorem prepend_prepend {a b : Bytes} {r : Except Fault (Bytes × Bytes)} :
    prepend a (prepend b r) = prepend (a ++ b) r := by
  cases r <;> simp [prepend]

theorem read_cons (h : IsPlain b) : read (b :: s) = prepend [b] (read s) := by
  obtain ⟨hq, he, hb⟩ := h
  rw [read, if_neg (UInt8.not_lt.mpr hb)]
  case x_1 => exact hq
  case x_2 => exact he

theorem read_append (h : ∀ b ∈ s, IsPlain b) : read (s ++ rest) = prepend s (read rest) := by
  induction s with
  | nil => simp
  | cons b s hi =>
    have hb : IsPlain b := h b (by simp)
    have hs : ∀ b ∈ s, IsPlain b := fun b hb => h b (by simp [hb])
    rw [List.cons_append, read_cons hb, hi hs, prepend_prepend, List.singleton_append]

-- A character of ASCII is one byte, and the bytes of any other are not in ASCII.
theorem mem_utf8EncodeChar (h : b ∈ String.utf8EncodeChar c) :
    c.toNat < 0x80 ∧ b.toNat = c.toNat ∨ 0x80 ≤ b.toNat := by
  have hc : c.val.toNat = c.toNat := rfl
  simp only [String.utf8EncodeChar, hc] at h
  split at h
  case isTrue =>
    obtain rfl := List.mem_singleton.mp h
    simp
    omega
  case isFalse =>
    right
    (repeat' split at h) <;> simp only [List.mem_cons, List.not_mem_nil, or_false] at h <;>
      rcases h with rfl | rfl | rfl | rfl <;> simp <;> omega

-- Whatever needs no escape is read as it stands.
theorem isPlain_of_mem_utf8EncodeChar (hq : c ≠ '"') (he : c ≠ '\\') (hc : 0x20 ≤ c.toNat)
    (h : b ∈ String.utf8EncodeChar c) : IsPlain b := by
  have hq : c.toNat ≠ 0x22 := fun h => hq (Char.toNat_inj.mp h)
  have he : c.toNat ≠ 0x5C := fun h => he (Char.toNat_inj.mp h)
  have hb := mem_utf8EncodeChar h
  refine ⟨?_, ?_, UInt8.le_iff_toNat_le.mpr ?_⟩
  case refine_3 =>
    simp only [UInt8.reduceToNat]
    omega
  all_goals
    rintro rfl
    simp at hb
    omega

-- A control character has an escape with the digits of its number.
theorem read_control {n : Nat} (hn : n < 0x20) :
    read (ofText ("\\u00" ++ String.ofList [Nat.digitChar (n / 16), Nat.digitChar (n % 16)]) ++
      rest) = prepend (utf8 n) (read rest) := by
  have hall : ∀ m : Fin 32,
      let x := UInt8.ofNat (Nat.digitChar (m.val / 16)).toNat
      let y := UInt8.ofNat (Nat.digitChar (m.val % 16)).toNat
      ofText (String.ofList [Nat.digitChar (m.val / 16), Nat.digitChar (m.val % 16)]) = [x, y] ∧
        hex4? 0x30 0x30 x y = some m.val := by decide
  have ⟨hs, hh⟩ := hall ⟨n, hn⟩
  have hu : ofText "\\u00" = [0x5C, 0x75, 0x30, 0x30] := rfl
  have hlow : isLowSurrogate n = false := by
    simp [isLowSurrogate]
    omega
  have hhigh : isHighSurrogate n = false := by
    simp [isHighSurrogate]
    omega
  rw [Bytes.ofText_append, hu, hs]
  simp [read, hh, hlow, hhigh]

-- What a character is written as is read as that character.
theorem read_char :
    read (ofText (char c) ++ rest) = prepend (String.utf8EncodeChar c) (read rest) := by
  by_cases hq : c = '"'
  case pos => subst hq; rfl
  by_cases he : c = '\\'
  case pos => subst he; rfl
  by_cases hb : c.toNat = 0x08
  case pos => obtain rfl : c = Char.ofNat 0x08 := Char.toNat_inj.mp hb; rfl
  by_cases hf : c.toNat = 0x0C
  case pos => obtain rfl : c = Char.ofNat 0x0C := Char.toNat_inj.mp hf; rfl
  by_cases hn : c = '\n'
  case pos => subst hn; rfl
  by_cases hr : c = '\r'
  case pos => subst hr; rfl
  by_cases ht : c = '\t'
  case pos => subst ht; rfl
  simp only [char, hq, he, hb, hf, hn, hr, ht, if_false]
  split
  case isTrue hc =>
    rw [read_control hc, utf8, Char.ofNat_toNat]
  case isFalse hc =>
    have hs : ofText c.toString = String.utf8EncodeChar c := by simp [Bytes.ofText_eq]
    rw [hs]
    exact read_append fun b => isPlain_of_mem_utf8EncodeChar hq he (Nat.le_of_not_lt hc)

theorem read_chars {l : List Char} :
    read (l.flatMap (fun c => ofText (char c)) ++ rest) =
      prepend (l.flatMap String.utf8EncodeChar) (read rest) := by
  induction l with
  | nil => simp
  | cons c l hi => simp [read_char, hi, prepend_prepend]

-- Reading stops at the closing quote, and gives the text that was written.
theorem read_write (s : String) : ∃ inside, ofText (write s) = 0x22 :: inside ∧
    ∀ rest, read (inside ++ rest) = .ok (ofText s, rest) := by
  refine ⟨s.toList.flatMap (fun c => ofText (char c)) ++ [0x22], ?_, ?_⟩
  case refine_1 =>
    have hq : ofText "\"" = [0x22] := rfl
    simp [write, hq, Bytes.ofText_join, List.flatMap_map]
  case refine_2 =>
    intro rest
    rw [List.append_assoc, read_chars, Bytes.ofText_eq]
    simp [read, prepend]

end Text

open Bytes (ofText)

def readText : Reader Bytes := fun s =>
  match skipBlanks s with
  | 0x22 :: s => Text.read s
  | s => .error (faultOf s)

-- Reads an object of texts, with its members in order.
def readTexts : Reader (List (Bytes × Bytes)) :=
  let members : Members (List (Bytes × Bytes)) := fun name read => .ok fun s => do
    let (text, s) ← readText s
    return (read ++ [(name, text)], s)
  readRecord (readObject members []) fun _ => .error .mismatched

theorem skipBlanks_cons {b : UInt8} {s : Bytes} (h : isBlank b = false) :
    skipBlanks (b :: s) = b :: s := by
  simp [skipBlanks, h]

section Members

variable {σ : Type} {members : Members σ} {fuel : Nat} {isFirst : Bool} {state state' : σ}
variable {name s t rest : Bytes} {readValue : Reader σ}

theorem readMembers_close :
    readMembers members (fuel + 1) isFirst state (0x7D :: rest) = .ok (state, rest) := by
  rw [readMembers, skipBlanks_cons rfl]
  rfl

-- The first member is read, and then the others.
theorem readMembers_first (hname : Text.read s = .ok (name, 0x3A :: t))
    (hmember : members name state = .ok readValue) (hvalue : readValue t = .ok (state', rest)) :
    readMembers members (fuel + 1) true state (0x22 :: s) =
      readMembers members fuel false state' rest := by
  have hcolon : readColon (0x3A :: t) = .ok t := by
    rw [readColon, skipBlanks_cons rfl]
    rfl
  rw [readMembers, skipBlanks_cons rfl]
  simp [bind, Except.bind, hname, hmember, hcolon, hvalue]

end Members

theorem readText_cons {s : Bytes} : readText (0x22 :: s) = Text.read s := by
  rw [readText, skipBlanks_cons rfl]
  rfl

-- An object with one member is read as that member and nothing else.
theorem readAll_readTexts (name value : String) :
    readAll readTexts
        (ofText ("\x7b" ++ Text.write name ++ ":" ++ Text.write value ++ "\x7d")) =
      .ok [(ofText name, ofText value)] := by
  have ⟨x, hx, hname⟩ := Text.read_write name
  have ⟨y, hy, hvalue⟩ := Text.read_write value
  have hopen : ofText "\x7b" = [0x7B] := rfl
  have hcolon : ofText ":" = [0x3A] := rfl
  have hclose : ofText "\x7d" = [0x7D] := rfl
  have hs : ofText ("\x7b" ++ Text.write name ++ ":" ++ Text.write value ++ "\x7d") =
      0x7B :: 0x22 :: (x ++ 0x3A :: 0x22 :: (y ++ [0x7D])) := by
    simp [hopen, hcolon, hclose, hx, hy]
  have hread : readTexts (0x7B :: 0x22 :: (x ++ 0x3A :: 0x22 :: (y ++ [0x7D]))) =
      .ok ([(ofText name, ofText value)], []) := by
    rw [readTexts, readRecord, skipBlanks_cons rfl]
    simp only [readObject, List.length_cons]
    rw [readMembers_first (hname _) rfl (by rw [readText_cons, hvalue]; rfl), readMembers_close]
    rfl
  rw [hs, readAll, hread]
  rfl

end OnceCache.Json
