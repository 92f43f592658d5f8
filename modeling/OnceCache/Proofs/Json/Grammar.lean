import OnceCache.Proofs.Json.Numeral
import OnceCache.Proofs.Json.Spelling

namespace OnceCache.Json

def IsBlanks (s : Bytes) : Prop := ∀ b ∈ s, isBlank b

theorem isBlanks_nil : IsBlanks [] := fun _ h => absurd h List.not_mem_nil

-- What can follow a value.
def Delimits (rest : Bytes) : Prop :=
  ∀ b ∈ rest.head?, isBlank b ∨ b = 0x2C ∨ b = 0x5D ∨ b = 0x7D

-- A value and the blanks around it.
structure Element where
  front : Bytes
  value : Bytes
  back : Bytes

-- A name between quotes, the blanks around it, and the element after the colon.
structure Member where
  front : Bytes
  spelling : Bytes
  back : Bytes
  element : Element

namespace Element

structure IsSpaced (e : Element) : Prop where
  front : IsBlanks e.front
  back : IsBlanks e.back

def text (e : Element) : Bytes := e.front ++ (e.value ++ e.back)

end Element

namespace Member

structure IsSpaced (m : Member) : Prop where
  front : IsBlanks m.front
  back : IsBlanks m.back
  element : m.element.IsSpaced

def text (m : Member) : Bytes :=
  m.front ++ 0x22 :: (m.spelling ++ 0x22 :: (m.back ++ 0x3A :: m.element.text))

-- A member without blanks, whose name stands for itself.
def bare (name value : Bytes) : Member := ⟨[], name, [], ⟨[], value, []⟩⟩

@[simp]
theorem text_bare {name value : Bytes} :
    (bare name value).text = 0x22 :: (name ++ 0x22 :: 0x3A :: value) := by
  simp [bare, text, Element.text]

theorem isSpaced_bare {name value : Bytes} : (bare name value).IsSpaced :=
  ⟨isBlanks_nil, isBlanks_nil, isBlanks_nil, isBlanks_nil⟩

end Member

-- Texts with commas between them, or blanks in their place.
inductive Joined : List Bytes → Bytes → Prop
  | none {s} : IsBlanks s → Joined [] s
  | some {t ts} : Joined (t :: ts) (t ++ ts.flatMap (0x2C :: ·))

theorem joined_intercalate {t : Bytes} {ts : List Bytes} :
    Joined (t :: ts) ([0x2C].intercalate (t :: ts)) := by
  have h : [0x2C].intercalate (t :: ts) = t ++ ts.flatMap (0x2C :: ·) := by
    induction ts generalizing t with
    | nil => simp
    | cons u ts hi => rw [List.intercalate_cons_cons, hi, List.append_assoc]; rfl
  exact h ▸ .some

-- A list of elements in its brackets.
structure IsList (es : List Element) (v : Bytes) : Prop where
  spaced : ∀ e ∈ es, e.IsSpaced
  text : ∃ inside, Joined (es.map Element.text) inside ∧ v = 0x5B :: (inside ++ [0x5D])

-- An object of members in its braces.
structure IsObject (ms : List Member) (v : Bytes) : Prop where
  spaced : ∀ m ∈ ms, m.IsSpaced
  text : ∃ inside, Joined (ms.map Member.text) inside ∧ v = 0x7B :: (inside ++ [0x7D])

inductive IsValue : Bytes → Prop
  | word {v} : v = wordNull ∨ v = wordTrue ∨ v = wordFalse → IsValue v
  | number {v n} : Numeral.Written v n → IsValue v
  | text {s} : Text.IsSpelling s → IsValue (0x22 :: (s ++ [0x22]))
  | list {es v} : IsList es v → (∀ e ∈ es, IsValue e.value) → IsValue v
  | object {ms v} : IsObject ms v → (∀ m ∈ ms, Text.IsSpelling m.spelling) →
    (∀ m ∈ ms, IsValue m.element.value) → IsValue v

structure Member.IsWellFormed (m : Member) : Prop where
  spelling : Text.IsSpelling m.spelling
  value : IsValue m.element.value

-- What the first byte of a value says of the value.
structure Starts (b : UInt8) (v : Bytes) : Prop where
  text : ∃ t, v = b :: t
  blank : isBlank b = false
  close : b ≠ 0x5D
  number : b = 0x2D ∨ Bytes.isDigit b → ∃ n, Numeral.Written v n
  wordTrue : b = 0x74 → v = wordTrue
  wordFalse : b = 0x66 → v = wordFalse
  list : b = 0x5B → ∃ es, IsList es v ∧ ∀ e ∈ es, IsValue e.value
  object : b = 0x7B → ∃ ms, IsObject ms v ∧ ∀ m ∈ ms, m.IsWellFormed

theorem isObject_intercalate {ms : List Member} (hms : ms ≠ []) (hs : ∀ m ∈ ms, m.IsSpaced) :
    IsObject ms (0x7B :: ([0x2C].intercalate (ms.map Member.text) ++ [0x7D])) := by
  cases ms with
  | nil => exact absurd rfl hms
  | cons m ms => exact ⟨hs, _, joined_intercalate, rfl⟩

theorem IsObject.eq_cons {ms : List Member} {v : Bytes} (h : IsObject ms v) :
    ∃ t, v = 0x7B :: t := by
  obtain ⟨_, _, rfl⟩ := h.text
  exact ⟨_, rfl⟩

section Blanks

variable {blanks s rest : Bytes}

theorem skipBlanks_append (h : IsBlanks blanks) : skipBlanks (blanks ++ s) = skipBlanks s :=
  List.dropWhile_append_of_pos h

theorem skipBlanks_append_cons (h : IsBlanks blanks) {b : UInt8} (hb : isBlank b = false) :
    skipBlanks (blanks ++ b :: s) = b :: s := by
  rw [skipBlanks_append h, skipBlanks_cons hb]

theorem readColon_append (h : IsBlanks blanks) : readColon (blanks ++ 0x3A :: s) = .ok s := by
  rw [readColon, skipBlanks_append_cons h rfl]
  rfl

theorem delimits_cons {b : UInt8} (h : b = 0x2C ∨ b = 0x5D ∨ b = 0x7D) : Delimits (b :: s) := by
  intro c hc
  obtain rfl : b = c := Option.some.inj hc
  exact .inr h

theorem delimits_append (h : IsBlanks blanks) (hr : Delimits rest) : Delimits (blanks ++ rest) := by
  cases blanks
  case nil => exact hr
  case cons b blanks =>
    intro c hc
    obtain rfl : b = c := Option.some.inj hc
    exact .inl (h b (by simp))

-- What follows a value ends a numeral.
theorem Delimits.ends (h : Delimits rest) : Numeral.Ends rest := by
  intro b hb
  rcases h b hb with hb | rfl | rfl | rfl
  case inl =>
    simp only [isBlank, Bool.or_eq_true, decide_eq_true_eq, or_assoc] at hb
    rcases hb with rfl | rfl | rfl | rfl <;> decide
  all_goals decide

end Blanks

theorem Numeral.Written.eq_cons {s : Bytes} {n : Numeral} (h : Written s n) :
    ∃ b t, s = b :: t ∧ (b = 0x2D ∨ Bytes.isDigit b) := by
  cases h
  case intro whole _ _ _ _ _ hs hw _ _ =>
    cases hs
    case absent =>
      obtain ⟨hn, hd⟩ := hw.left
      cases whole
      case nil => exact absurd rfl hn
      case cons b whole => exact ⟨b, _, rfl, .inr (hd b (by simp))⟩
    case minus => exact ⟨_, _, rfl, .inl rfl⟩

-- The byte that a number starts with starts nothing else.
theorem ne_of_number {b c : UInt8} (h : b = 0x2D ∨ Bytes.isDigit b)
    (hc : ¬(c = 0x2D ∨ Bytes.isDigit c)) : b ≠ c := by
  rintro rfl
  exact hc h

theorem not_isBlank_of_number {b : UInt8} (h : b = 0x2D ∨ Bytes.isDigit b) : isBlank b = false := by
  have hne : ∀ {c}, ¬(c = 0x2D ∨ Bytes.isDigit c) → b ≠ c := ne_of_number h
  simp only [isBlank, Bool.or_eq_false_iff, decide_eq_false_iff_not]
  exact ⟨⟨⟨hne (by decide), hne (by decide)⟩, hne (by decide)⟩, hne (by decide)⟩

theorem wordOf?_of_number {b : UInt8} (h : b = 0x2D ∨ Bytes.isDigit b) : wordOf? b = none := by
  have hne : ∀ {c}, ¬(c = 0x2D ∨ Bytes.isDigit c) → b ≠ c := ne_of_number h
  rw [wordOf?, if_neg (hne (by decide)), if_neg (hne (by decide)), if_neg (hne (by decide))]

theorem IsValue.starts {v : Bytes} (h : IsValue v) : ∃ b, Starts b v := by
  cases h with
  | word h =>
    rcases h with rfl | rfl | rfl
    all_goals exact ⟨_, ⟨_, rfl⟩, rfl, by decide, (absurd · (by decide)), by decide, by decide,
      (absurd · (by decide)), (absurd · (by decide))⟩
  | number h =>
    have ⟨b, t, hv, hb⟩ := h.eq_cons
    have hne : ∀ {c}, ¬(c = 0x2D ∨ Bytes.isDigit c) → b ≠ c := ne_of_number hb
    exact ⟨b, ⟨t, hv⟩, not_isBlank_of_number hb, hne (by decide), fun _ => ⟨_, h⟩,
      (absurd · (hne (by decide))), (absurd · (hne (by decide))), (absurd · (hne (by decide))),
      (absurd · (hne (by decide)))⟩
  | text =>
    exact ⟨_, ⟨_, rfl⟩, rfl, by decide, (absurd · (by decide)), (absurd · (by decide)),
      (absurd · (by decide)), (absurd · (by decide)), (absurd · (by decide))⟩
  | list h hs =>
    obtain ⟨_, _, rfl⟩ := h.text
    exact ⟨_, ⟨_, rfl⟩, rfl, by decide, (absurd · (by decide)), (absurd · (by decide)),
      (absurd · (by decide)), fun _ => ⟨_, h, hs⟩, (absurd · (by decide))⟩
  | object h hn hs =>
    obtain ⟨_, _, rfl⟩ := h.text
    exact ⟨_, ⟨_, rfl⟩, rfl, by decide, (absurd · (by decide)), (absurd · (by decide)),
      (absurd · (by decide)), (absurd · (by decide)),
      fun _ => ⟨_, h, fun m hm => ⟨hn m hm, hs m hm⟩⟩⟩

end OnceCache.Json
