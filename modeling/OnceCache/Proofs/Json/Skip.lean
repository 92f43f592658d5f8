import OnceCache.Proofs.Json.Grammar

namespace OnceCache.Json

variable {v s rest front : Bytes} {fuel : Nat} {e : Element} {es : List Element}
variable {m : Member} {ms : List Member}

-- A value that is skipped to its end and not further, whatever follows it. A step on a text leaves
-- at most one more step for the same text before it takes a byte away.
def Skips (v : Bytes) : Prop :=
  ∀ ⦃fuel front rest⦄, IsBlanks front → Delimits rest → 2 * v.length + 1 ≤ fuel →
    skipValue fuel (front ++ (v ++ rest)) = .ok rest

theorem skips_word (hv : v = wordNull ∨ v = wordTrue ∨ v = wordFalse) : Skips v := by
  intro fuel front rest hf _ hfuel
  cases fuel
  case zero => cases hfuel
  case succ =>
    rcases hv with rfl | rfl | rfl
    all_goals
      simp only [wordNull, wordTrue, wordFalse, List.cons_append]
      rw [skipValue, skipBlanks_append_cons hf rfl]
      rfl

theorem Numeral.Written.skips {n : Numeral} (hv : Written v n) : Skips v := by
  intro fuel front rest hf hr hfuel
  cases fuel
  case zero => cases hfuel
  case succ =>
    have hscan := scan_append hv hr.ends
    obtain ⟨b, t, rfl, hb⟩ := hv.eq_cons
    rw [List.cons_append] at hscan ⊢
    rw [skipValue, skipBlanks_append_cons hf (not_isBlank_of_number hb)]
    simp only [wordOf?_of_number hb, if_pos hb, Numeral.skip, hscan]

theorem skips_text (hv : Text.IsSpelling v) : Skips (0x22 :: (v ++ [0x22])) := by
  intro fuel front rest hf _ hfuel
  cases fuel
  case zero => cases hfuel
  case succ =>
    rw [List.cons_append, List.append_assoc, skipValue, skipBlanks_append_cons hf rfl]
    exact hv.skip

-- The next element is skipped, with the blanks around it.
theorem Skips.element (hv : Skips e.value) (he : e.IsSpaced) (hr : Delimits rest)
    (hfuel : 2 * e.text.length + 1 ≤ fuel) :
    skipValue fuel (e.text ++ rest) = .ok (e.back ++ rest) := by
  have hlen : 2 * e.value.length + 1 ≤ fuel := by
    simp only [Element.text, List.length_append] at hfuel
    omega
  simp only [Element.text, List.append_assoc]
  exact hv he.front (delimits_append he.back hr) hlen

theorem skipElements_comma (hv : Skips e.value) (he : e.IsSpaced)
    (hfuel : 2 * e.text.length + 1 ≤ fuel) :
    skipElements (fuel + 1) (e.text ++ 0x2C :: rest) = skipElements fuel rest := by
  rw [skipElements, hv.element he (delimits_cons (by decide)) hfuel]
  simp only [bind, Except.bind]
  rw [skipBlanks_append_cons he.back rfl]
  rfl

theorem skipElements_close (hv : Skips e.value) (he : e.IsSpaced)
    (hfuel : 2 * e.text.length + 1 ≤ fuel) :
    skipElements (fuel + 1) (e.text ++ 0x5D :: rest) = .ok rest := by
  rw [skipElements, hv.element he (delimits_cons (by decide)) hfuel]
  simp only [bind, Except.bind]
  rw [skipBlanks_append_cons he.back rfl]
  rfl

theorem skipMembers_comma (hv : Skips m.element.value) (hm : m.IsSpaced)
    (hs : Text.IsSpelling m.spelling) (hfuel : 2 * m.text.length + 1 ≤ fuel) :
    skipMembers (fuel + 1) (m.text ++ 0x2C :: rest) = skipMembers fuel rest := by
  have hlen : 2 * m.element.text.length + 1 ≤ fuel := by
    simp only [Member.text, List.length_append, List.length_cons] at hfuel
    omega
  have hvalue := hv.element hm.element (delimits_cons (s := rest) (.inl rfl)) hlen
  simp only [Member.text, List.append_assoc, List.cons_append]
  rw [skipMembers, skipBlanks_append_cons hm.front rfl]
  simp only [bind, Except.bind, hs.skip, readColon_append hm.back, hvalue]
  rw [skipBlanks_append_cons hm.element.back rfl]
  rfl

theorem skipMembers_close (hv : Skips m.element.value) (hm : m.IsSpaced)
    (hs : Text.IsSpelling m.spelling) (hfuel : 2 * m.text.length + 1 ≤ fuel) :
    skipMembers (fuel + 1) (m.text ++ 0x7D :: rest) = .ok rest := by
  have hlen : 2 * m.element.text.length + 1 ≤ fuel := by
    simp only [Member.text, List.length_append, List.length_cons] at hfuel
    omega
  have hvalue := hv.element hm.element (delimits_cons (s := rest) (.inr (.inr rfl))) hlen
  simp only [Member.text, List.append_assoc, List.cons_append]
  rw [skipMembers, skipBlanks_append_cons hm.front rfl]
  simp only [bind, Except.bind, hs.skip, readColon_append hm.back, hvalue]
  rw [skipBlanks_append_cons hm.element.back rfl]
  rfl

-- Texts are skipped one after the other, if each is, before a comma and before the end.
theorem skip_joined {items : Nat → Bytes → Except Fault Bytes} {close : UInt8} {t : Bytes}
    {ts : List Bytes}
    (hnext : ∀ x ∈ t :: ts, ∀ ⦃fuel rest⦄, 2 * x.length + 1 ≤ fuel →
      items (fuel + 1) (x ++ 0x2C :: rest) = items fuel rest)
    (hlast : ∀ x ∈ t :: ts, ∀ ⦃fuel rest⦄, 2 * x.length + 1 ≤ fuel →
      items (fuel + 1) (x ++ close :: rest) = .ok rest)
    (hfuel : 2 * (t ++ ts.flatMap (0x2C :: ·)).length + 2 ≤ fuel) :
    items fuel (t ++ ts.flatMap (0x2C :: ·) ++ close :: rest) = .ok rest := by
  induction ts generalizing t fuel with
  | nil =>
    cases fuel
    case zero => cases hfuel
    case succ fuel =>
      simp only [List.flatMap_nil, List.append_nil] at hfuel ⊢
      exact hlast t (by simp) (by omega)
  | cons u ts hi =>
    cases fuel
    case zero => cases hfuel
    case succ fuel =>
      simp only [List.flatMap_cons, List.append_assoc, List.cons_append, List.length_append,
        List.length_cons] at hfuel hi ⊢
      rw [hnext t (by simp) (by omega)]
      exact hi (fun x hx => hnext x (List.mem_cons_of_mem t hx))
        (fun x hx => hlast x (List.mem_cons_of_mem t hx)) (by omega)

theorem skipBlanks_skipBlanks : skipBlanks (skipBlanks s) = skipBlanks s := by
  induction s with
  | nil => rfl
  | cons b s hi =>
    cases hb : isBlank b
    case false => rw [skipBlanks_cons hb, skipBlanks_cons hb]
    case true =>
      have h : skipBlanks (b :: s) = skipBlanks s := List.dropWhile_cons_of_pos hb
      rw [h, hi]

theorem skipElements_skipBlanks : skipElements fuel (skipBlanks s) = skipElements fuel s := by
  rcases fuel with _ | _ | fuel
  case zero => rfl
  case succ.zero => rfl
  case succ.succ => simp only [skipElements, skipValue, skipBlanks_skipBlanks]

theorem skipMembers_skipBlanks : skipMembers fuel (skipBlanks s) = skipMembers fuel s := by
  cases fuel
  case zero => rfl
  case succ => simp only [skipMembers, skipBlanks_skipBlanks]

theorem skipElements_joined (hspaced : ∀ x ∈ e :: es, x.IsSpaced)
    (hskip : ∀ x ∈ e :: es, Skips x.value) {inside : Bytes}
    (hjoin : Joined ((e :: es).map Element.text) inside) (hfuel : 2 * inside.length + 2 ≤ fuel) :
    skipElements fuel (inside ++ 0x5D :: rest) = .ok rest := by
  have hnext : ∀ t ∈ (e :: es).map Element.text, ∀ ⦃fuel rest⦄, 2 * t.length + 1 ≤ fuel →
      skipElements (fuel + 1) (t ++ 0x2C :: rest) = skipElements fuel rest := by
    intro t ht fuel rest hf
    obtain ⟨x, hx, rfl⟩ := List.mem_map.mp ht
    exact skipElements_comma (hskip x hx) (hspaced x hx) hf
  have hlast : ∀ t ∈ (e :: es).map Element.text, ∀ ⦃fuel rest⦄, 2 * t.length + 1 ≤ fuel →
      skipElements (fuel + 1) (t ++ 0x5D :: rest) = .ok rest := by
    intro t ht fuel rest hf
    obtain ⟨x, hx, rfl⟩ := List.mem_map.mp ht
    exact skipElements_close (hskip x hx) (hspaced x hx) hf
  cases hjoin
  exact skip_joined hnext hlast hfuel

theorem skipMembers_joined (hspaced : ∀ x ∈ m :: ms, x.IsSpaced)
    (hnames : ∀ x ∈ m :: ms, Text.IsSpelling x.spelling)
    (hskip : ∀ x ∈ m :: ms, Skips x.element.value) {inside : Bytes}
    (hjoin : Joined ((m :: ms).map Member.text) inside) (hfuel : 2 * inside.length + 2 ≤ fuel) :
    skipMembers fuel (inside ++ 0x7D :: rest) = .ok rest := by
  have hnext : ∀ t ∈ (m :: ms).map Member.text, ∀ ⦃fuel rest⦄, 2 * t.length + 1 ≤ fuel →
      skipMembers (fuel + 1) (t ++ 0x2C :: rest) = skipMembers fuel rest := by
    intro t ht fuel rest hf
    obtain ⟨x, hx, rfl⟩ := List.mem_map.mp ht
    exact skipMembers_comma (hskip x hx) (hspaced x hx) (hnames x hx) hf
  have hlast : ∀ t ∈ (m :: ms).map Member.text, ∀ ⦃fuel rest⦄, 2 * t.length + 1 ≤ fuel →
      skipMembers (fuel + 1) (t ++ 0x7D :: rest) = .ok rest := by
    intro t ht fuel rest hf
    obtain ⟨x, hx, rfl⟩ := List.mem_map.mp ht
    exact skipMembers_close (hskip x hx) (hspaced x hx) (hnames x hx) hf
  cases hjoin
  exact skip_joined hnext hlast hfuel

-- The closing bracket ends a list without elements.
theorem skipValue_noElements (hf : IsBlanks front) (h : IsBlanks s) :
    skipValue (fuel + 1) (front ++ 0x5B :: (s ++ 0x5D :: rest)) = .ok rest := by
  rw [skipValue, skipBlanks_append_cons hf rfl]
  simp [wordOf?, Bytes.isDigit, skipBlanks_append_cons h (b := 0x5D) rfl]

theorem skipValue_elements (hf : IsBlanks front) (h : ∀ t, skipBlanks s ≠ 0x5D :: t) :
    skipValue (fuel + 1) (front ++ 0x5B :: s) = skipElements fuel s := by
  have hopen : skipValue (fuel + 1) (front ++ 0x5B :: s) = skipElements fuel (skipBlanks s) := by
    rw [skipValue, skipBlanks_append_cons hf rfl]
    simp [wordOf?, Bytes.isDigit]
  rw [hopen, skipElements_skipBlanks]

-- The closing brace ends an object without members.
theorem skipValue_noMembers (hf : IsBlanks front) (h : IsBlanks s) :
    skipValue (fuel + 1) (front ++ 0x7B :: (s ++ 0x7D :: rest)) = .ok rest := by
  rw [skipValue, skipBlanks_append_cons hf rfl]
  simp [wordOf?, Bytes.isDigit, skipBlanks_append_cons h (b := 0x7D) rfl]

theorem skipValue_members (hf : IsBlanks front) (h : ∀ t, skipBlanks s ≠ 0x7D :: t) :
    skipValue (fuel + 1) (front ++ 0x7B :: s) = skipMembers fuel s := by
  have hopen : skipValue (fuel + 1) (front ++ 0x7B :: s) = skipMembers fuel (skipBlanks s) := by
    rw [skipValue, skipBlanks_append_cons hf rfl]
    simp [wordOf?, Bytes.isDigit]
  rw [hopen, skipMembers_skipBlanks]

theorem IsList.skips (hv : IsList es v) (hs : ∀ e ∈ es, IsValue e.value)
    (hskip : ∀ e ∈ es, Skips e.value) : Skips v := by
  intro fuel front rest hf _ hfuel
  obtain ⟨hspaced, inside, hjoin, rfl⟩ := hv
  simp only [List.length_cons, List.length_append, List.length_nil] at hfuel
  obtain ⟨fuel, rfl⟩ : ∃ k, fuel = k + 1 := ⟨fuel - 1, by omega⟩
  rw [List.cons_append, List.append_assoc, List.singleton_append]
  cases es with
  | nil =>
    cases hjoin with
    | none hblanks => exact skipValue_noElements hf hblanks
  | cons e es =>
    -- No value starts with the closing bracket.
    have hopen : ∀ t, skipBlanks (inside ++ 0x5D :: rest) ≠ 0x5D :: t := by
      intro t h
      obtain ⟨b, hb⟩ := (hs e (by simp)).starts
      obtain ⟨u, he⟩ := hb.text
      cases hjoin
      simp only [Element.text, he, List.append_assoc, List.cons_append] at h
      rw [skipBlanks_append_cons (hspaced e (by simp)).front hb.blank] at h
      exact hb.close (List.cons.inj h).left
    rw [skipValue_elements hf hopen]
    exact skipElements_joined hspaced hskip hjoin (by omega)

theorem IsObject.skips (hv : IsObject ms v) (hnames : ∀ m ∈ ms, Text.IsSpelling m.spelling)
    (hskip : ∀ m ∈ ms, Skips m.element.value) : Skips v := by
  intro fuel front rest hf _ hfuel
  obtain ⟨hspaced, inside, hjoin, rfl⟩ := hv
  simp only [List.length_cons, List.length_append, List.length_nil] at hfuel
  obtain ⟨fuel, rfl⟩ : ∃ k, fuel = k + 1 := ⟨fuel - 1, by omega⟩
  rw [List.cons_append, List.append_assoc, List.singleton_append]
  cases ms with
  | nil =>
    cases hjoin with
    | none hblanks => exact skipValue_noMembers hf hblanks
  | cons m ms =>
    -- A member starts with a quote.
    have hopen : ∀ t, skipBlanks (inside ++ 0x7D :: rest) ≠ 0x7D :: t := by
      intro t h
      cases hjoin
      simp only [Member.text, List.append_assoc, List.cons_append] at h
      rw [skipBlanks_append_cons (hspaced m (by simp)).front rfl] at h
      cases h
    rw [skipValue_members hf hopen]
    exact skipMembers_joined hspaced hnames hskip hjoin (by omega)

theorem IsValue.skips (h : IsValue v) : Skips v := by
  induction h with
  | word hv => exact skips_word hv
  | number hv => exact hv.skips
  | text hv => exact skips_text hv
  | list hv hs hi => exact hv.skips hs hi
  | object hv hnames _ hi => exact hv.skips hnames hi

-- A value that is skipped on its own takes the fuel that its length gives.
theorem IsValue.skip (h : IsValue v) (hf : IsBlanks front) (hr : Delimits rest) :
    skip (front ++ (v ++ rest)) = .ok rest := by
  refine h.skips hf hr ?_
  simp only [List.length_append]
  omega

end OnceCache.Json
