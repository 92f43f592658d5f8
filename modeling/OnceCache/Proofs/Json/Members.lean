import OnceCache.Proofs.Json.Skip

namespace OnceCache.Json

variable {α β σ : Type} {v front rest s t : Bytes}

-- What comes of two steps came of one and then the other.
theorem of_bind_eq_ok {x : Except Fault α} {f : α → Except Fault β} {b : β}
    (h : x >>= f = .ok b) : ∃ a, x = .ok a ∧ f a = .ok b := by
  cases x with
  | error => cases h
  | ok a => exact ⟨a, rfl, h⟩

-- A value is read as `a`, and to its end.
def Reads (read : Reader α) (v : Bytes) (a : α) : Prop :=
  ∀ ⦃front rest⦄, IsBlanks front → Delimits rest → read (front ++ (v ++ rest)) = .ok (a, rest)

-- A value can be read as `a` in some place.
def CanRead (read : Reader α) (v : Bytes) (a : α) : Prop :=
  ∃ front rest, read (front ++ (v ++ rest)) = .ok (a, rest)

-- Whatever value is read, it is read to its end and not further.
def Takes (read : Reader α) : Prop :=
  ∀ ⦃v front rest a s⦄, IsValue v → IsBlanks front → Delimits rest →
    read (front ++ (v ++ rest)) = .ok (a, s) → s = rest

section Values

variable {read : Reader α}

theorem Reads.map {a : α} (f : α → β) (h : Reads read v a) :
    Reads (fun s => do
      let (a, s) ← read s
      return (f a, s)) v (f a) := by
  intro front rest hf hr
  simp only [h hf hr]
  rfl

theorem Takes.map (f : α → β) (h : Takes read) :
    Takes fun s => do
      let (a, s) ← read s
      return (f a, s) := by
  intro v front rest b s hv hf hr hread
  obtain ⟨⟨a, t⟩, ha, hb⟩ := of_bind_eq_ok hread
  cases hb
  exact h hv hf hr ha

theorem reads_skip {a : α} (hv : IsValue v) : Reads (fun s => do return (a, ← skip s)) v a := by
  intro front rest hf hr
  simp only [hv.skip hf hr]
  rfl

theorem takes_skip {a : α} : Takes fun s => do return (a, ← skip s) := by
  intro v front rest a s hv hf hr h
  simp only [hv.skip hf hr] at h
  cases h
  rfl

theorem readNat_number {bound : Nat} {n : Numeral} (hv : Numeral.Written v n)
    (hf : IsBlanks front) :
    readNat bound (front ++ (v ++ rest)) = (do
      let (n, rest) ← Numeral.read (v ++ rest)
      match n.toNat? bound with
      | some n => .ok (n, rest)
      | none => .error .mismatched) := by
  obtain ⟨b, t, rfl, hb⟩ := hv.eq_cons
  rw [List.cons_append, readNat, skipBlanks_append_cons hf (not_isBlank_of_number hb)]
  exact if_pos hb

theorem reads_readNat {bound k : Nat} (hv : Numeral.IsDecimal v k) (hk : k < bound)
    (hb : bound ≤ UInt64.size) : Reads (readNat bound) v k := by
  intro front rest hf hr
  rw [readNat_number hv.written hf, Numeral.read_append hv (Nat.lt_of_lt_of_le hk hb) hr.ends]
  simp only [bind, Except.bind, Numeral.toNat?_of_lt hv hk]

theorem takes_readNat {bound : Nat} : Takes (readNat bound) := by
  intro v front rest a s hv hf hr h
  obtain ⟨b, hb⟩ := hv.starts
  by_cases hn : b = 0x2D ∨ Bytes.isDigit b
  case pos =>
    obtain ⟨n, hn⟩ := hb.number hn
    rw [readNat_number hn hf, Numeral.read, Numeral.scan_append hn hr.ends] at h
    simp only [bind, Except.bind] at h
    cases hin : n.inRange <;> simp only [hin, if_true] at h
    case false => cases h
    case true =>
      split at h <;> cases h
      rfl
  case neg =>
    obtain ⟨t, rfl⟩ := hb.text
    rw [List.cons_append, readNat, skipBlanks_append_cons hf hb.blank] at h
    simp only [if_neg hn] at h
    cases h

theorem reads_true : Reads readBool wordTrue true := by
  intro front rest hf _
  rw [wordTrue, List.cons_append, readBool, skipBlanks_append_cons hf rfl]
  rfl

theorem reads_false : Reads readBool wordFalse false := by
  intro front rest hf _
  rw [wordFalse, List.cons_append, readBool, skipBlanks_append_cons hf rfl]
  rfl

theorem takes_readBool : Takes readBool := by
  intro v front rest a s hv hf hr h
  obtain ⟨b, hb⟩ := hv.starts
  have hword : v = wordTrue ∨ v = wordFalse := by
    obtain ⟨t, rfl⟩ := hb.text
    rw [List.cons_append, readBool, skipBlanks_append_cons hf hb.blank] at h
    simp only at h
    split at h
    case isTrue ht => exact .inl (hb.wordTrue ht)
    case isFalse =>
      split at h
      case isTrue hf => exact .inr (hb.wordFalse hf)
      case isFalse => cases h
  rcases hword with rfl | rfl
  case inl =>
    rw [reads_true hf hr] at h
    cases h
    rfl
  case inr =>
    rw [reads_false hf hr] at h
    cases h
    rfl

end Values

-- From one state to another, one member after the other: each has a name and is taken, and its
-- value is read as the next state.
inductive Run (reads : Reader σ → Bytes → σ → Prop) (members : Members σ) :
    σ → List Member → σ → Prop
  | none {state} : Run reads members state [] state
  | some {state next out name readValue m ms} : Text.Spells m.spelling name →
    members name state = .ok readValue → reads readValue m.element.value next →
    Run reads members next ms out → Run reads members state (m :: ms) out

section Objects

variable {members : Members σ} {fuel : Nat} {isFirst : Bool} {state start out : σ}
variable {m : Member} {ms : List Member} {name inside : Bytes} {readValue : Reader σ}

theorem readMembers_blanks {blanks : Bytes} (h : IsBlanks blanks) :
    readMembers members fuel isFirst state (blanks ++ s) =
      readMembers members fuel isFirst state s := by
  cases fuel
  case zero => rfl
  case succ => simp only [readMembers, skipBlanks_append h]

theorem readMembers_text (hm : m.IsSpaced) :
    readMembers members (fuel + 1) true state (m.text ++ rest) = (do
      let (name, s) ← Text.read (m.spelling ++ 0x22 :: (m.back ++ 0x3A :: (m.element.text ++ rest)))
      let readValue ← members name state
      let s ← readColon s
      let (state, s) ← readValue s
      readMembers members fuel false state s) := by
  simp only [Member.text, List.append_assoc, List.cons_append]
  rw [readMembers, skipBlanks_append_cons hm.front rfl]
  rfl

-- A comma leads to a next member.
theorem readMembers_comma (hm : m.IsSpaced) :
    readMembers members (fuel + 1) false state (0x2C :: (m.text ++ rest)) =
      readMembers members (fuel + 1) true state (m.text ++ rest) := by
  rw [readMembers_text hm]
  simp only [Member.text, List.append_assoc, List.cons_append]
  rw [readMembers, skipBlanks_cons rfl]
  simp [bind, Except.bind, skipBlanks_append_cons hm.front (b := 0x22) rfl]

-- A member has a quote at least, so that fuel is left after it.
theorem fuel_of_text (h : m.text.length + 1 ≤ fuel) : ∃ k, fuel = k + 2 := by
  simp only [Member.text, List.length_append, List.length_cons] at h
  exact ⟨fuel - 2, by omega⟩

theorem readMembers_of_reads (hm : m.IsSpaced) (hr : Delimits rest)
    (hname : Text.Spells m.spelling name) (hmember : members name state = .ok readValue)
    (hvalue : Reads readValue m.element.value out) :
    readMembers members (fuel + 1) true state (m.text ++ rest) =
      readMembers members fuel false out rest := by
  have hread := hvalue hm.element.front (delimits_append hm.element.back hr)
  rw [readMembers_text hm, hname.read]
  simp only [bind, Except.bind, hmember, readColon_append hm.back, Element.text, List.append_assoc,
    hread, readMembers_blanks hm.element.back]

-- The members of a run are read to the closing brace.
theorem Run.readMembers (hspaced : ∀ x ∈ m :: ms, x.IsSpaced)
    (hrun : Run Reads members state (m :: ms) out)
    (hfuel : (m.text ++ (ms.map Member.text).flatMap (0x2C :: ·)).length + 1 ≤ fuel) :
    readMembers members fuel true state
        (m.text ++ (ms.map Member.text).flatMap (0x2C :: ·) ++ 0x7D :: rest) = .ok (out, rest) := by
  induction ms generalizing m fuel state with
  | nil =>
    cases hrun with
    | some hname hmember hvalue hrun =>
      cases hrun
      simp only [List.map_nil, List.flatMap_nil, List.append_nil] at hfuel ⊢
      obtain ⟨fuel, rfl⟩ := fuel_of_text hfuel
      rw [readMembers_of_reads (hspaced m (by simp)) (delimits_cons (by decide)) hname hmember
        hvalue, readMembers_close]
  | cons x ms hi =>
    cases hrun with
    | some hname hmember hvalue hrun =>
      simp only [List.map_cons, List.flatMap_cons, List.append_assoc, List.cons_append,
        List.length_append, List.length_cons] at hfuel hi ⊢
      have hlen : m.text.length + 1 ≤ fuel := by omega
      obtain ⟨fuel, rfl⟩ := fuel_of_text hlen
      rw [readMembers_of_reads (hspaced m (by simp)) (delimits_cons (by decide)) hname hmember
        hvalue, readMembers_comma (hspaced x (by simp))]
      exact hi (fun y hy => hspaced y (List.mem_cons_of_mem m hy)) hrun (by omega)

theorem Run.readObject (hv : IsObject ms (0x7B :: t)) (hrun : Run Reads members start ms out) :
    readObject members start (t ++ rest) = .ok (out, rest) := by
  obtain ⟨hspaced, inside, hjoin, ht⟩ := hv
  obtain rfl := (List.cons.inj ht).right
  simp only [Json.readObject, List.append_assoc, List.singleton_append, List.length_append]
  cases ms with
  | nil =>
    cases hrun
    cases hjoin with
    | none hblanks =>
      rw [readMembers_blanks hblanks]
      exact readMembers_close
  | cons m ms =>
    cases hjoin
    exact hrun.readMembers hspaced (by simp only [List.length_append]; omega)

-- A member that is read has a name, is taken, and its value is read to the end.
theorem readMembers_text_eq_ok (hm : m.IsSpaced) (hw : m.IsWellFormed) (hr : Delimits rest)
    (htakes : ∀ {name state readValue}, members name state = .ok readValue → Takes readValue)
    (h : readMembers members (fuel + 1) true state (m.text ++ rest) = .ok (out, s)) :
    ∃ name readValue next, Text.Spells m.spelling name ∧ members name state = .ok readValue ∧
      CanRead readValue m.element.value next ∧
      readMembers members fuel false next rest = .ok (out, s) := by
  rw [readMembers_text hm] at h
  obtain ⟨⟨name, s'⟩, hname, h⟩ := of_bind_eq_ok h
  obtain ⟨rfl, hspells⟩ := hw.spelling.rest_of_read hname
  obtain ⟨readValue, hmember, h⟩ := of_bind_eq_ok h
  obtain ⟨t, hcolon, h⟩ := of_bind_eq_ok h
  obtain rfl := Except.ok.inj ((readColon_append hm.back).symm.trans hcolon)
  simp only [Element.text, List.append_assoc] at h
  obtain ⟨⟨next, s'⟩, hvalue, h⟩ := of_bind_eq_ok h
  obtain rfl := htakes hmember hw.value hm.element.front (delimits_append hm.element.back hr) hvalue
  simp only [readMembers_blanks hm.element.back] at h
  exact ⟨name, readValue, next, hspells, hmember, ⟨_, _, hvalue⟩, h⟩

-- An object that is read is read by a run to its closing brace.
theorem run_of_readMembers (hspaced : ∀ x ∈ m :: ms, x.IsSpaced)
    (hformed : ∀ x ∈ m :: ms, x.IsWellFormed)
    (htakes : ∀ {name state readValue}, members name state = .ok readValue → Takes readValue)
    (h : readMembers members fuel true state
      (m.text ++ (ms.map Member.text).flatMap (0x2C :: ·) ++ 0x7D :: rest) = .ok (out, s)) :
    s = rest ∧ Run CanRead members state (m :: ms) out := by
  have hm : m ∈ m :: ms := by simp
  induction ms generalizing m fuel state with
  | nil =>
    simp only [List.map_nil, List.flatMap_nil, List.append_nil] at h
    cases fuel
    case zero => cases h
    case succ fuel =>
      obtain ⟨name, readValue, next, hname, hmember, hvalue, h⟩ :=
        readMembers_text_eq_ok (hspaced m hm) (hformed m hm) (delimits_cons (by decide)) htakes h
      cases fuel
      case zero => cases h
      case succ =>
        rw [readMembers_close] at h
        cases h
        exact ⟨rfl, .some hname hmember hvalue .none⟩
  | cons x ms hi =>
    simp only [List.map_cons, List.flatMap_cons, List.append_assoc, List.cons_append] at h hi
    cases fuel
    case zero => cases h
    case succ fuel =>
      obtain ⟨name, readValue, next, hname, hmember, hvalue, h⟩ :=
        readMembers_text_eq_ok (hspaced m hm) (hformed m hm) (delimits_cons (by decide)) htakes h
      cases fuel
      case zero => cases h
      case succ fuel =>
        rw [readMembers_comma (hspaced x (by simp))] at h
        have ⟨hs, hrun⟩ := hi (fun y hy => hspaced y (List.mem_cons_of_mem m hy))
          (fun y hy => hformed y (List.mem_cons_of_mem m hy)) h (by simp)
        exact ⟨hs, .some hname hmember hvalue hrun⟩

theorem run_of_readObject (hv : IsObject ms (0x7B :: t)) (hformed : ∀ m ∈ ms, m.IsWellFormed)
    (htakes : ∀ {name state readValue}, members name state = .ok readValue → Takes readValue)
    (h : readObject members start (t ++ rest) = .ok (out, s)) :
    s = rest ∧ Run CanRead members start ms out := by
  obtain ⟨hspaced, inside, hjoin, ht⟩ := hv
  obtain rfl := (List.cons.inj ht).right
  simp only [Json.readObject, List.append_assoc, List.singleton_append] at h
  cases ms with
  | nil =>
    cases hjoin with
    | none hblanks =>
      rw [readMembers_blanks hblanks, readMembers_close] at h
      cases h
      exact ⟨rfl, .none⟩
  | cons m ms =>
    cases hjoin
    exact run_of_readMembers hspaced hformed htakes h

end Objects

section Lists

variable {read asObject asList : Reader α} {isFirst : Bool} {next : Option α} {blanks : Bytes}
variable {e : Element} {es : List Element}

-- What follows an element of a list: the others, the closing bracket, and the rest.
def listTail (es : List Element) (rest : Bytes) : Bytes :=
  (es.map Element.text).flatMap (0x2C :: ·) ++ 0x5D :: rest

theorem listTail_cons : listTail (e :: es) rest = 0x2C :: (e.text ++ listTail es rest) := by
  simp [listTail]

theorem delimits_listTail : Delimits (listTail es rest) := by
  cases es
  case nil => exact delimits_cons (.inr (.inl rfl))
  case cons => exact delimits_cons (.inl rfl)

theorem IsList.append_nil (hv : IsList [] (0x5B :: t)) :
    ∃ blanks, IsBlanks blanks ∧ t ++ rest = blanks ++ listTail [] rest := by
  obtain ⟨_, inside, hjoin, ht⟩ := hv
  obtain rfl := (List.cons.inj ht).right
  cases hjoin with
  | none hblanks => exact ⟨inside, hblanks, by simp [listTail]⟩

theorem IsList.append_cons (hv : IsList (e :: es) (0x5B :: t)) :
    t ++ rest = e.text ++ listTail es rest := by
  obtain ⟨_, inside, hjoin, ht⟩ := hv
  obtain rfl := (List.cons.inj ht).right
  cases hjoin
  simp [listTail]

theorem readElement_close (h : IsBlanks blanks) :
    readElement read isFirst (blanks ++ listTail [] rest) = .ok (none, 0x5D :: rest) := by
  change readElement read isFirst (blanks ++ 0x5D :: rest) = _
  rw [readElement, skipBlanks_append_cons h rfl]
  rfl

theorem readElement_first (he : e.IsSpaced) (hv : IsValue e.value) :
    readElement read true (e.text ++ rest) = (do
      let (a, s) ← read (e.value ++ (e.back ++ rest))
      return (some a, s)) := by
  obtain ⟨b, hb⟩ := hv.starts
  obtain ⟨t, ht⟩ := hb.text
  simp only [Element.text, ht, List.append_assoc, List.cons_append]
  rw [readElement, skipBlanks_append_cons he.front hb.blank]
  split
  case h_1 h => cases h
  case h_2 h => exact absurd (List.cons.inj h).left hb.close
  case h_3 h =>
    cases h
    rfl

-- A comma leads to a next element.
theorem readElement_comma (h : IsBlanks blanks) (he : e.IsSpaced) (hv : IsValue e.value) :
    readElement read false (blanks ++ 0x2C :: (e.text ++ rest)) =
      readElement read true (e.text ++ rest) := by
  rw [readElement_first he hv]
  obtain ⟨b, hb⟩ := hv.starts
  obtain ⟨t, ht⟩ := hb.text
  simp only [Element.text, ht, List.append_assoc, List.cons_append]
  rw [readElement, skipBlanks_append_cons h rfl]
  simp [bind, Except.bind, skipBlanks_append_cons he.front hb.blank, hb.close]

-- What is read of a list is its first element, to the end.
theorem readElement_eq_ok (hread : Takes read) (he : e.IsSpaced) (hv : IsValue e.value)
    (h : readElement read true (e.text ++ listTail es rest) = .ok (next, s)) :
    next.isSome ∧ s = e.back ++ listTail es rest := by
  rw [readElement_first he hv] at h
  obtain ⟨⟨a, t⟩, ha, hb⟩ := of_bind_eq_ok h
  cases hb
  exact ⟨rfl, hread hv isBlanks_nil (delimits_append he.back delimits_listTail) ha⟩

theorem closeList_eq_ok (hb : IsBlanks blanks)
    (h : closeList (blanks ++ listTail es rest) = .ok s) : s = rest := by
  cases es
  case nil =>
    change closeList (blanks ++ 0x5D :: rest) = _ at h
    rw [closeList, skipBlanks_append_cons hb rfl] at h
    cases h
    rfl
  case cons =>
    rw [listTail_cons, closeList, skipBlanks_append_cons hb rfl] at h
    cases h

theorem readRecord_object (hf : IsBlanks front) :
    readRecord asObject asList (front ++ 0x7B :: s) = asObject s := by
  rw [readRecord, skipBlanks_append_cons hf rfl]
  rfl

theorem takes_readRecord
    (hobject : ∀ {ms t rest a s}, IsObject ms (0x7B :: t) → (∀ m ∈ ms, m.IsWellFormed) →
      asObject (t ++ rest) = .ok (a, s) → s = rest)
    (hlist : ∀ {es t rest a s}, IsList es (0x5B :: t) → (∀ e ∈ es, IsValue e.value) →
      asList (t ++ rest) = .ok (a, s) → s = rest) : Takes (readRecord asObject asList) := by
  intro v front rest a s hv hf hr h
  obtain ⟨b, hb⟩ := hv.starts
  obtain ⟨t, rfl⟩ := hb.text
  rw [List.cons_append, readRecord, skipBlanks_append_cons hf hb.blank] at h
  split at h
  case h_1 => cases h
  case h_2 heq =>
    cases heq
    obtain ⟨ms, hms, hformed⟩ := hb.object rfl
    exact hobject hms hformed h
  case h_3 heq =>
    cases heq
    obtain ⟨es, hes, hv⟩ := hb.list rfl
    exact hlist hes hv h
  case h_4 => cases h

end Lists

end OnceCache.Json
