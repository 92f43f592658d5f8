import OnceCache.Config.Document
import OnceCache.Proofs.Json.Members

namespace OnceCache.Duration

open Bytes (ofText)
open Json (Member IsObject Run Reads Takes)

variable {d : Duration} {v : Bytes}

-- Two members that hold the parts of a length of time.
structure HasParts (d : Duration) (secs nanos : Member) : Prop where
  secsName : Json.Text.Spells secs.spelling nameSecs
  secs : Json.Numeral.IsDecimal secs.element.value d.secs
  nanosName : Json.Text.Spells nanos.spelling nameNanos
  nanos : Json.Numeral.IsDecimal nanos.element.value d.subsecNanos

-- An object of both parts, in any order.
def IsWritten (d : Duration) (v : Bytes) : Prop :=
  ∃ secs nanos, d.HasParts secs nanos ∧ (IsObject [secs, nanos] v ∨ IsObject [nanos, secs] v)

theorem secs_lt : d.secs < UInt64.size :=
  Nat.div_lt_of_lt_mul (Nat.mul_comm .. ▸ d.bounded)

theorem subsecNanos_lt : d.subsecNanos < UInt32.size :=
  Nat.lt_trans (Nat.mod_lt _ (by decide)) (by decide)

-- Both orders of the parts lead to them.
theorem HasParts.run {secs nanos : Member} (h : d.HasParts secs nanos) {ms : List Member}
    (hms : ms = [secs, nanos] ∨ ms = [nanos, secs]) :
    Run Reads members {} ms { secs := some d.secs, nanos := some d.subsecNanos } := by
  have hsecs : Reads readSecs secs.element.value d.secs :=
    Json.reads_readNat h.secs secs_lt (Nat.le_refl _)
  have hnanos : Reads readNanos nanos.element.value d.subsecNanos :=
    Json.reads_readNat h.nanos subsecNanos_lt (by decide)
  have putSecs (p : Parts) := hsecs.map fun n => { p with secs := some n }
  have putNanos (p : Parts) := hnanos.map fun n => { p with nanos := some n }
  rcases hms with rfl | rfl
  case inl => exact .some h.secsName rfl (putSecs _) (.some h.nanosName rfl (putNanos _) .none)
  case inr => exact .some h.nanosName rfl (putNanos _) (.some h.secsName rfl (putSecs _) .none)

theorem toDuration_of_ofParts? {secs nanos : Nat} (h : ofParts? secs nanos = some d) :
    Parts.toDuration { secs := some secs, nanos := some nanos } = .ok d := by
  -- The sum of the parts is never to be computed here, so it is a sum of any kind.
  obtain ⟨add, hadd⟩ : ∃ add, add = ofParts? := ⟨_, rfl⟩
  rw [← hadd] at h
  rw [Parts.toDuration, ← hadd]
  simp only [h]

theorem isWritten_toJson : d.IsWritten (ofText d.toJson) := by
  let secs : Member := .bare nameSecs (ofText (toString d.secs))
  let nanos : Member := .bare nameNanos (ofText (toString d.subsecNanos))
  have hopen : ofText "\x7b\"secs\":" = 0x7B :: 0x22 :: (nameSecs ++ [0x22, 0x3A]) := rfl
  have hnext : ofText ",\"nanos\":" = 0x2C :: 0x22 :: (nameNanos ++ [0x22, 0x3A]) := rfl
  have hclose : ofText "\x7d" = [0x7D] := rfl
  have htext : ofText d.toJson =
      0x7B :: ([0x2C].intercalate ([secs, nanos].map Member.text) ++ [0x7D]) := by
    simp [toJson, secs, nanos, hopen, hnext, hclose]
  have hsecs : Json.Text.Spells nameSecs nameSecs := Json.Text.spells_self (by decide)
  have hnanos : Json.Text.Spells nameNanos nameNanos := Json.Text.spells_self (by decide)
  have hobject : IsObject [secs, nanos] (ofText d.toJson) :=
    htext ▸ Json.isObject_intercalate (by simp) (by simp [secs, nanos, Member.isSpaced_bare])
  exact ⟨secs, nanos, ⟨hsecs, Json.Numeral.isDecimal_toString, hnanos,
    Json.Numeral.isDecimal_toString⟩, .inl hobject⟩

theorem readObject_of_toDuration {p : Parts} {s t : Bytes}
    (h : Json.readObject members {} s = .ok (p, t)) (hd : p.toDuration = .ok d) :
    readObject s = .ok (d, t) := by
  rw [readObject, h]
  simp only [bind, Except.bind, hd, pure, Except.pure]

theorem IsWritten.isValue (h : d.IsWritten v) : Json.IsValue v := by
  obtain ⟨secs, nanos, hparts, hv⟩ := h
  have hspelling : Json.Text.IsSpelling secs.spelling ∧ Json.Text.IsSpelling nanos.spelling :=
    ⟨hparts.secsName.isSpelling, hparts.nanosName.isSpelling⟩
  have hvalue : Json.IsValue secs.element.value ∧ Json.IsValue nanos.element.value :=
    ⟨.number hparts.secs.written, .number hparts.nanos.written⟩
  rcases hv with hv | hv
  all_goals exact .object hv (by simp [hspelling]) (by simp [hvalue])

theorem IsWritten.reads (h : d.IsWritten v) : Reads read v d := by
  intro front rest hf hr
  obtain ⟨secs, nanos, hparts, hv⟩ := h
  obtain ⟨ms, hms, hv⟩ : ∃ ms, (ms = [secs, nanos] ∨ ms = [nanos, secs]) ∧ IsObject ms v := by
    rcases hv with hv | hv
    case inl => exact ⟨_, .inl rfl, hv⟩
    case inr => exact ⟨_, .inr rfl, hv⟩
  obtain ⟨t, rfl⟩ := hv.eq_cons
  have hd := toDuration_of_ofParts? d.ofParts?_secs_subsecNanos
  rw [read, List.cons_append, Json.readRecord_object hf]
  exact readObject_of_toDuration ((hparts.run hms).readObject hv) hd

-- A list that is read as a length of time is read to its closing bracket.
theorem takes_readList {es : List Json.Element} {t rest s : Bytes} (hv : Json.IsList es (0x5B :: t))
    (hs : ∀ e ∈ es, Json.IsValue e.value) (h : readList (t ++ rest) = .ok (d, s)) : s = rest := by
  obtain ⟨⟨secs, s'⟩, hfirst, h⟩ := Json.of_bind_eq_ok h
  cases es with
  | nil =>
    obtain ⟨blanks, hblanks, ht⟩ := hv.append_nil
    rw [ht, Json.readElement_close hblanks] at hfirst
    cases hfirst
    cases h
  | cons e es =>
    have he : e.IsSpaced := hv.spaced e (by simp)
    rw [hv.append_cons] at hfirst
    obtain ⟨hsome, rfl⟩ := Json.readElement_eq_ok Json.takes_readNat he (hs e (by simp)) hfirst
    obtain ⟨secs, rfl⟩ := Option.isSome_iff_exists.mp hsome
    obtain ⟨⟨nanos, s'⟩, hnext, h⟩ := Json.of_bind_eq_ok h
    obtain ⟨d', hd, h⟩ := Json.of_bind_eq_ok h
    cases es with
    | nil =>
      -- Nanoseconds are missing.
      rw [Json.readElement_close he.back] at hnext
      cases hnext
      rw [Parts.toDuration] at hd
      cases hd
    | cons x es =>
      have hx : x.IsSpaced := hv.spaced x (by simp)
      have hw : Json.IsValue x.value := hs x (by simp)
      rw [Json.listTail_cons, Json.readElement_comma he.back hx hw] at hnext
      obtain ⟨_, rfl⟩ := Json.readElement_eq_ok Json.takes_readNat hx hw hnext
      obtain ⟨u, hclose, h⟩ := Json.of_bind_eq_ok h
      cases h
      exact Json.closeList_eq_ok hx.back hclose

theorem takes_of_members {name : Bytes} {p : Parts} {readValue : Json.Reader Parts}
    (h : members name p = .ok readValue) : Takes readValue := by
  simp only [members] at h
  (repeat' split at h) <;> cases h
  case isTrue.isFalse => exact Json.takes_readNat.map fun n => { p with secs := some n }
  case isFalse.isTrue.isFalse => exact Json.takes_readNat.map fun n => { p with nanos := some n }

theorem takes_read : Takes read := by
  refine Json.takes_readRecord (fun hms hformed h => ?_) fun hes hvalues h => ?_
  case refine_1 =>
    obtain ⟨⟨p, s⟩, hread, h⟩ := Json.of_bind_eq_ok h
    obtain ⟨d, hd, h⟩ := Json.of_bind_eq_ok h
    cases h
    exact (Json.run_of_readObject hms hformed takes_of_members hread).left
  case refine_2 => exact takes_readList hes hvalues h

end OnceCache.Duration
