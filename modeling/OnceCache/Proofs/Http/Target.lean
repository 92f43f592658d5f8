import Mathlib.Data.Option.Basic
import OnceCache.Http.Request
import OnceCache.Proofs.Text.Bytes

namespace OnceCache.Http

open Bytes (ofText)

variable {s : Bytes} {b : UInt8}

-- A method is one word.
theorem Method.not_mem_of_parse? {text : String} {m : Method} (h : parse? text = some m)
    (hb : isTokenByte b = false) : b ∉ ofText m.text := by
  unfold parse? at h
  split at h <;> cases h
  case isTrue ht =>
    rw [isToken, Bool.and_eq_true, List.all_eq_true] at ht
    intro hm
    have := ht.right b hm
    simp_all

namespace Resource

variable {r : Resource}

-- What a path is made of: bytes that can stand there, and at least one.
structure IsPath (path : String) : Prop where
  bytes  : (ofText path).all isPathByte
  filled : path ≠ ""

theorem IsPath.not_mem {path : String} (h : IsPath path) (hb : isPathByte b = false) :
    b ∉ ofText path := by
  intro hm
  have := List.all_eq_true.mp h.bytes b hm
  simp_all

theorem isPath_of_parse? (h : parse? s = some r) : IsPath r.path := by
  unfold parse? at h
  generalize Bytes.cut 0x3F (Bytes.cut 0x23 s).1 = parts at h
  obtain ⟨bytes, query⟩ := parts
  simp only [Option.bind_eq_bind, Option.bind_eq_some_iff, Option.guard_eq_some'] at h
  obtain ⟨_, hb, h⟩ := h
  -- Whatever the query, the path is the root or what stands in front of it.
  have hr : r.path = "/" ∨ r.path ≠ "" ∧ ofText r.path = bytes := by
    split at h
    case isTrue =>
      left
      cases query with
      | none => cases h; rfl
      | some query =>
        simp only [Option.bind_eq_some_iff] at h
        obtain ⟨_, ⟨⟩, _, _, _, _, h⟩ := h
        cases h
        rfl
    case isFalse he =>
      right
      obtain ⟨path, hp, h⟩ := Option.bind_eq_some_iff.mp h
      have ht := Bytes.ofText_of_toText? hp
      have hn : path ≠ "" := fun hn => he (by rw [← ht, hn]; rfl)
      cases query with
      | none => cases h; exact ⟨hn, ht⟩
      | some query =>
        simp only [Option.bind_eq_some_iff] at h
        obtain ⟨_, _, _, _, h⟩ := h
        cases h
        exact ⟨hn, ht⟩
  cases hr with
  | inl hr => exact hr ▸ ⟨rfl, by simp⟩
  | inr hr => exact ⟨hr.right ▸ hb, hr.left⟩

-- A path and a query are read as they are asked for.
theorem parse?_text {path query : String} (hp : IsPath path)
    (hq : (ofText query).all isQueryByte) :
    parse? (ofText (text ⟨path, some query⟩)) = some ⟨path, some query⟩ := by
  have hquery : 0x23 ∉ ofText query := fun hm => by
    have := List.all_eq_true.mp hq _ hm
    cases this
  have hm : Bytes.ofText "?" = [0x3F] := rfl
  have ht : ofText (text ⟨path, some query⟩) = ofText path ++ 0x3F :: ofText query := by
    simp [text, hm]
  have hf : 0x23 ∉ ofText path ++ 0x3F :: ofText query := by
    simp [hp.not_mem, hquery, isPathByte]
  have hn : ofText path ≠ [] := fun hn => hp.filled (Bytes.ofText_inj.mp hn)
  rw [parse?, ht, Bytes.cut_of_not_mem hf, Bytes.cut_append (hp.not_mem rfl)]
  simp [hp.bytes, hn, hq, guard]

end Resource

-- Whatever has a resource has a path.
theorem Target.isPath_of_parse? {t : Target} {r : Resource} (h : parse? s = some t)
    (hr : t.resource? = some r) : Resource.IsPath r.path := by
  unfold parse? at h
  simp only [Option.bind_eq_bind, Option.bind_eq_some_iff] at h
  obtain ⟨_, _, h⟩ := h
  split at h
  case isTrue =>
    cases h
    cases hr
    exact ⟨rfl, by simp⟩
  case isFalse =>
    split at h
    case isTrue =>
      obtain ⟨_, hr', h⟩ := Option.bind_eq_some_iff.mp h
      cases h
      cases hr
      exact Resource.isPath_of_parse? hr'
    case isFalse =>
      split at h
      case h_1 => cases h
      case h_2 =>
        simp only [Option.bind_eq_some_iff] at h
        obtain ⟨_, _, _, _, h⟩ := h
        cases h
        cases hr
      case h_3 =>
        simp only [Option.bind_eq_some_iff] at h
        obtain ⟨_, _, _, hr', _, _, _, _, h⟩ := h
        cases h
        cases hr
        exact Resource.isPath_of_parse? hr'

namespace Request

variable {raw : RawRequest} {q : Request}

theorem of_parse (h : parse raw = .ok q) :
    Method.parse? raw.method = some q.method ∧ Target.parse? raw.target = some q.target := by
  unfold parse at h
  cases hm : Method.parse? raw.method with
  | none =>
    simp only [hm] at h
    cases h
  | some method =>
    cases ht : Target.parse? raw.target with
    | none =>
      simp only [hm, ht] at h
      cases h
    | some target =>
      simp only [hm, ht] at h
      cases hh : raw.headers.mapM parseHeader with
      | error =>
        rw [hh] at h
        cases h
      | ok =>
        rw [hh] at h
        cases h
        exact ⟨rfl, rfl⟩

theorem not_mem_method {b : UInt8} (h : parse raw = .ok q) (hb : isTokenByte b = false) :
    b ∉ ofText q.method.text :=
  Method.not_mem_of_parse? (of_parse h).left hb

theorem isPath {r : Resource} (h : parse raw = .ok q) (hr : q.target.resource? = some r) :
    Resource.IsPath r.path :=
  Target.isPath_of_parse? (of_parse h).right hr

-- The path of a request ends where its query starts.
theorem not_mem_path (h : parse raw = .ok q) : 0x3F ∉ ofText q.target.path := by
  cases hr : q.target.resource? with
  | none => simp [Target.path, hr]
  | some r =>
    rw [Target.path, hr]
    exact (isPath h hr).not_mem rfl

end Request

end OnceCache.Http
