import Mathlib
import OnceCache.Key.Derivation
import OnceCache.Proofs.Http.Written

namespace OnceCache.Key

open Bytes (cut ofText)
open Http (Request Resource Target part)

section

variable {sep : UInt8} {s : Bytes} {rest : Option Bytes} {r : Resource} {t t' : Target}

theorem cut_append_part (h : sep ∉ s) : cut sep (s ++ part sep rest) = (s, rest) := by
  cases rest
  case none => simp [part, Bytes.cut_of_not_mem h]
  case some => exact Bytes.cut_append h

-- An authority alone asks for no path and no query, and its key is empty.
theorem ofTarget_eq : ofTarget t = ⟨Resource.text ⟨t.path, t.query⟩⟩ := by
  cases t <;> rfl

theorem ofText_resource : ofText r.text = ofText r.path ++ part 0x3F (r.query.map ofText) := by
  have hm : ofText "?" = [0x3F] := rfl
  unfold Resource.text
  cases r.query <;> simp [part, hm]

-- The path of a key ends at the first question mark, and the query is what follows.
theorem ofTarget_eq_iff (h : 0x3F ∉ ofText t.path) (h' : 0x3F ∉ ofText t'.path) :
    ofTarget t = ofTarget t' ↔ t.path = t'.path ∧ t.query = t'.query := by
  constructor
  case mp =>
    intro he
    have hc : (ofText t.path, t.query.map ofText) = (ofText t'.path, t'.query.map ofText) := by
      have he : ofText (ofTarget t).text = ofText (ofTarget t').text := by rw [he]
      rw [ofTarget_eq, ofTarget_eq, ofText_resource, ofText_resource] at he
      rw [← cut_append_part h, ← cut_append_part h', he]
    have ⟨hp, hq⟩ := Prod.mk.inj hc
    exact ⟨Bytes.ofText_inj.mp hp, Option.map_injective (fun _ _ => Bytes.ofText_inj.mp) hq⟩
  case mpr =>
    rintro ⟨hp, hq⟩
    rw [ofTarget_eq, ofTarget_eq, hp, hq]

-- A key by parameters depends on nothing else but the method.
theorem normalized_eq_of_ofTarget_eq {m : Http.Method} (hp : t.path = t'.path)
    (hq : t.query = t'.query) : normalized m t = normalized m t' := by
  simp only [normalized, hp, hq]

end

-- The key of a request by its target is the path and the query, wherever they were written.
structure IsExact (raw : Http.RawRequest) (q : Request) : Prop where
  written : q.target.Written raw.target
  text    : (Derivation.byTarget q.method q.target q.headers).text =
    Resource.text ⟨q.target.path, q.target.query⟩

-- How the keys of two requests by their targets compare. They are the same exactly if the paths and
-- the queries are, and then so are the keys by parameters if the methods are.
structure ComparesByTarget (q q' : Request) : Prop where
  same    : Derivation.byTarget q.method q.target q.headers =
      Derivation.byTarget q'.method q'.target q'.headers ↔
    q.target.path = q'.target.path ∧ q.target.query = q'.target.query
  coarser : Derivation.byTarget q.method q.target q.headers =
      Derivation.byTarget q'.method q'.target q'.headers → q.method = q'.method →
    Derivation.byParameters q.method q.target q.headers =
      Derivation.byParameters q'.method q'.target q'.headers

variable {raw raw' : Http.RawRequest} {q q' : Request}

theorem isExact_of_parse (h : Request.parse raw = .ok q) : IsExact raw q where
  written := Target.written_of_parse? (Request.of_parse h).right
  text    := by rw [Derivation.byTarget, ofTarget_eq]

theorem comparesByTarget_of_parse (h : Request.parse raw = .ok q)
    (h' : Request.parse raw' = .ok q') : ComparesByTarget q q' := by
  have hiff := ofTarget_eq_iff (Request.not_mem_path h) (Request.not_mem_path h')
  constructor
  case same => exact hiff
  case coarser =>
    intro he hm
    have ⟨hp, hq⟩ := hiff.mp he
    simp only [Derivation.byParameters, hm]
    exact normalized_eq_of_ofTarget_eq hp hq

-- Schemes, authorities, fragments, methods and header lines do not matter to keys by target. Keys
-- by parameters put no two requests apart that have the same method and the same key by target.
theorem byTarget_exact (h : Request.parse raw = .ok q) (h' : Request.parse raw' = .ok q') :
    IsExact raw q ∧ IsExact raw' q' ∧ ComparesByTarget q q' :=
  ⟨isExact_of_parse h, isExact_of_parse h', comparesByTarget_of_parse h h'⟩

-- Two requests for the root with a query, one by a scheme in capital letters and without a path.
theorem byTarget_exact_root :
    let raw : Http.RawRequest := { target := .ofText "HTTP://api.example.com?b=2&a=1#top" }
    let raw' : Http.RawRequest := { target := .ofText "/?b=2&a=1", headers := [("accept", [0x2A])] }
    let q : Request := ⟨⟨"GET"⟩, .absolute "http" "api.example.com" ⟨"/", some "b=2&a=1"⟩, []⟩
    let q' : Request := ⟨⟨"GET"⟩, .resource ⟨"/", some "b=2&a=1"⟩, [⟨.accept, ⟨[0x2A]⟩⟩]⟩
    Request.parse raw = .ok q ∧ Request.parse raw' = .ok q' ∧ IsExact raw q ∧ IsExact raw' q' ∧
      ComparesByTarget q q' ∧
      Derivation.byTarget q.method q.target q.headers = ⟨"/?b=2&a=1"⟩ ∧
      Derivation.byParameters q'.method q'.target q'.headers = ⟨"GET /?a=1&b=2"⟩ := by
  intro raw raw' q q'
  have h : Request.parse raw = .ok q := by cbv
  have h' : Request.parse raw' = .ok q' := by cbv
  obtain ⟨hq, hq', hc⟩ := byTarget_exact h h'
  exact ⟨h, h', hq, hq', hc, by cbv, by cbv⟩

end OnceCache.Key
