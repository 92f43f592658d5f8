import Mathlib
import OnceCache.Key.Derivation
import OnceCache.Proofs.Http.Form
import OnceCache.Proofs.Http.Target

namespace OnceCache.Key

open Bytes (ofText cut)
open Http (Form.IsSorting Form.read Form.sort Form.values Form.write Method Resource Request Target)

-- What a key by parameters is made of, as far as separators tell: what stands in front of the first
-- blank, what stands from there to the first question mark, and what follows.
def parts (k : Key) : Bytes × Option (Bytes × Option Bytes) :=
  ((cut 0x20 (ofText k.text)).1, (cut 0x20 (ofText k.text)).2.map (cut 0x3F))

-- The parameters that a target asks for, in the order of their names. An empty query is the same as
-- none.
def sorted? (t : Target) : Option (List Http.Form.Parameter) :=
  (t.query.filter (· ≠ "")).map fun query => Form.sort (Form.read query)

section

variable {m m' : Method} {t t' : Target}

theorem ofText_normalized : ofText (normalized m t).text =
    ofText m.text ++ 0x20 :: (ofText t.path ++
      ((sorted? t).map fun ps => 0x3F :: ofText (Form.write ps)).getD []) := by
  have hb : ofText " " = [0x20] := rfl
  have hm : ofText "?" = [0x3F] := rfl
  unfold normalized sorted?
  cases t.query.filter (· ≠ "") <;> simp [hb, hm]

theorem parts_normalized (hm : 0x20 ∉ ofText m.text) (hp : 0x3F ∉ ofText t.path) :
    (normalized m t).parts =
      (ofText m.text, some (ofText t.path, (sorted? t).map fun ps => ofText (Form.write ps))) := by
  rw [parts, ofText_normalized, Bytes.cut_append hm]
  cases sorted? t with
  | none => simp [Bytes.cut_of_not_mem hp]
  | some ps => simp [Bytes.cut_append hp]

theorem write_injective : Function.Injective fun ps => ofText (Form.write ps) := by
  intro ps qs h
  calc
    ps = Form.read (Form.write ps) := Http.Form.read_write.symm
    _  = Form.read (Form.write qs) := by rw [Bytes.ofText_inj.mp h]
    _  = qs                        := Http.Form.read_write

theorem normalized_eq_iff (hm : 0x20 ∉ ofText m.text) (hm' : 0x20 ∉ ofText m'.text)
    (hp : 0x3F ∉ ofText t.path) (hp' : 0x3F ∉ ofText t'.path) :
    normalized m t = normalized m' t' ↔ m = m' ∧ t.path = t'.path ∧ sorted? t = sorted? t' := by
  constructor
  case mp =>
    intro h
    have h : (normalized m t).parts = (normalized m' t').parts := congrArg parts h
    rw [parts_normalized hm hp, parts_normalized hm' hp'] at h
    simp only [Prod.mk.injEq, Bytes.ofText_inj, Option.some.injEq] at h
    obtain ⟨h₁, h₂, h₃⟩ := h
    exact ⟨Method.ext h₁, h₂, Option.map_injective write_injective h₃⟩
  case mpr =>
    rintro ⟨rfl, hp, hs⟩
    have : ofText (normalized m t).text = ofText (normalized m t').text := by
      rw [ofText_normalized, ofText_normalized, hp, hs]
    exact Key.ext (Bytes.ofText_inj.mp this)

end

-- How the keys by parameters of two requests compare.
structure Compares (q q' : Request) : Prop where
  -- With queries, they are the same exactly if the methods, the paths and the values of each
  -- parameter are.
  filled : ∀ {x y}, q.target.query = some x → x ≠ "" → q'.target.query = some y → y ≠ "" →
    (normalized q.method q.target = normalized q'.method q'.target ↔
      q.method = q'.method ∧ q.target.path = q'.target.path ∧
        ∀ name, Form.values (Form.read x) name = Form.values (Form.read y) name)
  -- Without, exactly if the methods and the paths are.
  empty  : q.target.query.getD "" = "" → q'.target.query.getD "" = "" →
    (normalized q.method q.target = normalized q'.method q'.target ↔
      q.method = q'.method ∧ q.target.path = q'.target.path)
  -- A request without a query shares no key with one that has a query.
  mixed  : q.target.query.getD "" = "" → ∀ {y}, q'.target.query = some y → y ≠ "" →
    normalized q.method q.target ≠ normalized q'.method q'.target

-- The key by parameters of a request has a query of its own, which is read as the parameters that
-- the request asks for by `x`, in the order of their names. It can stand in a target, and whoever
-- asks for it has the same key.
structure HasQuery (q : Request) (x query : String) : Prop where
  part    : cut 0x3F (ofText (normalized q.method q.target).text) =
    (ofText (q.method.text ++ " " ++ q.target.path), some (ofText query))
  sorting : Form.IsSorting (Form.read x) (Form.read query)
  target  : Resource.parse? (ofText (Resource.text ⟨q.target.path, some query⟩)) =
    some ⟨q.target.path, some query⟩
  again   : ∀ {t : Target}, t.path = q.target.path → t.query = some query →
    normalized q.method t = normalized q.method q.target

section

variable {t : Target} {x : String} {raw raw' : Http.RawRequest} {q q' : Request}

theorem sorted?_of_filled (h : t.query = some x) (hx : x ≠ "") :
    sorted? t = some (Form.sort (Form.read x)) := by
  simp [sorted?, h, hx]

theorem sorted?_of_empty (h : t.query.getD "" = "") : sorted? t = none := by
  cases hq : t.query with
  | none => simp [sorted?, hq]
  | some x =>
    have hx : x = "" := by simpa [hq] using h
    simp [sorted?, hq, hx]

theorem compares (h : Request.parse raw = .ok q) (h' : Request.parse raw' = .ok q') :
    Compares q q' := by
  have hiff := normalized_eq_iff (Request.not_mem_method h rfl) (Request.not_mem_method h' rfl)
    (Request.not_mem_path h) (Request.not_mem_path h')
  constructor
  case filled =>
    intro x y hx hnx hy hny
    rw [hiff, sorted?_of_filled hx hnx, sorted?_of_filled hy hny, Option.some.injEq,
      Http.Form.sort_eq_iff]
  case empty =>
    intro hx hy
    rw [hiff, sorted?_of_empty hx, sorted?_of_empty hy]
    simp
  case mixed =>
    intro hx y hy hny he
    have hs := (hiff.mp he).right.right
    rw [sorted?_of_empty hx, sorted?_of_filled hy hny] at hs
    cases hs

theorem hasQuery (h : Request.parse raw = .ok q) (hx : q.target.query = some x)
    (hn : Form.read x ≠ []) : HasQuery q x (Form.write (Form.sort (Form.read x))) := by
  have hx' : x ≠ "" := by
    rintro rfl
    exact hn rfl
  have hs : sorted? q.target = some (Form.sort (Form.read x)) := sorted?_of_filled hx hx'
  constructor
  case part =>
    have hp : 0x3F ∉ ofText (q.method.text ++ " " ++ q.target.path) := by
      have hb : ofText " " = [0x20] := rfl
      have hm : 0x3F ∉ ofText q.method.text := Request.not_mem_method h rfl
      simp [hb, hm, Request.not_mem_path h]
    rw [← Bytes.cut_append hp, ofText_normalized, hs]
    simp
    rfl
  case sorting =>
    rw [Http.Form.read_write]
    exact Http.Form.isSorting_sort
  case target =>
    obtain ⟨r, hr, _⟩ := Option.bind_eq_some_iff.mp hx
    have hp : q.target.path = r.path := by rw [Target.path, hr]
    refine Resource.parse?_text (hp ▸ Request.isPath h hr) (List.all_eq_true.mpr ?_)
    exact fun _ => Http.Form.isQueryByte_of_mem_write
  case again =>
    intro t hp ht
    have hm : 0x20 ∉ ofText q.method.text := Request.not_mem_method h rfl
    have hq : 0x3F ∉ ofText q.target.path := Request.not_mem_path h
    have hw : Form.write (Form.sort (Form.read x)) ≠ "" := by
      intro hw
      have he : Form.read (Form.write (Form.sort (Form.read x))) = Form.sort (Form.read x) :=
        Http.Form.read_write
      have hp : (Form.sort (Form.read x)).Perm (Form.read x) := Http.Form.isSorting_sort.perm
      rw [← he, hw] at hp
      exact hn (List.nil_perm.mp hp)
    refine (normalized_eq_iff hm hm (hp ▸ hq) hq).mpr ⟨rfl, hp, ?_⟩
    rw [sorted?_of_filled ht hw, hs, Http.Form.read_write, Option.some.injEq,
      Http.Form.sort_eq_iff]
    exact fun _ => Http.Form.values_sort

end

-- Requests share a key by parameters exactly if nothing but the order of parameters with different
-- names tells them apart, and such a key stands for all of them.
theorem normalized_up_to_order (h : Request.parse raw = .ok q) (h' : Request.parse raw' = .ok q') :
    Compares q q' ∧ ∀ {x}, q.target.query = some x → Form.read x ≠ [] →
      ∃ query, HasQuery q x query :=
  ⟨compares h h', fun hx hn => ⟨_, hasQuery h hx hn⟩⟩

-- The two requests ask for the same parameters, with a blank written in two ways, an empty part,
-- and the values of one name in the same order.
theorem normalized_up_to_order_reordered :
    let x := "b=2&a=x%20y&b=1"
    let y := "a=x+y&&b=2&b=1"
    let q : Request := ⟨⟨"GET"⟩, .resource ⟨"/v1", some x⟩, []⟩
    let q' : Request := ⟨⟨"GET"⟩, .resource ⟨"/v1", some y⟩, []⟩
    Request.parse { target := .ofText ("/v1?" ++ x) } = .ok q ∧
      Request.parse { target := .ofText ("/v1?" ++ y) } = .ok q' ∧ Compares q q' ∧
      (∃ query, HasQuery q x query) ∧
      normalized q.method q.target = ⟨"GET /v1?a=x+y&b=2&b=1"⟩ ∧
      normalized q'.method q'.target = ⟨"GET /v1?a=x+y&b=2&b=1"⟩ := by
  intro x y q q'
  have h : Request.parse { target := .ofText ("/v1?" ++ x) } = .ok q := by cbv
  have h' : Request.parse { target := .ofText ("/v1?" ++ y) } = .ok q' := by cbv
  have hn : Form.read x ≠ [] := by
    have : Form.read x = [("b", "2"), ("a", "x y"), ("b", "1")] := by cbv
    simp [this]
  obtain ⟨hc, hq⟩ := normalized_up_to_order h h'
  exact ⟨h, h', hc, hq rfl hn, by cbv, by cbv⟩

end OnceCache.Key
