import OnceCache.Proofs.Key.Derivation

namespace OnceCache

namespace Bytes

variable {a b : Bytes}

-- Bytes that need no repair.
def IsText (b : Bytes) : Prop := b.toText?.isSome

instance : Decidable b.IsText := inferInstanceAs (Decidable (b.toText?.isSome = true))

theorem IsText.ofText_toTextRepaired (h : IsText b) : ofText b.toTextRepaired = b := by
  obtain ⟨s, hs⟩ := Option.isSome_iff_exists.mp h
  rw [← ofText_of_toText? hs, toTextRepaired_ofText]

-- Nothing is lost where nothing is repaired.
theorem IsText.toTextRepaired_inj (ha : IsText a) (hb : IsText b) :
    a.toTextRepaired = b.toTextRepaired ↔ a = b := by
  constructor
  case mp =>
    intro h
    rw [← ha.ofText_toTextRepaired, h, hb.ofText_toTextRepaired]
  case mpr => exact congrArg toTextRepaired

end Bytes

namespace Http

namespace Form

-- The bytes that the name and the value of a parameter stand for.
abbrev RawParameter := Bytes × Bytes

def readRawParameter (s : Bytes) : RawParameter :=
  let (name, value) := Bytes.cut 0x3D s
  (decodeBytes name, decodeBytes (value.getD []))

-- Reads a query without a repair.
def readRaw (query : String) : List RawParameter :=
  ((Bytes.split 0x26 (.ofText query)).filter (!·.isEmpty)).map readRawParameter

-- The values of a name, in order.
def rawValues (ps : List RawParameter) (name : Bytes) : List Bytes :=
  (ps.filter (·.1 = name)).map (·.2)

def repair (p : RawParameter) : Parameter := (p.1.toTextRepaired, p.2.toTextRepaired)

variable {ps qs : List RawParameter} {name : Bytes} {query : String}

theorem map_repair_readRaw : (readRaw query).map repair = read query := by
  rw [readRaw, List.map_map]
  rfl

-- No parameter needs a repair whose name is this one, or is taken for it once both are repaired.
def Intact (ps : List RawParameter) (name : Bytes) : Prop :=
  ∀ p ∈ ps, p.1.toTextRepaired = name.toTextRepaired → p.1.IsText ∧ p.2.IsText

instance : Decidable (Intact ps name) :=
  inferInstanceAs (Decidable (∀ p ∈ ps, _ = _ → p.1.IsText ∧ p.2.IsText))

-- The bytes of values that need no repair are those of their texts.
theorem Intact.rawValues_eq (h : Intact ps name) (hn : name.IsText) :
    rawValues ps name = (values (ps.map repair) name.toTextRepaired).map Bytes.ofText := by
  have hf : ps.filter (·.1 = name) = ps.filter fun p => (repair p).1 = name.toTextRepaired := by
    refine List.filter_congr fun p hp => decide_eq_decide.mpr ⟨?_, fun he => ?_⟩
    · exact congrArg Bytes.toTextRepaired
    · exact ((h p hp he).left.toTextRepaired_inj hn).mp he
  have hm : ∀ p ∈ ps.filter fun p => (repair p).1 = name.toTextRepaired,
      Bytes.ofText (repair p).2 = p.2 := by
    intro p hp
    obtain ⟨hp, he⟩ := List.mem_filter.mp hp
    exact (h p hp (of_decide_eq_true he)).right.ofText_toTextRepaired
  rw [rawValues, values, List.filter_map, List.map_map, List.map_map, hf]
  exact List.map_congr_left fun p hp => (hm p hp).symm

theorem Intact.rawValues_eq_nil (h : Intact ps name) (hn : ¬name.IsText) :
    rawValues ps name = [] := by
  refine List.map_eq_nil_iff.mpr (List.filter_eq_nil_iff.mpr fun p hp he => hn ?_)
  have he : p.1 = name := of_decide_eq_true he
  exact he ▸ (h p hp (congrArg _ he)).left

-- Values that have the same texts have the same bytes if none of them needs a repair.
theorem rawValues_eq (hp : Intact ps name) (hq : Intact qs name)
    (h : values (ps.map repair) name.toTextRepaired =
      values (qs.map repair) name.toTextRepaired) :
    rawValues ps name = rawValues qs name := by
  by_cases hn : name.IsText
  case pos => rw [hp.rawValues_eq hn, hq.rawValues_eq hn, h]
  case neg => rw [hp.rawValues_eq_nil hn, hq.rawValues_eq_nil hn]

end Form

-- The parameters that a target carries, as bytes.
def Target.parameters (t : Target) : List Form.RawParameter := Form.readRaw (t.query.getD "")

end Http

namespace Key

open Http (Form.Intact Form.rawValues Form.read Form.repair Form.values Request Target)

-- How the values of a name in two targets compare: they have the same texts once they are
-- repaired, and where nothing is to be repaired they have the same bytes.
structure Agrees (t t' : Target) (name : Bytes) : Prop where
  repaired : Form.values (t.parameters.map Form.repair) name.toTextRepaired =
    Form.values (t'.parameters.map Form.repair) name.toTextRepaired
  bytes    : Form.Intact t.parameters name → Form.Intact t'.parameters name →
    Form.rawValues t.parameters name = Form.rawValues t'.parameters name

variable {raw raw' : Http.RawRequest} {q q' : Request}

theorem values_eq_of_normalized_eq (h : Request.parse raw = .ok q)
    (h' : Request.parse raw' = .ok q')
    (hk : normalized q.method q.target = normalized q'.method q'.target) (name : String) :
    Form.values (Form.read (q.target.query.getD "")) name =
      Form.values (Form.read (q'.target.query.getD "")) name := by
  -- A query that is not empty is one.
  have hfilled {t : Target} (ht : t.query.getD "" ≠ "") : t.query = some (t.query.getD "") := by
    cases hq : t.query with
    | none => exact absurd (by rw [hq]; rfl) ht
    | some => rfl
  by_cases hx : q.target.query.getD "" = ""
  case pos =>
    by_cases hy : q'.target.query.getD "" = ""
    case pos => rw [hx, hy]
    case neg => exact absurd hk ((compares h h').mixed hx (hfilled hy) hy)
  case neg =>
    by_cases hy : q'.target.query.getD "" = ""
    case pos => exact absurd hk.symm ((compares h' h).mixed hy (hfilled hx) hx)
    case neg =>
      have hv := ((compares h h').filled (hfilled hx) hx (hfilled hy) hy).mp hk
      exact hv.right.right name

-- Requests with the same key carry the same values of each name, as far as these are UTF-8.
theorem normalized_keeps_bytes (h : Request.parse raw = .ok q) (h' : Request.parse raw' = .ok q')
    (hk : Derivation.byParameters q.method q.target q.headers =
      Derivation.byParameters q'.method q'.target q'.headers) (name : Bytes) :
    Agrees q.target q'.target name := by
  have hv : Form.values (q.target.parameters.map Form.repair) name.toTextRepaired =
      Form.values (q'.target.parameters.map Form.repair) name.toTextRepaired := by
    rw [Target.parameters, Target.parameters, Http.Form.map_repair_readRaw,
      Http.Form.map_repair_readRaw]
    exact values_eq_of_normalized_eq h h' hk _
  constructor
  case repaired => exact hv
  case bytes => exact fun hp hp' => Http.Form.rawValues_eq hp hp' hv

-- A broken value elsewhere does not touch the values of a name that are UTF-8.
theorem normalized_keeps_bytes_accented :
    let x := "b=%C3%A9&a=%FF"
    let y := "a=%FE&b=é"
    let q : Request := ⟨⟨"GET"⟩, .resource ⟨"/v1", some x⟩, []⟩
    let q' : Request := ⟨⟨"GET"⟩, .resource ⟨"/v1", some y⟩, []⟩
    Request.parse { target := .ofText ("/v1?" ++ x) } = .ok q ∧
      Request.parse { target := .ofText ("/v1?" ++ y) } = .ok q' ∧
      Derivation.byParameters q.method q.target q.headers =
        Derivation.byParameters q'.method q'.target q'.headers ∧
      Agrees q.target q'.target (.ofText "b") ∧
      Form.Intact q.target.parameters (.ofText "b") ∧
      Form.Intact q'.target.parameters (.ofText "b") ∧
      Form.rawValues q.target.parameters (.ofText "b") = [.ofText "é"] := by
  intro x y q q'
  have h : Request.parse { target := .ofText ("/v1?" ++ x) } = .ok q := by cbv
  have h' : Request.parse { target := .ofText ("/v1?" ++ y) } = .ok q' := by cbv
  have hk : normalized q.method q.target = ⟨"GET /v1?a=%EF%BF%BD&b=%C3%A9"⟩ := by cbv
  have hk' : normalized q'.method q'.target = ⟨"GET /v1?a=%EF%BF%BD&b=%C3%A9"⟩ := by cbv
  have he : normalized q.method q.target = normalized q'.method q'.target := hk.trans hk'.symm
  refine ⟨h, h', he, normalized_keeps_bytes h h' he _, ?_, ?_, by cbv⟩
  · decide_cbv
  · decide_cbv

-- Values that are not UTF-8 are repaired, and then the key does not tell them apart.
theorem normalized_merges_broken :
    let q : Request := ⟨⟨"GET"⟩, .resource ⟨"/v1", some "x=%FF"⟩, []⟩
    let q' : Request := ⟨⟨"GET"⟩, .resource ⟨"/v1", some "x=%FE"⟩, []⟩
    Request.parse { target := .ofText "/v1?x=%FF" } = .ok q ∧
      Request.parse { target := .ofText "/v1?x=%FE" } = .ok q' ∧
      Derivation.byParameters q.method q.target q.headers =
        Derivation.byParameters q'.method q'.target q'.headers ∧
      Form.rawValues q.target.parameters (.ofText "x") ≠
        Form.rawValues q'.target.parameters (.ofText "x") := by
  intro q q'
  have hq : Form.rawValues q.target.parameters (.ofText "x") = [[0xFF]] := by cbv
  have hq' : Form.rawValues q'.target.parameters (.ofText "x") = [[0xFE]] := by cbv
  refine ⟨by cbv, by cbv, by cbv, ?_⟩
  rw [hq, hq']
  decide

end Key

end OnceCache
