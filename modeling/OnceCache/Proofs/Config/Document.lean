import OnceCache.Proofs.Config.Duration

namespace OnceCache

open Bytes (ofText)

namespace Config

open Json (Member IsObject IsValue Run Reads CanRead Takes)

variable {c d e : Config} {v : Bytes}

namespace Field

variable {f g : Field}

-- Two configurations have the same value in a field.
def Agrees (f : Field) (c d : Config) : Prop :=
  match f with
  | maxEntries => c.maxEntries = d.maxEntries
  | maxMemoryBytes => c.maxMemoryBytes = d.maxMemoryBytes
  | maxEntryBytes => c.maxEntryBytes = d.maxEntryBytes
  | defaultTtl => c.defaultTtl = d.defaultTtl
  | autoCleanup => c.autoCleanup = d.autoCleanup
  | cleanupInterval => c.cleanupInterval = d.cleanupInterval

-- A configuration with the value that another one has in a field.
def put (f : Field) (c d : Config) : Config :=
  match f with
  | maxEntries => { d with maxEntries := c.maxEntries }
  | maxMemoryBytes => { d with maxMemoryBytes := c.maxMemoryBytes }
  | maxEntryBytes => { d with maxEntryBytes := c.maxEntryBytes }
  | defaultTtl => { d with defaultTtl := c.defaultTtl }
  | autoCleanup => { d with autoCleanup := c.autoCleanup }
  | cleanupInterval => { d with cleanupInterval := c.cleanupInterval }

-- The value that a configuration has in a field is written as `v`.
def IsWritten (f : Field) (c : Config) (v : Bytes) : Prop :=
  match f with
  | maxEntries => Json.Numeral.IsDecimal v c.maxEntries.toNat
  | maxMemoryBytes => Json.Numeral.IsDecimal v c.maxMemoryBytes.toNat
  | maxEntryBytes => Json.Numeral.IsDecimal v c.maxEntryBytes.toNat
  | defaultTtl => c.defaultTtl.IsWritten v
  | autoCleanup => v = if c.autoCleanup then Json.wordTrue else Json.wordFalse
  | cleanupInterval => c.cleanupInterval.IsWritten v

theorem Agrees.refl : f.Agrees c c := by
  cases f <;> rfl

theorem Agrees.trans (h : f.Agrees c d) (h' : f.Agrees d e) : f.Agrees c e := by
  cases f <;> exact Eq.trans h h'

theorem put_agrees : f.Agrees (f.put c d) c := by
  cases f <;> rfl

theorem put_agrees_of_ne (h : g ≠ f) : g.Agrees (f.put c d) d := by
  cases f <;> cases g <;> first | rfl | exact absurd rfl h

theorem eq_of_agrees (h : ∀ f : Field, f.Agrees c d) : c = d :=
  Config.ext (h maxEntries) (h maxMemoryBytes) (h maxEntryBytes) (h defaultTtl) (h autoCleanup)
    (h cleanupInterval)

theorem ofName?_name : ofName? (ofText f.name) = some f := by
  cases f <;> rfl

theorem name_inj : ofText f.name = ofText g.name ↔ f = g := by
  constructor
  case mp =>
    intro h
    exact Option.some.inj (ofName?_name.symm.trans (h ▸ ofName?_name))
  case mpr => exact congrArg fun f => ofText (name f)

theorem ofName?_eq_none {name : Bytes} (h : ∀ f : Field, name ≠ ofText f.name) :
    ofName? name = none := by
  simp [ofName?, fun f => Ne.symm (h f)]

theorem reads_readWord {n : UInt64} (h : Json.Numeral.IsDecimal v n.toNat) :
    Reads readWord v n := by
  have hread : Reads readWord v n.toNat.toUInt64 :=
    (Json.reads_readNat h n.toNat_lt (Nat.le_refl _)).map Nat.toUInt64
  have hn : n.toNat.toUInt64 = n := UInt64.ofNat_toNat
  rwa [hn] at hread

theorem takes_readWord : Takes readWord := Json.takes_readNat.map Nat.toUInt64

theorem IsWritten.reads (h : f.IsWritten c v) : Reads (f.read d) v (f.put c d) := by
  cases f
  case maxEntries => exact (reads_readWord h).map fun n => { d with maxEntries := n }
  case maxMemoryBytes => exact (reads_readWord h).map fun n => { d with maxMemoryBytes := n }
  case maxEntryBytes => exact (reads_readWord h).map fun n => { d with maxEntryBytes := n }
  case defaultTtl => exact (Duration.IsWritten.reads h).map fun t => { d with defaultTtl := t }
  case autoCleanup =>
    have hread : Reads Json.readBool v c.autoCleanup := by
      obtain rfl := h
      cases c.autoCleanup
      case false => exact Json.reads_false
      case true => exact Json.reads_true
    exact hread.map fun b => { d with autoCleanup := b }
  case cleanupInterval =>
    exact (Duration.IsWritten.reads h).map fun t => { d with cleanupInterval := t }

theorem IsWritten.isValue (h : f.IsWritten c v) : IsValue v := by
  cases f
  case defaultTtl => exact Duration.IsWritten.isValue h
  case cleanupInterval => exact Duration.IsWritten.isValue h
  case autoCleanup =>
    obtain rfl := h
    cases c.autoCleanup
    case false => exact .word (.inr (.inr rfl))
    case true => exact .word (.inr (.inl rfl))
  all_goals exact .number (Json.Numeral.IsDecimal.written h)

theorem takes_read : Takes (f.read d) := by
  cases f
  case maxEntries => exact takes_readWord.map fun n => { d with maxEntries := n }
  case maxMemoryBytes => exact takes_readWord.map fun n => { d with maxMemoryBytes := n }
  case maxEntryBytes => exact takes_readWord.map fun n => { d with maxEntryBytes := n }
  case defaultTtl => exact Duration.takes_read.map fun t => { d with defaultTtl := t }
  case autoCleanup => exact Json.takes_readBool.map fun b => { d with autoCleanup := b }
  case cleanupInterval => exact Duration.takes_read.map fun t => { d with cleanupInterval := t }

end Field

-- A member of a document for `c`: a known field with the value that `c` has in it, or a field of
-- another name with any value.
inductive Holds (c : Config) (m : Member) : Prop
  | known (f : Field) : Json.Text.Spells m.spelling (ofText f.name) →
    f.IsWritten c m.element.value → c.Holds m
  | unknown (name : Bytes) : Json.Text.Spells m.spelling name →
    (∀ f : Field, name ≠ ofText f.name) → IsValue m.element.value → c.Holds m

theorem Holds.isWellFormed {m : Member} (h : c.Holds m) : m.IsWellFormed := by
  cases h with
  | known _ hname hvalue => exact ⟨hname.isSpelling, hvalue.isValue⟩
  | unknown _ hname _ hvalue => exact ⟨hname.isSpelling, hvalue⟩

-- A member has the name of a field, in any spelling.
def Names (m : Member) (f : Field) : Prop := Json.Text.Spells m.spelling (ofText f.name)

-- No known field has two members.
def NamedOnce (ms : List Member) : Prop :=
  ms.Pairwise fun m m' => ∀ f, Names m f → ¬Names m' f

-- A text that is an object of members, with blanks around it.
def IsDocument (text : String) (ms : List Member) : Prop :=
  ∃ front v back, Json.IsBlanks front ∧ IsObject ms v ∧ Json.IsBlanks back ∧
    ofText text = front ++ (v ++ back)

theorem isDocument_intercalate {text : String} {ms : List Member} (hms : ms ≠ [])
    (hs : ∀ m ∈ ms, m.IsSpaced)
    (ht : ofText text = 0x7B :: ([0x2C].intercalate (ms.map Member.text) ++ [0x7D])) :
    IsDocument text ms :=
  ⟨[], _, [], Json.isBlanks_nil, Json.isObject_intercalate hms hs, Json.isBlanks_nil, by simp [ht]⟩

section Members

variable {f : Field} {m : Member} {ms : List Member} {draft next out : Draft}

-- Reads the value of a field into a draft that has met it then.
def readField (f : Field) (draft : Draft) : Json.Reader Draft := fun s => do
  let (config, s) ← f.read draft.config s
  return (⟨config, f :: draft.met⟩, s)

-- Skips the value of a field that is not known.
def skipField (draft : Draft) : Json.Reader Draft := fun s => do return (draft, ← Json.skip s)

theorem members_known (h : f ∉ draft.met) :
    members (ofText f.name) draft = .ok (readField f draft) := by
  simp only [members, Field.ofName?_name, if_neg h]
  rfl

theorem members_unknown {name : Bytes} (h : ∀ f : Field, name ≠ ofText f.name) :
    members name draft = .ok (skipField draft) := by
  simp only [members, Field.ofName?_eq_none h]
  rfl

-- A field that is taken has not been met, or it is not known.
theorem members_eq_ok {name : Bytes} {readValue : Json.Reader Draft}
    (h : members name draft = .ok readValue) :
    (∃ f, name = ofText (Field.name f) ∧ f ∉ draft.met ∧ readValue = readField f draft) ∨
      (∀ f : Field, name ≠ ofText f.name) ∧ readValue = skipField draft := by
  by_cases hname : ∃ f : Field, name = ofText f.name
  case pos =>
    obtain ⟨f, rfl⟩ := hname
    by_cases hmet : f ∈ draft.met
    case pos =>
      simp only [members, Field.ofName?_name, if_pos hmet] at h
      cases h
    case neg =>
      rw [members_known hmet] at h
      exact .inl ⟨f, rfl, hmet, (Except.ok.inj h).symm⟩
  case neg =>
    have hnone : ∀ f : Field, name ≠ ofText f.name := fun f hf => hname ⟨f, hf⟩
    rw [members_unknown hnone] at h
    exact .inr ⟨hnone, (Except.ok.inj h).symm⟩

theorem takes_of_members {name : Bytes} {readValue : Json.Reader Draft}
    (h : members name draft = .ok readValue) : Takes readValue := by
  obtain ⟨f, _, _, rfl⟩ | ⟨_, rfl⟩ := members_eq_ok h
  case inl => exact Field.takes_read.map fun config => Draft.mk config (f :: draft.met)
  case inr => exact Json.takes_skip

-- What a member makes of a draft: the field that it names has the value of `c` and has been met,
-- and the others are left as they were.
structure Enters (c : Config) (m : Member) (draft next : Draft) : Prop where
  met : ∀ f, f ∈ next.met ↔ Names m f ∨ f ∈ draft.met
  named : ∀ f : Field, Names m f → f.Agrees next.config c
  others : ∀ f : Field, ¬Names m f → f.Agrees next.config draft.config

theorem exists_enters (hm : c.Holds m) (hmet : ∀ f, Names m f → f ∉ draft.met) :
    ∃ name readValue next, Json.Text.Spells m.spelling name ∧ members name draft = .ok readValue ∧
      Reads readValue m.element.value next ∧ c.Enters m draft next := by
  cases hm with
  | known f hname hvalue =>
    have hnames : ∀ g, Names m g ↔ g = f := by
      intro g
      constructor
      case mp => exact fun h => Field.name_inj.mp (h.eq hname)
      case mpr =>
        rintro rfl
        exact hname
    refine ⟨_, _, ⟨f.put c draft.config, f :: draft.met⟩, hname, members_known (hmet f hname),
      hvalue.reads.map fun config => Draft.mk config (f :: draft.met), ?_, ?_, ?_⟩
    case refine_1 => simp [hnames]
    case refine_2 =>
      intro g hg
      obtain rfl := (hnames g).mp hg
      exact Field.put_agrees
    case refine_3 => exact fun g hg => Field.put_agrees_of_ne fun h => hg ((hnames g).mpr h)
  | unknown name hname hnone hvalue =>
    have hnames : ∀ g, ¬Names m g := fun g h => hnone g (hname.eq h)
    refine ⟨name, _, draft, hname, members_unknown hnone, Json.reads_skip hvalue, ?_, ?_, ?_⟩
    case refine_1 => simp [hnames]
    case refine_2 => exact fun g hg => absurd hg (hnames g)
    case refine_3 => exact fun _ _ => .refl

-- A document that names no field twice is read to its end. The fields that it names are read, and
-- the others are left as they were.
theorem exists_run (hm : ∀ m ∈ ms, c.Holds m) (hn : NamedOnce ms)
    (hmet : ∀ m ∈ ms, ∀ f, Names m f → f ∉ draft.met) :
    ∃ out, Run Reads members draft ms out ∧ ∀ f : Field,
      (∀ m ∈ ms, Names m f → f.Agrees out.config c) ∧
      ((∀ m ∈ ms, ¬Names m f) → f.Agrees out.config draft.config) := by
  induction ms generalizing draft with
  | nil => exact ⟨draft, .none, fun f => ⟨by simp, fun _ => .refl⟩⟩
  | cons m ms hi =>
    have ⟨hfirst, hrest⟩ := List.pairwise_cons.mp hn
    obtain ⟨name, readValue, next, hname, hmember, hread, henters⟩ :=
      exists_enters (hm m (by simp)) (hmet m (by simp))
    have hnext : ∀ x ∈ ms, ∀ f, Names x f → f ∉ next.met := by
      intro x hx f hf hmem
      rcases (henters.met f).mp hmem with h | h
      case inl => exact hfirst x hx f h hf
      case inr => exact hmet x (List.mem_cons_of_mem m hx) f hf h
    obtain ⟨out, hrun, hout⟩ := hi (fun x hx => hm x (List.mem_cons_of_mem m hx)) hrest hnext
    refine ⟨out, .some hname hmember hread hrun, fun f => ⟨fun x hx hf => ?_, fun h => ?_⟩⟩
    case refine_1 =>
      rcases List.mem_cons.mp hx with rfl | hx
      case inl =>
        have hkept := (hout f).right fun y hy => hfirst y hy f hf
        exact hkept.trans (henters.named f hf)
      case inr => exact (hout f).left x hx hf
    case refine_2 =>
      have hkept := (hout f).right fun y hy => h y (List.mem_cons_of_mem m hy)
      exact hkept.trans (henters.others f (h m (by simp)))

theorem met_of_readField {s t : Bytes} (h : readField f draft s = .ok (next, t)) :
    next.met = f :: draft.met := by
  obtain ⟨⟨config, s'⟩, _, h⟩ := Json.of_bind_eq_ok h
  cases h
  rfl

theorem eq_of_skipField {s t : Bytes} (h : skipField draft s = .ok (next, t)) : next = draft := by
  obtain ⟨s', _, h⟩ := Json.of_bind_eq_ok h
  cases h
  rfl

-- Whatever run there is, it meets a known field once only.
theorem met_of_canRead {name : Bytes} {readValue : Json.Reader Draft} {v : Bytes}
    (hmember : members name draft = .ok readValue) (hread : CanRead readValue v next) :
    (∀ f : Field, name = ofText f.name → f ∉ draft.met ∧ f ∈ next.met) ∧
      ∀ f ∈ draft.met, f ∈ next.met := by
  obtain ⟨front, rest, hread⟩ := hread
  obtain ⟨f, rfl, hmet, rfl⟩ | ⟨hnone, rfl⟩ := members_eq_ok hmember
  case inl =>
    rw [met_of_readField hread]
    refine ⟨fun g hg => ?_, fun g hg => List.mem_cons_of_mem f hg⟩
    obtain rfl := Field.name_inj.mp hg
    exact ⟨hmet, by simp⟩
  case inr =>
    obtain rfl := eq_of_skipField hread
    exact ⟨fun f hf => absurd hf (hnone f), fun _ => id⟩

theorem namedOnce_of_run (h : Run CanRead members draft ms out) :
    NamedOnce ms ∧ ∀ m ∈ ms, ∀ f, Names m f → f ∉ draft.met := by
  induction h with
  | none => exact ⟨.nil, by simp⟩
  | some hname hmember hread _ hi =>
    have ⟨hmet, hkept⟩ := met_of_canRead hmember hread
    refine ⟨List.pairwise_cons.mpr ⟨fun x hx f hf hxf => ?_, hi.left⟩, fun x hx f hf hmem => ?_⟩
    case refine_1 => exact hi.right x hx f hxf (hmet f (hname.eq hf)).right
    case refine_2 =>
      rcases List.mem_cons.mp hx with rfl | hx
      case inl => exact (hmet f (hname.eq hf)).left hmem
      case inr => exact hi.right x hx f hf (hkept f hmem)

theorem ofJson_of_run {text : String} (ht : IsDocument text ms)
    (hrun : Run Reads members {} ms out) : ofJson text = .ok out.config := by
  obtain ⟨front, v, back, hf, hv, hb, ht⟩ := ht
  obtain ⟨t, rfl⟩ := hv.eq_cons
  have hend : Json.skipBlanks back = [] := by
    have := Json.skipBlanks_append (s := []) hb
    rwa [List.append_nil] at this
  rw [ofJson, Json.readAll, ht, List.cons_append, Json.readRecord_object hf, readObject,
    hrun.readObject hv]
  simp [bind, Except.bind, pure, Except.pure, hend]

theorem run_of_ofJson {text : String} (ht : IsDocument text ms)
    (hformed : ∀ m ∈ ms, m.IsWellFormed) (h : ofJson text = .ok d) :
    ∃ out, Run CanRead members {} ms out := by
  obtain ⟨front, v, back, hf, hv, hb, ht⟩ := ht
  obtain ⟨t, rfl⟩ := hv.eq_cons
  rw [ofJson, Json.readAll, ht, List.cons_append, Json.readRecord_object hf, readObject] at h
  obtain ⟨⟨config, s⟩, hread, _⟩ := Json.of_bind_eq_ok h
  obtain ⟨⟨out, s'⟩, hread, _⟩ := Json.of_bind_eq_ok hread
  exact ⟨out, (Json.run_of_readObject hv hformed takes_of_members hread).right⟩

end Members

section Write

theorem Field.isWritten_write {f : Field} {c : Config} : f.IsWritten c (ofText (f.write c)) := by
  cases f
  case maxEntries => exact Json.Numeral.isDecimal_toString
  case maxMemoryBytes => exact Json.Numeral.isDecimal_toString
  case maxEntryBytes => exact Json.Numeral.isDecimal_toString
  case defaultTtl => exact Duration.isWritten_toJson
  case autoCleanup =>
    simp only [Field.IsWritten, Field.write]
    cases c.autoCleanup <;> rfl
  case cleanupInterval => exact Duration.isWritten_toJson

-- The members of a configuration that is written.
def written (c : Config) : List Member :=
  Field.all.map fun f => .bare (ofText f.name) (ofText (f.write c))

theorem names_bare {f g : Field} {v : Bytes} : Names (.bare (ofText f.name) v) g ↔ f = g := by
  have hf : Json.Text.Spells (ofText f.name) (ofText f.name) := by
    refine Json.Text.spells_self ?_
    cases f <;> decide
  constructor
  case mp => exact fun h => Field.name_inj.mp (hf.eq h)
  case mpr =>
    rintro rfl
    exact hf

theorem isDocument_toJson : IsDocument c.toJson c.written := by
  have hopen : ofText "\x7b" = [0x7B] := rfl
  have hclose : ofText "\x7d" = [0x7D] := rfl
  have hcomma : ofText "," = [0x2C] := rfl
  have hquote : ofText "\"" = [0x22] := rfl
  have hcolon : ofText "\":" = [0x22, 0x3A] := rfl
  refine isDocument_intercalate (by simp [written, Field.all]) ?_ ?_
  case refine_1 => simp [written, Member.isSpaced_bare]
  case refine_2 =>
    simp [toJson, written, Bytes.ofText_intercalate, hopen, hclose, hcomma, hquote, hcolon,
      Function.comp_def]

theorem holds_of_mem_written {m : Member} (h : m ∈ c.written) : c.Holds m := by
  obtain ⟨f, _, rfl⟩ := List.mem_map.mp h
  exact .known f (names_bare.mpr rfl) Field.isWritten_write

theorem namedOnce_written : NamedOnce c.written := by
  have hnodup : Field.all.Pairwise (· ≠ ·) := by decide
  rw [NamedOnce, written, List.pairwise_map]
  refine hnodup.imp fun hne f hf hg => hne ?_
  exact (names_bare.mp hf).trans (names_bare.mp hg).symm

end Write

section Read

variable {text : String} {ms : List Member}

theorem exists_ofJson (ht : IsDocument text ms) (hm : ∀ m ∈ ms, c.Holds m) (hn : NamedOnce ms) :
    ∃ d, ofJson text = .ok d ∧ ∀ f : Field,
      (∀ m ∈ ms, Names m f → f.Agrees d c) ∧
      ((∀ m ∈ ms, ¬Names m f) → f.Agrees d .standard) := by
  have hmet : ∀ m ∈ ms, ∀ f, Names m f → f ∉ ({} : Draft).met := by simp
  obtain ⟨out, hrun, hout⟩ := exists_run hm hn hmet
  exact ⟨out.config, ofJson_of_run ht hrun, hout⟩

-- All fields are written, so all are read.
theorem ofJson_toJson : ofJson c.toJson = .ok c := by
  obtain ⟨d, hd, hf⟩ :=
    exists_ofJson isDocument_toJson (fun _ => holds_of_mem_written) namedOnce_written
  have heq : d = c := by
    refine Field.eq_of_agrees fun f => ?_
    have hmem : Member.bare (ofText f.name) (ofText (f.write c)) ∈ c.written :=
      List.mem_map.mpr ⟨f, by cases f <;> simp [Field.all], rfl⟩
    exact (hf f).left _ hmem (names_bare.mpr rfl)
  rw [hd, heq]

theorem ofJson_eq_error (ht : IsDocument text ms) (hformed : ∀ m ∈ ms, m.IsWellFormed)
    (hn : ¬NamedOnce ms) : ∃ fault, ofJson text = .error fault := by
  cases h : ofJson text with
  | error fault => exact ⟨fault, rfl⟩
  | ok d =>
    obtain ⟨out, hrun⟩ := run_of_ofJson ht hformed h
    exact absurd (namedOnce_of_run hrun).left hn

end Read

-- Nothing is lost on the way to JSON and back. A document with any of the fields, in any order and
-- spelling and among any others, is read as what it says, with the standard values for the rest. A
-- document that says something twice is refused.
theorem ofJson_faithful (c : Config) :
    ofJson c.toJson = .ok c ∧
    (∀ text ms, IsDocument text ms → (∀ m ∈ ms, c.Holds m) → NamedOnce ms →
      ∃ d, ofJson text = .ok d ∧ ∀ f : Field,
        (∀ m ∈ ms, Names m f → f.Agrees d c) ∧
        ((∀ m ∈ ms, ¬Names m f) → f.Agrees d .standard)) ∧
    (∀ text ms, IsDocument text ms → (∀ m ∈ ms, m.IsWellFormed) → ¬NamedOnce ms →
      ∃ fault, ofJson text = .error fault) := by
  refine ⟨ofJson_toJson, ?_, ?_⟩
  case refine_1 => exact fun _ _ ht hm hn => exists_ofJson ht hm hn
  case refine_2 => exact fun _ _ ht hformed hn => ofJson_eq_error ht hformed hn

-- A field after another that is unknown, and a field twice.
theorem ofJson_faithful_maxEntries :
    (∃ d, ofJson "\x7b\"note\" : [-1.5],\"max_entries\":7\x7d" = .ok d ∧
      d.maxEntries = 7 ∧ d.maxEntryBytes = standard.maxEntryBytes) ∧
    ∃ fault, ofJson "\x7b\"max_entries\":7,\"max_entries\":7\x7d" = .error fault := by
  let c : Config := { standard with maxEntries := 7 }
  let seven : Member := .bare (ofText Field.maxEntries.name) (ofText "7")
  let note : Member := ⟨[], ofText "note", [0x20], ⟨[0x20], ofText "[-1.5]", []⟩⟩
  have hseven : ∀ f, Names seven f ↔ .maxEntries = f := fun _ => names_bare
  have hspelling : Json.Text.Spells note.spelling (ofText "note") :=
    Json.Text.spells_self (by decide)
  have hunknown : ∀ f : Field, ofText "note" ≠ ofText f.name := by
    intro f
    cases f <;> decide
  have hnote : ∀ f, ¬Names note f := fun f h => hunknown f (hspelling.eq h)
  have hblanks : Json.IsBlanks [] ∧ Json.IsBlanks [0x20] := by simp [Json.IsBlanks, Json.isBlank]
  have hvalue : IsValue note.element.value := by
    have hwhole : Json.Numeral.IsWhole [0x31] :=
      (Json.Numeral.isDecimal_toString (k := 1)).whole
    have hfraction : Json.Numeral.Fraction [0x2E, 0x35] (some [5]) :=
      .digits (Json.Numeral.isDecimal_toString (k := 5)).whole.left
    let number : Json.Element := ⟨[], ofText "-1.5", []⟩
    have hlist : Json.IsList [number] note.element.value :=
      ⟨by simpa using ⟨hblanks.left, hblanks.left⟩, _, .some, rfl⟩
    exact .list hlist (by simpa using .number (.intro .minus hwhole hfraction .absent))
  have hspaced : note.IsSpaced ∧ seven.IsSpaced :=
    ⟨⟨hblanks.left, hblanks.right, hblanks.right, hblanks.left⟩, Member.isSpaced_bare⟩
  have hholds : c.Holds note ∧ c.Holds seven := by
    have hwritten : Json.Numeral.IsDecimal (ofText "7") 7 :=
      Json.Numeral.isDecimal_toString (k := 7)
    exact ⟨.unknown _ hspelling hunknown hvalue, .known .maxEntries ((hseven _).mpr rfl) hwritten⟩
  constructor
  case left =>
    have hdocument : IsDocument "\x7b\"note\" : [-1.5],\"max_entries\":7\x7d" [note, seven] :=
      isDocument_intercalate (by simp) (by simp [hspaced]) rfl
    obtain ⟨d, hd, hf⟩ := (ofJson_faithful c).2.1 _ _ hdocument (by simp [hholds])
      (by simp [NamedOnce, hnote])
    exact ⟨d, hd, (hf .maxEntries).left seven (by simp) ((hseven _).mpr rfl),
      (hf .maxEntryBytes).right (by simp [hnote, hseven])⟩
  case right =>
    have hdocument : IsDocument "\x7b\"max_entries\":7,\"max_entries\":7\x7d" [seven, seven] :=
      isDocument_intercalate (by simp) (by simp [hspaced]) rfl
    exact (ofJson_faithful c).2.2 _ _ hdocument (by simp [hholds.right.isWellFormed])
      (by simp [NamedOnce, hseven])

end Config

end OnceCache
