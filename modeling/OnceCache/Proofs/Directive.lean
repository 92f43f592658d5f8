import Mathlib.Data.List.DropRight
import Mathlib.Data.List.Forall2
import OnceCache.Directive
import OnceCache.Proofs.Text.Separators

namespace OnceCache.Directive

open Bytes (IsFront IsPart cut lower split)
open Http (Header HeaderName HeaderValue Headers)

variable {s name member list : Bytes} {names : List Bytes} {headers headers' : Headers} {h : Header}
variable {b c : UInt8}

-- What is left without the blanks at both ends.
def IsTrimmed (s name : Bytes) : Prop :=
  ∃ left right, s = left ++ name ++ right ∧ (∀ b ∈ left ++ right, isBlank b) ∧
    (∀ b ∈ name.head?, ¬isBlank b) ∧ ∀ b ∈ name.getLast?, ¬isBlank b

-- A member has a name and perhaps an argument, which begins with an equals sign.
def HasName (member name : Bytes) : Prop :=
  ∃ front, IsFront 0x3D member front ∧ IsTrimmed front name

-- Names that ask for a fresh body in a header.
inductive Counts (header : HeaderName) (name : Bytes) : Prop
  | noCache :
    header = .cacheControl ∨ header = .pragma → name.equalsIgnoringCase noCacheName →
    Counts header name
  | noStore :
    header = .cacheControl → name.equalsIgnoringCase noStoreName → Counts header name

-- Names that ask for nothing in a header.
inductive Idle (header : HeaderName) (name : Bytes) : Prop
  | noStore : header = .pragma → name.equalsIgnoringCase noStoreName → Idle header name
  | longer {token rest : Bytes} :
    token ∈ [noCacheName, noStoreName] → rest ≠ [] → name.equalsIgnoringCase (token ++ rest) →
    Idle header name
  | other :
    (∀ token ∈ [noCacheName, noStoreName], ¬name.equalsIgnoringCase token) → Idle header name

-- A readable line with a member that asks for a fresh body.
structure Asks (h : Header) : Prop where
  readable : ∀ b ∈ h.value.bytes, b = 0x09 ∨ 0x20 ≤ b ∧ b ≤ 0x7E
  member   : ∃ member name, IsPart 0x2C h.value.bytes member ∧ HasName member name ∧
    Counts h.name name

-- Whether a line is one that is looked at.
def isRelevant (h : Header) : Bool := h.name = .cacheControl || h.name = .pragma

-- Lines that differ in nothing but capital and small letters.
structure SameLetters (h h' : Header) : Prop where
  name  : h'.name = h.name
  value : h'.value.bytes.equalsIgnoringCase h.value.bytes

-- A line with some members.
def listOf (members : List Bytes) : HeaderValue := ⟨[0x2C].intercalate members⟩

-- The members of two lines on one.
def joined (a b : HeaderValue) : HeaderValue := ⟨a.bytes ++ 0x2C :: b.bytes⟩

-- A directive that is what the lists in the lines of a request say.
structure FollowsLists (headers : Headers) : Prop where
  asked   : ofHeaders headers = .noCache ↔ ∃ h ∈ headers, Asks h
  lines   : ∀ {headers'}, headers.Perm headers' → ofHeaders headers' = ofHeaders headers
  members : ∀ {before after name members members'},
    headers = before ++ ⟨name, listOf members⟩ :: after → (∀ m ∈ members, 0x2C ∉ m) →
    members.Perm members' →
    ofHeaders (before ++ ⟨name, listOf members'⟩ :: after) = ofHeaders headers
  letters : ∀ {headers'}, List.Forall₂ SameLetters headers headers' →
    ofHeaders headers' = ofHeaders headers
  others  : ∀ {headers'}, headers'.filter isRelevant = headers.filter isRelevant →
    ofHeaders headers' = ofHeaders headers
  joined  : ∀ {headers' name a b rest}, headers.Perm (⟨name, a⟩ :: ⟨name, b⟩ :: rest) →
    a.isReadable → b.isReadable → headers'.Perm (⟨name, joined a b⟩ :: rest) →
    ofHeaders headers' = ofHeaders headers
  added   : ∀ {headers'}, headers ⊆ headers' → ofHeaders headers = .noCache →
    ofHeaders headers' = .noCache
  idle    : ∀ {h},
    (∀ {member name}, IsPart 0x2C h.value.bytes member → HasName member name → Idle h.name name) →
    ofHeaders (h :: headers) = ofHeaders headers

section Names

theorem isTrimmed_trim : IsTrimmed s (trim s) := by
  have hr : trim s = (s.dropWhile isBlank).rdropWhile isBlank := rfl
  rw [hr]
  refine ⟨s.takeWhile isBlank, (s.dropWhile isBlank).rtakeWhile isBlank, ?_, ?_, ?_, ?_⟩
  · rw [List.append_assoc, List.rdropWhile_append_rtakeWhile, List.takeWhile_append_dropWhile]
  · intro b hb
    obtain hb | hb := List.mem_append.mp hb
    case inl => exact List.mem_takeWhile_imp hb
    case inr => exact List.mem_rtakeWhile_imp hb
  · intro b hb
    -- The first byte that is left was the first one without the blanks in front.
    have hd := List.head?_dropWhile_not isBlank s
    rw [← List.rdropWhile_append_rtakeWhile (p := isBlank) (l := s.dropWhile isBlank),
      List.head?_append, Option.mem_def.mp hb] at hd
    simpa using hd
  · intro b hb
    obtain ⟨hne, rfl⟩ := List.mem_getLast?_eq_getLast hb
    exact List.rdropWhile_last_not isBlank _ hne

theorem IsTrimmed.trim_eq (h : IsTrimmed s name) : trim s = name := by
  obtain ⟨left, right, rfl, hb, hf, hl⟩ := h
  have hleft : ∀ b ∈ left, isBlank b := fun b h => hb b (List.mem_append_left _ h)
  have hright : ∀ b ∈ right.reverse, isBlank b := fun b h => hb b (by simp_all)
  rw [trim, List.append_assoc, List.dropWhile_append_of_pos hleft]
  cases name with
  | nil =>
    have : right.dropWhile isBlank = [] := List.dropWhile_eq_nil_iff.mpr (by simpa using hright)
    simp [this]
  | cons x xs =>
    obtain ⟨ys, y, hy⟩ := (x :: xs).eq_nil_or_concat'.resolve_left (List.cons_ne_nil x xs)
    have hx : ¬isBlank x := hf x rfl
    have hy' : ¬isBlank y := hl y (by simp [hy])
    rw [List.cons_append, List.dropWhile_cons_of_neg hx, ← List.cons_append, List.reverse_append,
      List.dropWhile_append_of_pos hright, hy, List.reverse_append, List.reverse_singleton,
      List.singleton_append, List.dropWhile_cons_of_neg hy', List.reverse_cons,
      List.reverse_reverse]

theorem memberName_eq_iff : memberName member = name ↔ HasName member name := by
  constructor
  case mp =>
    rintro rfl
    exact ⟨_, Bytes.cut_eq_iff.mp rfl, isTrimmed_trim⟩
  case mpr =>
    rintro ⟨front, hf, ht⟩
    rw [memberName, Bytes.cut_eq_iff.mpr hf, ht.trim_eq]

theorem hasMember_iff : hasMember names list ↔
    ∃ member name, IsPart 0x2C list member ∧ HasName member name ∧
      ∃ wanted ∈ names, name.equalsIgnoringCase wanted := by
  simp only [hasMember, List.any_eq_true, Bytes.mem_split_iff, ← memberName_eq_iff]
  constructor
  case mp =>
    rintro ⟨member, hm, hn⟩
    exact ⟨member, _, hm, rfl, hn⟩
  case mpr =>
    rintro ⟨member, _, hm, rfl, hn⟩
    exact ⟨member, hm, hn⟩

end Names

section Lines

-- The names that ask for a fresh body in a header.
def wanted (header : HeaderName) : List Bytes :=
  if header = .cacheControl then [noCacheName, noStoreName]
  else if header = .pragma then [noCacheName]
  else []

-- Whether a line asks for a fresh body.
def asks (h : Header) : Bool := h.value.isReadable && hasMember (wanted h.name) h.value.bytes

theorem isAskedBy_iff {header : HeaderName} : isAskedBy headers header names ↔
    ∃ h ∈ headers, h.value.isReadable ∧ h.name = header ∧ hasMember names h.value.bytes := by
  simp [isAskedBy, Headers.all, and_left_comm]

theorem wanted_of_not_isRelevant (hr : isRelevant h = false) : wanted h.name = [] := by
  simp only [isRelevant, Bool.or_eq_false_iff, decide_eq_false_iff_not] at hr
  rw [wanted, if_neg hr.left, if_neg hr.right]

theorem hasMember_nil : hasMember [] list = false := by
  simp [hasMember]

theorem asks_of_not_isRelevant (hr : isRelevant h = false) : asks h = false := by
  rw [asks, wanted_of_not_isRelevant hr, hasMember_nil, Bool.and_false]

theorem ofHeaders_eq_noCache_iff : ofHeaders headers = .noCache ↔ headers.any asks := by
  have hd : ofHeaders headers = .noCache ↔
      isAskedBy headers .cacheControl [noCacheName, noStoreName] ∨
        isAskedBy headers .pragma [noCacheName] := by
    rw [ofHeaders, ← Bool.or_eq_true]
    split <;> simp_all
  rw [hd, isAskedBy_iff, isAskedBy_iff, List.any_eq_true]
  constructor
  case mp =>
    rintro (⟨h, hm, hr, hn, hl⟩ | ⟨h, hm, hr, hn, hl⟩)
    · exact ⟨h, hm, by simp [asks, hr, wanted, hn, hl]⟩
    · have hc : HeaderName.pragma ≠ .cacheControl := by decide
      exact ⟨h, hm, by simp [asks, hr, wanted, hn, hl, hc]⟩
  case mpr =>
    rintro ⟨h, hm, ha⟩
    obtain ⟨hr, hl⟩ := Bool.and_eq_true_iff.mp ha
    by_cases hc : h.name = .cacheControl
    case pos =>
      rw [wanted, if_pos hc] at hl
      exact .inl ⟨h, hm, hr, hc, hl⟩
    case neg =>
      by_cases hp : h.name = .pragma
      case pos =>
        rw [wanted, if_neg hc, if_pos hp] at hl
        exact .inr ⟨h, hm, hr, hp, hl⟩
      case neg =>
        rw [wanted, if_neg hc, if_neg hp, hasMember_nil] at hl
        cases hl

-- Requests with lines that ask for the same have the same directive.
theorem ofHeaders_eq (h : headers'.any asks = headers.any asks) :
    ofHeaders headers' = ofHeaders headers := by
  have hs : ofHeaders headers' = .noCache ↔ ofHeaders headers = .noCache := by
    rw [ofHeaders_eq_noCache_iff, ofHeaders_eq_noCache_iff, h]
  cases hd : ofHeaders headers <;> cases hd' : ofHeaders headers' <;> simp_all

theorem any_asks_filter : (headers.filter isRelevant).any asks = headers.any asks := by
  rw [List.any_filter]
  refine congrArg headers.any (funext fun h => ?_)
  cases hr : isRelevant h
  case true => rw [Bool.true_and]
  case false => rw [Bool.false_and, asks_of_not_isRelevant hr]

theorem isReadable_iff {value : HeaderValue} :
    value.isReadable ↔ ∀ b ∈ value.bytes, b = 0x09 ∨ 0x20 ≤ b ∧ b ≤ 0x7E := by
  have hb (b : UInt8) : b < 0x7F ↔ b ≤ 0x7E := by
    simp only [UInt8.lt_iff_toNat_lt, UInt8.le_iff_toNat_le, UInt8.reduceToNat]
    omega
  simp only [HeaderValue.isReadable, List.all_eq_true, Bool.or_eq_true, Bool.and_eq_true,
    decide_eq_true_eq, hb]

theorem counts_iff {header : HeaderName} :
    Counts header name ↔ ∃ token ∈ wanted header, name.equalsIgnoringCase token := by
  constructor
  case mp =>
    rintro (⟨rfl | rfl, hc⟩ | ⟨rfl, hc⟩)
    · exact ⟨_, .head _, hc⟩
    · exact ⟨_, .head _, hc⟩
    · exact ⟨_, .tail _ (.head _), hc⟩
  case mpr =>
    rintro ⟨token, ht, hc⟩
    unfold wanted at ht
    split at ht
    case isTrue hn =>
      obtain rfl | rfl : token = noCacheName ∨ token = noStoreName := by simpa using ht
      · exact .noCache (.inl hn) hc
      · exact .noStore hn hc
    case isFalse =>
      split at ht
      case isTrue hn =>
        obtain rfl : token = noCacheName := by simpa using ht
        exact .noCache (.inr hn) hc
      case isFalse => cases ht

theorem asks_iff : asks h ↔ Asks h := by
  rw [asks, Bool.and_eq_true, isReadable_iff, hasMember_iff]
  simp only [← counts_iff]
  exact ⟨fun h => ⟨h.left, h.right⟩, fun h => ⟨h.readable, h.member⟩⟩

-- Idle names do not count.
theorem Idle.not_counts {header : HeaderName} (h : Idle header name) : ¬Counts header name := by
  have hl (token) (ht : token ∈ [noCacheName, noStoreName]) : token.length = 8 := by
    obtain rfl | rfl : token = noCacheName ∨ token = noStoreName := by simpa using ht
    all_goals rfl
  -- A name is no other one, even if case does not count.
  have he {token token' : Bytes} (h : name.equalsIgnoringCase token)
      (h' : name.equalsIgnoringCase token') : token.map lower = token'.map lower :=
    (of_decide_eq_true h).symm.trans (of_decide_eq_true h')
  intro hc
  have hw : ∃ token ∈ [noCacheName, noStoreName], name.equalsIgnoringCase token := by
    cases hc
    case noCache hc => exact ⟨_, .head _, hc⟩
    case noStore hc => exact ⟨_, .tail _ (.head _), hc⟩
  cases h
  case noStore hn hs =>
    cases hc
    case noCache hc => exact absurd (he hc hs) (by decide)
    case noStore hh _ => exact absurd (hn.symm.trans hh) (by decide)
  case longer token rest ht hr hn =>
    obtain ⟨token', ht', hc⟩ := hw
    have hlen : (token ++ rest).length = token'.length := by
      have := congrArg List.length (he hn hc)
      simpa only [List.length_map] using this
    rw [List.length_append, hl _ ht, hl _ ht', Nat.add_eq_left] at hlen
    exact hr (List.length_eq_zero_iff.mp hlen)
  case other ho =>
    obtain ⟨token, ht, hc⟩ := hw
    exact ho token ht hc

end Lines

section Members

variable {a b : HeaderValue} {members members' : List Bytes} {header : HeaderName}

theorem hasMember_join {s t : Bytes} :
    hasMember names (s ++ 0x2C :: t) = (hasMember names s || hasMember names t) := by
  rw [hasMember, Bytes.split_join, List.any_append]
  rfl

theorem asks_joined (ha : a.isReadable) (hb : b.isReadable) :
    asks ⟨header, joined a b⟩ = (asks ⟨header, a⟩ || asks ⟨header, b⟩) := by
  have hj : (joined a b).isReadable := by
    simp only [isReadable_iff, joined, List.mem_append, List.mem_cons] at ha hb ⊢
    rintro c (hc | rfl | hc)
    · exact ha c hc
    · exact .inr (by decide)
    · exact hb c hc
  simp only [asks, ha, hb, hj, Bool.true_and]
  exact hasMember_join

theorem asks_listOf (h : ∀ m ∈ members, 0x2C ∉ m) (hp : members.Perm members') :
    asks ⟨header, listOf members'⟩ = asks ⟨header, listOf members⟩ := by
  have hr : (listOf members').isReadable = (listOf members).isReadable := by
    rw [HeaderValue.isReadable, HeaderValue.isReadable, listOf, listOf,
      Bytes.all_intercalate rfl, Bytes.all_intercalate rfl]
    exact hp.symm.all_eq
  have hm : hasMember (wanted header) (listOf members').bytes =
      hasMember (wanted header) (listOf members).bytes := by
    by_cases hn : members = []
    case pos =>
      subst hn
      rw [List.nil_perm.mp hp]
    case neg =>
      have hn' : members' ≠ [] := fun he => hn (List.perm_nil.mp (he ▸ hp))
      rw [hasMember, hasMember, listOf, listOf, Bytes.split_intercalate hn h,
        Bytes.split_intercalate hn' fun m hm => h m (hp.mem_iff.mpr hm)]
      exact hp.symm.any_eq
  rw [asks, asks, hr, hm]

end Members

section Letters

-- Signs are neither capital nor small letters.
theorem lower_eq_iff (hc : c < 0x41 ∨ 0x7A < c) : lower b = c ↔ b = c := by
  unfold lower
  split
  case isTrue hb =>
    simp only [UInt8.lt_iff_toNat_lt, UInt8.le_iff_toNat_le, ← UInt8.toNat_inj, UInt8.toNat_add,
      UInt8.reduceToNat] at hb hc ⊢
    omega
  case isFalse => rfl

theorem lower_lower : lower (lower b) = lower b := by
  have hb : ¬(0x41 ≤ lower b ∧ lower b ≤ 0x5A) := by
    unfold lower
    split
    case isTrue hb =>
      simp only [UInt8.le_iff_toNat_le, UInt8.toNat_add, UInt8.reduceToNat] at hb ⊢
      omega
    case isFalse hb => exact hb
  rw [lower, if_neg hb]

theorem isBlank_lower : isBlank (lower b) = isBlank b := by
  have ht : lower b = 0x09 ↔ b = 0x09 := lower_eq_iff (.inl (by decide))
  have hs : lower b = 0x20 ↔ b = 0x20 := lower_eq_iff (.inl (by decide))
  simp only [isBlank, ht, hs]

theorem trim_map_lower : trim (s.map lower) = (trim s).map lower := by
  have hb : isBlank ∘ lower = isBlank := funext fun _ => isBlank_lower
  simp only [trim, List.dropWhile_map, ← List.map_reverse, hb]

theorem memberName_map_lower : memberName (member.map lower) = (memberName member).map lower := by
  rw [memberName, Bytes.cut_map fun _ => lower_eq_iff (.inl (by decide)), trim_map_lower]
  rfl

theorem hasMember_map_lower : hasMember names (list.map lower) = hasMember names list := by
  have hm (member : Bytes) (name : Bytes) :
      (memberName (member.map lower)).equalsIgnoringCase name =
        (memberName member).equalsIgnoringCase name := by
    rw [memberName_map_lower, Bytes.equalsIgnoringCase, List.map_map]
    have : lower ∘ lower = lower := funext fun _ => lower_lower
    rw [this]
    rfl
  rw [hasMember, Bytes.split_map fun _ => lower_eq_iff (.inl (by decide)), List.any_map, hasMember]
  refine congrArg (split 0x2C list).any (funext fun member => ?_)
  exact congrArg names.any (funext (hm member))

theorem asks_map_lower : asks ⟨h.name, ⟨h.value.bytes.map lower⟩⟩ = asks h := by
  have hr : HeaderValue.isReadable ⟨h.value.bytes.map lower⟩ = h.value.isReadable := by
    rw [HeaderValue.isReadable, List.all_map]
    refine congrArg h.value.bytes.all (funext fun b => ?_)
    have ht : lower b = 0x09 ↔ b = 0x09 := lower_eq_iff (.inl (by decide))
    have hl : 0x20 ≤ lower b ∧ lower b < 0x7F ↔ 0x20 ≤ b ∧ b < 0x7F := by
      unfold lower
      split
      case isTrue hb =>
        simp only [UInt8.lt_iff_toNat_lt, UInt8.le_iff_toNat_le, UInt8.toNat_add,
          UInt8.reduceToNat] at hb ⊢
        omega
      case isFalse => rfl
    simp only [Function.comp_apply, ht, ← Bool.decide_and, hl]
  rw [asks, hr]
  dsimp only
  rw [hasMember_map_lower, asks]

theorem SameLetters.asks_eq {h' : Header} (hs : SameLetters h h') : asks h' = asks h := by
  rw [← asks_map_lower, ← asks_map_lower (h := h), hs.name, of_decide_eq_true hs.value]

end Letters

-- The directive of a request follows the lists in its lines.
theorem follows_lists (headers : Headers) : FollowsLists headers := by
  constructor
  case asked =>
    rw [ofHeaders_eq_noCache_iff, List.any_eq_true]
    simp only [asks_iff]
  case lines => exact fun hp => ofHeaders_eq hp.symm.any_eq
  case members =>
    rintro before after name members members' rfl hc hp
    refine ofHeaders_eq ?_
    rw [List.any_append, List.any_append, List.any_cons, List.any_cons, asks_listOf hc hp]
  case letters =>
    intro headers' h
    refine ofHeaders_eq ?_
    induction h with
    | nil => rfl
    | cons hs _ hi => rw [List.any_cons, List.any_cons, hs.asks_eq, hi]
  case others =>
    intro headers' h
    exact ofHeaders_eq (by rw [← any_asks_filter, h, any_asks_filter])
  case joined =>
    intro headers' name a b rest hp ha hb hp'
    refine ofHeaders_eq ?_
    rw [hp.any_eq, hp'.any_eq, List.any_cons, List.any_cons, List.any_cons, asks_joined ha hb,
      Bool.or_assoc]
  case added =>
    intro headers' hs
    rw [ofHeaders_eq_noCache_iff, ofHeaders_eq_noCache_iff, List.any_eq_true, List.any_eq_true]
    exact fun ⟨h, hm, ha⟩ => ⟨h, hs hm, ha⟩
  case idle =>
    intro h hi
    have ha : asks h = false := by
      refine Bool.eq_false_iff.mpr fun ha => ?_
      obtain ⟨member, name, hm, hn, hc⟩ := (asks_iff.mp ha).member
      exact (hi hm hn).not_counts hc
    exact ofHeaders_eq (by rw [List.any_cons, ha, Bool.false_or])

-- A longer name is another one, and `no-store` counts in `Cache-Control` alone.
example :
    ofHeaders [⟨.cacheControl, .ofText "no-cache-ext"⟩, ⟨.pragma, .ofText "no-store"⟩] =
      .standard ∧
    ofHeaders [⟨.cacheControl, .ofText "max-age=60,\tNo-Store = x"⟩] = .noCache := by
  decide +kernel

end OnceCache.Directive
