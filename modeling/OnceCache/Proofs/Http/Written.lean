import OnceCache.Proofs.Http.Target

namespace OnceCache.Http

open Bytes (cut ofText)

-- A part that starts with a sign of its own and can be left out.
def part (sign : UInt8) : Option Bytes → Bytes
  | none => []
  | some content => sign :: content

theorem cut_eq_part {sep : UInt8} {s : Bytes} :
    s = (cut sep s).1 ++ part sep (cut sep s).2 ∧ sep ∉ (cut sep s).1 := by
  induction s with
  | nil => simp [cut, part]
  | cons b s hi =>
    by_cases hb : b = sep
    case pos => simp [cut, hb, part]
    case neg => simpa [cut, hb, Ne.symm hb] using hi

-- A resource that is written as a path, a query and a fragment. The path stands in front of the
-- first question mark, and where it is left out it is the root. Nothing is known of the fragment.
structure Resource.Written (s : Bytes) (r : Resource) : Prop where
  parts : ∃ path fragment, s = path ++ part 0x3F (r.query.map ofText) ++ part 0x23 fragment ∧
    (path = [] ∧ r.path = "/" ∨ path ≠ [] ∧ path = ofText r.path)
  path  : 0x3F ∉ ofText r.path ∧ 0x23 ∉ ofText r.path
  query : ∀ query ∈ r.query, 0x23 ∉ ofText query

-- A target that is written in one of four forms. An authority ends where a path, a query or a
-- fragment starts. A scheme can be written in capital letters.
inductive Target.Written : Bytes → Target → Prop
  | asterisk : Written [0x2A] (.resource ⟨"*", none⟩)
  | origin {s r} : s.head? = some 0x2F → r.Written s → Written s (.resource r)
  | absolute {front scheme host s r} :
    (ofText scheme ++ marker).equalsIgnoringCase front → (∀ b ∈ ofText host, !endsAuthority b) →
    (∀ b ∈ s.head?, endsAuthority b) → r.Written s →
    Written (front ++ ofText host ++ s) (.absolute scheme host r)
  | authority {host} : Written (ofText host) (.authority host)

section

variable {s : Bytes} {r : Resource} {t : Target} {scheme rest : Bytes}

theorem Resource.written_of_parse? (h : parse? s = some r) : r.Written s := by
  have hpath : IsPath r.path := isPath_of_parse? h
  have ⟨hs, hf⟩ : s = (cut 0x23 s).1 ++ part 0x23 (cut 0x23 s).2 ∧ 0x23 ∉ (cut 0x23 s).1 :=
    cut_eq_part
  have ⟨hr, _⟩ : (cut 0x23 s).1 = (cut 0x3F (cut 0x23 s).1).1 ++
      part 0x3F (cut 0x3F (cut 0x23 s).1).2 ∧ _ := cut_eq_part
  unfold parse? at h
  generalize (cut 0x23 s).1 = resource, (cut 0x23 s).2 = fragment at h hs hf hr
  generalize cut 0x3F resource = parts at h hr
  obtain ⟨path, query⟩ := parts
  simp only [Option.bind_eq_bind, Option.bind_eq_some_iff] at h
  obtain ⟨_, _, h⟩ := h
  suffices hread : (path = [] ∧ r.path = "/" ∨ path ≠ [] ∧ path = ofText r.path) ∧
      r.query.map ofText = query by
    obtain ⟨hp, hq⟩ := hread
    constructor
    case parts => exact ⟨path, fragment, by rw [hq, ← hr, ← hs], hp⟩
    case path => exact ⟨hpath.not_mem rfl, hpath.not_mem rfl⟩
    case query =>
      intro x hx hm
      apply hf
      rw [hr, ← hq, Option.mem_def.mp hx]
      exact List.mem_append_right _ (List.mem_cons_of_mem _ hm)
  split at h
  all_goals
    obtain ⟨text, htext, h⟩ := Option.bind_eq_some_iff.mp h
    obtain ⟨rfl, hq⟩ : r.path = text ∧ r.query.map ofText = query := by
      cases query
      case none =>
        cases h
        exact ⟨rfl, rfl⟩
      case some query =>
        simp only [Option.bind_eq_some_iff] at h
        obtain ⟨_, _, _, hquery, h⟩ := h
        cases h
        exact ⟨rfl, congrArg some (Bytes.ofText_of_toText? hquery)⟩
    refine ⟨?_, hq⟩
  case isTrue he _ => exact .inl ⟨List.isEmpty_iff.mp he, (Option.some.inj htext).symm⟩
  case isFalse he _ =>
    refine .inr ⟨fun hn => he (List.isEmpty_iff.mpr hn), ?_⟩
    exact (Bytes.ofText_of_toText? htext).symm

namespace Target

-- A scheme stands in front of its mark, as it is given or in small letters.
theorem of_scanScheme (h : scanScheme s = .found scheme rest) :
    ∃ front, s = front ++ rest ∧ (scheme ++ marker).equalsIgnoringCase front := by
  unfold scanScheme at h
  split at h
  case isTrue he =>
    cases h
    exact ⟨s.take 7, (List.take_append_drop ..).symm, he⟩
  case isFalse =>
    split at h
    case isTrue he =>
      cases h
      exact ⟨s.take 8, (List.take_append_drop ..).symm, he⟩
    case isFalse =>
      split at h
      case isTrue => cases h
      case isFalse =>
        dsimp only at h
        split at h
        case isTrue => cases h
        case isFalse hm =>
          split at h
          case isTrue => cases h
          case isFalse =>
            cases h
            refine ⟨s.takeWhile isSchemeByte ++ marker, ?_, decide_eq_true rfl⟩
            rw [List.append_assoc, ← not_not.mp hm, List.take_append_drop,
              List.takeWhile_append_dropWhile]

theorem written_of_parse? (h : parse? s = some t) : t.Written s := by
  unfold parse? at h
  simp only [Option.bind_eq_bind, Option.bind_eq_some_iff] at h
  obtain ⟨_, _, h⟩ := h
  split at h
  case isTrue hs =>
    cases h
    exact hs ▸ .asterisk
  case isFalse =>
    split at h
    case isTrue hs =>
      obtain ⟨r, hr, h⟩ := Option.bind_eq_some_iff.mp h
      cases h
      exact .origin hs (Resource.written_of_parse? hr)
    case isFalse =>
      split at h
      case h_1 => cases h
      case h_2 =>
        simp only [Option.bind_eq_some_iff] at h
        obtain ⟨_, _, host, hhost, h⟩ := h
        cases h
        rw [← Bytes.ofText_of_toText? hhost]
        exact .authority
      case h_3 scheme rest hscheme =>
        simp only [Option.bind_eq_some_iff] at h
        obtain ⟨_, _, r, hr, name, hname, host, hhost, h⟩ := h
        cases h
        obtain ⟨front, hs, hfront⟩ := of_scanScheme hscheme
        have hh : ofText host = rest.takeWhile (!endsAuthority ·) := Bytes.ofText_of_toText? hhost
        rw [hs, ← List.takeWhile_append_dropWhile (p := (!endsAuthority ·)) (l := rest), ← hh,
          ← List.append_assoc]
        refine .absolute ?_ ?_ ?_ (Resource.written_of_parse? hr)
        · rwa [Bytes.ofText_of_toText? hname]
        · exact fun b hb => List.all_eq_true.mp List.all_takeWhile b (hh ▸ hb)
        · intro b hb
          have hd := List.head?_dropWhile_not (!endsAuthority ·) rest
          rw [Option.mem_def.mp hb] at hd
          simpa using hd

end Target

end

end OnceCache.Http
