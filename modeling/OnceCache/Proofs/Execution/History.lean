import OnceCache.Proofs.Execution.Step

namespace OnceCache.Execution.State

variable {σ ε : Type} [ByteStore σ] {s t : State σ ε} {id : PartyId} {p : Party} {d : Directive}
variable {stage : Stage} {answer : Poll ε} {generation : Generation ε} {action : Action σ ε}

namespace Stepped

theorem now_le (h : s.Stepped action t) : s.now ≤ t.now := by
  cases h
  case quiet hq => exact hq.now
  case tended => exact Nat.le_refl _
  case looked hq hl => exact hl.now ▸ hq.now

theorem looks_subset (h : s.Stepped action t) : s.looks ⊆ t.looks := by
  cases h
  case quiet hq => exact hq.looks ▸ List.Subset.refl _
  case tended => exact List.Subset.refl _
  case looked hq hl =>
    rw [hl.looks, hq.looks]
    exact List.subset_append_left ..

end Stepped

-- Time does not run backwards, and what was seen stays seen.
theorem Faithful.run_later (h : s.Faithful) (describe : ε → String)
    (actions : List (Action σ ε)) :
    s.now ≤ (s.run describe actions).now ∧ s.looks ⊆ (s.run describe actions).looks := by
  induction actions generalizing s
  case nil => exact ⟨Nat.le_refl _, List.Subset.refl _⟩
  case cons action actions hi =>
    have hs : s.Stepped action (s.step describe action) := h.stepped
    have ht : (s.step describe action).Faithful := h.step
    have ⟨hn, hl⟩ := hi ht
    exact ⟨Nat.le_trans hs.now_le hn, List.Subset.trans hs.looks_subset hl⟩

-- A request that is there was never done, and if it waits, then its generation has never run.
structure Recorded (s : State σ ε) : Prop where
  ids     : ∀ {id look}, (id, look) ∈ s.looks → id < s.coordinator.nextParty
  pending : ∀ {id v look}, s.live.find? id = some v → v.directive.isSome →
    (id, look) ∈ s.looks → ∃ generating, look.answer = .pending generating ∧
      (generating → v.isOwner)

namespace Recorded

section

omit [ByteStore σ]

theorem init {store : σ} {now : Instant} : (init store now : State σ ε).Recorded where
  ids h         := by cases h
  pending _ _ h := by cases h

theorem unran {v : Sighting} {look : Look ε} (h : s.Recorded) (hv : s.live.find? id = some v)
    (hd : v.directive.isSome) (hm : (id, look) ∈ s.looks) (ho : v.isOwner = false) :
    look.answer.ran = false := by
  obtain ⟨generating, ha, hg⟩ := h.pending hv hd hm
  rw [ha]
  cases generating
  case false => rfl
  case true => simp [hg rfl] at ho

theorem quiet {request? : Option (Key × Directive)} (h : s.Recorded) (hq : s.Quiet request? t) :
    t.Recorded where
  ids hm := Nat.lt_of_lt_of_le (h.ids (hq.looks ▸ hm)) hq.next
  pending hv hd hm := by
    rw [hq.looks] at hm
    cases hq.requests hv hd
    case inl hv => exact h.pending hv hd hm
    case inr hv => exact absurd (h.ids hm) (Nat.not_lt_of_le hv.left)

end

theorem look (h : s.Recorded) (hs : s.Faithful)
    (hl : s.Looking id generation t p d stage answer) : t.Recorded where
  ids {j look} hm := by
    rw [hl.coordinator, Coordinator.afterLook_nextParty]
    rw [hl.looks, List.mem_append, List.mem_singleton] at hm
    cases hm
    case inl hm => exact h.ids hm
    case inr he =>
      cases he
      exact hs.sound.fresh hl.party
  pending {j v look} hv hd hm := by
    rw [hl.live] at hv
    rw [hl.looks, List.mem_append, List.mem_singleton] at hm
    split at hv
    case isTrue he =>
      subst he
      cases answer <;> cases hv
      case pending generating =>
        cases hm
        case inr he =>
          cases he
          exact ⟨generating, rfl, (·)⟩
        case inl hm =>
          -- Whoever owned its lock before still does.
          have hd : p.sighting.directive = some d := hl.directive
          obtain ⟨generating', ha, hg⟩ :=
            h.pending (hs.live_of_party hl.party) (by rw [hd]; rfl) hm
          refine ⟨generating', ha, fun he => ?_⟩
          rw [← hl.looked.isOwner_eq rfl]
          exact hl.looked.isOwner_of (hg he)
    case isFalse hj =>
      cases hm
      case inl hm => exact h.pending hv hd hm
      case inr he =>
        cases he
        exact absurd rfl hj

end Recorded

end OnceCache.Execution.State
