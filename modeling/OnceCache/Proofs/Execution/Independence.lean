import OnceCache.Proofs.Coordination.Projection
import OnceCache.Proofs.Execution.Faithful

namespace OnceCache.Execution

variable {σ ε : Type} {s t : State σ ε} {id : PartyId} {p : Party} {key : Key} {d : Directive}
variable {stage : Stage} {answer : Poll ε} {generation : Generation ε} {action : Action σ ε}

-- The key that an action has to do with.
def Action.key? (s : State σ ε) : Action σ ε → Option Key
  | .allocate key | .start key _ _ => some key
  | .askLock id | .pollLock id | .abandon id | .unlock id | .free id | .poll id _ | .cancel id =>
    (s.live.find? id).map (·.key)
  | .wait _ | .tend _ => none

-- What is done for one key leaves all others as they are, and everyone waits only behind parties of
-- its own key.
structure State.Separate [ByteStore σ] (describe : ε → String) (s : State σ ε) : Prop where
  untouched : ∀ action key, action.key? s ≠ some key →
    s.coordinator.Untouched key (s.step describe action).coordinator
  behind    : ∀ {id p}, s.coordinator.parties.find? id = some p →
    ∀ j ∈ (s.coordinator.lineOf p.lock).parties, ∃ v, s.live.find? j = some v ∧ v.key = p.key

namespace State.Faithful

variable [ByteStore σ] {describe : ε → String}

theorem untouched_look (h : s.Faithful)
    (hk : ∀ {p}, s.coordinator.parties.find? id = some p → p.key ≠ key) :
    s.coordinator.Untouched key (s.look describe id generation).coordinator := by
  obtain he | ⟨p, d, stage, answer, hl⟩ := h.look_cases describe id generation
  case inl =>
    rw [he]
    exact .refl
  case inr =>
    rw [hl.coordinator, Coordinator.afterLook]
    split
    case isTrue => exact .setStage hl.party (hk hl.party)
    case isFalse => exact .depart h.sound.toRegistered hl.party (hk hl.party)

theorem untouched (h : s.Faithful) (hk : action.key? s ≠ some key) :
    s.coordinator.Untouched key (s.step describe action).coordinator := by
  have hr : s.coordinator.Registered := h.sound.toRegistered
  -- The party that an action is about is not one of the key.
  have hid {id p} (hi : (s.live.find? id).map (·.key) ≠ some key)
      (hp : s.coordinator.parties.find? id = some p) : p.key ≠ key := by
    rw [h.live_of_party hp] at hi
    exact fun he => hi (congrArg some he)
  let P (t : State σ ε) : Prop := s.coordinator.Untouched key t.coordinator
  have hs : P s := .refl
  cases action
  case allocate k => exact .enter hr fun he => hk (congrArg some he)
  case askLock id =>
    exact attempt_of (P := P) hs fun _ ha => .askLock h.sound (hid hk) ha
  case pollLock id =>
    exact attempt_of (P := P) hs fun _ ha => .pollLock h.sound (hid hk) ha
  case abandon id =>
    refine attempt_of (P := P) hs fun _ ha => ?_
    obtain ⟨p, hg⟩ := hr.of_abandon ha
    exact .goes h.sound (hid hk) hg
  case unlock id =>
    refine attempt_of (P := P) hs fun _ ha => ?_
    obtain ⟨p, hg⟩ := hr.of_unlock ha
    exact .goes h.sound (hid hk) hg
  case free id =>
    refine attempt_of (P := P) hs fun _ ha => ?_
    obtain ⟨p, hg⟩ := Coordinator.of_free ha
    exact .goes h.sound (hid hk) hg
  case start k d generation =>
    have hne : k ≠ key := fun he => hk (congrArg some he)
    have he : s.coordinator.Untouched key (s.receive k d).coordinator := .enter hr hne
    have hf : (s.receive k d).Faithful := h.receive
    refine he.trans (hf.untouched_look fun {p} hp => ?_)
    have hn : (s.receive k d).coordinator.parties.find? s.coordinator.nextParty =
        some (s.coordinator.newcomer k (.queued d)) := Coordinator.find?_enter_self
    cases hn.symm.trans hp
    exact hne
  case poll id generation => exact h.untouched_look (hid hk)
  case cancel id =>
    obtain he | ⟨p, hp, _, he⟩ := s.cancel_cases describe id
    case inl =>
      rw [he]
      exact .refl
    case inr =>
      rw [he]
      exact .depart hr hp (hid hk hp)
  case wait => exact .refl
  case tend => exact .refl

omit [ByteStore σ] in
theorem behind {j : PartyId} (h : s.Faithful) (hp : s.coordinator.parties.find? id = some p)
    (hj : j ∈ (s.coordinator.lineOf p.lock).parties) :
    ∃ v, s.live.find? j = some v ∧ v.key = p.key := by
  rw [← h.sound.queue_eq hp, h.sound.mem_queue_iff] at hj
  obtain ⟨q, hq, hk, _⟩ := hj
  exact ⟨q.sighting, h.live_of_party hq, hk⟩

end State.Faithful

-- Keys are independent. Handles and their lock calls fare as they do without those of other keys,
-- and whatever is done for one key, requests included, leaves the others as they are.
theorem keys_independent :
    (∀ operations key, Handles.GoesAlone operations key) ∧
      ∀ {σ ε : Type} [ByteStore σ] (describe : ε → String) (store : σ) (start : Instant)
        (actions : List (Action σ ε)),
        ((State.init store start).run describe actions).Separate describe := by
  refine ⟨Coordinator.goesAlone, fun describe store start actions => ?_⟩
  have h : ((State.init store start).run describe actions).Faithful := State.Faithful.init.run
  exact ⟨fun _ _ hk => h.untouched hk, fun hp _ hj => h.behind hp hj⟩

end OnceCache.Execution
