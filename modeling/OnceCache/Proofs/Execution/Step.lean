import OnceCache.Proofs.Execution.Faithful

namespace OnceCache.Execution

variable {σ ε : Type} {s r t : State σ ε} {id j : PartyId} {p : Party} {key : Key} {d : Directive}
variable {stage : Stage} {answer : Poll ε} {v : Sighting} {generation : Generation ε}
variable {action : Action σ ε}

-- The request that an action lets come.
def Action.request? : Action σ ε → Option (Key × Directive)
  | .start key directive _ => some (key, directive)
  | _ => none

namespace State

-- Nobody is looked at and the store stays as it is. Handles and their lock calls may do what they
-- like, and requests may go. A request may come, but none gets any further.
structure Quiet (s : State σ ε) (request? : Option (Key × Directive)) (t : State σ ε) : Prop where
  now      : s.now ≤ t.now
  store    : t.store = s.store
  looks    : t.looks = s.looks
  next     : s.coordinator.nextParty ≤ t.coordinator.nextParty
  requests : ∀ {id v}, t.live.find? id = some v → v.directive.isSome →
    s.live.find? id = some v ∨ s.coordinator.nextParty ≤ id ∧
      ∃ key d, request? = some (key, d) ∧ v = ⟨key, .request d, false⟩
  parties  : ∀ {id p}, t.coordinator.parties.find? id = some p → p.stage.isRequest →
    s.coordinator.parties.find? id = some p ∨ s.coordinator.nextParty ≤ id ∧
      ∃ d, p.stage = .queued d

namespace Quiet

variable {request? : Option (Key × Directive)}

theorem refl : s.Quiet request? s where
  now          := Nat.le_refl _
  store        := rfl
  looks        := rfl
  next         := Nat.le_refl _
  requests h _ := .inl h
  parties h _  := .inl h

theorem trans (h : s.Quiet request? r) (h' : r.Quiet request? t) : s.Quiet request? t where
  now   := Nat.le_trans h.now h'.now
  store := h'.store.trans h.store
  looks := h'.looks.trans h.looks
  next  := Nat.le_trans h.next h'.next
  requests hv hd := by
    obtain hv | ⟨hn, hq⟩ := h'.requests hv hd
    case inl => exact h.requests hv hd
    case inr => exact .inr ⟨Nat.le_trans h.next hn, hq⟩
  parties hp hs := by
    obtain hp | ⟨hn, hd⟩ := h'.parties hp hs
    case inl => exact h.parties hp hs
    case inr => exact .inr ⟨Nat.le_trans h.next hn, hd⟩

-- Somebody comes. If it is a request, then it waits.
theorem come {c : Coordinator} (ho : p.stage.isOwner = false)
    (hn : c.nextParty = s.coordinator.nextParty + 1)
    (hp : ∀ j, c.parties.find? j =
      if s.coordinator.nextParty = j then some p else s.coordinator.parties.find? j)
    (hd : ∀ d, p.stage.directive? = some d → request? = some (p.key, d)) :
    s.Quiet request?
      (s.update c (s.onlooker.came s.coordinator.nextParty p.key p.stage.role)) where
  now   := Nat.le_refl _
  store := rfl
  looks := rfl
  next  := Nat.le_of_lt (Nat.lt_of_lt_of_eq (Nat.lt_succ_self _) hn.symm)
  requests {j v} hj hv := by
    change (s.onlooker.came _ p.key p.stage.role).live.find? j = some v at hj
    rw [Onlooker.find?_came] at hj
    split at hj
    case isTrue he =>
      cases hj
      obtain ⟨d, hv⟩ := Option.isSome_iff_exists.mp hv
      have hv : p.stage.directive? = some d := hv
      exact .inr ⟨Nat.le_of_eq he, p.key, d, hd d hv, by rw [Stage.role_of_directive? hv]⟩
    case isFalse => exact .inl hj
  parties {j q} hj hq := by
    change c.parties.find? j = some q at hj
    rw [hp] at hj
    split at hj
    case isTrue he =>
      cases hj
      refine .inr ⟨Nat.le_of_eq he, ?_⟩
      cases hs : p.stage <;> rw [hs] at hq ho
      case queued d => exact ⟨d, rfl⟩
      case generating => cases ho
      all_goals cases hq
    case isFalse => exact .inl hj

theorem enter (stage : Stage) (ho : stage.isOwner = false)
    (hs : ∀ d, stage.directive? = some d → request? = some (key, d)) :
    s.Quiet request? (s.update (s.coordinator.enter key stage).2
      (s.onlooker.came s.coordinator.nextParty key stage.role)) :=
  come (p := s.coordinator.newcomer key stage) ho Coordinator.enter_nextParty
    (fun _ => Coordinator.find?_enter) hs

theorem call : s.Quiet request? (s.call p id) :=
  come (p := Coordinator.newCall p id) rfl Coordinator.arrive_nextParty
    (fun _ => Coordinator.find?_arrive) (fun _ h => by cases h)

theorem told {c : Coordinator} {isHolder : Bool} (h : s.Faithful)
    (hr : s.coordinator.pollLock id = .ok (isHolder, c)) :
    s.Quiet request? (s.update c (s.onlooker.told id isHolder)) := by
  obtain ⟨p, i, hp, hi, _, rfl⟩ := h.sound.of_pollLock hr
  -- A lock call is no request.
  have hrole : p.stage.role = .call i := Coordinator.role_of_handle? hi
  constructor
  case now => exact Nat.le_refl _
  case store => rfl
  case looks => rfl
  case next => exact Nat.le_refl _
  case requests =>
    intro j v hj hv
    have hl : s.onlooker.live.find? id = _ := h.live_of_party hp
    change (s.onlooker.told id isHolder).live.find? j = some v at hj
    rw [Onlooker.find?_told] at hj
    split at hj
    case isTrue =>
      rw [hl] at hj
      cases hj
      simp [Sighting.directive, Party.sighting, hrole, Role.directive?] at hv
    case isFalse => exact .inl hj
  case parties =>
    intro j q hj hq
    change (s.coordinator.setStage id _).parties.find? j = some q at hj
    rw [Coordinator.find?_setStage hp] at hj
    split at hj
    case isTrue =>
      cases hj
      simp [Stage.isRequest_eq, Role.directive?] at hq
    case isFalse => exact .inl hj

theorem depart : s.Quiet request? (s.update (s.coordinator.depart id) (s.onlooker.went id)) where
  now   := Nat.le_refl _
  store := rfl
  looks := rfl
  next  := Nat.le_of_eq Coordinator.depart_nextParty.symm
  requests {j v} hj _ := by
    change (s.onlooker.went id).live.find? j = some v at hj
    exact .inl (Table.find?_erase_eq_some_iff.mp hj).right
  parties {j q} hj _ := by
    change (s.coordinator.depart id).parties.find? j = some q at hj
    exact .inl (Coordinator.find?_depart_eq_some_iff.mp hj).right

theorem goes {c : Coordinator} (hg : s.coordinator.Goes id p c) :
    s.Quiet request? (s.update c (s.onlooker.went id)) :=
  hg.eq ▸ depart

theorem receive : s.Quiet (some (key, d)) (s.receive key d) :=
  enter (.queued d) rfl fun _ h => by cases h; rfl

end Quiet

variable [ByteStore σ] {describe : ε → String}

-- A step by cases. It is quiet, or something is done to the store by others, or a request is looked
-- at, which may have come just before.
inductive Stepped : State σ ε → Action σ ε → State σ ε → Prop
  | quiet {s t : State σ ε} {action : Action σ ε} :
    s.Quiet action.request? t → Stepped s action t
  | tended {s : State σ ε} {change : Instant → σ → σ} :
    Stepped s (.tend change) { s with manager := { s.manager with store := change s.now s.store } }
  | looked {s r t : State σ ε} {action : Action σ ε} {id : PartyId} {generation : Generation ε}
    {p : Party} {d : Directive} {stage : Stage} {answer : Poll ε} :
    (∀ {j v}, s.live.find? j = some v → r.live.find? j = some v) → r.Faithful →
    s.Quiet action.request? r → r.Looking id generation t p d stage answer → Stepped s action t

-- A look after a quiet beginning.
theorem Stepped.of_look (hk : ∀ {j v}, s.live.find? j = some v → r.live.find? j = some v)
    (hr : r.Faithful) (hq : s.Quiet action.request? r) :
    s.Stepped action (r.look describe id generation) := by
  obtain he | ⟨p, d, stage, answer, hl⟩ := hr.look_cases describe id generation
  case inl =>
    rw [he]
    exact .quiet hq
  case inr => exact .looked hk hr hq hl

section

omit [ByteStore σ]

theorem find?_live_receive : (s.receive key d).live.find? j =
    if s.coordinator.nextParty = j then some ⟨key, .request d, false⟩ else s.live.find? j :=
  Onlooker.find?_came

-- Those who are there stay when a request comes.
theorem Faithful.live_receive (h : s.Faithful) (hj : s.live.find? j = some v) :
    (s.receive key d).live.find? j = some v := by
  have : s.coordinator.nextParty ≠ j := Nat.ne_of_gt (h.id_lt hj)
  rwa [find?_live_receive, if_neg this]

end

theorem Faithful.stepped (h : s.Faithful) : s.Stepped action (s.step describe action) := by
  cases action
  case allocate key => exact .quiet (.enter .handle rfl fun _ h => by cases h)
  case askLock id =>
    refine .quiet (attempt_of .refl fun ⟨call, isHolder, c⟩ hr => ?_)
    obtain ⟨p, hp, hs, _, ha, he⟩ := h.of_askLock hr
    have hc : s.Quiet none (s.call p id) := .call
    have := hc.trans (.told (h.call hp hs) ha)
    rwa [← he] at this
  case pollLock id => exact .quiet (attempt_of .refl fun _ hr => .told h hr)
  case abandon id =>
    refine .quiet (attempt_of .refl fun c hr => ?_)
    obtain ⟨p, hg⟩ := h.sound.of_abandon hr
    exact .goes hg
  case unlock id =>
    refine .quiet (attempt_of .refl fun c hr => ?_)
    obtain ⟨p, hg⟩ := h.sound.of_unlock hr
    exact .goes hg
  case free id =>
    refine .quiet (attempt_of .refl fun c hr => ?_)
    obtain ⟨p, hg⟩ := Coordinator.of_free hr
    exact .goes hg
  case start key directive generation => exact .of_look h.live_receive h.receive .receive
  case poll id generation => exact .of_look (·) h .refl
  case cancel id =>
    obtain he | ⟨_, _, _, he⟩ := s.cancel_cases describe id
    case inl =>
      rw [he]
      exact .quiet .refl
    case inr =>
      rw [he]
      exact .quiet .depart
  case wait instant =>
    refine .quiet ⟨?_, rfl, rfl, Nat.le_refl _, fun h _ => .inl h, fun h _ => .inl h⟩
    exact Nat.le_max_left ..
  case tend change => exact .tended

-- What a look leads to. One who waits changes nothing. Otherwise it depends on what was asked for,
-- on the store and on what the generation has come to, and on nothing else.
inductive Outcome (s : State σ ε) (id : PartyId) (p : Party) (d : Directive)
    (progress : Progress ε) (answer : Poll ε) (store : σ) : Prop
  | waits :
    p.stage.isOwner = false → (s.coordinator.lineOf p.lock).holder ≠ some id →
    answer = .pending false → store = s.store → Outcome s id p d progress answer store
  | turns :
    p.stage.isOwner = false → (s.coordinator.lineOf p.lock).holder = some id →
    (answer, store) = Manager.attend s.store s.now p.key d progress →
    Outcome s id p d progress answer store
  | continues :
    p.stage.isOwner → (s.coordinator.lineOf p.lock).holder = some id →
    (answer, store) = Manager.conclude s.store s.now p.key d.freshStatus progress →
    Outcome s id p d progress answer store

theorem Looking.outcome (hl : s.Looking id generation t p d stage answer) (h : s.Faithful) :
    s.Outcome id p d (generation (s.coordinator.since id s.now)) answer t.store := by
  have hd := hl.directive
  have hp := hl.party
  generalize ho : (answer, t.store) = o
  cases ho ▸ hl.looked
  case waits d' hs hh =>
    have ⟨ha, ht⟩ := Prod.mk.inj ho
    exact .waits (by rw [hs]; rfl) hh ha ht
  case turns d' hs hh =>
    rw [hs] at hd
    cases hd
    have hw : p.stage.isOwner = false := by rw [hs]; rfl
    rw [Coordinator.since_of_not_isOwner hp hw]
    exact .turns hw hh ho
  case continues status since hs =>
    have hw : p.stage.isOwner := by rw [hs]; rfl
    have hf : status = d.freshStatus := by
      have := h.fresh hp hs
      rw [hs] at hd
      cases status <;> cases hd <;> first | rfl | contradiction
    rw [Coordinator.since_of_generating hp hs]
    exact .continues hw (h.sound.first hp hw) (hf ▸ ho)

-- A request has its turn exactly if it is first in line.
theorem Looking.hasTurn_iff (hl : s.Looking id generation t p d stage answer) (h : s.Faithful) :
    answer.hasTurn ↔ (s.coordinator.lineOf p.lock).holder = some id := by
  cases hl.outcome h
  case waits hh ha _ => simp [ha, hh, Poll.hasTurn]
  case turns hh ho =>
    have := congrArg (·.1.hasTurn) ho
    simp [hh, this, Manager.attend_hasTurn]
  case continues hh ho =>
    have := congrArg (·.1.hasTurn) ho
    simp [hh, this, Manager.conclude_hasTurn]

end State

end OnceCache.Execution
