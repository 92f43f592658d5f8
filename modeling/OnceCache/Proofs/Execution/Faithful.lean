import OnceCache.Proofs.Execution.State
import OnceCache.Proofs.Manager.Request

namespace OnceCache

-- What a request asked for. Handles and lock calls ask for nothing.
def Stage.directive? (stage : Stage) : Option Directive := stage.role.directive?

theorem Stage.isRequest_iff {stage : Stage} : stage.isRequest ↔ ∃ d, stage.directive? = some d := by
  rw [Stage.isRequest_eq, Option.isSome_iff_exists]
  rfl

theorem Stage.isRequest_of_directive? {stage : Stage} (h : stage.directive?.isSome) :
    stage.isRequest :=
  Stage.isRequest_iff.mpr (Option.isSome_iff_exists.mp h)

theorem Stage.role_of_directive? {stage : Stage} {d : Directive} (h : stage.directive? = some d) :
    stage.role = .request d := by
  unfold Stage.directive? at h
  cases hr : stage.role <;> rw [hr] at h <;> cases h
  rfl

-- What an onlooker should know of a party.
def Party.sighting (p : Party) : Execution.Sighting where
  key := p.key
  role := p.stage.role
  isOwner := p.stage.isOwner

theorem Party.sighting_directive_eq_none {p : Party} (h : p.stage.isRequest = false) :
    p.sighting.directive = none := by
  rw [Stage.isRequest_eq, Option.isSome_eq_false_iff, Option.isNone_iff_eq_none] at h
  exact h

namespace Manager

variable {σ ε : Type} [ByteStore σ] {m : Manager σ} {now : Instant} {id : PartyId} {key : Key}
variable {p : Party} {status : Status} {directive : Directive} {stage : Stage} {store : σ}
variable {generation : Generation ε} {progress : Progress ε} {answer : Poll ε} {generating : Bool}

theorem conclude_ran : (conclude store now key status progress).1.ran := by
  rcases progress with _ | (e | body) | _ <;> rfl

theorem conclude_hasTurn : (conclude store now key status progress).1.hasTurn := by
  rcases progress with _ | (e | body) | _ <;> rfl

theorem attend_hasTurn : (attend store now key directive progress).1.hasTurn := by
  unfold attend
  split
  case isTrue =>
    dsimp only
    split
    case h_1 => rfl
    case h_2 => exact conclude_hasTurn
  case isFalse => exact conclude_hasTurn

-- A generation that is done lets its request be done.
theorem conclude_isFinished {outcome : Except ε Body} :
    (conclude store now key status (.finished outcome)).1.isFinished := by
  cases outcome <;> rfl

theorem attend_isFinished {outcome : Except ε Body} :
    (attend store now key directive (.finished outcome)).1.isFinished := by
  unfold attend
  split
  case isTrue =>
    dsimp only
    split
    case h_1 => rfl
    case h_2 => exact conclude_isFinished
  case isFalse => exact conclude_isFinished

theorem conclude_pending (h : (conclude store now key status progress).1 = .pending generating) :
    generating = true := by
  have := h ▸ conclude_ran
  exact this

theorem attend_pending (h : (attend store now key directive progress).1 = .pending generating) :
    generating = true := by
  unfold attend at h
  split at h
  case isTrue =>
    dsimp only at h
    split at h
    case h_1 => cases h
    case h_2 => exact conclude_pending h
  case isFalse => exact conclude_pending h

namespace Looked

variable {o : Poll ε × σ}

theorem role_eq (h : m.Looked now id p generation o stage) : stage.role = p.stage.role := by
  cases h
  case waits => rfl
  case turns d hs _ =>
    rw [hs]
    cases d <;> rfl
  case continues => rfl

theorem isRequest (h : m.Looked now id p generation o stage) : p.stage.isRequest := by
  cases h
  all_goals
    rename p.stage = _ => hs
    rw [hs]
    rfl

theorem exists_directive (h : m.Looked now id p generation o stage) :
    ∃ d, p.stage.directive? = some d :=
  Stage.isRequest_iff.mp h.isRequest

theorem isOwner_of (h : m.Looked now id p generation o stage) (ho : p.stage.isOwner) :
    stage.isOwner := by
  cases h
  case waits => exact ho
  case turns => rfl
  case continues => exact ho

-- A request that stays owns its lock exactly if it was told that its generation has begun.
theorem isOwner_eq (h : m.Looked now id p generation o stage) (ha : o.1 = .pending generating) :
    stage.isOwner = generating := by
  cases h
  case waits hs _ =>
    cases ha
    rw [hs]
    rfl
  case turns hs _ => exact (attend_pending ha).symm
  case continues status since hs =>
    rw [conclude_pending ha, hs]
    rfl

theorem first (h : m.Looked now id p generation o stage) (hs : m.coordinator.Sound)
    (hp : m.coordinator.parties.find? id = some p) (ho : stage.isOwner) :
    (m.coordinator.lineOf p.lock).holder = some id := by
  cases h
  case waits => exact hs.first hp ho
  case turns hf => exact hf
  case continues => exact hs.first hp ho

-- A generation that begins has a fresh status; one that goes on had one before.
theorem status_ne_hit {since : Instant} (h : m.Looked now id p generation o stage)
    (hf : ∀ {status since}, p.stage = .generating status since → status ≠ .hit)
    (hs : stage = .generating status since) : status ≠ .hit := by
  cases h
  case waits => exact hf hs
  case turns d _ _ =>
    cases hs
    exact d.freshStatus_ne_hit
  case continues => exact hf hs

end Looked

end Manager

namespace Execution

namespace Onlooker

variable {ε : Type} {o : Onlooker ε} {id j : PartyId} {key : Key} {role : Role} {isOwner : Bool}

theorem find?_came : (o.came id key role).live.find? j =
    if id = j then some ⟨key, role, false⟩ else o.live.find? j :=
  Table.find?_insert

theorem find?_told : (o.told id isOwner).live.find? j =
    if id = j then (o.live.find? id).map ({ · with isOwner }) else o.live.find? j :=
  Table.find?_modify

theorem find?_went : (o.went id).live.find? j = if id = j then none else o.live.find? j :=
  Table.find?_erase

-- What an onlooker knows of a request after a look at it.
def sighting? (key : Key) (directive : Directive) : Poll ε → Option Sighting
  | .pending generating => some ⟨key, .request directive, generating⟩
  | .finished .. | .broken => none

section Looked

variable {directive : Directive} {time : Instant} {progress : Progress ε} {answer : Poll ε}

theorem find?_looked (h : o.live.find? id = some ⟨key, .request directive, isOwner⟩) :
    (o.looked id time progress answer).live.find? j =
      if id = j then sighting? key directive answer else o.live.find? j := by
  simp only [looked, h]
  cases answer
  case pending =>
    refine find?_told.trans ?_
    simp [h, sighting?]
  all_goals exact find?_went

theorem looks_looked (h : o.live.find? id = some ⟨key, .request directive, isOwner⟩) :
    (o.looked id time progress answer).looks =
      o.looks ++ [(id, ⟨key, directive, time, progress, answer⟩)] := by
  simp only [looked, h]
  cases answer <;> rfl

end Looked

end Onlooker

variable {σ ε : Type} {s : State σ ε} {id : PartyId} {p : Party} {key : Key} {stage : Stage}

-- What is not possible changes nothing, so it keeps what holds.
theorem State.attempt_of {α : Type} {result : Except Misuse α} {done : α → State σ ε}
    {P : State σ ε → Prop} (h : P s) (hd : ∀ a, result = .ok a → P (done a)) :
    P (s.attempt result done) := by
  cases result
  case error => exact h
  case ok a => exact hd a rfl

-- A lock call of a handle comes. It is not told yet whether it holds the lock.
def State.call (s : State σ ε) (p : Party) (i : PartyId) : State σ ε :=
  s.update (s.coordinator.arrive (Coordinator.newCall p i)).2
    (s.onlooker.came s.coordinator.nextParty p.key (.call i))

-- What an onlooker concludes from what it sees is so, and the parties are in order.
structure State.Faithful (s : State σ ε) : Prop where
  sound : s.coordinator.Sound
  live  : ∀ id, s.live.find? id = (s.coordinator.parties.find? id).map Party.sighting
  -- Nobody generates what was found.
  fresh : ∀ {id p status since}, s.coordinator.parties.find? id = some p →
    p.stage = .generating status since → status ≠ .hit

namespace State.Faithful

theorem init {store : σ} {now : Instant} : (init store now : State σ ε).Faithful where
  sound   := .empty
  live _  := rfl
  fresh h := by simp [coordinator, State.init] at h

theorem party_of_live {v : Sighting} (h : s.Faithful) (hv : s.live.find? id = some v) :
    ∃ p, s.coordinator.parties.find? id = some p ∧ p.sighting = v :=
  Option.map_eq_some_iff.mp (h.live id ▸ hv)

theorem live_of_party (h : s.Faithful) (hp : s.coordinator.parties.find? id = some p) :
    s.live.find? id = some p.sighting := by
  rw [h.live, hp]
  rfl

theorem id_lt {v : Sighting} (h : s.Faithful) (hv : s.live.find? id = some v) :
    id < s.coordinator.nextParty :=
  have ⟨_, hp, _⟩ := h.party_of_live hv
  h.sound.fresh hp

-- Somebody comes, and stands behind those who came before.
theorem come {c : Coordinator} (h : s.Faithful) (hc : c.Sound) (ho : p.stage.isOwner = false)
    (hp : ∀ j, c.parties.find? j =
      if s.coordinator.nextParty = j then some p else s.coordinator.parties.find? j) :
    (s.update c (s.onlooker.came s.coordinator.nextParty p.key p.stage.role)).Faithful where
  sound := hc
  live j := by
    change (s.onlooker.came _ p.key p.stage.role).live.find? j = (c.parties.find? j).map _
    rw [Onlooker.find?_came, hp]
    split
    case isTrue => simp [Party.sighting, ho]
    case isFalse => exact h.live j
  fresh {j q status since} hj hq := by
    change c.parties.find? j = some q at hj
    rw [hp] at hj
    split at hj
    case isTrue =>
      cases hj
      simp [hq, Stage.isOwner] at ho
    case isFalse => exact h.fresh hj hq

theorem enter (h : s.Faithful) (key : Key) (stage : Stage) (hs : stage.handle? = none)
    (ho : stage.isOwner = false) :
    (s.update (s.coordinator.enter key stage).2
      (s.onlooker.came s.coordinator.nextParty key stage.role)).Faithful :=
  h.come (h.sound.enter hs ho) (p := s.coordinator.newcomer key stage) ho
    fun _ => Coordinator.find?_enter

theorem call (h : s.Faithful) (hp : s.coordinator.parties.find? id = some p)
    (hs : p.stage = .handle) : (s.call p id).Faithful :=
  h.come (h.sound.arriveCall hp hs) (p := Coordinator.newCall p id) rfl
    fun _ => Coordinator.find?_arrive

-- A lock call learns whether it holds the lock.
theorem told {c : Coordinator} {isHolder : Bool} (h : s.Faithful)
    (hr : s.coordinator.pollLock id = .ok (isHolder, c)) :
    (s.update c (s.onlooker.told id isHolder)).Faithful where
  sound := h.sound.pollLock hr
  live j := by
    obtain ⟨p, i, hp, hi, _, rfl⟩ := h.sound.of_pollLock hr
    have hl : s.onlooker.live.find? id = _ := h.live_of_party hp
    change (s.onlooker.told id isHolder).live.find? j =
      ((s.coordinator.setStage id _).parties.find? j).map _
    rw [Onlooker.find?_told, Coordinator.find?_setStage hp]
    split
    case isTrue =>
      rw [hl]
      simp [Party.sighting, Coordinator.role_of_handle? hi]
    case isFalse => exact h.live j
  fresh {j q status since} hj hs := by
    obtain ⟨p, i, hp, _, _, rfl⟩ := h.sound.of_pollLock hr
    change (s.coordinator.setStage id _).parties.find? j = some q at hj
    rw [Coordinator.find?_setStage hp] at hj
    split at hj
    case isTrue =>
      cases hj
      cases isHolder <;> cases hs
    case isFalse => exact h.fresh hj hs

theorem depart (h : s.Faithful) (hu : s.coordinator.Unused id) :
    (s.update (s.coordinator.depart id) (s.onlooker.went id)).Faithful where
  sound := h.sound.depart hu
  live j := by
    change (s.onlooker.went id).live.find? j = ((s.coordinator.depart id).parties.find? j).map _
    rw [Onlooker.find?_went, Coordinator.depart_parties, Table.find?_erase]
    split
    case isTrue => rfl
    case isFalse => exact h.live j
  fresh {j q status since} hj hq := by
    change (s.coordinator.depart id).parties.find? j = some q at hj
    exact h.fresh (Coordinator.find?_depart_eq_some_iff.mp hj).right hq

theorem goes {c : Coordinator} (h : s.Faithful) (hg : s.coordinator.Goes id p c) :
    (s.update c (s.onlooker.went id)).Faithful :=
  hg.eq ▸ h.depart hg.unused

-- Time and the store do not matter to those who come and go.
theorem of_eq {t : State σ ε} (h : s.Faithful) (hc : t.coordinator = s.coordinator)
    (ho : t.live = s.live) : t.Faithful where
  sound   := hc ▸ h.sound
  live j  := by
    rw [ho, hc]
    exact h.live j
  fresh hp := h.fresh (hc ▸ hp)

end State.Faithful

variable [ByteStore σ] {describe : ε → String} {generation : Generation ε}
variable {directive : Directive} {actions : List (Action σ ε)} {action : Action σ ε}

-- A look that is seen: at which party, at which stage it stays if it is not done, what it was
-- answered, and how the state is after it.
structure State.Looking (s : State σ ε) (id : PartyId) (generation : Generation ε) (t : State σ ε)
    (p : Party) (d : Directive) (stage : Stage) (answer : Poll ε) : Prop where
  party       : s.coordinator.parties.find? id = some p
  directive   : p.stage.directive? = some d
  looked      : s.manager.Looked s.now id p generation (answer, t.store) stage
  now         : t.now = s.now
  coordinator : t.coordinator = s.coordinator.afterLook id stage answer
  live        : ∀ j, t.live.find? j =
    if id = j then Onlooker.sighting? p.key d answer else s.live.find? j
  looks       : t.looks = s.looks ++
    [(id, ⟨p.key, d, s.now, generation (s.coordinator.since id s.now), answer⟩)]

theorem State.cancel_cases (s : State σ ε) (describe : ε → String) (id : PartyId) :
    s.step describe (.cancel id) = s ∨
      ∃ p, s.coordinator.parties.find? id = some p ∧ p.stage.isRequest ∧
        s.step describe (.cancel id) =
          s.update (s.coordinator.depart id) (s.onlooker.went id) := by
  cases hm : s.manager.cancel id
  case none => exact .inl (by rw [State.step, hm])
  case some m =>
    obtain ⟨p, hp, hs, rfl⟩ := Manager.of_cancel hm
    exact .inr ⟨p, hp, hs, by rw [State.step, hm]; rfl⟩

namespace State.Faithful

omit [ByteStore σ] in
theorem receive (h : s.Faithful) : (s.receive key directive).Faithful :=
  h.enter key (.queued directive) rfl rfl

-- Who asks for a lock comes as a lock call first, and learns then whether it holds the lock.
omit [ByteStore σ] in
theorem of_askLock {call : PartyId} {isHolder : Bool} {c : Coordinator} (h : s.Faithful)
    (hr : s.coordinator.askLock id = .ok (call, isHolder, c)) :
    ∃ p, s.coordinator.parties.find? id = some p ∧ p.stage = .handle ∧
      call = s.coordinator.nextParty ∧
      (s.call p id).coordinator.pollLock call = .ok (isHolder, c) ∧
      s.update c ((s.onlooker.called id call).told call isHolder) =
        (s.call p id).update c ((s.call p id).onlooker.told call isHolder) := by
  obtain ⟨p, hp, hs, rfl, ha⟩ := Coordinator.of_askLock hr
  have hl : s.onlooker.live.find? id = _ := h.live_of_party hp
  refine ⟨p, hp, hs, rfl, ha, ?_⟩
  rw [Onlooker.called, hl]
  rfl

omit [ByteStore σ] in
-- Requests and lock calls can always go.
theorem unused (h : s.Faithful) (hp : s.coordinator.parties.find? id = some p)
    (hs : p.stage.isRequest) : s.coordinator.Unused id :=
  h.sound.unused_of_isInLine hp (Stage.isInLine_of_isRequest hs)

-- A request can be looked at as long as it is there.
theorem looking (h : s.Faithful) (hp : s.coordinator.parties.find? id = some p)
    (hs : p.stage.isRequest) :
    ∃ d stage answer,
      s.Looking id generation (s.look describe id generation) p d stage answer := by
  have ⟨r, hr⟩ := Option.isSome_iff_exists.mp <|
    Manager.poll_isSome s.now describe generation hp hs
  obtain ⟨q, stage, hq, hl, hc⟩ := Manager.of_poll hr
  cases hp.symm.trans hq
  have ⟨d, hd⟩ := hl.exists_directive
  have hlive : s.onlooker.live.find? id = some ⟨p.key, .request d, p.stage.isOwner⟩ := by
    have := h.live_of_party hp
    rwa [Party.sighting, Stage.role_of_directive? hd] at this
  refine ⟨d, stage, r.answer, ?_⟩
  rw [State.look, hr]
  constructor
  case party => exact hp
  case directive => exact hd
  case looked => exact hl
  case now => rfl
  case coordinator => exact hc
  case live => exact fun j => Onlooker.find?_looked hlive
  case looks => exact Onlooker.looks_looked hlive

theorem look_cases (h : s.Faithful) (describe : ε → String) (id : PartyId)
    (generation : Generation ε) :
    s.look describe id generation = s ∨
      ∃ p d stage answer,
        s.Looking id generation (s.look describe id generation) p d stage answer := by
  cases hr : s.manager.poll s.now id describe generation
  case none => exact .inl (by rw [State.look, hr])
  case some r =>
    obtain ⟨p, stage, hp, hl, _⟩ := Manager.of_poll hr
    exact .inr ⟨p, h.looking hp hl.isRequest⟩

-- A look leaves everybody else as they were.
theorem of_looking {t : State σ ε} {d : Directive} {answer : Poll ε} (h : s.Faithful)
    (hl : s.Looking id generation t p d stage answer) : t.Faithful where
  sound := by
    rw [hl.coordinator, Coordinator.afterLook]
    split
    case isTrue =>
      exact h.sound.setStage hl.party hl.looked.role_eq (hl.looked.first h.sound hl.party)
    case isFalse => exact h.sound.depart (h.unused hl.party hl.looked.isRequest)
  live j := by
    rw [hl.live, hl.coordinator, Coordinator.find?_afterLook hl.party]
    split
    case isTrue =>
      cases answer <;> try rfl
      case pending generating =>
        have ho : stage.isOwner = generating := hl.looked.isOwner_eq rfl
        have hr := hl.looked.role_eq.trans (Stage.role_of_directive? hl.directive)
        simp [Onlooker.sighting?, Party.sighting, Poll.isPending, ho, hr]
    case isFalse => exact h.live j
  fresh {j q status since} hj hq := by
    rw [hl.coordinator, Coordinator.find?_afterLook hl.party] at hj
    split at hj
    case isTrue =>
      split at hj <;> cases hj
      exact hl.looked.status_ne_hit (h.fresh hl.party) hq
    case isFalse => exact h.fresh hj hq

theorem look (h : s.Faithful) : (s.look describe id generation).Faithful := by
  obtain he | ⟨p, d, stage, answer, hl⟩ := h.look_cases describe id generation
  case inl => rwa [he]
  case inr => exact h.of_looking hl

theorem step (h : s.Faithful) : (s.step describe action).Faithful := by
  cases action
  case allocate key => exact h.enter key .handle rfl rfl
  case askLock id =>
    refine attempt_of h fun ⟨call, isHolder, c⟩ hr => ?_
    obtain ⟨p, hp, hs, _, ha, he⟩ := h.of_askLock hr
    have := (h.call hp hs).told ha
    rwa [← he] at this
  case pollLock id => exact attempt_of h fun _ hr => h.told hr
  case abandon id =>
    refine attempt_of h fun c hr => ?_
    obtain ⟨p, hg⟩ := h.sound.of_abandon hr
    exact h.goes hg
  case unlock id =>
    refine attempt_of h fun c hr => ?_
    obtain ⟨p, hg⟩ := h.sound.of_unlock hr
    exact h.goes hg
  case free id =>
    refine attempt_of h fun c hr => ?_
    obtain ⟨p, hg⟩ := Coordinator.of_free hr
    exact h.goes hg
  case start key directive generation => exact h.receive.look
  case poll id generation => exact h.look
  case cancel id =>
    obtain he | ⟨p, hp, hs, he⟩ := s.cancel_cases describe id
    case inl => rwa [he]
    case inr =>
      rw [he]
      exact h.depart (h.unused hp hs)
  case wait instant => exact h.of_eq rfl rfl
  case tend change => exact h.of_eq rfl rfl

theorem run (h : s.Faithful) : (s.run describe actions).Faithful := by
  induction actions generalizing s
  case nil => exact h
  case cons action actions hi => exact hi h.step

end State.Faithful

end Execution

end OnceCache
