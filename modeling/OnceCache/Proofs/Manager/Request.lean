import OnceCache.Manager.Request
import OnceCache.Proofs.Coordination.Handle

namespace OnceCache

namespace Directive

-- Where a body comes from that is generated for a request.
def freshStatus : Directive → Status
  | standard => .miss
  | noCache  => .bypass

theorem freshStatus_ne_hit {d : Directive} : d.freshStatus ≠ .hit := by
  cases d <;> simp [freshStatus]

end Directive

namespace Progress

variable {ε : Type}

-- The body that a generation has come to.
def body? : Progress ε → Option Body
  | finished (.ok body) => some body
  | finished (.error _) | pending | broken => none

end Progress

namespace Poll

variable {ε : Type}

def isPending : Poll ε → Bool
  | pending _ => true
  | finished .. | broken => false

-- Whether the request was served or failed.
def isFinished : Poll ε → Bool
  | finished .. => true
  | pending _ | broken => false

-- How many failures of generations there are in an answer.
def failures : Poll ε → UInt64
  | finished (.error _) _ => 1
  | finished (.ok _) _ | pending _ | broken => 0

-- Whether the generation of the request was invoked, in this look or before it.
def ran : Poll ε → Bool
  | pending generating => generating
  | finished _ generated => generated
  | broken => true

-- Whether the request was told that it has the lock of its key, or was served or failed with it.
def hasTurn : Poll ε → Bool
  | pending generating => generating
  | finished .. | broken => true

end Poll

namespace Coordinator

variable {c : Coordinator} {id j : PartyId} {p : Party} {stage : Stage} {ε : Type}
variable {answer : Poll ε}

-- It does not matter for those who stay at which stage a party goes.
theorem depart_setStage (hp : c.parties.find? id = some p) (hs : stage.handle? = p.stage.handle?) :
    (c.setStage id stage).depart id = c.depart id := by
  have hf : (c.setStage id stage).parties.find? id = some { p with stage } := by
    simp [find?_setStage hp]
  have hr : (c.setStage id stage).released { p with stage } = c.released p := by
    simp only [released, hs]
    rfl
  refine Coordinator.ext ?_ ?_ ?_ ?_
  · rw [depart_registry hf, depart_registry hp, hr]
  · simp only [depart, hf, hp]
    rfl
  · rw [depart_parties, depart_parties]
    refine Table.ext_find? fun j => ?_
    rw [Table.find?_erase, Table.find?_erase, find?_setStage hp]
    split <;> simp_all
  · rw [depart_nextParty, depart_nextParty]
    rfl

-- A request that is not done stays, at some stage. Any other goes.
def afterLook (c : Coordinator) (id : PartyId) (stage : Stage) (answer : Poll ε) : Coordinator :=
  if answer.isPending then c.setStage id stage else c.depart id

theorem afterLook_nextParty : (c.afterLook id stage answer).nextParty = c.nextParty := by
  unfold afterLook
  split
  case isTrue => rfl
  case isFalse => exact depart_nextParty

theorem find?_afterLook (h : c.parties.find? id = some p) :
    (c.afterLook id stage answer).parties.find? j =
      if id = j then (if answer.isPending then some { p with stage } else none)
      else c.parties.find? j := by
  unfold afterLook
  split
  case isTrue => rw [find?_setStage h]
  case isFalse => rw [depart_parties, Table.find?_erase]

end Coordinator

namespace Manager

variable {σ ε : Type} [ByteStore σ] {m : Manager σ} {now : Instant} {id : PartyId} {key : Key}
variable {status : Status} {directive : Directive} {describe : ε → String}
variable {progress : Progress ε} {generation : Generation ε}

-- What an operation of a manager leads to, apart from who waits for what.
abbrev outcome (r : Reply (Manager σ) (Poll ε)) : Poll ε × σ := (r.answer, r.state.store)

-- What a look at a generation leads to.
def conclude (store : σ) (now : Instant) (key : Key) (status : Status) :
    Progress ε → Poll ε × σ
  | .pending => (.pending true, store)
  | .broken => (.broken, store)
  | .finished (.error e) => (.finished (.error e) true, store)
  | .finished (.ok body) =>
    (.finished (.ok ⟨body, status⟩) true, (ByteStore.write store now key body).state)

-- What the turn of a request leads to. A stored body is served as far as the directive allows. If
-- there is none, whatever the reason, its generation is looked at.
def attend (store : σ) (now : Instant) (key : Key) (directive : Directive)
    (progress : Progress ε) : Poll ε × σ :=
  if directive.allowsRead then
    let r := ByteStore.read store now key
    match r.answer with
    | .ok body => (.finished (.ok ⟨body, .hit⟩) false, r.state)
    | .error _ => conclude r.state now key .miss progress
  else conclude store now key .bypass progress

section Read

variable {store : σ} (hd : directive.allowsRead)
include hd

-- A request that accepts a stored body is served it if the store has one,
theorem attend_of_ok {body : Body} (h : (ByteStore.read store now key).answer = .ok body) :
    attend store now key directive progress =
      (.finished (.ok ⟨body, .hit⟩) false, (ByteStore.read store now key).state) := by
  simp only [attend, hd, h, if_true]

-- and else has its generation looked at.
theorem attend_of_error {e : Error} (h : (ByteStore.read store now key).answer = .error e) :
    attend store now key directive progress =
      conclude (ByteStore.read store now key).state now key .miss progress := by
  simp only [attend, hd, h, if_true]

end Read

theorem conclude_of_body?_eq_some {store : σ} {body : Body} (h : progress.body? = some body) :
    conclude store now key status progress =
      (.finished (.ok ⟨body, status⟩) true, (ByteStore.write store now key body).state) := by
  rcases progress with _ | (e | body) | _ <;> cases h
  rfl

-- A generation that comes to no body leaves the store alone.
theorem conclude_of_body?_eq_none {store : σ} (h : progress.body? = none) :
    (conclude store now key status progress).2 = store := by
  rcases progress with _ | (e | body) | _ <;> first | rfl | cases h

theorem body?_of_conclude {store : σ} {served : Served} {generated : Bool}
    (h : (conclude store now key status progress).1 = .finished (.ok served) generated) :
    progress.body? = some served.body := by
  rcases progress with _ | (e | body) | _ <;> cases h
  rfl

theorem continueGeneration_outcome :
    outcome (m.continueGeneration now id key status describe progress) =
      conclude m.store now key status progress := by
  unfold continueGeneration
  rcases progress with _ | (e | body) | _
  case finished.ok =>
    dsimp only
    split <;> rfl
  all_goals rfl

theorem continueGeneration_coordinator :
    let r := m.continueGeneration now id key status describe progress
    r.state.coordinator =
      if r.answer.isPending then m.coordinator else m.coordinator.depart id := by
  unfold continueGeneration
  rcases progress with _ | (e | body) | _
  case finished.ok =>
    dsimp only
    split <;> rfl
  all_goals rfl

theorem beginGeneration_outcome :
    outcome (m.beginGeneration now id key status describe generation) =
      conclude m.store now key status (generation now) :=
  continueGeneration_outcome

theorem beginGeneration_coordinator {p : Party} (hp : m.coordinator.parties.find? id = some p)
    (hs : p.stage.isRequest) :
    let r := m.beginGeneration now id key status describe generation
    r.state.coordinator = m.coordinator.afterLook id (.generating status now) r.answer := by
  have hd : (m.coordinator.setStage id (.generating status now)).depart id =
      m.coordinator.depart id :=
    Coordinator.depart_setStage hp (Stage.handle?_of_isRequest hs).symm
  unfold beginGeneration
  dsimp only
  rw [continueGeneration_coordinator, Coordinator.afterLook, ← hd]
  rfl

theorem takeTurn_outcome :
    outcome (m.takeTurn now id key directive describe generation) =
      attend m.store now key directive (generation now) := by
  unfold takeTurn attend
  cases directive
  case noCache => exact beginGeneration_outcome
  case standard =>
    have h : Directive.allowsRead .standard = true := rfl
    simp only [h, if_true, read]
    cases (ByteStore.read m.store now key).answer
    case ok => rfl
    case error e => exact beginGeneration_outcome

theorem takeTurn_coordinator {p : Party} (hp : m.coordinator.parties.find? id = some p)
    (hs : p.stage.isRequest) :
    let r := m.takeTurn now id key directive describe generation
    r.state.coordinator =
      m.coordinator.afterLook id (.generating directive.freshStatus now) r.answer := by
  unfold takeTurn
  cases directive
  case noCache => exact beginGeneration_coordinator (m := m.record .bypass) hp hs
  case standard =>
    have h : Directive.allowsRead .standard = true := rfl
    simp only [h, if_true, read]
    cases (ByteStore.read m.store now key).answer
    case ok => rfl
    case error e =>
      exact beginGeneration_coordinator
        (m := { m with store := (ByteStore.read m.store now key).state }.record .miss) hp hs

-- A look at a request by cases. It waits, or its turn has come, or it was generating before. The
-- last argument is the stage at which it stays if it is not done.
inductive Looked (m : Manager σ) (now : Instant) (id : PartyId) (p : Party)
    (generation : Generation ε) : Poll ε × σ → Stage → Prop
  | waits {d} :
    p.stage = .queued d → (m.coordinator.lineOf p.lock).holder ≠ some id →
    Looked m now id p generation (.pending false, m.store) p.stage
  | turns {d} :
    p.stage = .queued d → (m.coordinator.lineOf p.lock).holder = some id →
    Looked m now id p generation (attend m.store now p.key d (generation now))
      (.generating d.freshStatus now)
  | continues {status since} :
    p.stage = .generating status since →
    Looked m now id p generation (conclude m.store now p.key status (generation since)) p.stage

theorem of_poll {r : Reply (Manager σ) (Poll ε)}
    (h : m.poll now id describe generation = some r) :
    ∃ p stage, m.coordinator.parties.find? id = some p ∧
      Looked m now id p generation (outcome r) stage ∧
      r.state.coordinator = m.coordinator.afterLook id stage r.answer := by
  unfold poll at h
  cases hp : m.coordinator.parties.find? id <;> simp only [hp] at h
  case none => cases h
  case some p =>
    refine ⟨p, ?_⟩
    simp only [Option.bind_eq_bind, Option.bind_some] at h
    split at h
    case h_1 d hs =>
      split at h
      case isTrue hf =>
        cases h
        refine ⟨_, rfl, ?_, takeTurn_coordinator hp (by rw [hs]; rfl)⟩
        rw [takeTurn_outcome]
        exact .turns hs (Coordinator.isFirst_eq.mp hf)
      case isFalse hf =>
        cases h
        refine ⟨p.stage, rfl, .waits hs (mt Coordinator.isFirst_eq.mpr hf), ?_⟩
        exact (Coordinator.setStage_self hp).symm
    case h_2 status since hs =>
      cases h
      refine ⟨p.stage, rfl, ?_, ?_⟩
      · rw [continueGeneration_outcome]
        exact .continues hs
      · rw [continueGeneration_coordinator, Coordinator.afterLook, Coordinator.setStage_self hp]
    case h_3 => cases h

section Failures

-- Whether generations that failed are counted.
def CountsFailures (m : Manager σ) (r : Reply (Manager σ) (Poll ε)) : Prop :=
  r.state.stats.generationFailures = m.stats.generationFailures + r.answer.failures

theorem continueGeneration_countsFailures :
    m.CountsFailures (m.continueGeneration now id key status describe progress) := by
  unfold continueGeneration CountsFailures
  rcases progress with _ | (e | body) | _
  case finished.ok =>
    dsimp only
    cases (m.write now key body).answer <;> exact (UInt64.add_zero _).symm
  case finished.error => rfl
  all_goals exact (UInt64.add_zero _).symm

theorem takeTurn_countsFailures :
    m.CountsFailures (m.takeTurn now id key directive describe generation) := by
  unfold takeTurn
  cases directive
  case noCache => exact continueGeneration_countsFailures
  case standard =>
    have h : Directive.allowsRead .standard = true := rfl
    simp only [h, if_true, read]
    cases (ByteStore.read m.store now key).answer
    case ok => exact (UInt64.add_zero _).symm
    case error e => exact continueGeneration_countsFailures

theorem poll_countsFailures {r : Reply (Manager σ) (Poll ε)}
    (h : m.poll now id describe generation = some r) : m.CountsFailures r := by
  unfold poll at h
  cases hp : m.coordinator.parties.find? id <;> simp only [hp] at h
  case none => cases h
  case some p =>
    simp only [Option.bind_eq_bind, Option.bind_some] at h
    split at h
    case h_1 =>
      split at h <;> cases h
      case isTrue => exact takeTurn_countsFailures
      case isFalse => exact (UInt64.add_zero _).symm
    case h_2 =>
      cases h
      exact continueGeneration_countsFailures
    case h_3 => cases h

end Failures

-- A request can be looked at as long as it is there.
theorem poll_isSome {p : Party} (now : Instant) (describe : ε → String)
    (generation : Generation ε) (hp : m.coordinator.parties.find? id = some p)
    (hs : p.stage.isRequest) : (m.poll now id describe generation).isSome := by
  unfold poll
  simp only [hp, Option.bind_eq_bind, Option.bind_some]
  cases h : p.stage <;> simp_all [Stage.isRequest]
  case queued => split <;> rfl

section

omit [ByteStore σ]

theorem of_cancel {m' : Manager σ} (h : m.cancel id = some m') :
    ∃ p, m.coordinator.parties.find? id = some p ∧ p.stage.isRequest ∧ m' = m.depart id := by
  unfold cancel at h
  cases hp : m.coordinator.parties.find? id <;> simp only [hp] at h
  case none => cases h
  case some p =>
    simp only [Option.bind_eq_bind, Option.bind_some] at h
    split at h
    case isTrue hs =>
      cases h
      exact ⟨p, rfl, hs, rfl⟩
    case isFalse => cases h

theorem cancel_eq {p : Party} (hp : m.coordinator.parties.find? id = some p)
    (hs : p.stage.isRequest) : m.cancel id = some (m.depart id) := by
  simp [cancel, hp, hs]

end

end Manager

end OnceCache
