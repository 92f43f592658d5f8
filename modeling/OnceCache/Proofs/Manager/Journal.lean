import OnceCache.Proofs.Manager.Request
import OnceCache.Proofs.Stats
import OnceCache.Proofs.Store.Log

namespace OnceCache

-- What there is to tell of the answer to a request.
def Poll.told {ε : Type} (key : Key) (describe : ε → String) : Poll ε → List Event
  | finished (.error e) _ => [.generationFailed key (describe e)]
  | finished (.ok _) _ | pending _ | broken => []

namespace Manager

variable {σ ε : Type} [ByteStore σ]

-- What a manager does does not depend on whether there is a record of what is done with its store.
section Plain

variable {now : Instant} {id : PartyId} {key : Key} {status : Status} {directive : Directive}
variable {describe : ε → String} {progress : Progress ε} {generation : Generation ε}
variable {m : Manager (JournaledStore σ)}

omit [ByteStore σ] in
-- A manager without the record.
def plain (m : Manager (JournaledStore σ)) : Manager σ where
  coordinator := m.coordinator
  store := m.store.store
  stats := m.stats

omit [ByteStore σ] in
def plainReply {α : Type} (r : Reply (Manager (JournaledStore σ)) α) : Reply (Manager σ) α :=
  ⟨r.answer, r.state.plain, r.log⟩

theorem continueGeneration_plain :
    plainReply (m.continueGeneration now id key status describe progress) =
      m.plain.continueGeneration now id key status describe progress := by
  unfold continueGeneration
  rcases progress with _ | (e | body) | _
  case finished.ok =>
    have hw : (m.plain.write now key body).answer = (m.write now key body).answer := rfl
    dsimp only
    rw [hw]
    cases (m.write now key body).answer <;> rfl
  all_goals rfl

theorem beginGeneration_plain :
    plainReply (m.beginGeneration now id key status describe generation) =
      m.plain.beginGeneration now id key status describe generation :=
  continueGeneration_plain

theorem takeTurn_plain :
    plainReply (m.takeTurn now id key directive describe generation) =
      m.plain.takeTurn now id key directive describe generation := by
  unfold takeTurn
  cases directive
  case noCache => exact beginGeneration_plain
  case standard =>
    have hd : Directive.allowsRead .standard = true := rfl
    have hr : (m.plain.read now key).answer = (m.read now key).answer := rfl
    simp only [hd, if_true, hr]
    cases (m.read now key).answer
    case ok => rfl
    case error e =>
      have hg : plainReply (((m.read now key).state.record .miss).beginGeneration now id key .miss
          describe generation) = ((m.plain.read now key).state.record .miss).beginGeneration now id
            key .miss describe generation := beginGeneration_plain
      dsimp only
      rw [← hg]
      rfl

theorem poll_plain : m.plain.poll now id describe generation =
    (m.poll now id describe generation).map plainReply := by
  unfold poll
  have hp : m.plain.coordinator = m.coordinator := rfl
  rw [hp]
  cases m.coordinator.parties.find? id
  case none => rfl
  case some p =>
    simp only [Option.bind_eq_bind, Option.bind_some]
    cases p.stage
    case queued d =>
      dsimp only
      split
      case isTrue => exact congrArg some takeTurn_plain.symm
      case isFalse => rfl
    case generating => exact congrArg some continueGeneration_plain.symm
    all_goals rfl

end Plain

-- What a look at a generation comes to: what is answered, what is done with the store, and what is
-- counted. A body is written once, and what the store says to it makes no difference to the answer.
inductive Concluded (key : Key) (status : Status) :
    Progress ε → Poll ε → List Access → List Counter → Prop
  | pending : Concluded key status .pending (.pending true) [] []
  | broken : Concluded key status .broken .broken [] []
  | failed {e : ε} :
    Concluded key status (.finished (.error e)) (.finished (.error e) true) [] [.generationFailure]
  | stored {body : Body} :
    Concluded key status (.finished (.ok body)) (.finished (.ok ⟨body, status⟩) true)
      [.write key body (.ok ())] []
  | refused {body : Body} {e : Error} :
    Concluded key status (.finished (.ok body)) (.finished (.ok ⟨body, status⟩) true)
      [.write key body (.error e)] [.storeFailure]

-- What the turn of a request comes to. The store is read as far as the directive allows.
inductive Attended (key : Key) (progress : Progress ε) :
    Directive → Poll ε → List Access → List Counter → Prop
  | found {body : Body} :
    Attended key progress .standard (.finished (.ok ⟨body, .hit⟩) false)
      [.read key (.ok body)] [.hit]
  | missed {e : Error} {answer : Poll ε} {accesses : List Access} {counters : List Counter} :
    Concluded key .miss progress answer accesses counters →
    Attended key progress .standard answer (.read key (.error e) :: accesses)
      (.miss :: .generation :: counters)
  | bypassed {answer : Poll ε} {accesses : List Access} {counters : List Counter} :
    Concluded key .bypass progress answer accesses counters →
    Attended key progress .noCache answer accesses (.bypass :: .generation :: counters)

theorem Concluded.hasTurn {key : Key} {status : Status} {progress : Progress ε} {answer : Poll ε}
    {accesses : List Access} {counters : List Counter}
    (h : Concluded key status progress answer accesses counters) : answer.hasTurn := by
  cases h <;> rfl

theorem Attended.hasTurn {key : Key} {progress : Progress ε} {d : Directive} {answer : Poll ε}
    {accesses : List Access} {counters : List Counter}
    (h : Attended key progress d answer accesses counters) : answer.hasTurn := by
  cases h
  case found => rfl
  case missed hc => exact hc.hasTurn
  case bypassed hc => exact hc.hasTurn

-- What a look at a request comes to. One who waits does nothing.
inductive Acted (now : Instant) (p : Party) (generation : Generation ε) :
    Poll ε → List Access → List Counter → Prop
  | waits {d : Directive} :
    p.stage = .queued d → Acted now p generation (.pending false) [] []
  | turns {d : Directive} {answer : Poll ε} {accesses : List Access} {counters : List Counter} :
    p.stage = .queued d → Attended p.key (generation now) d answer accesses counters →
    Acted now p generation answer accesses counters
  | continues {status : Status} {since : Instant} {answer : Poll ε} {accesses : List Access}
      {counters : List Counter} :
    p.stage = .generating status since →
    Concluded p.key status (generation since) answer accesses counters →
    Acted now p generation answer accesses counters

theorem Acted.isRequest {now : Instant} {p : Party} {generation : Generation ε}
    {answer : Poll ε} {accesses : List Access} {counters : List Counter}
    (h : Acted now p generation answer accesses counters) : p.stage.isRequest := by
  cases h <;> simp_all [Stage.isRequest]

section Inversion

variable {now : Instant} {id : PartyId} {key : Key} {status : Status} {directive : Directive}
variable {describe : ε → String} {progress : Progress ε} {generation : Generation ε}
variable {m : Manager (JournaledStore σ)}

-- What a look at a request tells, from what is done with the store and from what is answered.
def told (key : Key) (describe : ε → String) (accesses : List Access) (answer : Poll ε) :
    List Event :=
  accesses.flatMap Access.told ++ answer.told key describe

theorem told_cons {a : Access} {answer : Poll ε} {accesses : List Access} :
    told key describe (a :: accesses) answer = a.told ++ told key describe accesses answer := by
  rw [told, List.flatMap_cons, List.append_assoc, told]

-- What a reply says of the store and the statistics. Its log tells as much, between the words of
-- the store itself.
structure Leads (m : Manager (JournaledStore σ)) (key : Key) (describe : ε → String)
    (r : Reply (Manager (JournaledStore σ)) (Poll ε)) (accesses : List Access)
    (counters : List Counter) : Prop where
  journal : r.state.store.journal = m.store.journal ++ accesses
  stats   : r.state.stats = m.stats.after counters
  log     : ∀ [SincereStore σ], Event.Tells r.log (told key describe accesses r.answer)

theorem continueGeneration_concluded :
    let r := m.continueGeneration now id key status describe progress
    ∃ accesses counters, m.Leads key describe r accesses counters ∧
      Concluded key status progress r.answer accesses counters := by
  unfold continueGeneration
  rcases progress with _ | (e | body) | _
  case pending => exact ⟨[], [], ⟨(List.append_nil _).symm, rfl, .nil⟩, .pending⟩
  case broken => exact ⟨[], [], ⟨(List.append_nil _).symm, rfl, .nil⟩, .broken⟩
  case finished.error => exact ⟨[], _, ⟨(List.append_nil _).symm, rfl, .single rfl⟩, .failed⟩
  case finished.ok =>
    have hj : (m.write now key body).state.store.journal =
      m.store.journal ++ [.write key body (m.write now key body).answer] := rfl
    have hl [SincereStore σ] : Event.Tells (m.write now key body).log [] :=
      .of_store (SincereStore.write m.store now key body)
    dsimp only
    cases ha : (m.write now key body).answer <;> rw [ha] at hj
    case ok => exact ⟨_, [], ⟨hj, rfl, hl⟩, .stored⟩
    case error e => exact ⟨_, [.storeFailure], ⟨hj, rfl, hl.append (.single rfl)⟩, .refused⟩

theorem beginGeneration_concluded :
    let r := m.beginGeneration now id key status describe generation
    ∃ accesses counters, m.Leads key describe r accesses (.generation :: counters) ∧
      Concluded key status (generation now) r.answer accesses counters := by
  obtain ⟨accesses, counters, hl, hc⟩ := continueGeneration_concluded
    (m := { m.record .generation with
      coordinator := m.coordinator.setStage id (.generating status now) })
  exact ⟨accesses, counters, ⟨hl.journal, hl.stats, hl.log⟩, hc⟩

theorem takeTurn_attended :
    let r := m.takeTurn now id key directive describe generation
    ∃ accesses counters, m.Leads key describe r accesses counters ∧
      Attended key (generation now) directive r.answer accesses counters := by
  unfold takeTurn
  cases directive
  case noCache =>
    obtain ⟨accesses, counters, hl, hc⟩ := beginGeneration_concluded (m := m.record .bypass)
    exact ⟨accesses, .bypass :: .generation :: counters, ⟨hl.journal, hl.stats, hl.log⟩,
      .bypassed hc⟩
  case standard =>
    have hd : Directive.allowsRead .standard = true := rfl
    have hj : (m.read now key).state.store.journal =
      m.store.journal ++ [.read key (m.read now key).answer] := rfl
    have hr [SincereStore σ] : Event.Tells (m.read now key).log [] :=
      .of_store (SincereStore.read m.store now key)
    simp only [hd, if_true]
    cases ha : (m.read now key).answer <;> rw [ha] at hj
    case ok body => exact ⟨_, _, ⟨hj, rfl, hr.append (.single rfl)⟩, .found⟩
    case error e =>
      obtain ⟨accesses, counters, hl, hc⟩ :=
        beginGeneration_concluded (m := (m.read now key).state.record .miss)
      refine ⟨.read key (.error e) :: accesses, .miss :: .generation :: counters,
        ⟨?_, hl.stats, ?_⟩, .missed hc⟩
      case refine_1 =>
        calc
          _ = (m.read now key).state.store.journal ++ accesses := hl.journal
          _ = m.store.journal ++ .read key (.error e) :: accesses := by
            rw [hj, List.append_assoc, List.singleton_append]
      case refine_2 =>
        intro _
        have hu : Event.Tells [if e.isExpected then .miss key else .readFailed key e]
            (Access.read key (.error e)).told := by
          simp only [Error.isExpected, decide_eq_true_eq]
          exact .single Event.isOfManager_unread
        rw [told_cons]
        exact hr.append (hu.append hl.log)

theorem acted_of_poll {r : Reply (Manager (JournaledStore σ)) (Poll ε)}
    (h : m.poll now id describe generation = some r) :
    ∃ p accesses counters, m.coordinator.parties.find? id = some p ∧
      m.Leads p.key describe r accesses counters ∧
      Acted now p generation r.answer accesses counters := by
  unfold poll at h
  cases hp : m.coordinator.parties.find? id <;> simp only [hp] at h
  case none => cases h
  case some p =>
    refine ⟨p, ?_⟩
    simp only [Option.bind_eq_bind, Option.bind_some] at h
    split at h
    case h_1 d hs =>
      split at h <;> cases h
      case isTrue =>
        obtain ⟨accesses, counters, hl, ha⟩ := takeTurn_attended (m := m)
        exact ⟨accesses, counters, rfl, hl, .turns hs ha⟩
      case isFalse => exact ⟨[], [], rfl, ⟨(List.append_nil _).symm, rfl, .nil⟩, .waits hs⟩
    case h_2 status since hs =>
      cases h
      obtain ⟨accesses, counters, hl, hc⟩ := continueGeneration_concluded (m := m)
      exact ⟨accesses, counters, rfl, hl, .continues hs hc⟩
    case h_3 => cases h

end Inversion

end Manager

end OnceCache
