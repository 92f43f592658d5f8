import OnceCache.Manager.Basic

namespace OnceCache

structure Served where
  body : Body
  status : Status

inductive Poll (ε : Type)
  -- The request is not done. Its generation may have begun.
  | pending (generating : Bool)
  -- The request is done. Its generation may have run.
  | finished (outcome : Except ε Served) (generated : Bool)
  | broken

namespace Manager

variable {σ ε : Type} [ByteStore σ]

-- A request comes. It joins the line at once and nothing else happens until it is polled.
def request (m : Manager σ) (key : Key) (directive : Directive) : PartyId × Manager σ :=
  let (id, coordinator) := m.coordinator.enter key (.queued directive)
  (id, { m with coordinator })

-- Looks at the generation of a request. A fresh body is put into the store; if the store refuses
-- it, the request is served all the same. Whatever the outcome, the request goes.
def continueGeneration (m : Manager σ) (now : Instant) (id : PartyId) (key : Key) (status : Status)
    (describe : ε → String) (progress : Progress ε) : Reply (Manager σ) (Poll ε) :=
  match progress with
  | .pending => ⟨.pending true, m, []⟩
  | .broken => ⟨.broken, m.depart id, []⟩
  | .finished (.error e) =>
    ⟨.finished (.error e) true, (m.record .generationFailure).depart id,
      [.generationFailed key (describe e)]⟩
  | .finished (.ok body) =>
    let r := m.write now key body
    let answer := .finished (.ok ⟨body, status⟩) true
    match r.answer with
    | .ok () => ⟨answer, r.state.depart id, r.log⟩
    | .error e =>
      ⟨answer, (r.state.record .storeFailure).depart id,
        r.log ++ [.writeFailed key body.size e]⟩

def beginGeneration (m : Manager σ) (now : Instant) (id : PartyId) (key : Key) (status : Status)
    (describe : ε → String) (generation : Generation ε) : Reply (Manager σ) (Poll ε) :=
  let m := m.record .generation
  let m := { m with coordinator := m.coordinator.setStage id (.generating status now) }
  m.continueGeneration now id key status describe (generation now)

def takeTurn (m : Manager σ) (now : Instant) (id : PartyId) (key : Key) (directive : Directive)
    (describe : ε → String) (generation : Generation ε) : Reply (Manager σ) (Poll ε) :=
  if directive.allowsRead then
    let r := m.read now key
    match r.answer with
    | .ok body =>
      ⟨.finished (.ok ⟨body, .hit⟩) false, (r.state.record .hit).depart id,
        r.log ++ [.hit key body.size]⟩
    | .error e =>
      let g := (r.state.record .miss).beginGeneration now id key .miss describe generation
      let event := if e.isExpected then .miss key else .readFailed key e
      ⟨g.answer, g.state, r.log ++ event :: g.log⟩
  else (m.record .bypass).beginGeneration now id key .bypass describe generation

-- Polls a request, if there is one of this name. `generation` says what its generation would come
-- to, or has come to, by now.
def poll (m : Manager σ) (now : Instant) (id : PartyId) (describe : ε → String)
    (generation : Generation ε) : Option (Reply (Manager σ) (Poll ε)) := do
  let p ← m.coordinator.parties.find? id
  match p.stage with
  | .queued directive =>
    if m.coordinator.isFirst id p then
      return m.takeTurn now id p.key directive describe generation
    else return ⟨.pending false, m, []⟩
  | .generating status since =>
    return m.continueGeneration now id p.key status describe (generation since)
  | _ => none

def cancel (m : Manager σ) (id : PartyId) : Option (Manager σ) := do
  let p ← m.coordinator.parties.find? id
  if p.stage.isRequest then return m.depart id else none

end Manager

end OnceCache
