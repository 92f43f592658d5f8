import OnceCache.Session.Operation

namespace OnceCache

namespace Session

variable {σ : Type}

-- The outcome of a request as its caller gets it, and what the log learns.
def deliver (call : Call) (outcome : Except Failure Served) (generated : Bool) :
    RequestAnswer × List Event :=
  match call, outcome with
  | .respond responder target, outcome =>
    let (response, log) := responder.render target outcome
    (.response response generated, log)
  | _, .ok served => (.served served generated, [])
  | .direct, .error f => (.directFailure f generated, [])
  | .fetch _, .error f => (.fetchFailure f generated, [])

def give (s : Session σ) (r : OpenRequest) (outcome : Except Failure Body) :
    OpenRequest × Session σ :=
  let given := { r with script := r.script.give outcome }
  (given, { s with requests := s.requests.map fun q => if q.name = r.name then given else q })

variable [ByteStore σ]

def pollRequest (s : Session σ) (r : OpenRequest) : Reply (Session σ) RequestAnswer :=
  match s.manager.poll s.now r.party Failure.text (s.generationOf r) with
  | none => ⟨.pending false, s, []⟩
  | some reply =>
    let s := { s with manager := reply.state }
    match reply.answer with
    | .pending generating => ⟨.pending generating, s, reply.log⟩
    | .broken => ⟨.broken, s.withoutRequest r.name, reply.log⟩
    | .finished outcome generated =>
      let (answer, log) := deliver r.call outcome generated
      ⟨answer, s.withoutRequest r.name, reply.log ++ log⟩

def pollEach : List OpenRequest → Session σ → Reply (Session σ) (List (String × RequestAnswer))
  | [], s => ⟨[], s, []⟩
  | r :: requests, s =>
    let reply := s.pollRequest r
    let rest := pollEach requests reply.state
    ⟨(r.name, reply.answer) :: rest.answer, rest.state, reply.log ++ rest.log⟩

def begin (s : Session σ) (name : String) (key : Key) (directive : Directive) (call : Call)
    (script : Generation.Script Failure) : Reply (Session σ) RequestAnswer :=
  let (party, manager) := s.manager.request key directive
  let r : OpenRequest := ⟨name, party, call, script⟩
  { s with manager, requests := s.requests ++ [r] }.pollRequest r

-- Starts a request of a responder, with the key and the directive that its head gives it.
def beginHttp (s : Session σ) (name : String) (responder : Responder) (q : Http.Request)
    (call : Call) (script : Generation.Script Failure) : Reply (Session σ) RequestAnswer :=
  let directive := Directive.ofHeaders q.headers
  let reply := s.begin name (responder.key q) directive call script
  { reply with log := directive.events ++ reply.log }

def cancel (s : Session σ) (name : String) : Bool × Session σ :=
  match (s.request? name).bind fun r => s.manager.cancel r.party with
  | some manager => (true, { s with manager }.withoutRequest name)
  | none => (false, s)

end Session

end OnceCache
