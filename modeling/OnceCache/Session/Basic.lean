import OnceCache.Responder.Response

namespace OnceCache

-- To whom the outcome of a request goes.
inductive Call
  | direct
  | fetch (responder : Responder)
  | respond (responder : Responder) (target : Http.Target)

structure OpenRequest where
  name : String
  party : PartyId
  call : Call
  script : Generation.Script Failure

structure OpenHandle where
  name : String
  party : PartyId
  -- The lock call that is not given up. A session makes one at a time.
  lockCall : Option PartyId := none

-- A manager under a clock that moves only when it is told to. Requests move only when they are
-- polled.
structure Session (σ : Type) where
  now : Instant := 0
  manager : Manager σ
  -- The responder of those requests that name none.
  responder : Responder := {}
  handles : List OpenHandle := []
  requests : List OpenRequest := []

namespace Session

variable {σ : Type}

def coordinator (s : Session σ) : Coordinator := s.manager.coordinator

def withCoordinator (s : Session σ) (coordinator : Coordinator) : Session σ :=
  { s with manager := { s.manager with coordinator } }

def handle? (s : Session σ) (name : String) : Option OpenHandle := s.handles.find? (·.name = name)

def withLockCall (s : Session σ) (name : String) (lockCall : Option PartyId) : Session σ :=
  { s with handles := s.handles.map fun h => if h.name = name then { h with lockCall } else h }

def request? (s : Session σ) (name : String) : Option OpenRequest :=
  s.requests.find? (·.name = name)

def withoutRequest (s : Session σ) (name : String) : Session σ :=
  { s with requests := s.requests.filter (·.name ≠ name) }

def generationOf (s : Session σ) (r : OpenRequest) : Generation Failure :=
  match r.call with
  | .direct => r.script.progress s.now
  | .fetch responder | .respond responder _ => responder.bound s.now (r.script.progress s.now)

-- Drops all requests in the order of their start, and then all handles with their lock calls.
def close (s : Session σ) : Session σ :=
  let parties := s.requests.map (·.party) ++
    s.handles.flatMap fun h => h.lockCall.toList ++ [h.party]
  { s.withCoordinator (parties.foldl Coordinator.depart s.coordinator) with
    requests := []
    handles := [] }

end Session

end OnceCache
