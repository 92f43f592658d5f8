import OnceCache.Session.Request

namespace OnceCache

namespace Session

variable {σ : Type}

def refuse (s : Session σ) (refusal : Refusal) : Reply (Session σ) Answer :=
  ⟨.refused refusal, s, []⟩

def attempt {α : Type} (s : Session σ) (result : Except Misuse α)
    (answer : α → Reply (Session σ) Answer) : Reply (Session σ) Answer :=
  match result with
  | .ok a => answer a
  | .error misuse => s.refuse (.misuse misuse)

def withHandle (s : Session σ) (name : String) (act : OpenHandle → Reply (Session σ) Answer) :
    Reply (Session σ) Answer :=
  match s.handle? name with
  | some h => act h
  | none => s.refuse (.misuse .noSuchHandle)

-- What is done with the lock call of a handle, if it has one.
def onLockCall (s : Session σ) (name : String) (misuse : Misuse)
    (act : PartyId → Reply (Session σ) Answer) : Reply (Session σ) Answer :=
  s.withHandle name fun h =>
    match h.lockCall with
    | some call => act call
    | none => s.refuse (.misuse misuse)

def dropLockCall (s : Session σ) (h : OpenHandle) : Session σ :=
  match h.lockCall.map s.coordinator.abandon with
  | some (.ok c) => (s.withCoordinator c).withLockCall h.name none
  | _ => s

def withRequest (s : Session σ) (name : String)
    (act : OpenRequest → Reply (Session σ) RequestAnswer) : Reply (Session σ) Answer :=
  match s.request? name with
  | some r =>
    let reply := act r
    ⟨.request reply.answer, reply.state, reply.log⟩
  | none => s.refuse .noSuchRequest

def withHead (s : Session σ) (raw : Http.RawRequest)
    (act : Http.Request → Reply (Session σ) Answer) : Reply (Session σ) Answer :=
  match Http.Request.parse raw with
  | .ok q => act q
  | .error part => ⟨.badRequest part, s, []⟩

variable [ByteStore σ]

def step (s : Session σ) : Operation → Reply (Session σ) Answer
  | .allocate name key =>
    let (id, c) := s.coordinator.allocate key
    ⟨.handle key, { s.withCoordinator c with handles := s.handles ++ [⟨name, id, none⟩] }, []⟩
  | .free name =>
    s.withHandle name fun h =>
      let s := s.dropLockCall h
      s.attempt (s.coordinator.free h.party) fun c =>
        ⟨.released, { s.withCoordinator c with handles := s.handles.filter (·.name ≠ name) }, []⟩
  | .sameLock a b =>
    s.withHandle a fun p =>
      s.withHandle b fun q =>
        s.attempt (s.coordinator.sharesLock p.party q.party) fun isSame => ⟨.bool isSame, s, []⟩
  | .lock name =>
    s.withHandle name fun h =>
      if h.lockCall.isSome then s.refuse .alreadyLocking
      else
        s.attempt (s.coordinator.askLock h.party) fun (call, isHolder, c) =>
          ⟨.locked isHolder, (s.withCoordinator c).withLockCall name (some call), []⟩
  | .pollLock name =>
    s.onLockCall name .notLocking fun call =>
      s.attempt (s.coordinator.pollLock call) fun (isHolder, c) =>
        ⟨.locked isHolder, s.withCoordinator c, []⟩
  | .unlock name =>
    s.onLockCall name .notLocked fun call =>
      s.attempt (s.coordinator.unlock call) fun c =>
        ⟨.unlocked, (s.withCoordinator c).withLockCall name none, []⟩
  | .guardGet name =>
    s.onLockCall name .notLocked fun call =>
      s.attempt (s.coordinator.guard? call) fun p =>
        let r := s.manager.read s.now p.key
        ⟨.ofRead r.answer, { s with manager := r.state }, r.log⟩
  | .guardSet name body =>
    s.onLockCall name .notLocked fun call =>
      s.attempt (s.coordinator.guard? call) fun p =>
        let r := s.manager.write s.now p.key body
        ⟨.ofWrite r.answer, { s with manager := r.state }, r.log⟩
  | .abandon name => s.withHandle name fun h => ⟨.bool h.lockCall.isSome, s.dropLockCall h, []⟩
  | .refCount key => ⟨.count (s.coordinator.registry.refCount key), s, []⟩
  | .containsKey key => ⟨.bool (s.coordinator.registry.contains key), s, []⟩
  | .registry =>
    ⟨.registry s.coordinator.registry.size s.coordinator.registry.isEmpty, s, []⟩
  | .debugManager => ⟨.text s.manager.debug, s, []⟩
  | .debugResponder => ⟨.text (s.responder.debug s.manager.debug), s, []⟩
  | .start name key directive script =>
    let r := s.begin name key directive .direct script
    ⟨.request r.answer, r.state, r.log⟩
  | .fetch name raw script responder =>
    s.withHead raw fun q =>
      let responder := responder.getD s.responder
      let r := s.beginHttp name responder q (.fetch responder) script
      ⟨.request r.answer, r.state, r.log⟩
  | .respond name raw script responder =>
    s.withHead raw fun q =>
      let responder := responder.getD s.responder
      let r := s.beginHttp name responder q (.respond responder q.target) script
      ⟨.request r.answer, r.state, r.log⟩
  | .poll name => s.withRequest name s.pollRequest
  | .finish name outcome =>
    s.withRequest name fun r =>
      let (r, s) := s.give r outcome
      s.pollRequest r
  | .pollAll =>
    let r := pollEach s.requests s
    ⟨.requests r.answer, r.state, r.log⟩
  | .cancel name =>
    let (wasOpen, s) := s.cancel name
    ⟨.bool wasOpen, s, []⟩
  | .cacheKey raw => s.withHead raw fun q => ⟨.text (s.responder.key q).text, s, []⟩
  | .advance length => ⟨.ok, { s with now := s.now + length.total }, []⟩
  | .get key =>
    let r := s.manager.read s.now key
    ⟨.ofRead r.answer, { s with manager := r.state }, r.log⟩
  | .set key body =>
    let r := s.manager.write s.now key body
    ⟨.ofWrite r.answer, { s with manager := r.state }, r.log⟩

def run : List Operation → Session σ → Reply (Session σ) (List Answer)
  | [], s => ⟨[], s, []⟩
  | operation :: operations, s =>
    let r := s.step operation
    let rest := run operations r.state
    ⟨r.answer :: rest.answer, rest.state, r.log ++ rest.log⟩

end Session

end OnceCache
