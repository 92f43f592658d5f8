import OnceCache.Manager.Request
import OnceCache.Proofs.Coordination.Role
import OnceCache.Proofs.Table

namespace OnceCache

-- The instant at which the generation of a party began. One that has not begun would begin now.
def Coordinator.since (c : Coordinator) (id : PartyId) (now : Instant) : Instant :=
  match c.parties.find? id with
  | some ⟨_, _, .generating _ since⟩ => since
  | _ => now

section

variable {c : Coordinator} {id : PartyId} {p : Party} {now since : Instant} {status : Status}

theorem Coordinator.since_of_generating (hp : c.parties.find? id = some p)
    (hs : p.stage = .generating status since) : c.since id now = since := by
  obtain ⟨key, lock, stage⟩ := p
  cases hs
  rw [Coordinator.since, hp]

theorem Coordinator.since_of_not_isOwner (hp : c.parties.find? id = some p)
    (hs : p.stage.isOwner = false) : c.since id now = now := by
  obtain ⟨key, lock, stage⟩ := p
  rw [Coordinator.since, hp]
  cases stage <;> first | rfl | cases hs

end

namespace Execution

-- What can happen at a manager and its clones, one thing after the other. A handle can ask for its
-- lock as often as it likes. A request starts with its first look, and each look at it says what
-- its generation has come to. The store can change at the hands of others.
inductive Action (σ ε : Type)
  | allocate (key : Key)
  | askLock (handle : PartyId)
  | pollLock (call : PartyId)
  | abandon (call : PartyId)
  | unlock (call : PartyId)
  | free (handle : PartyId)
  | start (key : Key) (directive : Directive) (generation : Generation ε)
  | poll (id : PartyId) (generation : Generation ε)
  | cancel (id : PartyId)
  | wait (instant : Instant)
  | tend (change : Instant → σ → σ)

-- What an onlooker knows of a party that has come and not gone.
structure Sighting where
  key : Key
  role : Role
  -- Whether it was told that the lock is its own, or that its generation has begun.
  isOwner : Bool
  deriving DecidableEq

-- What it asked for, if it is a request.
def Sighting.directive (v : Sighting) : Option Directive := v.role.directive?

def Sighting.isCall (v : Sighting) : Bool := v.role.handle?.isSome

-- A look at a request: what its generation had come to, and what was answered.
structure Look (ε : Type) where
  key : Key
  directive : Directive
  time : Instant
  progress : Progress ε
  answer : Poll ε

-- An onlooker sees what is done and what is answered, but not what is inside of the manager.
structure Onlooker (ε : Type) where
  live : Table PartyId Sighting := ∅
  looks : List (PartyId × Look ε) := []

namespace Onlooker

variable {ε : Type}

def came (o : Onlooker ε) (id : PartyId) (key : Key) (role : Role) : Onlooker ε :=
  let sighting : Sighting := { key, role, isOwner := false }
  { o with live := o.live.insert id sighting }

def told (o : Onlooker ε) (id : PartyId) (isOwner : Bool) : Onlooker ε :=
  { o with live := o.live.modify id ({ · with isOwner }) }

def went (o : Onlooker ε) (id : PartyId) : Onlooker ε :=
  { o with live := o.live.erase id }

-- A lock call of a handle comes.
def called (o : Onlooker ε) (handle call : PartyId) : Onlooker ε :=
  match o.live.find? handle with
  | some v => o.came call v.key (.call handle)
  | none => o

-- A request that is not done stays, and owns its lock if its generation has begun. Any other is
-- gone.
def looked (o : Onlooker ε) (id : PartyId) (time : Instant) (progress : Progress ε)
    (answer : Poll ε) : Onlooker ε :=
  match o.live.find? id with
  | some ⟨key, .request directive, _⟩ =>
    let look : Look ε := { key, directive, time, progress, answer }
    let o := { o with looks := o.looks ++ [(id, look)] }
    match answer with
    | .pending generating => o.told id generating
    | .finished .. | .broken => o.went id
  | _ => o

-- How many handles and requests have come for a key and have not gone.
def count (o : Onlooker ε) (key : Key) : Nat :=
  o.live.count fun p => p.2.key = key ∧ p.2.isCall = false

end Onlooker

structure State (σ ε : Type) where
  now : Instant
  manager : Manager σ
  onlooker : Onlooker ε := {}

namespace State

variable {σ ε : Type}

-- A new manager of a store.
def init (store : σ) (now : Instant) : State σ ε where
  now
  manager := { store }

def coordinator (s : State σ ε) : Coordinator := s.manager.coordinator

def store (s : State σ ε) : σ := s.manager.store

def live (s : State σ ε) : Table PartyId Sighting := s.onlooker.live

def looks (s : State σ ε) : List (PartyId × Look ε) := s.onlooker.looks

def update (s : State σ ε) (coordinator : Coordinator) (onlooker : Onlooker ε) : State σ ε :=
  { s with manager := { s.manager with coordinator }, onlooker }

-- What is not possible changes nothing.
def attempt {α : Type} (s : State σ ε) (result : Except Misuse α) (done : α → State σ ε) :
    State σ ε :=
  match result with
  | .ok a => done a
  | .error _ => s

variable [ByteStore σ]

-- A request comes. It is not looked at yet.
def receive (s : State σ ε) (key : Key) (directive : Directive) : State σ ε :=
  let (id, manager) := s.manager.request key directive
  { s with manager, onlooker := s.onlooker.came id key (.request directive) }

def look (s : State σ ε) (describe : ε → String) (id : PartyId) (generation : Generation ε) :
    State σ ε :=
  match s.manager.poll s.now id describe generation with
  | some r =>
    let progress := generation (s.coordinator.since id s.now)
    { s with manager := r.state, onlooker := s.onlooker.looked id s.now progress r.answer }
  | none => s

def step (describe : ε → String) (s : State σ ε) : Action σ ε → State σ ε
  | .allocate key =>
    let (id, c) := s.coordinator.allocate key
    s.update c (s.onlooker.came id key .handle)
  | .askLock id =>
    s.attempt (s.coordinator.askLock id) fun (call, isHolder, c) =>
      s.update c ((s.onlooker.called id call).told call isHolder)
  | .pollLock id =>
    s.attempt (s.coordinator.pollLock id) fun (isHolder, c) =>
      s.update c (s.onlooker.told id isHolder)
  | .abandon id => s.attempt (s.coordinator.abandon id) fun c => s.update c (s.onlooker.went id)
  | .unlock id => s.attempt (s.coordinator.unlock id) fun c => s.update c (s.onlooker.went id)
  | .free id => s.attempt (s.coordinator.free id) fun c => s.update c (s.onlooker.went id)
  | .start key directive generation =>
    (s.receive key directive).look describe s.coordinator.nextParty generation
  | .poll id generation => s.look describe id generation
  | .cancel id =>
    match s.manager.cancel id with
    | some manager => { s with manager, onlooker := s.onlooker.went id }
    | none => s
  | .wait instant => { s with now := max s.now instant }
  | .tend change => { s with manager := { s.manager with store := change s.now s.store } }

-- One thing after the other.
def run (describe : ε → String) (s : State σ ε) (actions : List (Action σ ε)) : State σ ε :=
  actions.foldl (step describe) s

theorem run_append {describe : ε → String} {s : State σ ε} {actions actions' : List (Action σ ε)} :
    s.run describe (actions ++ actions') = (s.run describe actions).run describe actions' :=
  List.foldl_append

end State

end Execution

end OnceCache
