import OnceCache.Coordination.Registry
import OnceCache.Directive
import OnceCache.Time.Clock

namespace OnceCache

inductive Status
  | hit
  | miss
  -- The body was generated, since the request wanted none from the store.
  | bypass
  deriving DecidableEq, Repr

def Status.text : Status → String
  | hit => "HIT"
  | miss => "MISS"
  | bypass => "BYPASS"

inductive Stage
  | handle
  -- A lock call of a handle that was not told yet that it holds the lock.
  | waiting (handle : PartyId)
  -- A lock call that was told that it holds the lock.
  | holding (handle : PartyId)
  -- A request that was not told yet that it holds the lock.
  | queued (directive : Directive)
  -- A request that holds the lock and began its generation at an instant.
  | generating (status : Status) (since : Instant)
  deriving DecidableEq

namespace Stage

def handle? : Stage → Option PartyId
  | waiting id | holding id => some id
  | handle | queued _ | generating .. => none

def isRequest : Stage → Bool
  | queued _ | generating .. => true
  | handle | waiting _ | holding _ => false

def isInLine : Stage → Bool
  | handle => false
  | _ => true

def isOwner : Stage → Bool
  | holding _ | generating .. => true
  | _ => false

end Stage

-- One who has to do with a key. Handles and requests refer to it.
structure Party where
  key : Key
  lock : LockId
  stage : Stage
  deriving DecidableEq

@[ext]
structure Coordinator where
  registry : Registry := {}
  -- The lines in front of the locks. A lock that is not here has no line.
  lines : Table LockId Line := ∅
  parties : Table PartyId Party := ∅
  nextParty : PartyId := 0

namespace Coordinator

instance : Inhabited Coordinator := ⟨{}⟩

def lineOf (c : Coordinator) (lock : LockId) : Line := (c.lines.find? lock).getD {}

def setLine (c : Coordinator) (lock : LockId) (line : Line) : Coordinator :=
  { c with lines := if line.isEmpty then c.lines.erase lock else c.lines.insert lock line }

def setStage (c : Coordinator) (id : PartyId) (stage : Stage) : Coordinator :=
  { c with parties := c.parties.modify id ({ · with stage }) }

def join (c : Coordinator) (id : PartyId) (p : Party) : Coordinator :=
  c.setLine p.lock ((c.lineOf p.lock).join id)

def leave (c : Coordinator) (id : PartyId) (p : Party) : Coordinator :=
  c.setLine p.lock ((c.lineOf p.lock).leave id)

def isFirst (c : Coordinator) (id : PartyId) (p : Party) : Bool :=
  (c.lineOf p.lock).holder = some id

def arrive (c : Coordinator) (p : Party) : PartyId × Coordinator :=
  let id := c.nextParty
  let c := { c with parties := c.parties.insert id p, nextParty := id + 1 }
  (id, if p.stage.isInLine then c.join id p else c)

def enter (c : Coordinator) (key : Key) (stage : Stage) : PartyId × Coordinator :=
  let (lock, registry) := c.registry.acquire key
  { c with registry }.arrive ⟨key, lock, stage⟩

-- The registry without the reference of a party. A lock call has none of its own.
def released (c : Coordinator) (p : Party) : Registry :=
  match p.stage.handle? with
  | some _ => c.registry
  | none =>
    match c.registry.release p.key with
    | .ok (_, registry) => registry
    | .error _ => c.registry

-- A party goes: it leaves the line first and then gives up its reference.
def depart (c : Coordinator) (id : PartyId) : Coordinator :=
  match c.parties.find? id with
  | none => c
  | some p =>
    let c := c.leave id p
    { c with registry := c.released p, parties := c.parties.erase id }

section Laws

variable {c : Coordinator} {lock lock' : LockId} {line : Line}

@[simp]
theorem lineOf_setLine :
    (c.setLine lock line).lineOf lock' = if lock = lock' then line else c.lineOf lock' := by
  simp only [lineOf, setLine]
  split
  case isTrue he =>
    by_cases h : lock = lock'
    case pos =>
      subst h
      obtain ⟨parties⟩ := line
      cases parties <;> simp_all [Line.isEmpty]
    case neg => simp [h, Table.find?_erase_of_ne h]
  case isFalse => by_cases h : lock = lock' <;> simp [Table.find?_insert, h]

end Laws

end Coordinator

end OnceCache
