import OnceCache.Coordination.Coordinator

namespace OnceCache

inductive Misuse
  | noSuchHandle
  -- A lock call of the handle is not given up.
  | inUse
  | notLocking
  -- The lock call was not told that it holds the lock.
  | notLocked
  deriving DecidableEq, Repr

def Misuse.text : Misuse → String
  | noSuchHandle => "no such handle"
  | inUse => "in use"
  | notLocking => "not locking"
  | notLocked => "not locked"

namespace Coordinator

def allocate (c : Coordinator) (key : Key) : PartyId × Coordinator := c.enter key .handle

def debugHandle (key : Key) : String := Quoted.record "CacheEntry" [("key", key.debug)] true

def handle? (c : Coordinator) (id : PartyId) : Except Misuse Party :=
  match c.parties.find? id with
  | some p => if p.stage = .handle then .ok p else .error .noSuchHandle
  | none => .error .noSuchHandle

def call? (c : Coordinator) (id : PartyId) : Except Misuse Party :=
  match c.parties.find? id with
  | some p => if p.stage.handle?.isSome then .ok p else .error .notLocking
  | none => .error .notLocking

def pollLock (c : Coordinator) (id : PartyId) : Except Misuse (Bool × Coordinator) := do
  let p ← c.call? id
  match p.stage with
  | .waiting handle =>
    if c.isFirst id p then return (true, c.setStage id (.holding handle)) else return (false, c)
  | _ => return (true, c)

-- A handle asks for the lock. Each time a new lock call comes and is polled.
def askLock (c : Coordinator) (id : PartyId) : Except Misuse (PartyId × Bool × Coordinator) := do
  let p ← c.handle? id
  let (call, c) := c.arrive { p with stage := .waiting id }
  let (isHolder, c) ← c.pollLock call
  return (call, isHolder, c)

def abandon (c : Coordinator) (id : PartyId) : Except Misuse Coordinator := do
  let _ ← c.call? id
  return c.depart id

def guard? (c : Coordinator) (id : PartyId) : Except Misuse Party := do
  let p ← c.call? id
  if p.stage.isOwner then return p else .error .notLocked

def unlock (c : Coordinator) (id : PartyId) : Except Misuse Coordinator := do
  let _ ← c.guard? id
  return c.depart id

def isInUse (c : Coordinator) (id : PartyId) : Bool :=
  c.parties.pairs.any (·.2.stage.handle? = some id)

-- A handle is given up. Its lock calls borrow it, so that they must be gone before.
def free (c : Coordinator) (id : PartyId) : Except Misuse Coordinator := do
  let _ ← c.handle? id
  if c.isInUse id then .error .inUse else return c.depart id

def sharesLock (c : Coordinator) (a b : PartyId) : Except Misuse Bool := do
  let p ← c.handle? a
  let q ← c.handle? b
  return p.lock = q.lock

end Coordinator

end OnceCache
