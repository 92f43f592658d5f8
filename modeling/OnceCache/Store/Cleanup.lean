import OnceCache.Config.Validation
import OnceCache.Store.Memory

namespace OnceCache

namespace MemoryStore

def expire (s : MemoryStore) (p : Key × StoredBody) : MemoryStore :=
  (s.takeOut p.1 p.2).record .expiration

def cleanUp (s : MemoryStore) (now : Instant) : Reply MemoryStore Nat :=
  if s.cleaning then ⟨0, s, []⟩
  else
    let expired := s.bodies.pairs.filter fun p => p.2.isExpired now
    let s := { expired.foldl expire { s with cleaning := true } with cleaning := false }
    let log := if expired.isEmpty then [] else [.expired expired.length s.size]
    ⟨expired.length, s, log⟩

end MemoryStore

structure CleanupTask where
  interval : Duration
  due : Instant
  -- Whether it has come before. The first time it cleans nothing up: its intervals begin.
  hasBegun : Bool
  deriving DecidableEq

namespace CleanupTask

-- How late a task can come without moving the times after it, in nanoseconds.
def tolerance : Nat := 5000000

variable (timers : Timers)

-- The task comes next an interval after it was due, or an interval from now if it came late.
def next (t : CleanupTask) (now : Instant) : CleanupTask :=
  let base : Instant := if t.due + tolerance < now then now else t.due
  { t with due := timers.due base t.interval, hasBegun := true }

def start (interval : Duration) (now : Instant) : CleanupTask := ⟨interval, now, false⟩

def begun (t : CleanupTask) (now : Instant) : CleanupTask :=
  if !t.hasBegun && t.due.isPast now then t.next timers now else t

def run (t : CleanupTask) (now : Instant) (s : MemoryStore) : Reply MemoryStore CleanupTask :=
  let t := t.begun timers now
  if t.hasBegun && t.due.isPast now then
    let r := s.cleanUp now
    ⟨t.next timers now, r.state, r.log⟩
  else ⟨t, s, []⟩

def runAll (now : Instant) : List CleanupTask → MemoryStore → Reply MemoryStore (List CleanupTask)
  | [], s => ⟨[], s, []⟩
  | t :: tasks, s =>
    let r := t.run timers now s
    let rest := runAll now tasks r.state
    ⟨r.answer :: rest.answer, rest.state, r.log ++ rest.log⟩

end CleanupTask

-- The clean-up task of a store with this configuration. None is started without automatic clean-up
-- or for a store that keeps nothing; none for too short an interval, or where nothing can run it,
-- and then the log says so.
def Config.spawnCleanup (c : Config) (hasRuntime : Bool) (now : Instant) :
    Option CleanupTask × List Event :=
  if !c.autoCleanup || !c.isEnabled then (none, [])
  else if c.cleanupInterval < minCleanupInterval then
    (none, [.cleanupTooFrequent c.cleanupInterval])
  else if !hasRuntime then (none, [.cleanupWithoutRuntime])
  else (some (.start c.cleanupInterval now), [])

end OnceCache
