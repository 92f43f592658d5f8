import OnceCache.Generation.Failure
import OnceCache.Time.Clock

namespace OnceCache

abbrev Body := ByteArray

inductive Progress (ε : Type)
  | pending
  | finished (outcome : Except ε Body)
  -- Torn down by a fault of its own, without an outcome.
  | broken

-- What a generation that began at an instant has come to by now.
abbrev Generation (ε : Type) := Instant → Progress ε

namespace Generation

-- A generation whose time is limited. Time runs from its own beginning, and an outcome that is
-- there counts even when time is up.
def within (limit : Option Duration) (now : Instant) (g : Generation Failure) :
    Generation Failure := fun start =>
  match g start, limit with
  | .pending, some length =>
    if start.limitReached length now then .finished (.error (.timeout length)) else .pending
  | progress, _ => progress

inductive Ending (ε : Type)
  | outcome (result : Except ε Body)
  | gated (given : Option (Except ε Body))
  | fault

def Ending.progress {ε : Type} : Ending ε → Progress ε
  | .outcome result => .finished result
  | .gated (some result) => .finished result
  | .gated none => .pending
  | .fault => .broken

-- A generation whose course is laid down in advance: it may pause for a while, and then it ends.
structure Script (ε : Type) where
  pause : Option Duration
  ending : Ending ε

namespace Script

def progress {ε : Type} (script : Script ε) (now : Instant) : Generation ε := fun start =>
  if script.pause.all (Timers.capped.isOver start · now) then script.ending.progress else .pending

-- Gives a script its outcome, if it is to be given one. It keeps it until its pause is over. What
-- is given last counts.
def give {ε : Type} (script : Script ε) (outcome : Except ε Body) : Script ε :=
  match script.ending with
  | .gated _ => { script with ending := .gated (some outcome) }
  | _ => script

end Script

end Generation

end OnceCache
