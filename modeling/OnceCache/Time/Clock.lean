import OnceCache.Time.Duration

namespace OnceCache

-- Nanoseconds since the clock was started.
abbrev Instant := Nat

namespace Instant

-- The clock names no instant from here on, `2 ^ 63` seconds after its start.
def horizon : Nat := 9223372036854775808 * 1000000000

def after? (now : Instant) (length : Duration) : Option Instant :=
  if now + length.total < horizon then some (now + length.total) else none

-- The last millisecond that timers can count. All later ones are the same to them.
def lastMilli : Nat := 18446744073709551613

-- Timers move in whole milliseconds and never go off early.
def isPast (due now : Instant) : Bool :=
  (due + 999999) / 1000000 ≤ now / 1000000 ∨ lastMilli ≤ now / 1000000

-- Whether a limit of time that begins at `start` is reached. One whose end has no name never is.
def limitReached (start : Instant) (limit : Duration) (now : Instant) : Bool :=
  (start.after? limit).any fun due => Instant.isPast due now

def microsSince (now start : Instant) : Nat := (now - start) / 1000

-- Thirty years of 365 days, in nanoseconds.
def thirtyYears : Nat := 86400 * 365 * 30 * 1000000000

end Instant

-- When waits are over that begin at an instant. None is longer than it is asked to be, and none is
-- shorter unless it is asked to be longer than thirty years.
structure Timers where
  due : Instant → Duration → Instant
  due_le : ∀ now length, due now length ≤ now + length.total
  le_due : ∀ now length, now + Nat.min length.total Instant.thirtyYears ≤ due now length

namespace Timers

def exact : Timers where
  due now length := now + length.total
  due_le _ _ := Nat.le_refl _
  le_due _ _ := Nat.add_le_add_left (Nat.min_le_left ..) _

def capped : Timers where
  due now length := now + Nat.min length.total Instant.thirtyYears
  due_le _ _ := Nat.add_le_add_left (Nat.min_le_left ..) _
  le_due _ _ := Nat.le_refl _

def isOver (timers : Timers) (start : Instant) (length : Duration) (now : Instant) : Bool :=
  (timers.due start length).isPast now

end Timers

end OnceCache
