namespace OnceCache

-- A length of time in whole nanoseconds, shorter than `2 ^ 64` seconds.
@[ext]
structure Duration where
  total : Nat
  bounded : total < UInt64.size * 1000000000
  deriving DecidableEq

namespace Duration

instance : LE Duration := ⟨fun a b => a.total ≤ b.total⟩

instance : LT Duration := ⟨fun a b => a.total < b.total⟩

instance (a b : Duration) : Decidable (a ≤ b) := inferInstanceAs (Decidable (a.total ≤ b.total))

instance (a b : Duration) : Decidable (a < b) := inferInstanceAs (Decidable (a.total < b.total))

def zero : Duration := ⟨0, by decide⟩

instance : Inhabited Duration := ⟨zero⟩

def longest : Duration := ⟨UInt64.size * 1000000000 - 1, by decide⟩

-- Seconds and nanoseconds together. A thousand million nanoseconds and more carry into the seconds;
-- a sum of `2 ^ 64` seconds or more is no length of time.
def ofParts? (secs nanos : Nat) : Option Duration :=
  if h : secs * 1000000000 + nanos < UInt64.size * 1000000000 then some ⟨_, h⟩ else none

def ofSeconds (secs : Nat) (h : secs < UInt64.size := by decide) : Duration :=
  ⟨secs * 1000000000, Nat.mul_lt_mul_of_pos_right h (by decide)⟩

def secs (d : Duration) : Nat := d.total / 1000000000

def subsecNanos (d : Duration) : Nat := d.total % 1000000000

def isZero (d : Duration) : Bool := d.total = 0

@[simp]
theorem ofParts?_secs_subsecNanos (d : Duration) : ofParts? d.secs d.subsecNanos = some d := by
  have h : d.secs * 1000000000 + d.subsecNanos = d.total := Nat.div_add_mod' ..
  have := d.bounded
  simp only [ofParts?, h]
  rw [dif_pos this]

-- The digits after the point of `part / unit`, without zeros at the end. The unit is a power of ten
-- with as many zeros as there are places.
def fractionDigits : Nat → Nat → Nat → List Char
  | 0, _, _ => []
  | places + 1, unit, part =>
    if part = 0 then []
    else
      let unit := unit / 10
      Nat.digitChar (part / unit) :: fractionDigits places unit (part % unit)

def decimal (value places unit : Nat) : String :=
  let whole := toString (value / unit)
  match fractionDigits places unit (value % unit) with
  | [] => whole
  | digits => whole ++ "." ++ String.ofList digits

-- A length of time in the largest of the units s, ms, µs and ns in which it is at least 1. The
-- empty length of time is `0ns`.
def text (d : Duration) : String :=
  if 1000000000 ≤ d.total then decimal d.total 9 1000000000 ++ "s"
  else if 1000000 ≤ d.total then decimal d.total 6 1000000 ++ "ms"
  else if 1000 ≤ d.total then decimal d.total 3 1000 ++ "µs"
  else toString d.total ++ "ns"

end Duration

end OnceCache
