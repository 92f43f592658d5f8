import OnceCache.Json.Basic

namespace OnceCache

namespace Json

structure Numeral where
  negative : Bool
  whole : List Nat
  fraction : Option (List Nat)
  exponent : Option (Bool × List Nat)
  deriving DecidableEq, Repr

namespace Numeral

def digits (s : Bytes) : List Nat × Bytes :=
  ((s.takeWhile Bytes.isDigit).map fun b => b.toNat - 0x30, s.dropWhile Bytes.isDigit)

def someDigits (s : Bytes) : Except Fault (List Nat × Bytes) :=
  match digits s with
  | ([], []) => .error .ended
  | ([], _ :: _) => .error .malformed
  | (ds, rest) => .ok (ds, rest)

-- The digits before the point: a zero alone, or digits that do not start with a zero.
def readWhole (s : Bytes) : Except Fault (List Nat × Bytes) := do
  let (ds, rest) ← someDigits s
  match ds with
  | 0 :: _ :: _ => .error .malformed
  | _ => .ok (ds, rest)

def readFraction : Bytes → Except Fault (Option (List Nat) × Bytes)
  | 0x2E :: s => do
    let (ds, rest) ← someDigits s
    return (some ds, rest)
  | s => .ok (none, s)

def readSign : Bytes → Bool × Bytes
  | 0x2D :: s => (true, s)
  | 0x2B :: s => (false, s)
  | s => (false, s)

def readExponent : Bytes → Except Fault (Option (Bool × List Nat) × Bytes)
  | [] => .ok (none, [])
  | b :: s =>
    if b = 0x65 ∨ b = 0x45 then do
      let (negative, s) := readSign s
      let (ds, rest) ← someDigits s
      return (some (negative, ds), rest)
    else .ok (none, b :: s)

def scan (s : Bytes) : Except Fault (Numeral × Bytes) := do
  let (negative, s) := match s with
    | 0x2D :: s => (true, s)
    | s => (false, s)
  let (whole, s) ← readWhole s
  let (fraction, s) ← readFraction s
  let (exponent, s) ← readExponent s
  return ({ negative, whole, fraction, exponent }, s)

def value (ds : List Nat) : Nat := ds.foldl (fun n d => n * 10 + d) 0

-- The leading digits as a number below `2 ^ 64`, continued from `n`, and how many digits do not fit
-- any more.
def leading : Nat → List Nat → Nat × Nat
  | n, [] => (n, 0)
  | n, d :: ds =>
    if n * 10 + d < UInt64.size then leading (n * 10 + d) ds else (n, (d :: ds).length)

-- A natural number rounded to 53 significant bits, halves to the even neighbour.
def round53 (n : Nat) : Nat :=
  let cutBits := n.log2 + 1 - 53
  let unit := 1 <<< cutBits
  let low := n % unit
  let high := n / unit
  if 2 * low < unit ∨ (2 * low = unit ∧ high % 2 = 0) then high * unit else (high + 1) * unit

-- The midpoint above the largest finite number of binary64. From here on, numbers are rounded to
-- infinity.
def overflow : Nat := (1 <<< 54 - 1) <<< 970

-- Whether `m` times the `e`-th power of ten has a finite binary64 value, both factors and their
-- product being rounded.
def productIsFinite (m e : Nat) : Bool := round53 m * round53 (Nat.pow 10 e) < overflow

def maxExponent : Nat := 1 <<< 31

def inRange (n : Numeral) : Bool :=
  let (m, dropped) := leading 0 n.whole
  let (m, beyond) := match n.fraction with
    | some ds =>
      let (m, dropped) := leading m ds
      (m, ds.length - dropped)
    | none => (m, 0)
  let start : Int := dropped - beyond
  match n.exponent with
  | none => m = 0 || start < 0 || (start ≤ 308 && productIsFinite m start.toNat)
  | some (true, ds) =>
    let e : Int := start - value ds
    m = 0 || maxExponent ≤ value ds || e < 0 || (e ≤ 308 && productIsFinite m e.toNat)
  | some (false, ds) =>
    let e : Int := start + value ds
    m = 0 || (value ds < maxExponent && (e < 0 || (e ≤ 308 && productIsFinite m e.toNat)))

def read : Reader Numeral := fun s => do
  let (n, rest) ← scan s
  if n.inRange then .ok (n, rest) else .error .malformed

-- Skips a number whose value is of no interest. Its range is not looked at, and one that the end of
-- the text cuts off is malformed.
def skip (s : Bytes) : Except Fault Bytes :=
  match scan s with
  | .ok (_, rest) => .ok rest
  | .error _ => .error .malformed

def toNat? (n : Numeral) (bound : Nat) : Option Nat :=
  if !n.negative && n.fraction.isNone && n.exponent.isNone && value n.whole < bound then
    some (value n.whole)
  else none

end Numeral

end Json

end OnceCache
