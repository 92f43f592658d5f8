namespace OnceCache

abbrev Bytes := List UInt8

namespace Bytes

def ofText (s : String) : Bytes := s.toByteArray.data.toList

def toText? (b : Bytes) : Option String := String.fromUTF8? ⟨b.toArray⟩

-- Where a reader of UTF-8 stands between two bytes.
inductive Utf8State where
  | start
  -- Inside a character: `owed` bytes are to come, the next one from `low` to `high`, and `code` is
  -- the code point so far.
  | inside (owed : Nat) (low high : UInt8) (code : Nat)
  deriving DecidableEq

def replacement : Char := '\uFFFD'

def startChar (b : UInt8) : Utf8State × List Char :=
  if b < 0x80 then (.start, [Char.ofNat b.toNat])
  else if b < 0xC2 then (.start, [replacement])
  else if b < 0xE0 then (.inside 1 0x80 0xBF (b.toNat - 0xC0), [])
  else if b < 0xF0 then
    let low := if b = 0xE0 then 0xA0 else 0x80
    let high := if b = 0xED then 0x9F else 0xBF
    (.inside 2 low high (b.toNat - 0xE0), [])
  else if b < 0xF5 then
    let low := if b = 0xF0 then 0x90 else 0x80
    let high := if b = 0xF4 then 0x8F else 0xBF
    (.inside 3 low high (b.toNat - 0xF0), [])
  else (.start, [replacement])

-- Reads one byte. A byte that cannot continue the character before it ends that character as a
-- broken one and is read as the first byte of the next.
def stepChar : Utf8State → UInt8 → Utf8State × List Char
  | .start, b => startChar b
  | .inside owed low high code, b =>
    if low ≤ b ∧ b ≤ high then
      let code := code * 64 + (b.toNat - 0x80)
      if owed = 1 then (.start, [Char.ofNat code]) else (.inside (owed - 1) 0x80 0xBF code, [])
    else
      let (state, chars) := startChar b
      (state, replacement :: chars)

-- The characters of a byte string, one replacement for each longest run of bytes that starts some
-- character but does not finish it, and for each byte that can start none.
def repairFrom : Utf8State → Bytes → List Char
  | .start, [] => []
  | .inside .., [] => [replacement]
  | state, b :: rest =>
    let (state, chars) := stepChar state b
    chars ++ repairFrom state rest

def toTextRepaired (b : Bytes) : String :=
  match b.toText? with
  | some s => s
  | none => String.ofList (repairFrom .start b)

def split (sep : UInt8) : Bytes → List Bytes
  | [] => [[]]
  | b :: rest =>
    if b = sep then [] :: split sep rest
    else
      match split sep rest with
      | [] => [[b]]
      | part :: parts => (b :: part) :: parts

def cut (sep : UInt8) : Bytes → Bytes × Option Bytes
  | [] => ([], none)
  | b :: rest =>
    if b = sep then ([], some rest)
    else
      let (before, after) := cut sep rest
      (b :: before, after)

def isDigit (b : UInt8) : Bool := 0x30 ≤ b && b ≤ 0x39

def isAlphanumeric (b : UInt8) : Bool :=
  isDigit b || (0x41 ≤ b && b ≤ 0x5A) || (0x61 ≤ b && b ≤ 0x7A)

def hexDigit? (b : UInt8) : Option UInt8 :=
  if isDigit b then some (b - 0x30)
  else if 0x41 ≤ b ∧ b ≤ 0x46 then some (b - 0x41 + 10)
  else if 0x61 ≤ b ∧ b ≤ 0x66 then some (b - 0x61 + 10)
  else none

def lower (b : UInt8) : UInt8 := if 0x41 ≤ b ∧ b ≤ 0x5A then b + 0x20 else b

def equalsIgnoringCase (a b : Bytes) : Bool := a.map lower = b.map lower

@[simp]
theorem toText?_ofText (s : String) : (ofText s).toText? = some s := by
  simp [ofText, toText?, String.fromUTF8?, s.isValidUTF8]
  rfl

@[simp]
theorem toTextRepaired_ofText (s : String) : (ofText s).toTextRepaired = s := by
  simp [toTextRepaired]

end Bytes

end OnceCache
