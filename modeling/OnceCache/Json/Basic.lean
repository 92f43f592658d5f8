import OnceCache.Text.Bytes

namespace OnceCache

namespace Json

-- Why a text cannot be read. Texts are read from left to right and the first problem counts.
inductive Fault
  | ended
  -- The text is not JSON, goes on after the value, or holds a number outside the range of binary64.
  | malformed
  | mismatched
  deriving DecidableEq, Repr

abbrev Reader (α : Type) := Bytes → Except Fault (α × Bytes)

def isBlank (b : UInt8) : Bool := b = 0x20 || b = 0x0A || b = 0x0D || b = 0x09

def skipBlanks (s : Bytes) : Bytes := s.dropWhile isBlank

def readWord : Bytes → Bytes → Except Fault Bytes
  | [], s => .ok s
  | _ :: _, [] => .error .ended
  | w :: word, b :: s => if b = w then readWord word s else .error .malformed

def wordNull : Bytes := [0x6E, 0x75, 0x6C, 0x6C]

def wordTrue : Bytes := [0x74, 0x72, 0x75, 0x65]

def wordFalse : Bytes := [0x66, 0x61, 0x6C, 0x73, 0x65]

def wordOf? (b : UInt8) : Option Bytes :=
  if b = 0x6E then some wordNull
  else if b = 0x74 then some wordTrue
  else if b = 0x66 then some wordFalse
  else none

end Json

end OnceCache
