import OnceCache.Text.Bytes

namespace OnceCache

namespace Http

namespace Form

abbrev Parameter := String × String

def hexByte? (a b : UInt8) : Option UInt8 := do
  return (← Bytes.hexDigit? a) * 16 + (← Bytes.hexDigit? b)

-- A plus sign is a blank, a percent sign with two hexadecimal digits is the byte they stand for,
-- and every other byte is itself.
def decodeBytes : Bytes → Bytes
  | [] => []
  | 0x2B :: s => 0x20 :: decodeBytes s
  | 0x25 :: a :: b :: s =>
    match hexByte? a b with
    | some c => c :: decodeBytes s
    | none => 0x25 :: decodeBytes (a :: b :: s)
  | b :: s => b :: decodeBytes s

def decode (s : Bytes) : String := (decodeBytes s).toTextRepaired

def readParameter (s : Bytes) : Parameter :=
  let (name, value) := Bytes.cut 0x3D s
  (decode name, decode (value.getD []))

def read (query : String) : List Parameter :=
  ((Bytes.split 0x26 (.ofText query)).filter (!·.isEmpty)).map readParameter

def isPlain (b : UInt8) : Bool :=
  Bytes.isAlphanumeric b || b = 0x2A || b = 0x2D || b = 0x2E || b = 0x5F

def hexDigit (n : UInt8) : Char := Char.ofNat (if n < 10 then n.toNat + 0x30 else n.toNat + 0x37)

def encodeByte (b : UInt8) : List Char :=
  if isPlain b then [Char.ofNat b.toNat]
  else if b = 0x20 then ['+']
  else ['%', hexDigit (b / 16), hexDigit (b % 16)]

def encode (s : String) : String := String.ofList ((Bytes.ofText s).flatMap encodeByte)

def writeParameter (p : Parameter) : String := encode p.1 ++ "=" ++ encode p.2

def write (ps : List Parameter) : String := "&".intercalate (ps.map writeParameter)

-- Parameters in the order of their names. Those of one name stay in their order.
def sort (ps : List Parameter) : List Parameter := ps.mergeSort fun p q => (compare p.1 q.1).isLE

end Form

end Http

end OnceCache
