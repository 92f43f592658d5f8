import OnceCache.Json.Basic

namespace OnceCache

namespace Json

namespace Text

def hex4? (a b c d : UInt8) : Option Nat := do
  let a ← Bytes.hexDigit? a
  let b ← Bytes.hexDigit? b
  let c ← Bytes.hexDigit? c
  let d ← Bytes.hexDigit? d
  return ((a.toNat * 16 + b.toNat) * 16 + c.toNat) * 16 + d.toNat

def escaped? (b : UInt8) : Option UInt8 :=
  if b = 0x22 ∨ b = 0x5C ∨ b = 0x2F then some b
  else if b = 0x62 then some 0x08
  else if b = 0x66 then some 0x0C
  else if b = 0x6E then some 0x0A
  else if b = 0x72 then some 0x0D
  else if b = 0x74 then some 0x09
  else none

def isHighSurrogate (n : Nat) : Bool := 0xD800 ≤ n && n < 0xDC00

def isLowSurrogate (n : Nat) : Bool := 0xDC00 ≤ n && n < 0xE000

-- The code point of a pair of surrogates.
def pair (high low : Nat) : Nat := 0x10000 + (high - 0xD800) * 0x400 + (low - 0xDC00)

def utf8 (n : Nat) : Bytes := String.utf8EncodeChar (Char.ofNat n)

def prepend (front : Bytes) : Except Fault (Bytes × Bytes) → Except Fault (Bytes × Bytes)
  | .ok (text, rest) => .ok (front ++ text, rest)
  | .error e => .error e

def read : Reader Bytes
  | [] => .error .ended
  | 0x22 :: s => .ok ([], s)
  | 0x5C :: s =>
    match s with
    | [] => .error .ended
    | 0x75 :: s =>
      match s with
      | a :: b :: c :: d :: s =>
        match hex4? a b c d with
        | none => .error .malformed
        | some n =>
          if isLowSurrogate n then .error .malformed
          else if isHighSurrogate n then
            match s with
            | [] => .error .ended
            | 0x5C :: s =>
              match s with
              | [] => .error .ended
              | 0x75 :: s =>
                match s with
                | a :: b :: c :: d :: s =>
                  match hex4? a b c d with
                  | none => .error .malformed
                  | some m =>
                    if isLowSurrogate m then prepend (utf8 (pair n m)) (read s)
                    else .error .malformed
                | _ => .error .ended
              | _ => .error .malformed
            | _ => .error .malformed
          else prepend (utf8 n) (read s)
      | _ => .error .ended
    | b :: s =>
      match escaped? b with
      | some c => prepend [c] (read s)
      | none => .error .malformed
  | b :: s => if b < 0x20 then .error .malformed else prepend [b] (read s)

def skip : Bytes → Except Fault Bytes
  | [] => .error .ended
  | 0x22 :: s => .ok s
  | 0x5C :: s =>
    match s with
    | [] => .error .ended
    | 0x75 :: s =>
      match s with
      | a :: b :: c :: d :: s => if (hex4? a b c d).isSome then skip s else .error .malformed
      | _ => .error .ended
    | b :: s => if (escaped? b).isSome then skip s else .error .malformed
  | b :: s => if b < 0x20 then .error .malformed else skip s

-- How a character is written: the quote, the backslash and the characters below the blank are
-- escaped, and nothing else.
def char (c : Char) : String :=
  if c = '"' then "\\\""
  else if c = '\\' then "\\\\"
  else if c.toNat = 0x08 then "\\b"
  else if c.toNat = 0x0C then "\\f"
  else if c = '\n' then "\\n"
  else if c = '\r' then "\\r"
  else if c = '\t' then "\\t"
  else if c.toNat < 0x20 then
    "\\u00" ++ String.ofList [Nat.digitChar (c.toNat / 16), Nat.digitChar (c.toNat % 16)]
  else c.toString

def write (s : String) : String := "\"" ++ String.join (s.toList.map char) ++ "\""

end Text

end Json

end OnceCache
