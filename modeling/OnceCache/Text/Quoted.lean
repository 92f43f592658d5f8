import OnceCache.Text.Bytes
import OnceCache.Text.CharClass

namespace OnceCache

namespace Quoted

-- A code point as a backslash, the letter u, and small hexadecimal digits, unpadded, in braces.
def codePoint (c : Char) : String :=
  "\\u\x7b" ++ String.ofList (Nat.toDigits 16 c.toNat) ++ "\x7d"

def char (c : Char) : String :=
  if c = '"' then "\\\""
  else if c = '\\' then "\\\\"
  else if c = '\t' then "\\t"
  else if c = '\r' then "\\r"
  else if c = '\n' then "\\n"
  else if c = Char.ofNat 0 then "\\0"
  else if CharClass.isCombining c || !CharClass.isPrintable c then codePoint c
  else c.toString

def text (s : String) : String := "\"" ++ String.join (s.toList.map char) ++ "\""

-- A byte of a header value between double quotes: what is readable stands for itself, the quote has
-- a backslash in front, and any other byte is written in hexadecimal, without padding.
def byte (b : UInt8) : String :=
  if b = 0x22 then "\\\""
  else if b = 0x09 ∨ (0x20 ≤ b ∧ b < 0x7F) then (Char.ofNat b.toNat).toString
  else "\\x" ++ String.ofList (Nat.toDigits 16 b.toNat)

def bytes (b : Bytes) : String := "\"" ++ String.join (b.map byte) ++ "\""

-- A name with its fields in braces. An open record says that it has more fields than it shows.
def record (name : String) (fields : List (String × String)) (isOpen : Bool := false) : String :=
  let shown := fields.map fun f => f.1 ++ ": " ++ f.2
  let all := if isOpen then shown ++ [".."] else shown
  name ++ " \x7b " ++ ", ".intercalate all ++ " \x7d"

def wrapped (name value : String) : String := name ++ "(" ++ value ++ ")"

def option (value : Option String) : String :=
  match value with
  | some v => wrapped "Some" v
  | none => "None"

def bool (b : Bool) : String := if b then "true" else "false"

end Quoted

end OnceCache
