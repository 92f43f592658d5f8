import OnceCache.Json.Numeral
import OnceCache.Json.Text

namespace OnceCache

namespace Json

-- The fault of a value that has another shape than is asked for. Words, numbers and texts are
-- looked at to their end first; of lists and objects the first byte is enough.
def faultOf : Bytes → Fault
  | [] => .ended
  | b :: s =>
    if let some word := wordOf? b then
      match readWord word (b :: s) with
      | .ok _ => .mismatched
      | .error fault => fault
    else if b = 0x2D ∨ Bytes.isDigit b then
      match Numeral.read (b :: s) with
      | .ok _ => .mismatched
      | .error fault => fault
    else if b = 0x22 then
      match Text.read s with
      | .ok _ => .mismatched
      | .error fault => fault
    else if b = 0x5B ∨ b = 0x7B then .mismatched
    else .malformed

def readNat (bound : Nat) : Reader Nat := fun s =>
  match skipBlanks s with
  | [] => .error .ended
  | b :: s =>
    if b = 0x2D ∨ Bytes.isDigit b then do
      let (n, rest) ← Numeral.read (b :: s)
      match n.toNat? bound with
      | some n => .ok (n, rest)
      | none => .error .mismatched
    else .error (faultOf (b :: s))

def readBool : Reader Bool := fun s =>
  match skipBlanks s with
  | [] => .error .ended
  | b :: s =>
    if b = 0x74 then (readWord wordTrue (b :: s)).map (true, ·)
    else if b = 0x66 then (readWord wordFalse (b :: s)).map (false, ·)
    else .error (faultOf (b :: s))

def readColon (s : Bytes) : Except Fault Bytes :=
  match skipBlanks s with
  | [] => .error .ended
  | 0x3A :: s => .ok s
  | _ => .error .malformed

mutual

def skipValue : Nat → Bytes → Except Fault Bytes
  | 0, _ => .error .ended
  | fuel + 1, s =>
    match skipBlanks s with
    | [] => .error .ended
    | b :: s =>
      if let some word := wordOf? b then readWord word (b :: s)
      else if b = 0x2D ∨ Bytes.isDigit b then Numeral.skip (b :: s)
      else if b = 0x22 then Text.skip s
      else if b = 0x5B then
        match skipBlanks s with
        | 0x5D :: s => .ok s
        | s => skipElements fuel s
      else if b = 0x7B then
        match skipBlanks s with
        | 0x7D :: s => .ok s
        | s => skipMembers fuel s
      else .error .malformed

def skipElements : Nat → Bytes → Except Fault Bytes
  | 0, _ => .error .ended
  | fuel + 1, s => do
    let s ← skipValue fuel s
    match skipBlanks s with
    | [] => .error .ended
    | 0x2C :: s => skipElements fuel s
    | 0x5D :: s => .ok s
    | _ => .error .malformed

def skipMembers : Nat → Bytes → Except Fault Bytes
  | 0, _ => .error .ended
  | fuel + 1, s =>
    match skipBlanks s with
    | [] => .error .ended
    | 0x22 :: s => do
      let s ← Text.skip s
      let s ← readColon s
      let s ← skipValue fuel s
      match skipBlanks s with
      | [] => .error .ended
      | 0x2C :: s => skipMembers fuel s
      | 0x7D :: s => .ok s
      | _ => .error .malformed
    | _ => .error .malformed

end

-- Skips a value of any shape. A step on a text leaves at most one more step for the same text
-- before it takes a byte away, so twice the length is fuel enough.
def skip (s : Bytes) : Except Fault Bytes := skipValue (2 * s.length + 2) s

-- What to do with a member of an object: its name is refused at once, or its value is read.
abbrev Members (σ : Type) := Bytes → σ → Except Fault (Reader σ)

-- Reads the members of an object and its closing brace. Every member uses up some fuel.
def readMembers {σ : Type} (members : Members σ) : Nat → Bool → σ → Reader σ
  | 0, _, _, _ => .error .ended
  | fuel + 1, isFirst, state, s =>
    match skipBlanks s with
    | [] => .error .ended
    | 0x7D :: s => .ok (state, s)
    | b :: s => do
      let s ←
        if isFirst then Except.ok (b :: s)
        else if b = 0x2C then .ok (skipBlanks s)
        else .error .malformed
      match s with
      | [] => .error .ended
      | 0x22 :: s =>
        let (name, s) ← Text.read s
        let readValue ← members name state
        let s ← readColon s
        let (state, s) ← readValue s
        readMembers members fuel false state s
      | _ => .error .malformed

def readObject {σ : Type} (members : Members σ) (start : σ) : Reader σ := fun s =>
  readMembers members (s.length + 1) true start s

-- Reads the next element of a list, if there is one. The closing bracket is left alone.
def readElement {α : Type} (read : Reader α) (isFirst : Bool) : Reader (Option α) := fun s =>
  match skipBlanks s with
  | [] => .error .ended
  | 0x5D :: s => .ok (none, 0x5D :: s)
  | b :: s => do
    let s ←
      if isFirst then Except.ok (b :: s)
      else if b = 0x2C then
        match skipBlanks s with
        | [] => .error .ended
        | 0x5D :: _ => .error .malformed
        | s => .ok s
      else .error .malformed
    let (a, s) ← read s
    return (some a, s)

def closeList (s : Bytes) : Except Fault Bytes :=
  match skipBlanks s with
  | [] => .error .ended
  | 0x5D :: s => .ok s
  | _ => .error .malformed

-- Reads a value that can be written as an object or as a list.
def readRecord {α : Type} (asObject asList : Reader α) : Reader α := fun s =>
  match skipBlanks s with
  | [] => .error .ended
  | 0x7B :: s => asObject s
  | 0x5B :: s => asList s
  | s => .error (faultOf s)

def readAll {α : Type} (read : Reader α) (s : Bytes) : Except Fault α := do
  let (a, s) ← read s
  if (skipBlanks s).isEmpty then .ok a else .error .malformed

end Json

end OnceCache
