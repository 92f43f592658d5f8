import OnceCache.Text.Bytes

namespace OnceCache

namespace Http

-- A path and a query. The path is never empty, and an absent query differs from an empty one.
@[ext]
structure Resource where
  path : String
  query : Option String
  deriving DecidableEq, Repr

namespace Resource

def isPathByte (b : UInt8) : Bool :=
  b = 0x21 || b = 0x22 || (0x24 ≤ b && b ≤ 0x3B) || b = 0x3D || (0x40 ≤ b && b ≤ 0x5F) ||
    (0x61 ≤ b && b ≤ 0x7E) || 0x80 ≤ b

def isQueryByte (b : UInt8) : Bool :=
  b = 0x21 || (0x24 ≤ b && b ≤ 0x3B) || b = 0x3D || (0x3F ≤ b && b ≤ 0x7E) || 0x80 ≤ b

-- Reads a resource. The fragment is dropped unread, the query starts at the first question mark in
-- front of it, and an empty path is the root.
def parse? (s : Bytes) : Option Resource := do
  let (path, query) := Bytes.cut 0x3F (Bytes.cut 0x23 s).1
  guard (path.all isPathByte)
  let path ← if path.isEmpty then some "/" else path.toText?
  match query with
  | none => return ⟨path, none⟩
  | some query =>
    guard (query.all isQueryByte)
    return ⟨path, some (← query.toText?)⟩

def text (r : Resource) : String :=
  match r.query with
  | none => r.path
  | some query => r.path ++ "?" ++ query

end Resource

inductive Target
  | resource (resource : Resource)
  | absolute (scheme authority : String) (resource : Resource)
  | authority (authority : String)
  deriving DecidableEq, Repr

namespace Target

def maxSize : Nat := 65534

def maxSchemeSize : Nat := 64

-- The most colons between the marks that start a new count.
def maxColons : Nat := 8

def isSchemeByte (b : UInt8) : Bool := Bytes.isAlphanumeric b || [0x2B, 0x2D, 0x2E, 0x7E].contains b

-- The bytes of an authority that have no meaning of their own.
def isAuthorityByte (b : UInt8) : Bool :=
  Bytes.isAlphanumeric b ||
    [0x21, 0x24, 0x26, 0x27, 0x28, 0x29, 0x2A, 0x2B, 0x2C, 0x2D, 0x2E, 0x3B, 0x3D, 0x5F,
      0x7E].contains b

structure AuthorityScan where
  -- The colons since the start, the last `]` or the last `@`.
  colons : Nat := 0
  opened : Bool := false
  closed : Bool := false
  -- A percent sign that has not been followed by `]` or `@`.
  percent : Bool := false
  atEnd : Bool := false

namespace AuthorityScan

def step (a : AuthorityScan) (b : UInt8) : Option AuthorityScan :=
  let a := { a with atEnd := false }
  if b = 0x3A then if a.colons < maxColons then some { a with colons := a.colons + 1 } else none
  else if b = 0x5B then if a.percent || a.opened then none else some { a with opened := true }
  else if b = 0x5D then
    if !a.opened || a.closed then none
    else some { a with closed := true, colons := 0, percent := false }
  else if b = 0x40 then some { a with colons := 0, percent := false, atEnd := true }
  else if b = 0x25 then some { a with percent := true }
  else if isAuthorityByte b then some a
  else none

-- Whether an authority can end here: brackets are closed, at most one colon has been counted since,
-- and no percent sign is left over.
def isComplete (a : AuthorityScan) : Bool :=
  a.opened = a.closed && a.colons ≤ 1 && !a.atEnd && !a.percent

end AuthorityScan

def isAuthority (s : Bytes) : Bool :=
  match s.foldlM AuthorityScan.step {} with
  | some a => a.isComplete
  | none => false

-- The scheme at the front of a target and what follows its `://`. The two usual schemes are written
-- in small letters, others as they are given.
inductive SchemeScan
  | absent
  | tooLong
  | found (scheme : Bytes) (rest : Bytes)

def marker : Bytes := .ofText "://"

def http : Bytes := .ofText "http"

def https : Bytes := .ofText "https"

def scanScheme (s : Bytes) : SchemeScan :=
  if (http ++ marker).equalsIgnoringCase (s.take 7) then .found http (s.drop 7)
  else if (https ++ marker).equalsIgnoringCase (s.take 8) then .found https (s.drop 8)
  else if s.length ≤ 3 then .absent
  else
    let scheme := s.takeWhile isSchemeByte
    let rest := s.dropWhile isSchemeByte
    if rest.take 3 ≠ marker then .absent
    else if scheme.length > maxSchemeSize then .tooLong
    else .found scheme (rest.drop 3)

def endsAuthority (b : UInt8) : Bool := b = 0x2F || b = 0x3F || b = 0x23

def parse? (s : Bytes) : Option Target := do
  guard (s ≠ [] ∧ s.length ≤ maxSize)
  if s = [0x2A] then return .resource ⟨"*", none⟩
  if s.head? = some 0x2F then return .resource (← Resource.parse? s)
  match scanScheme s with
  | .tooLong => none
  | .absent =>
    guard (isAuthority s)
    return .authority (← s.toText?)
  | .found scheme rest =>
    let host : Bytes := rest.takeWhile (!endsAuthority ·)
    guard (host ≠ [] ∧ isAuthority host)
    let r ← Resource.parse? (rest.dropWhile (!endsAuthority ·))
    return .absolute (← scheme.toText?) (← host.toText?) r

def resource? : Target → Option Resource
  | .resource r => some r
  | .absolute _ _ r => some r
  | .authority _ => none

def path (t : Target) : String :=
  match t.resource? with
  | some r => r.path
  | none => ""

def query (t : Target) : Option String := t.resource?.bind (·.query)

def text : Target → String
  | .resource r => r.text
  | .absolute scheme host r => scheme ++ "://" ++ host ++ r.text
  | .authority host => host

end Target

end Http

end OnceCache
