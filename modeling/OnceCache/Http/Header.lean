import OnceCache.Text.Bytes

namespace OnceCache

namespace Http

def isTokenByte (b : UInt8) : Bool :=
  Bytes.isAlphanumeric b ||
    [0x21, 0x23, 0x24, 0x25, 0x26, 0x27, 0x2A, 0x2B, 0x2D, 0x2E, 0x5E, 0x5F, 0x60, 0x7C,
      0x7E].contains b

def isToken (s : Bytes) : Bool := !s.isEmpty && s.all isTokenByte

-- A request method, in the letters in which it was given.
@[ext]
structure Method where
  text : String
  deriving DecidableEq, Repr

def Method.parse? (s : String) : Option Method := if isToken (.ofText s) then some ⟨s⟩ else none

structure HeaderName where
  text : String
  deriving DecidableEq, Repr

namespace HeaderName

def maxSize : Nat := 65535

def parse? (s : String) : Option HeaderName :=
  if isToken (.ofText s) && s.utf8ByteSize ≤ maxSize then some ⟨s.map Char.toLower⟩ else none

def accept : HeaderName := ⟨"accept"⟩

def cacheControl : HeaderName := ⟨"cache-control"⟩

def pragma : HeaderName := ⟨"pragma"⟩

def contentType : HeaderName := ⟨"content-type"⟩

def xCache : HeaderName := ⟨"x-cache"⟩

end HeaderName

-- A header value. Its bytes are tabs and whatever is no control.
structure HeaderValue where
  bytes : Bytes
  deriving DecidableEq, Repr

namespace HeaderValue

def parse? (s : Bytes) : Option HeaderValue :=
  if s.all fun b => b = 0x09 || (0x20 ≤ b && b ≠ 0x7F) then some ⟨s⟩ else none

def ofText (s : String) : HeaderValue := ⟨.ofText s⟩

-- A readable value has nothing but tabs and the visible characters and blank of ASCII.
def isReadable (v : HeaderValue) : Bool :=
  v.bytes.all fun b => b = 0x09 || (0x20 ≤ b && b < 0x7F)

def text? (v : HeaderValue) : Option String := if v.isReadable then v.bytes.toText? else none

end HeaderValue

structure Header where
  name : HeaderName
  value : HeaderValue
  deriving DecidableEq, Repr

abbrev Headers := List Header

def Headers.all (headers : Headers) (name : HeaderName) : List HeaderValue :=
  (headers.filter fun h => h.name = name).map (·.value)

end Http

end OnceCache
