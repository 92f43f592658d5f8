import OnceCache.Event
import OnceCache.Http.Header

namespace OnceCache

inductive Directive
  | standard
  -- The request is not served the stored body, and puts a fresh one in its place.
  | noCache
  deriving DecidableEq, Repr, Inhabited

namespace Directive

def allowsRead : Directive → Bool
  | standard => true
  | noCache => false

def isBlank (b : UInt8) : Bool := b = 0x20 || b = 0x09

def trim (s : Bytes) : Bytes :=
  ((s.dropWhile isBlank).reverse.dropWhile isBlank).reverse

-- The name of a list member: what stands in front of its first equals sign.
def memberName (member : Bytes) : Bytes := trim (Bytes.cut 0x3D member).1

-- Whether a comma-separated list has a member with one of some names. Names are compared whole, and
-- their case does not count.
def hasMember (names : List Bytes) (list : Bytes) : Bool :=
  (Bytes.split 0x2C list).any fun member => names.any (memberName member).equalsIgnoringCase

def noCacheName : Bytes := .ofText "no-cache"

def noStoreName : Bytes := .ofText "no-store"

def isAskedBy (headers : Http.Headers) (name : Http.HeaderName) (names : List Bytes) : Bool :=
  ((headers.all name).filter (·.isReadable)).any fun value => hasMember names value.bytes

def ofHeaders (headers : Http.Headers) : Directive :=
  if isAskedBy headers .cacheControl [noCacheName, noStoreName] ||
      isAskedBy headers .pragma [noCacheName] then .noCache
  else .standard

def events : Directive → List Event
  | standard => []
  | noCache => [.readSkipped]

end Directive

end OnceCache
