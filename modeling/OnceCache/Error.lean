import OnceCache.Key

namespace OnceCache

inductive Error.Kind
  | notFound
  | payloadTooLarge
  | store
  -- A key was released that no handle refers to.
  | notAllocated
  deriving DecidableEq, Repr

inductive Error.Cause
  | nothing
  | message (text : String)
  | error (kind : Error.Kind) (key : Option Key) (cause : Error.Cause)
  deriving DecidableEq, Repr

@[ext]
structure Error where
  kind : Error.Kind
  key : Option Key := none
  cause : Error.Cause := .nothing
  deriving DecidableEq, Repr

namespace Error

namespace Kind

def describe : Kind → String
  | notFound => "cache entry not found"
  | payloadTooLarge => "payload too large for cache"
  | store => "byte store error"
  | notAllocated => "cache key released without allocation"

def name : Kind → String
  | notFound => "NotFound"
  | payloadTooLarge => "PayloadTooLarge"
  | store => "Store"
  | notAllocated => "NotAllocated"

end Kind

def describeKey : Option Key → String
  | some key => " for key " ++ Quoted.text key.text
  | none => ""

-- The message of an error is its kind in words, then its key and then the message of its cause, if
-- it has them.
def describeWith (kind : Kind) (key : Option Key) (cause : Option String) : String :=
  kind.describe ++ describeKey key ++ (cause.map (": " ++ ·)).getD ""

namespace Cause

def text? : Cause → Option String
  | nothing => none
  | message text => some text
  | error kind key cause => some (describeWith kind key cause.text?)

def chain : Cause → List String
  | nothing => []
  | message text => [text]
  | error kind key cause => describeWith kind key cause.text? :: cause.chain

def debug? : Cause → Option String
  | nothing => none
  | message text => some (Quoted.text text)
  | error kind key cause => some (record kind key cause.debug?)
where
  record (kind : Kind) (key : Option Key) (cause : Option String) : String :=
    Quoted.record "statcache::Error" <|
      ("kind", kind.name) :: (cause.map ("source", ·)).toList ++
        (key.map fun key => ("key", Quoted.text key.text)).toList

end Cause

def text (e : Error) : String := describeWith e.kind e.key e.cause.text?

def debug (e : Error) : String := Cause.debug?.record e.kind e.key e.cause.debug?

def ofKind (kind : Kind) : Error := { kind }

def withKey (e : Error) (key : Key) : Error := { e with key := some key }

def withMessage (e : Error) (text : String) : Error := { e with cause := .message text }

def notFound (key : Key) : Error := { kind := .notFound, key := some key }

def payloadTooLarge (key : Key) (size limit : Nat) : Error where
  kind := .payloadTooLarge
  key := some key
  cause := .message s!"{size} bytes exceeds limit of {limit} bytes"

def store (text : String) : Error := { kind := .store, cause := .message text }

def storeBecauseOf (e : Error) : Error := { kind := .store, cause := .error e.kind e.key e.cause }

-- A key was released that no handle refers to.
def notAllocated (key : Key) : Error := { kind := .notAllocated, key := some key }

-- Misses are ordinary traffic. Any other error is worth a warning.
def isExpected (e : Error) : Bool := e.kind = .notFound

end Error

end OnceCache
