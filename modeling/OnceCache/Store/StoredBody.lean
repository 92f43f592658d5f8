import OnceCache.Generation.Basic

namespace OnceCache

@[ext]
structure StoredBody where
  body : Body
  createdAt : Instant
  -- The last use, in whole microseconds after the creation and below `2 ^ 64`.
  usedAfter : Nat := 0
  expiresAt : Option Instant

namespace StoredBody

-- A body that is stored now. One whose time ends beyond the clock never expires.
def create (body : Body) (ttl : Option Duration) (now : Instant) : StoredBody where
  body
  createdAt := now
  expiresAt := ttl.bind now.after?

def size (b : StoredBody) : UInt64 := b.body.size.toUInt64

-- A body expires at the very instant at which its time is over.
def isExpired (b : StoredBody) (now : Instant) : Bool :=
  match b.expiresAt with
  | some expiry => expiry ≤ now
  | none => false

def use (b : StoredBody) (now : Instant) : StoredBody :=
  { b with usedAfter := max b.usedAfter (min (now.microsSince b.createdAt) (UInt64.size - 1)) }

def lastUse (b : StoredBody) : Instant := b.createdAt + b.usedAfter * 1000

end StoredBody

end OnceCache
