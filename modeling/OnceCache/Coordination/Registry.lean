import OnceCache.Coordination.Line
import OnceCache.Error

namespace OnceCache

@[ext]
structure Registry where
  locks : Table Key LockId := ∅
  references : Table Key Nat := ∅
  nextLock : LockId := 0

namespace Registry

-- Refers to a key once more, and gives its lock.
def acquire (r : Registry) (key : Key) : LockId × Registry :=
  let references := r.references.insert key ((r.references.find? key).getD 0 + 1)
  match r.locks.find? key with
  | some lock => (lock, { r with references })
  | none =>
    (r.nextLock, {
      locks := r.locks.insert key r.nextLock
      references
      nextLock := r.nextLock + 1 })

-- Refers to a key once less, and gives the number of references that are left.
def release (r : Registry) (key : Key) : Except Error (Nat × Registry) :=
  match r.references.find? key with
  | none => .error (.notAllocated key)
  | some count =>
    if count ≤ 1 then
      .ok (0, { r with locks := r.locks.erase key, references := r.references.erase key })
    else .ok (count - 1, { r with references := r.references.insert key (count - 1) })

def size (r : Registry) : Nat := r.locks.size

def isEmpty (r : Registry) : Bool := r.size = 0

def contains (r : Registry) (key : Key) : Bool := r.locks.contains key

def refCount (r : Registry) (key : Key) : Option Nat := r.references.find? key

def snapshot (r : Registry) : List (Key × Nat) := r.references.pairs

end Registry

end OnceCache
