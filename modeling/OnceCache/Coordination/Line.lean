namespace OnceCache

abbrev PartyId := Nat

-- Names a lock. No two locks have the same name, even if one is gone when the other is made.
abbrev LockId := Nat

-- Those who asked for a lock and have not given it up, in the order of their asking.
@[ext]
structure Line where
  parties : List PartyId := []
  deriving DecidableEq, Repr, Inhabited

namespace Line

def holder (l : Line) : Option PartyId := l.parties.head?

def isEmpty (l : Line) : Bool := l.parties.isEmpty

def join (l : Line) (id : PartyId) : Line := ⟨l.parties ++ [id]⟩

-- Leaves the line. If the first one leaves, the lock goes to the next in line at once.
def leave (l : Line) (id : PartyId) : Line := ⟨l.parties.filter (· ≠ id)⟩

theorem holder_join {l : Line} {id p : PartyId} (h : l.holder = some p) :
    (l.join id).holder = some p := by
  simp only [holder, join] at *
  simp [List.head?_append, h]

theorem holder_leave {l : Line} {id p : PartyId} (h : l.holder = some p) (hne : p ≠ id) :
    (l.leave id).holder = some p := by
  obtain ⟨parties⟩ := l
  cases parties
  case nil => simp [holder] at h
  case cons q rest =>
    simp only [holder, List.head?_cons, Option.some.injEq] at h
    simp [holder, leave, h, hne]

end Line

end OnceCache
