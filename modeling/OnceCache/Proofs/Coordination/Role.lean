import OnceCache.Coordination.Coordinator

namespace OnceCache

-- What a party is as long as it is there.
inductive Role
  | handle
  -- A lock call of a handle.
  | call (handle : PartyId)
  | request (directive : Directive)
  deriving DecidableEq

namespace Role

def handle? : Role → Option PartyId
  | call id => some id
  | handle | request _ => none

def directive? : Role → Option Directive
  | request d => some d
  | handle | call _ => none

end Role

namespace Stage

variable {stage stage' : Stage}

-- Where its body will come from tells what a request asked for once it generates.
def role : Stage → Role
  | handle => .handle
  | waiting id | holding id => .call id
  | queued d => .request d
  | generating .bypass _ => .request .noCache
  | generating .. => .request .standard

theorem handle?_eq : stage.handle? = stage.role.handle? := by
  cases stage
  case generating status since => cases status <;> rfl
  all_goals rfl

theorem isRequest_eq : stage.isRequest = stage.role.directive?.isSome := by
  cases stage
  case generating status since => cases status <;> rfl
  all_goals rfl

theorem role_eq_handle_iff : stage.role = .handle ↔ stage = .handle := by
  cases stage
  case generating status since => cases status <;> simp [role]
  all_goals simp [role]

theorem isInLine_iff : stage.isInLine ↔ stage ≠ .handle := by
  cases stage <;> simp [isInLine]

theorem isInLine_of_handle? (h : stage.handle?.isSome) : stage.isInLine := by
  cases stage <;> first | rfl | cases h

theorem isInLine_of_isRequest (h : stage.isRequest) : stage.isInLine := by
  cases stage <;> first | rfl | cases h

-- Whoever is in line and no lock call is a request.
theorem isRequest_of_isInLine (hi : stage.isInLine) (hh : stage.handle? = none) :
    stage.isRequest := by
  cases stage
  case handle => cases hi
  case waiting | holding => cases hh
  all_goals rfl

-- A request is no lock call.
theorem handle?_of_isRequest (h : stage.isRequest) : stage.handle? = none := by
  cases stage <;> first | rfl | cases h

section

variable (h : stage.role = stage'.role)
include h

theorem handle?_of_role : stage.handle? = stage'.handle? := by
  rw [handle?_eq, handle?_eq, h]

theorem eq_handle_of_role : stage = .handle ↔ stage' = .handle := by
  rw [← role_eq_handle_iff, ← role_eq_handle_iff, h]

theorem isInLine_of_role : stage.isInLine = stage'.isInLine := by
  rw [Bool.eq_iff_iff, isInLine_iff, isInLine_iff, ne_eq, ne_eq, eq_handle_of_role h]

end

end Stage

end OnceCache
