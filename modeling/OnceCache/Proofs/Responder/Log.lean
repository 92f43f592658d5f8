import OnceCache.Proofs.Event
import OnceCache.Proofs.Responder.Failure

namespace OnceCache

-- The status of a response that reports a failure, and the level at which that is worth a word.
def Response.verdict? (r : Response) : Option (Nat × Event.Level) :=
  if r.status < 400 then none
  else some (r.status, if 500 ≤ r.status ∧ r.status < 600 then .error else .debug)

theorem Response.level_of_verdict? {r : Response} {status : Nat} {level : Event.Level}
    (h : r.verdict? = some (status, level)) (hr : r.status < 500) : level = .debug := by
  unfold verdict? at h
  split at h <;> cases h
  exact if_neg fun h => absurd h.left (Nat.not_le_of_lt hr)

namespace Responder

variable {target : Http.Target} {f : Failure}

theorem verdict?_failure_isSome : (failure f).verdict?.isSome := by
  cases f <;> rfl

theorem verdict?_failureEvent : (failureEvent target f).verdict? = (failure f).verdict? := by
  cases f <;> rfl

end Responder

-- A response that reports a failure is spoken of, and nothing else is.
theorem Session.deliver_spoken (call : Call) (outcome : Except Failure Served)
    (generated : Bool) :
    let (answer, spoken) := deliver call outcome generated
    (∀ e ∈ spoken, e.verdict?.isSome) ∧
      spoken.filterMap (·.verdict?) = answer.response?.toList.filterMap (·.verdict?) := by
  cases call <;> cases outcome
  case respond.error _ target f =>
    have hv : (Responder.failureEvent target f).verdict? = _ := Responder.verdict?_failureEvent
    constructor
    · intro e he
      rw [List.mem_singleton.mp he, hv]
      exact Responder.verdict?_failure_isSome
    · change [Responder.failureEvent target f].filterMap _ = [Responder.failure f].filterMap _
      rw [List.filterMap_cons, List.filterMap_cons, hv]
      rfl
  all_goals exact ⟨nofun, rfl⟩

end OnceCache
