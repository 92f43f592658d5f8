import OnceCache.Proofs.Store.Removal

namespace OnceCache.MemoryStore

-- What can be done with a store under a clock that only goes on.
inductive Operation
  | set (key : Key) (body : Body)
  | setWithTtl (key : Key) (body : Body) (ttl : Option Duration)
  | get (key : Key)
  | contains (key : Key)
  | remove (key : Key)
  | clear
  | cleanUp
  | wait (instant : Instant)

-- A body that is to be stored under a key for some time, or until it makes room.
structure Write where
  key : Key
  body : Body
  ttl : Option Duration

namespace Operation

-- What an operation is to store. A body without a time of its own lives as long as the
-- configuration says.
def write? (config : Config) : Operation → Option Write
  | .set key body => some ⟨key, body, config.ttl⟩
  | .setWithTtl key body ttl => some ⟨key, body, ttl⟩
  | _ => none

-- What an operation stores. The limits can forbid it.
def taken? (config : Config) (o : Operation) : Option Write :=
  (o.write? config).filter (config.takes ·.body)

end Operation

-- A store and the time on its clock.
structure Timed where
  now : Instant
  store : MemoryStore

-- An operation and where it was done.
structure Event where
  before : Timed
  operation : Operation

namespace Timed

-- A new store.
def init (config : Config) (start : Instant) : Timed where
  now := start
  store := .create config

def step (s : Timed) : Operation → Timed
  | .set key body => { s with store := (s.store.set s.now key body).state }
  | .setWithTtl key body ttl => { s with store := (s.store.setWithTtl s.now key body ttl).state }
  | .get key => { s with store := (s.store.get s.now key).state }
  | .contains _ => s
  | .remove key => { s with store := (s.store.remove key).2 }
  | .clear => { s with store := s.store.clear }
  | .cleanUp => { s with store := (s.store.cleanUp s.now).state }
  | .wait instant => { s with now := max s.now instant }

-- One operation after the other.
def run (s : Timed) (operations : List Operation) : Timed := operations.foldl step s

-- The operations of a run with where each was done.
def trace (s : Timed) : List Operation → List Event
  | [] => []
  | o :: operations => ⟨s, o⟩ :: (s.step o).trace operations

variable {s t : Timed} {o : Operation} {operations : List Operation} {w : Write} {key : Key}

-- What a history tells about a store that it led to is still told after a run, if no operation
-- makes it untrue.
theorem recorded_run {P : List Event → Timed → Prop} {history : List Event}
    (hstep : ∀ {history s o}, P history s → P (history ++ [⟨s, o⟩]) (s.step o))
    (h : P history s) : P (history ++ s.trace operations) (s.run operations) := by
  induction operations generalizing s history
  case nil => rwa [trace, List.append_nil]
  case cons o operations hi =>
    have hs : P (history ++ [⟨s, o⟩]) (s.step o) := hstep h
    have := hi hs
    rwa [List.append_assoc] at this

theorem now_le_step : s.now ≤ (s.step o).now := by
  cases o
  case wait => exact Nat.le_max_left ..
  all_goals exact Nat.le_refl _

-- Both kinds of write are one.
theorem step_of_write? (h : o.write? s.store.config = some w) :
    s.step o = { s with store := (s.store.setWithTtl s.now w.key w.body w.ttl).state } := by
  cases o <;> cases h
  all_goals rfl

theorem step_of_refused (hw : o.write? s.store.config = some w)
    (h : o.taken? s.store.config = none) : s.step o = s := by
  have : s.store.config.takes w.body = false := by simpa [Operation.taken?, hw] using h
  rw [step_of_write? hw, setWithTtl_of_not_takes this]

theorem find?_step_of_taken? (h : o.taken? s.store.config = some w) :
    (s.step o).store.bodies.find? key =
      if w.key = key then some (.create w.body w.ttl s.now)
      else if key ∈ s.store.evictedFor w.key w.body then none
      else s.store.bodies.find? key := by
  obtain ⟨hw, ht⟩ := Option.filter_eq_some_iff.mp h
  rw [step_of_write? hw]
  exact find?_setWithTtl ht

section

-- What holds of a store, and is not lost when a body is put in or read, or when one that is there
-- is taken out, or when something is counted.
variable {P : MemoryStore → Prop} (hs : P s.store)
variable (hw : ∀ {w : Write}, s.store.config.takes w.body →
  P (s.store.setWithTtl s.now w.key w.body w.ttl).state)
variable (hu : ∀ {key b}, s.store.bodies.find? key = some b → P (s.store.touch s.now key b))
variable (ht : ∀ {s key b}, P s → s.bodies.find? key = some b → P (s.takeOut key b))
variable (hr : ∀ {s c}, P s → P (s.record c))
include hs hw hu ht hr

-- It is not lost by any operation, if it is not lost by a clean-up.
theorem step_of_cleanUp (hc : P (s.store.cleanUp s.now).state) : P (s.step o).store := by
  have hset {w} (h : o.write? s.store.config = some w) : P (s.step o).store := by
    cases hw' : o.taken? s.store.config
    case none => rwa [step_of_refused h hw']
    case some w' =>
      obtain ⟨h', ht⟩ := Option.filter_eq_some_iff.mp hw'
      rw [step_of_write? h']
      exact hw ht
  cases o
  case set => exact hset rfl
  case setWithTtl => exact hset rfl
  case get key =>
    change P (s.store.get s.now key).state
    cases hb : s.store.bodies.find? key
    case none =>
      rw [get_of_none hb]
      exact hr hs
    case some b =>
      cases he : b.isExpired s.now
      case false =>
        rw [get_of_some hb he]
        exact hu hb
      case true =>
        simp only [get, hb, he, if_true]
        exact hr (hr (ht hs hb))
  case contains => exact hs
  case remove => exact remove_of ht hs
  case clear =>
    refine foldl_of takesOut_takeOut ht hr hs (fun p hp => ?_) s.store.bodies.keys_nodup
    exact Table.find?_eq_some_iff.mpr hp
  case cleanUp => exact hc
  case wait => exact hs

-- It is not lost by any operation, if it does not matter to it whether a clean-up is under way.
theorem step_of (hc : ∀ {s cleaning}, P s → P { s with cleaning }) : P (s.step o).store := by
  refine step_of_cleanUp hs hw hu ht hr ?_
  obtain h | h := s.store.cleanUp_cases s.now
  case inl => rwa [h]
  case inr =>
    rw [h]
    refine hc (foldl_of takesOut_expire ht hr (hc hs) (fun p hp => ?_) expired_keys_nodup)
    exact (mem_expired_iff.mp hp).left

end

theorem config_step : (s.step o).store.config = s.store.config := by
  refine step_of (P := fun t => t.config = s.store.config) rfl (fun {w} h => ?_) (fun _ => rfl)
    (fun h _ => h) (fun h => h) (fun h => h)
  rw [(setWithTtl_of_takes h).right]
  exact roomFor_of (P := fun t => t.config = s.store.config) (fun h _ => h) (fun h => h) rfl

theorem config_run : (s.run operations).store.config = s.store.config := by
  induction operations generalizing s
  case nil => rfl
  case cons o operations hi => exact hi.trans config_step

theorem config_of_mem_trace {e : Event} (h : e ∈ s.trace operations) :
    e.before.store.config = s.store.config := by
  induction operations generalizing s
  case nil => cases h
  case cons o operations hi =>
    cases h
    case head => rfl
    case tail h => exact (hi h).trans config_step

end Timed

end OnceCache.MemoryStore
