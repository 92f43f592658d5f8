import OnceCache.Event

namespace OnceCache

namespace Event

-- What a store says of itself.
def isOfStore : Event → Bool
  | evicted .. | expired .. | cleanupTooFrequent .. | cleanupWithoutRuntime => true
  | hit .. | miss .. | readFailed .. | generationFailed .. | writeFailed .. | readSkipped
  | contentTypeRefused .. | responseFailed .. | requestRejected .. => false

-- The key that is named as the key of a request.
def key? : Event → Option Key
  | hit key _ | miss key | readFailed key _ | generationFailed key _ | writeFailed key _ _ =>
    some key
  | readSkipped | evicted .. | expired .. | cleanupTooFrequent .. | cleanupWithoutRuntime
  | contentTypeRefused .. | responseFailed .. | requestRejected .. => none

-- What a manager says of the requests to it.
def isOfManager (e : Event) : Bool := e.key?.isSome

-- The status of the response that a responder speaks of, and the level at which it does.
def verdict? (e : Event) : Option (Nat × Level) :=
  match e with
  | responseFailed _ status _ | requestRejected _ status _ => some (status, e.level)
  | _ => none

-- What a manager says of a read in vain. A body that is not there is nothing out of the ordinary.
def unread (key : Key) (e : Error) : Event :=
  if e.kind = .notFound then .miss key else .readFailed key e

-- How often a log says something at a level.
def mentions (log : List Event) (level : Level) (message : String) : Nat :=
  log.countP fun e => decide (e.level = level ∧ e.message = message)

variable {e : Event} {log log' told told' : List Event} {key : Key} {error : Error}

theorem key?_unread : (unread key error).key? = some key := by
  unfold unread
  split <;> rfl

theorem isOfManager_unread : (unread key error).isOfManager := by
  rw [isOfManager, key?_unread]
  rfl

theorem isOfManager_of_isOfStore (h : e.isOfStore) : e.isOfManager = false := by
  cases e <;> first | rfl | cases h

theorem verdict?_of_isOfStore (h : e.isOfStore) : e.verdict? = none := by
  cases e <;> first | rfl | cases h

theorem verdict?_of_isOfManager (h : e.isOfManager) : e.verdict? = none := by
  cases e <;> first | rfl | cases h

theorem level_of_verdict? {status : Nat} {level : Level} (h : e.verdict? = some (status, level)) :
    e.level = level := by
  cases e <;> cases h <;> rfl

-- A log with nothing in it but what a manager tells of its requests and what its store says.
structure Tells (log told : List Event) : Prop where
  told   : log.filter (·.isOfManager) = told
  others : ∀ e ∈ log, e.isOfStore ∨ e.isOfManager

namespace Tells

theorem nil : Tells [] [] := ⟨rfl, nofun⟩

theorem single (h : e.isOfManager) : Tells [e] [e] where
  told := List.filter_cons_of_pos h
  others _ he := .inr (List.mem_singleton.mp he ▸ h)

theorem of_store (h : ∀ e ∈ log, e.isOfStore) : Tells log [] where
  told := List.filter_eq_nil_iff.mpr fun e he => by simp [isOfManager_of_isOfStore (h e he)]
  others e he := .inl (h e he)

theorem append (h : Tells log told) (h' : Tells log' told') :
    Tells (log ++ log') (told ++ told') where
  told := by rw [List.filter_append, h.told, h'.told]
  others e he := (List.mem_append.mp he).elim (h.others e) (h'.others e)

theorem filterMap_verdict? (h : Tells log told) : log.filterMap verdict? = [] :=
  List.filterMap_eq_nil_iff.mpr fun e he =>
    (h.others e he).elim verdict?_of_isOfStore verdict?_of_isOfManager

end Tells

end Event

end OnceCache
