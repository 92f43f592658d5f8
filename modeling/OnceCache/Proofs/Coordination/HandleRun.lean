import OnceCache.Proofs.Coordination.Separation

namespace OnceCache

-- A lock call is made by a handle under another name.
def Stage.rename (f : PartyId → PartyId) : Stage → Stage
  | .waiting id => .waiting (f id)
  | .holding id => .holding (f id)
  | .handle => .handle
  | .queued d => .queued d
  | .generating status since => .generating status since

namespace Handles

-- What can be asked of a handle, or of a lock call.
inductive Demand
  | askLock
  | pollLock
  | abandon
  | unlock
  | free
  deriving DecidableEq

-- What can be done with handles and their lock calls. Whoever comes first is number zero.
inductive Operation
  | allocate (key : Key)
  | demand (id : PartyId) (demand : Demand)
  deriving DecidableEq

-- What a demand is answered.
inductive Verdict
  | refused (misuse : Misuse)
  | asked (call : PartyId) (isHolder : Bool)
  | learned (isHolder : Bool)
  | done

inductive Answer
  | handle (id : PartyId)
  | verdict (verdict : Verdict)

namespace Demand

-- What is asked of a handle or a lock call, if it is possible.
def on? (c : Coordinator) (id : PartyId) : Demand → Except Misuse (Verdict × Coordinator)
  | askLock => (c.askLock id).map fun (call, isHolder, c) => (.asked call isHolder, c)
  | pollLock => (c.pollLock id).map fun (isHolder, c) => (.learned isHolder, c)
  | abandon => (c.abandon id).map (.done, ·)
  | unlock => (c.unlock id).map (.done, ·)
  | free => (c.free id).map (.done, ·)

end Demand

-- What is not possible changes nothing.
def step (c : Coordinator) : Operation → Answer × Coordinator
  | .allocate key =>
    let (id, c) := c.allocate key
    (.handle id, c)
  | .demand id demand =>
    match demand.on? c id with
    | .ok (verdict, c) => (.verdict verdict, c)
    | .error misuse => (.verdict (.refused misuse), c)

-- One operation after the other.
def run (c : Coordinator) (operations : List Operation) : Coordinator :=
  operations.foldl (fun c o => (step c o).2) c

-- The operations of a run with their answers.
def trace (c : Coordinator) : List Operation → List (Operation × Answer)
  | [] => []
  | o :: operations => (o, (step c o).1) :: trace (step c o).2 operations

-- Who comes in an operation with its answer: a handle for its key, or a lock call for the key of
-- its handle.
def comes (known : List Key) : Operation × Answer → List Key
  | (.allocate key, _) => known ++ [key]
  | (.demand id _, .verdict (.asked ..)) => known ++ known[id]?.toList
  | _ => known

-- The keys of the handles and the lock calls, in the order in which these come.
def keys (trace : List (Operation × Answer)) : List Key := trace.foldl comes []

-- The number of a handle or a lock call among those of a key.
def number (keys : List Key) (key : Key) (id : PartyId) : Nat := (keys.take id).count key

def Operation.isOn (keys : List Key) (key : Key) : Operation → Bool
  | .allocate k => k = key
  | .demand id _ => keys[id]? = some key

def Operation.rename (f : PartyId → PartyId) : Operation → Operation
  | .allocate key => .allocate key
  | .demand id d => .demand (f id) d

def Verdict.rename (f : PartyId → PartyId) : Verdict → Verdict
  | .asked call isHolder => .asked (f call) isHolder
  | .refused misuse => .refused misuse
  | .learned isHolder => .learned isHolder
  | .done => .done

def Answer.rename (f : PartyId → PartyId) : Answer → Answer
  | .handle id => .handle (f id)
  | .verdict v => .verdict (v.rename f)

-- The operations on the handles of a key and their lock calls and no others, in the same order. All
-- are numbered anew.
def only (keys : List Key) (key : Key) (operations : List Operation) : List Operation :=
  (operations.filter (·.isOn keys key)).map (·.rename (number keys key))

-- What the handles of a key and their lock calls are asked and answered.
def talk (keys : List Key) (key : Key) (trace : List (Operation × Answer)) :
    List (Operation × Answer) :=
  (trace.filter (·.1.isOn keys key)).map fun e =>
    (e.1.rename (number keys key), e.2.rename (number keys key))

-- The handles of a key and their lock calls fare in the one run as they do in the other: all that
-- they are answered and all that their key comes to is the same. Numbers tell them apart.
structure Fares (keys : List Key) (key : Key) (operations operations' : List Operation)
    (c d : Coordinator) : Prop where
  numbers    : ∀ {i j}, keys[i]? = some key → keys[j]? = some key →
    number keys key i = number keys key j → i = j
  answers    : trace {} operations' = talk keys key (trace {} operations)
  contains   : d.registry.contains key = c.registry.contains key
  refCount   : d.registry.refCount key = c.registry.refCount key
  queue      : d.queue key = (c.queue key).map (number keys key)
  stages     : ∀ {id}, keys[id]? = some key →
    (d.parties.find? (number keys key id)).map (·.stage) =
      (c.parties.find? id).map (·.stage.rename (number keys key))
  sharesLock : ∀ {i j}, keys[i]? = some key → keys[j]? = some key →
    d.sharesLock (number keys key i) (number keys key j) = c.sharesLock i j

-- A key goes its own way: whatever is done with handles and lock calls, those of the key fare as
-- they do if nothing is done with any others.
def GoesAlone (operations : List Operation) (key : Key) : Prop :=
  let keys := keys (trace {} operations)
  let mine := only keys key operations
  Fares keys key operations mine (run {} operations) (run {} mine)

end Handles

open Handles

namespace Coordinator

variable {keys known : List Key} {key k : Key} {c c' : Coordinator} {i j : PartyId} {p : Party}
variable {stage : Stage}

section Number

theorem number_succ (h : keys[i]? = some k) :
    number keys key (i + 1) = number keys key i + if k = key then 1 else 0 := by
  rw [number, number, List.take_add_one, List.count_append, h]
  simp [List.count_singleton]

theorem number_mono (h : i ≤ j) : number keys key i ≤ number keys key j :=
  (List.take_sublist_take_left h).count_le key

theorem number_lt (hi : keys[i]? = some key) (h : i < j) :
    number keys key i < number keys key j := by
  have hs : number keys key (i + 1) = number keys key i + 1 := by rw [number_succ hi, if_pos rfl]
  exact Nat.lt_of_lt_of_le (Nat.lt_of_lt_of_eq (Nat.lt_succ_self _) hs.symm) (number_mono h)

theorem number_inj (hi : keys[i]? = some key) (hj : keys[j]? = some key)
    (h : number keys key i = number keys key j) : i = j := by
  obtain hl | he | hl := Nat.lt_trichotomy i j
  case inl => exact absurd h (Nat.ne_of_lt (number_lt hi hl))
  case inr.inl => exact he
  case inr.inr => exact absurd h.symm (Nat.ne_of_lt (number_lt hj hl))

end Number

section Known

theorem prefix_comes {e : Operation × Answer} : known <+: comes known e := by
  unfold comes
  split
  case h_1 => exact List.prefix_append ..
  case h_2 => exact List.prefix_append ..
  case h_3 => exact List.prefix_rfl

theorem prefix_foldl_comes {trace : List (Operation × Answer)} :
    known <+: trace.foldl comes known := by
  induction trace generalizing known
  case nil => exact List.prefix_rfl
  case cons e trace hi => exact prefix_comes.trans hi

-- Those who came first keep their numbers, whoever comes later.
theorem number_length (h : known <+: keys) : number keys key known.length = known.count key := by
  rw [number, ← List.prefix_iff_eq_take.mp h]

theorem getElem?_of_prefix (h : known <+: keys) (hk : known[i]? = some k) :
    keys[i]? = some k := by
  obtain ⟨hi, he⟩ := List.getElem?_eq_some_iff.mp hk
  rw [List.prefix_iff_getElem?.mp h i hi, he]

theorem getElem?_length (h : known ++ [k] <+: keys) : keys[known.length]? = some k :=
  getElem?_of_prefix h List.getElem?_concat_length

-- The keys of those who came.
structure Named (known : List Key) (c : Coordinator) : Prop where
  length : known.length = c.nextParty
  key    : ∀ {id p}, c.parties.find? id = some p → known[id]? = some p.key

namespace Named

-- Whoever comes next is the next to have a key.
theorem come (h : Named known c) (hn : c'.nextParty = c.nextParty + 1)
    (hp : ∀ j, c'.parties.find? j = if c.nextParty = j then some p else c.parties.find? j) :
    Named (known ++ [p.key]) c' where
  length := by rw [List.length_append, h.length, hn, List.length_singleton]
  key {j q} hq := by
    rw [hp] at hq
    split at hq
    case isTrue he =>
      cases hq
      rw [← he, ← h.length, List.getElem?_concat_length]
    case isFalse => exact getElem?_of_prefix (List.prefix_append ..) (h.key hq)

theorem setStage (h : Named known c) (hp : c.parties.find? i = some p) :
    Named known (c.setStage i stage) where
  length := h.length
  key {j q} hq := by
    rw [find?_setStage hp] at hq
    split at hq
    case isTrue he =>
      cases hq
      have hi := h.key hp
      exact he ▸ hi
    case isFalse => exact h.key hq

theorem depart (h : Named known c) : Named known (c.depart i) where
  length := by rw [depart_nextParty, h.length]
  key hq := h.key (find?_depart_eq_some_iff.mp hq).right

end Named

end Known

end Coordinator

end OnceCache
