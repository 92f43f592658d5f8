import OnceCache.Proofs.Session.Actions

namespace OnceCache

open Execution (Action State)

-- What neither reads nor writes of a store lose.
structure ByteStore.Keeps {σ : Type} [ByteStore σ] (P : σ → Prop) : Prop where
  read  : ∀ {s} now key, P s → P (ByteStore.read s now key).state
  write : ∀ {s} now key body, P s → P (ByteStore.write s now key body).state

-- Those who have the store do not lose it either.
def Execution.Action.Keeps {σ ε : Type} (P : σ → Prop) : Action σ ε → Prop
  | .tend change => ∀ now s, P s → P (change now s)
  | _ => True

namespace ByteStore.Keeps

variable {σ ε : Type} {P : σ → Prop} [ByteStore σ] (h : Keeps P)
variable {store : σ} {now : Instant} {key : Key} {status : Status} {directive : Directive}
variable {progress : Progress ε} {describe : ε → String} {generation : Generation ε}
variable {t : State σ ε} {action : Action σ ε} {actions : List (Action σ ε)}
include h

theorem conclude (hs : P store) : P (Manager.conclude store now key status progress).2 := by
  cases hb : progress.body?
  case none => rwa [Manager.conclude_of_body?_eq_none hb]
  case some body =>
    rw [Manager.conclude_of_body?_eq_some hb]
    exact h.write now key body hs

theorem attend (hs : P store) : P (Manager.attend store now key directive progress).2 := by
  cases directive
  case noCache => exact h.conclude hs
  case standard =>
    have hr : P (ByteStore.read store now key).state := h.read now key hs
    cases ha : (ByteStore.read store now key).answer
    case ok => rwa [Manager.attend_of_ok rfl ha]
    case error =>
      rw [Manager.attend_of_error rfl ha]
      exact h.conclude hr

theorem poll {m : Manager σ} {id : PartyId} {r : Reply (Manager σ) (Poll ε)} (hs : P m.store)
    (hp : m.poll now id describe generation = some r) : P r.state.store := by
  obtain ⟨p, stage, _, hl, _⟩ := Manager.of_poll hp
  generalize ho : Manager.outcome r = outcome at hl
  have : r.state.store = outcome.2 := congrArg Prod.snd ho
  rw [this]
  cases hl
  case waits => exact hs
  case turns => exact h.attend hs
  case continues => exact h.conclude hs

theorem look {id : PartyId} (hs : P t.store) : P (t.look describe id generation).store := by
  unfold State.look
  cases hp : t.manager.poll t.now id describe generation
  case none => exact hs
  case some r => exact h.poll hs hp

theorem step (ha : action.Keeps P) (hs : P t.store) : P (t.step describe action).store := by
  have hattempt {α : Type} {result : Except Misuse α} {done : α → State σ ε}
      (hd : ∀ a, (done a).store = t.store) : P (t.attempt result done).store := by
    cases result
    case error => exact hs
    case ok a => exact (hd a).symm ▸ hs
  cases action
  case allocate => exact hs
  case start key directive generation => exact h.look (t := t.receive key directive) hs
  case poll => exact h.look hs
  case cancel id =>
    obtain he | ⟨_, _, _, he⟩ := t.cancel_cases describe id
    all_goals
      rw [he]
      exact hs
  case wait => exact hs
  case tend => exact ha _ _ hs
  all_goals exact hattempt fun _ => rfl

theorem run (ha : ∀ action ∈ actions, action.Keeps P) (hs : P t.store) :
    P (t.run describe actions).store := by
  induction actions generalizing t
  case nil => exact hs
  case cons action actions hi =>
    exact hi (fun a hm => ha a (.tail _ hm)) (h.step (ha action (.head _)) hs)

end ByteStore.Keeps

namespace Session

variable {σ : Type} {s : Session σ} {name : String} {Q : Action σ Failure → Prop}

theorem forall_onHandle {actions : OpenHandle → List (Action σ Failure)}
    (h : ∀ handle, ∀ action ∈ actions handle, Q action) :
    ∀ action ∈ s.onHandle name actions, Q action :=
  fun _ ha =>
    have ⟨handle, _, ha⟩ := List.mem_flatMap.mp ha
    h handle _ ha

theorem forall_onCall {actions : PartyId → List (Action σ Failure)}
    (h : ∀ call, ∀ action ∈ actions call, Q action) : ∀ action ∈ s.onCall name actions, Q action :=
  forall_onHandle fun _ _ ha =>
    have ⟨call, _, ha⟩ := List.mem_flatMap.mp ha
    h call _ ha

theorem forall_guarded {change : Key → Instant → σ → σ} (h : ∀ key, Q (.tend (change key))) :
    ∀ action ∈ s.guarded name change, Q action := by
  refine forall_onCall fun call => ?_
  split
  case h_1 p _ => exact List.forall_mem_singleton.mpr (h p.key)
  case h_2 => exact List.forall_mem_nil _

theorem forall_arrivals {raw : Http.RawRequest} {responder : Responder}
    {call : Http.Request → Call} {script : Generation.Script Failure}
    (h : ∀ key directive call, Q (s.arrival name key directive call script)) :
    ∀ action ∈ s.arrivals name raw responder call script, Q action := by
  unfold arrivals
  split
  case h_1 => exact List.forall_mem_singleton.mpr (h _ _ _)
  case h_2 => exact List.forall_mem_nil _

variable [ByteStore σ] {P : σ → Prop} {operation : Operation}

-- Nobody tends the store but by reads and writes.
theorem keeps_actions (h : ByteStore.Keeps P) :
    ∀ action ∈ s.actions operation, action.Keeps P := by
  have hdrop (handle : OpenHandle) : ∀ action ∈ handle.lockCall.toList.map Action.abandon,
      Action.Keeps (ε := Failure) P action :=
    List.forall_mem_map.mpr fun _ _ => trivial
  cases operation
  case guardGet name =>
    change ∀ action ∈ s.guarded name fun key now store => (ByteStore.read store now key).state, _
    exact forall_guarded fun key _ _ => h.read _ key
  case guardSet name body =>
    change ∀ action ∈ s.guarded name fun key now store =>
      (ByteStore.write store now key body).state, _
    exact forall_guarded fun key _ _ => h.write _ key body
  case get key => exact List.forall_mem_singleton.mpr fun _ _ => h.read _ key
  case set key body => exact List.forall_mem_singleton.mpr fun _ _ => h.write _ key body
  case fetch | respond => exact forall_arrivals fun _ _ _ => trivial
  case free name =>
    refine forall_onHandle fun handle => List.forall_mem_append.mpr ⟨hdrop handle, ?_⟩
    exact List.forall_mem_singleton.mpr trivial
  case lock name =>
    refine forall_onHandle fun handle => ?_
    split
    case isTrue => exact List.forall_mem_nil _
    case isFalse => exact List.forall_mem_singleton.mpr trivial
  case abandon name => exact forall_onHandle hdrop
  case pollLock | unlock => exact forall_onCall fun _ => List.forall_mem_singleton.mpr trivial
  case poll | finish | cancel | pollAll => exact List.forall_mem_map.mpr fun _ _ => trivial
  case allocate | start | advance => exact List.forall_mem_singleton.mpr trivial
  all_goals exact List.forall_mem_nil _

-- What neither reads nor writes of a store lose, no operation of a session loses.
theorem keeps_step [SincereStore σ] (h : ByteStore.Keeps P) (hs : P s.manager.store) :
    P (s.step operation).state.manager.store := by
  obtain ⟨onlooker, ht⟩ := (Performs.step s operation).shows {}
  have hr : P ((s.seen {}).run Failure.text (s.actions operation)).store :=
    h.run (keeps_actions h) hs
  rw [ht] at hr
  exact hr

end Session

end OnceCache
