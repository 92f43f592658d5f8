import OnceCache.Proofs.Execution.Log
import OnceCache.Proofs.Responder.Log
import OnceCache.Session.Step

namespace OnceCache

open Execution (Action Onlooker State)

namespace Session

-- The responses that clients are given.
def Answer.responses : Answer → List Response
  | .request answer => answer.response?.toList
  | .requests answers => answers.filterMap (·.2.response?)
  | _ => []

section Actions

variable {σ : Type}

-- What is done with a handle, if there is one of this name.
def onHandle (s : Session σ) (name : String) (actions : OpenHandle → List (Action σ Failure)) :
    List (Action σ Failure) :=
  (s.handle? name).toList.flatMap actions

-- What is done with the lock call of a handle, if it has one.
def onCall (s : Session σ) (name : String) (actions : PartyId → List (Action σ Failure)) :
    List (Action σ Failure) :=
  s.onHandle name fun h => h.lockCall.toList.flatMap actions

-- What is done with the store under a lock.
def guarded (s : Session σ) (name : String) (change : Key → Instant → σ → σ) :
    List (Action σ Failure) :=
  s.onCall name fun call =>
    match s.coordinator.guard? call with
    | .ok p => [.tend (change p.key)]
    | .error _ => []

-- What happens to a request, if there is one of this name.
def asked (s : Session σ) (name : String) (action : OpenRequest → Action σ Failure) :
    List (Action σ Failure) :=
  (s.request? name).toList.map action

def look (s : Session σ) (r : OpenRequest) : Action σ Failure :=
  .poll r.party (s.generationOf r)

def arrival (s : Session σ) (name : String) (key : Key) (directive : Directive) (call : Call)
    (script : Generation.Script Failure) : Action σ Failure :=
  .start key directive (s.generationOf ⟨name, s.coordinator.nextParty, call, script⟩)

-- The arrival of a request of a responder, if it has a head.
def arrivals (s : Session σ) (name : String) (raw : Http.RawRequest) (responder : Responder)
    (call : Http.Request → Call) (script : Generation.Script Failure) : List (Action σ Failure) :=
  match Http.Request.parse raw with
  | .ok q => [s.arrival name (responder.key q) (.ofHeaders q.headers) (call q) script]
  | .error _ => []

variable [ByteStore σ]

-- What an operation comes to at the manager.
def actions (s : Session σ) : Operation → List (Action σ Failure)
  | .allocate _ key => [.allocate key]
  | .free name => s.onHandle name fun h => h.lockCall.toList.map .abandon ++ [.free h.party]
  | .lock name => s.onHandle name fun h => if h.lockCall.isSome then [] else [.askLock h.party]
  | .pollLock name => s.onCall name fun call => [.pollLock call]
  | .unlock name => s.onCall name fun call => [.unlock call]
  | .abandon name => s.onHandle name fun h => h.lockCall.toList.map .abandon
  | .guardGet name => s.guarded name fun key now store => (ByteStore.read store now key).state
  | .guardSet name body =>
    s.guarded name fun key now store => (ByteStore.write store now key body).state
  | .start name key directive script => [s.arrival name key directive .direct script]
  | .fetch name raw script responder =>
    let responder := responder.getD s.responder
    s.arrivals name raw responder (fun _ => .fetch responder) script
  | .respond name raw script responder =>
    let responder := responder.getD s.responder
    s.arrivals name raw responder (fun q => .respond responder q.target) script
  | .poll name => s.asked name s.look
  | .finish name outcome => s.asked name fun r => s.look (s.give r outcome).1
  | .pollAll => s.requests.map s.look
  | .cancel name => s.asked name fun r => .cancel r.party
  | .advance length => [.wait (s.now + length.total)]
  | .get key => [.tend fun now store => (ByteStore.read store now key).state]
  | .set key body => [.tend fun now store => (ByteStore.write store now key body).state]
  | .sameLock .. | .refCount .. | .containsKey .. | .registry | .debugManager | .debugResponder
  | .cacheKey .. => []

def runActions (s : Session σ) : List Operation → List (Action σ Failure)
  | [] => []
  | operation :: operations =>
    s.actions operation ++ (s.step operation).state.runActions operations

end Actions

variable {σ : Type} {s s' s'' : Session σ} {t : State σ Failure}

-- What an onlooker sees of a session.
def seen (s : Session σ) (onlooker : Onlooker Failure) : State σ Failure where
  now := s.now
  manager := s.manager
  onlooker

-- An execution is where a session is, as far as the clock and the manager go.
def Shows (t : State σ Failure) (s : Session σ) : Prop := ∃ onlooker, t = s.seen onlooker

theorem Shows.of_eq (hn : t.now = s.now) (hm : t.manager = s.manager) : Shows t s := by
  obtain ⟨_, _, onlooker⟩ := t
  cases hn
  cases hm
  exact ⟨onlooker, rfl⟩

variable [ByteStore σ]

-- Some actions lead from one session to another. The log tells what they come to, and what
-- responses there are.
structure Performs (s : Session σ) (actions : List (Action σ Failure)) (s' : Session σ)
    (log : List Event) (responses : List Response) : Prop where
  shows    : ∀ onlooker, Shows ((s.seen onlooker).run Failure.text actions) s'
  told     : ∀ onlooker, (s.seen onlooker).Faithful → log.filter (·.isOfManager) =
    ((s.seen onlooker).encounters Failure.text actions).flatMap (·.told Failure.text)
  verdicts : log.filterMap (·.verdict?) = responses.filterMap (·.verdict?)
  others   : ∀ e ∈ log, e.isOfStore ∨ e.isOfManager ∨ e.verdict?.isSome ∨ e = .readSkipped

-- Some actions are what an operation comes to.
def Replies (s : Session σ) (actions : List (Action σ Failure)) (r : Reply (Session σ) Answer) :
    Prop :=
  s.Performs actions r.state r.log r.answer.responses

-- A look at a request of a session is a look at the party behind it.
theorem look_shows {onlooker : Onlooker Failure} (r : OpenRequest) :
    Shows ((s.seen onlooker).look Failure.text r.party (s.generationOf r))
      (s.pollRequest r).state := by
  unfold State.look Session.pollRequest
  simp only [seen]
  cases s.manager.poll s.now r.party Failure.text (s.generationOf r)
  case none => exact ⟨onlooker, rfl⟩
  case some reply =>
    obtain ⟨answer, m, log⟩ := reply
    cases answer
    all_goals exact .of_eq rfl rfl

-- What polling a request shows comes from a look at it; a response to a client is spoken of.
theorem pollRequest_cases (s : Session σ) (r : OpenRequest) :
    s.manager.poll s.now r.party Failure.text (s.generationOf r) = none ∧
        (s.pollRequest r).log = [] ∧ (s.pollRequest r).answer.response? = none ∨
      ∃ reply spoken, s.manager.poll s.now r.party Failure.text (s.generationOf r) = some reply ∧
        (s.pollRequest r).log = reply.log ++ spoken ∧ (∀ e ∈ spoken, e.verdict?.isSome) ∧
        spoken.filterMap (·.verdict?) =
          (s.pollRequest r).answer.response?.toList.filterMap (·.verdict?) := by
  unfold Session.pollRequest
  cases s.manager.poll s.now r.party Failure.text (s.generationOf r)
  case none => exact .inl ⟨rfl, rfl, rfl⟩
  case some reply =>
    refine .inr ⟨reply, ?_⟩
    obtain ⟨answer, m, log⟩ := reply
    cases answer
    case pending => exact ⟨[], rfl, (List.append_nil _).symm, nofun, rfl⟩
    case broken => exact ⟨[], rfl, (List.append_nil _).symm, nofun, rfl⟩
    case finished outcome generated =>
      exact ⟨_, rfl, rfl, deliver_spoken r.call outcome generated⟩

-- Whoever is polled, the generations of the others are as they were.
theorem look_pollRequest (r : OpenRequest) : (s.pollRequest r).state.look = s.look := by
  unfold Session.pollRequest
  cases s.manager.poll s.now r.party Failure.text (s.generationOf r)
  case none => rfl
  case some reply =>
    obtain ⟨answer, m, log⟩ := reply
    cases answer <;> rfl

namespace Performs

variable {log log' : List Event} {responses responses' : List Response}
variable {actions actions' : List (Action σ Failure)}

theorem trans (h : s.Performs actions s' log responses)
    (h' : s'.Performs actions' s'' log' responses') :
    s.Performs (actions ++ actions') s'' (log ++ log') (responses ++ responses') where
  shows o := by
    obtain ⟨o', ho⟩ := h.shows o
    rw [State.run_append, ho]
    exact h'.shows o'
  told o hf := by
    obtain ⟨o', ho⟩ := h.shows o
    have hf' : ((s.seen o).run Failure.text actions).Faithful := hf.run
    rw [List.filter_append, h.told o hf, State.encounters_append, List.flatMap_append, ho,
      h'.told o' (ho ▸ hf')]
  verdicts := by rw [List.filterMap_append, List.filterMap_append, h.verdicts, h'.verdicts]
  others e he := (List.mem_append.mp he).elim (h.others e) (h'.others e)

-- Nobody is looked at. Only a store can have something to say then.
theorem unheard (hs : ∀ onlooker, Shows ((s.seen onlooker).run Failure.text actions) s')
    (he : ∀ t : State σ Failure, t.encounters Failure.text actions = [])
    (hl : ∀ e ∈ log, e.isOfStore) : s.Performs actions s' log [] where
  shows      := hs
  told _ _   := by rw [(Event.Tells.of_store hl).told, he, List.flatMap_nil]
  verdicts   := (Event.Tells.of_store hl).filterMap_verdict?
  others e h := .inl (hl e h)

theorem of_eq (hn : s'.now = s.now) (hm : s'.manager = s.manager) : s.Performs [] s' [] [] :=
  unheard (fun _ => .of_eq hn.symm hm.symm) (fun _ => rfl) nofun

theorem refl : s.Performs [] s [] [] := of_eq rfl rfl

-- Whatever is done with the store is done at one instant.
theorem tend (change : Instant → σ → σ) (hn : s'.now = s.now)
    (hm : s'.manager = { s.manager with store := change s.now s.manager.store })
    (hl : ∀ e ∈ log, e.isOfStore) : s.Performs [.tend change] s' log [] :=
  unheard (fun _ => .of_eq hn.symm hm.symm) (fun _ => rfl) hl

-- A request can say first that it skips the read.
theorem withEvents (h : s.Performs actions s' log responses) (d : Directive) :
    s.Performs actions s' (d.events ++ log) responses := by
  cases d
  case standard => exact h
  case noCache =>
    constructor
    case shows => exact h.shows
    case told => exact h.told
    case verdicts => exact h.verdicts
    case others =>
      intro e he
      cases he
      case head => exact .inr (.inr (.inr rfl))
      case tail he => exact h.others e he

section

variable {name : String} {h : OpenHandle}

-- What is attempted leads to the next coordinator if it is possible, and to nothing if it is not.
theorem attempt {α : Type} {result : Except Misuse α} {answer : α → Reply (Session σ) Answer}
    (action : Action σ Failure) (next : α → Coordinator)
    (onlooker : Onlooker Failure → α → Onlooker Failure)
    (hs : ∀ o, (s.seen o).step Failure.text action =
      (s.seen o).attempt result fun a => (s.seen o).update (next a) (onlooker o a))
    (he : ∀ t : State σ Failure, t.encounters Failure.text [action] = [])
    (hn : ∀ a, (answer a).state.now = s.now)
    (hm : ∀ a, (answer a).state.manager = { s.manager with coordinator := next a })
    (hq : ∀ a, (answer a).log = [] ∧ (answer a).answer.responses = []) :
    s.Replies [action] (s.attempt result answer) := by
  have hstep (o : Onlooker Failure) : (s.seen o).run Failure.text [action] =
    (s.seen o).attempt result fun a => (s.seen o).update (next a) (onlooker o a) := hs o
  unfold Replies Session.attempt
  cases result
  case error misuse => exact unheard (fun o => ⟨o, hstep o⟩) he nofun
  case ok a =>
    dsimp only
    rw [(hq a).left, (hq a).right]
    refine unheard (fun o => ?_) he nofun
    rw [hstep]
    exact .of_eq (hn a).symm (hm a).symm

theorem onHandle {act : OpenHandle → Reply (Session σ) Answer}
    {actions : OpenHandle → List (Action σ Failure)} (h : ∀ h, s.Replies (actions h) (act h)) :
    s.Replies (s.onHandle name actions) (s.withHandle name act) := by
  unfold Session.onHandle Replies withHandle
  cases s.handle? name
  case none => exact refl
  case some entry =>
    rw [Option.toList_some, List.flatMap_singleton]
    exact h entry

theorem ofHandle {act : OpenHandle → Reply (Session σ) Answer} (h : ∀ h, s.Replies [] (act h)) :
    s.Replies [] (s.withHandle name act) := by
  unfold withHandle
  cases s.handle? name
  case none => exact refl
  case some entry => exact h entry

theorem onCall {misuse : Misuse} {act : PartyId → Reply (Session σ) Answer}
    {actions : PartyId → List (Action σ Failure)}
    (h : ∀ call, s.Replies (actions call) (act call)) :
    s.Replies (s.onCall name actions) (s.onLockCall name misuse act) := by
  refine onHandle fun entry => ?_
  cases entry.lockCall
  case none => exact refl
  case some call =>
    rw [Option.toList_some, List.flatMap_singleton]
    exact h call

theorem guarded (change : Key → Instant → σ → σ) {answer : Party → Reply (Session σ) Answer}
    (h : ∀ p, s.Replies [.tend (change p.key)] (answer p)) :
    s.Replies (s.guarded name change)
      (s.onLockCall name .notLocked fun call => s.attempt (s.coordinator.guard? call) answer) := by
  refine onCall fun call => ?_
  unfold Session.attempt
  cases s.coordinator.guard? call
  case error => exact refl
  case ok p => exact h p

-- A lock call is given up, if there is one.
theorem dropLockCall : s.Performs (h.lockCall.toList.map .abandon) (s.dropLockCall h) [] [] := by
  unfold Session.dropLockCall
  cases h.lockCall
  case none => exact refl
  case some call =>
    have hstep (o : Onlooker Failure) : (s.seen o).run Failure.text [.abandon call] =
      (s.seen o).attempt (s.coordinator.abandon call) fun c => (s.seen o).update c (o.went call) :=
        rfl
    refine unheard (fun o => ?_) (fun _ => rfl) nofun
    change Shows ((s.seen o).run Failure.text [.abandon call]) _
    rw [hstep, Option.map_some]
    cases s.coordinator.abandon call
    case error => exact ⟨o, rfl⟩
    case ok c => exact .of_eq rfl rfl

theorem withRequest {act : OpenRequest → Reply (Session σ) RequestAnswer}
    {action : OpenRequest → Action σ Failure}
    (h : ∀ r, s.Performs [action r] (act r).state (act r).log (act r).answer.response?.toList) :
    s.Replies (s.asked name action) (s.withRequest name act) := by
  unfold asked Replies Session.withRequest
  cases s.request? name
  case none => exact refl
  case some r => exact h r

theorem withHead {raw : Http.RawRequest} {responder : Responder} {call : Http.Request → Call}
    {script : Generation.Script Failure} {act : Http.Request → Reply (Session σ) Answer}
    (h : ∀ q, s.Replies
      [s.arrival name (responder.key q) (.ofHeaders q.headers) (call q) script] (act q)) :
    s.Replies (s.arrivals name raw responder call script) (s.withHead raw act) := by
  unfold arrivals Replies Session.withHead
  cases Http.Request.parse raw
  case error => exact refl
  case ok q => exact h q

theorem cancel : s.Performs (s.asked name fun r => .cancel r.party) (s.cancel name).2 [] [] := by
  unfold asked Session.cancel
  cases s.request? name
  case none => exact refl
  case some r =>
    refine unheard (fun o => ?_) (fun _ => rfl) nofun
    have hm : (s.seen o).manager.cancel r.party = s.manager.cancel r.party := rfl
    change Shows ((s.seen o).step Failure.text (.cancel r.party)) _
    rw [State.step, hm, Option.bind_some]
    cases s.manager.cancel r.party
    case none => exact ⟨o, rfl⟩
    case some m => exact .of_eq rfl rfl

end

section Requests

variable [SincereStore σ]

theorem read (s : Session σ) (key : Key) :
    s.Replies [.tend fun now store => (ByteStore.read store now key).state]
      ⟨.ofRead (s.manager.read s.now key).answer,
        { s with manager := (s.manager.read s.now key).state },
        (s.manager.read s.now key).log⟩ := by
  have ha : (Answer.ofRead (s.manager.read s.now key).answer).responses = [] := by
    cases (s.manager.read s.now key).answer <;> rfl
  change s.Performs _ _ _ (Answer.ofRead _).responses
  rw [ha]
  exact tend _ rfl rfl (SincereStore.read s.manager.store s.now key)

theorem write (s : Session σ) (key : Key) (body : Body) :
    s.Replies [.tend fun now store => (ByteStore.write store now key body).state]
      ⟨.ofWrite (s.manager.write s.now key body).answer,
        { s with manager := (s.manager.write s.now key body).state },
        (s.manager.write s.now key body).log⟩ := by
  have ha : (Answer.ofWrite (s.manager.write s.now key body).answer).responses = [] := by
    cases (s.manager.write s.now key body).answer <;> rfl
  change s.Performs _ _ _ (Answer.ofWrite _).responses
  rw [ha]
  exact tend _ rfl rfl (SincereStore.write s.manager.store s.now key body)

theorem pollRequest (r : OpenRequest) :
    s.Performs [s.look r] (s.pollRequest r).state (s.pollRequest r).log
      (s.pollRequest r).answer.response?.toList := by
  obtain ⟨hp, hl, ha⟩ | ⟨reply, spoken, hp, hl, hs, hv⟩ := s.pollRequest_cases r
  case inl =>
    rw [hl, ha]
    refine ⟨fun _ => look_shows r, fun o _ => ?_, rfl, nofun⟩
    have he : (s.seen o).encounter Failure.text r.party (s.generationOf r) = [] :=
      State.encounter_of_poll_eq_none hp
    change [] = ((s.seen o).encounter Failure.text r.party (s.generationOf r) ++ []).flatMap _
    rw [he]
    rfl
  case inr =>
    obtain ⟨_, ht⟩ := Manager.tells_of_poll hp
    rw [hl]
    constructor
    case shows => exact fun _ => look_shows r
    case told =>
      intro o hf
      have he : Event.Tells reply.log _ := hf.tells_of_poll hp
      have hn : spoken.filter (·.isOfManager) = [] := List.filter_eq_nil_iff.mpr fun e h => by
        intro hm
        simpa [Event.verdict?_of_isOfManager hm] using hs e h
      change _ = ((s.seen o).encounter Failure.text r.party (s.generationOf r) ++ []).flatMap _
      rw [List.filter_append, hn, he.told, List.append_nil, List.append_nil]
    case verdicts => rw [List.filterMap_append, ht.filterMap_verdict?, hv, List.nil_append]
    case others =>
      intro e he
      cases List.mem_append.mp he
      case inl he => exact (ht.others e he).imp_right .inl
      case inr he => exact .inr (.inr (.inl (hs e he)))

theorem pollEach (requests : List OpenRequest) :
    let r := Session.pollEach requests s
    s.Performs (requests.map s.look) r.state r.log (r.answer.filterMap (·.2.response?)) := by
  induction requests generalizing s
  case nil => exact refl
  case cons r requests hi =>
    have hl : (s.pollRequest r).state.look = s.look := look_pollRequest r
    have h : s.Performs _ _ _ _ := (pollRequest r).trans (hl ▸ hi)
    have hf : (Session.pollEach (r :: requests) s).answer.filterMap (·.2.response?) =
        (s.pollRequest r).answer.response?.toList ++
          (Session.pollEach requests (s.pollRequest r).state).answer.filterMap
            (·.2.response?) := by
      rw [Session.pollEach, List.filterMap_cons]
      cases (s.pollRequest r).answer.response? <;> rfl
    dsimp only
    rw [hf]
    exact h

-- A request that begins comes and is looked at.
theorem begin {name : String} {key : Key} {directive : Directive} {call : Call}
    {script : Generation.Script Failure} :
    let r := s.begin name key directive call script
    s.Performs [s.arrival name key directive call script] r.state r.log
      r.answer.response?.toList := by
  let r : OpenRequest := ⟨name, s.coordinator.nextParty, call, script⟩
  let begun : Session σ :=
    { s with manager := (s.manager.request key directive).2, requests := s.requests ++ [r] }
  have h : begun.Performs [begun.look r] (begun.pollRequest r).state (begun.pollRequest r).log
    (begun.pollRequest r).answer.response?.toList := pollRequest r
  let came (o : Onlooker Failure) := o.came s.coordinator.nextParty key (.request directive)
  exact {
    shows    := fun o => h.shows (came o)
    told     := fun o hf => h.told (came o) hf.receive
    verdicts := h.verdicts
    others   := h.others
  }

theorem beginHttp {name : String} {responder : Responder} {q : Http.Request} {call : Call}
    {script : Generation.Script Failure} :
    let r := s.beginHttp name responder q call script
    s.Performs [s.arrival name (responder.key q) (.ofHeaders q.headers) call script] r.state r.log
      r.answer.response?.toList :=
  begin.withEvents _

theorem step (s : Session σ) (operation : Operation) :
    s.Replies (s.actions operation) (s.step operation) := by
  cases operation
  case allocate handle key => exact unheard (fun _ => .of_eq rfl rfl) (fun _ => rfl) nofun
  case free name =>
    refine onHandle fun h => ?_
    have hd : s.Performs _ (s.dropLockCall h) [] [] := dropLockCall
    exact hd.trans (attempt (.free h.party) id (fun o _ => o.went h.party) (fun _ => rfl)
      (fun _ => rfl) (fun _ => rfl) (fun _ => rfl) fun _ => ⟨rfl, rfl⟩)
  case lock name =>
    refine onHandle fun h => ?_
    cases h.lockCall.isSome
    case true => exact refl
    case false =>
      exact attempt (.askLock h.party) (·.2.2)
        (fun o a => (o.called h.party a.1).told a.1 a.2.1)
        (fun _ => rfl) (fun _ => rfl) (fun _ => rfl) (fun _ => rfl) fun _ => ⟨rfl, rfl⟩
  case pollLock name =>
    exact onCall fun call => attempt (.pollLock call) Prod.snd (fun o a => o.told call a.1)
      (fun _ => rfl) (fun _ => rfl) (fun _ => rfl) (fun _ => rfl) fun _ => ⟨rfl, rfl⟩
  case unlock name =>
    exact onCall fun call => attempt (.unlock call) id (fun o _ => o.went call)
      (fun _ => rfl) (fun _ => rfl) (fun _ => rfl) (fun _ => rfl) fun _ => ⟨rfl, rfl⟩
  case abandon name => exact onHandle fun h => dropLockCall
  case guardGet name =>
    exact guarded (fun key now store => (ByteStore.read store now key).state) fun p => read s p.key
  case guardSet name body =>
    exact guarded (fun key now store => (ByteStore.write store now key body).state)
      fun p => write s p.key body
  case sameLock a b =>
    refine ofHandle fun p => ofHandle fun q => ?_
    unfold Session.attempt
    cases s.coordinator.sharesLock p.party q.party <;> exact refl
  case start => exact begin
  case fetch => exact withHead fun _ => beginHttp
  case respond => exact withHead fun _ => beginHttp
  case poll => exact withRequest pollRequest
  case finish name outcome =>
    refine withRequest fun r => ?_
    have : s.Performs [] (s.give r outcome).2 [] [] := of_eq rfl rfl
    exact this.trans (pollRequest _)
  case pollAll => exact pollEach _
  case cancel => exact cancel
  case cacheKey raw =>
    change s.Replies [] (s.withHead raw _)
    unfold Session.withHead
    cases Http.Request.parse raw <;> exact refl
  case advance length =>
    refine unheard (fun _ => .of_eq ?_ rfl) (fun _ => rfl) nofun
    exact Nat.max_eq_right (Nat.le_add_right ..)
  case get key => exact read s key
  case set key body => exact write s key body
  all_goals exact refl

theorem run (s : Session σ) (operations : List Operation) :
    let r := Session.run operations s
    s.Performs (s.runActions operations) r.state r.log (r.answer.flatMap (·.responses)) := by
  induction operations generalizing s
  case nil => exact refl
  case cons operation operations hi => exact (step s operation).trans (hi _)

end Requests

end Performs

end Session

end OnceCache
