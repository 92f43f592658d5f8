import OnceCache.Proofs.Execution.Encounters
import OnceCache.Responder.Response
import OnceCache.Store.Unreliable

namespace OnceCache

namespace Manager

variable {ε : Type} {key : Key} {d : Directive} {progress : Progress ε} {answer : Poll ε}
variable {status : Status} {accesses : List Access} {counters : List Counter}

-- What was done with the store for a request that generates: it was read in vain, if the directive
-- allows it to be read.
def Unserved (key : Key) : Directive → List Access → Prop
  | .standard, accesses => ∃ e, accesses = [.read key (.error e)]
  | .noCache, accesses => accesses = []

-- How a request that is done came by its outcome: what it asked for, what its generation had come
-- to, whether it says that it ran, what was done with the store, and how often it was invoked. What
-- the store said to a write is nowhere in the outcome, and neither is why a read failed.
inductive Ended (key : Key) (progress : Progress ε) :
    Directive → Except ε Served → Bool → List Access → Nat → Prop
  | found {body : Body} :
    Ended key progress .standard (.ok ⟨body, .hit⟩) false [.read key (.ok body)] 0
  | served {d : Directive} {reads : List Access} {body : Body} {answer : Except Error Unit} :
    Unserved key d reads → progress = .finished (.ok body) →
    Ended key progress d (.ok ⟨body, d.freshStatus⟩) true (reads ++ [.write key body answer]) 1
  | failed {d : Directive} {reads : List Access} {e : ε} :
    Unserved key d reads → progress = .finished (.error e) →
    Ended key progress d (.error e) true reads 1

-- A request that found no body has what its generation came to as its outcome.
theorem Ended.exists_result {outcome : Except ε Served} {generated : Bool} {n : Nat}
    (h : Ended key progress d outcome generated accesses n)
    (hf : d = .noCache ∨ accesses.any (·.isFind) = false) :
    ∃ result, progress = .finished result ∧ outcome = result.map (⟨·, d.freshStatus⟩) := by
  cases h
  case found =>
    obtain hd | hf := hf
    case inl => cases hd
    case inr => cases hf
  case served body _ hp _ => exact ⟨.ok body, hp, rfl⟩
  case failed e hp _ => exact ⟨.error e, hp, rfl⟩

namespace Concluded

theorem count_generation (h : Concluded key status progress answer accesses counters) :
    counters.count .generation = 0 := by
  cases h <;> rfl

theorem ran (h : Concluded key status progress answer accesses counters) : answer.ran := by
  cases h <;> rfl

theorem accesses_of_pending (h : Concluded key status progress answer accesses counters)
    (ha : answer.isPending) : accesses = [] := by
  cases h <;> first | rfl | cases ha

end Concluded

-- What was done for a request up to a look at it: with the store, and how often its generation was
-- invoked.
inductive Course (key : Key) (d : Directive) (progress : Progress ε) :
    Poll ε → List Access → Nat → Prop
  | waits : Course key d progress (.pending false) [] 0
  | found {body : Body} :
    d = .standard →
    Course key d progress (.finished (.ok ⟨body, .hit⟩) false) [.read key (.ok body)] 0
  | generates {answer : Poll ε} {reads accesses : List Access} {counters : List Counter} :
    Unserved key d reads → Concluded key d.freshStatus progress answer accesses counters →
    Course key d progress answer (reads ++ accesses) 1

namespace Course

variable {n : Nat}

theorem of_waiting (h : Course key d progress (.pending false) accesses n) :
    accesses = [] ∧ n = 0 := by
  cases h
  case waits => exact ⟨rfl, rfl⟩
  case generates hc => cases hc.hasTurn

theorem of_generating (h : Course key d progress (.pending true) accesses n) :
    Unserved key d accesses ∧ n = 1 := by
  cases h
  case generates hu hc =>
    rw [hc.accesses_of_pending rfl, List.append_nil]
    exact ⟨hu, rfl⟩

theorem ended {outcome : Except ε Served} {generated : Bool}
    (h : Course key d progress (.finished outcome generated) accesses n) :
    Ended key progress d outcome generated accesses n := by
  cases h
  case found hd =>
    subst hd
    exact .found
  case generates hu hc =>
    generalize ha : Poll.finished outcome generated = answer at hc
    cases hc <;> cases ha
    case failed =>
      rw [List.append_nil]
      exact .failed hu rfl
    case stored => exact .served hu rfl
    case refused => exact .served hu rfl

-- It was invoked if it ran.
theorem invocations_eq (h : Course key d progress answer accesses n) :
    n = if answer.ran then 1 else 0 := by
  cases h
  case waits => rfl
  case found => rfl
  case generates hc => rw [hc.ran, if_pos rfl]

theorem invocations_le (h : Course key d progress answer accesses n) : n ≤ 1 := by
  cases h <;> decide

end Course

-- A request whose turn comes is served what the store has, or invokes its generation.
theorem Attended.course (h : Attended key progress d answer accesses counters) :
    Course key d progress answer accesses (counters.count .generation) := by
  cases h
  case found => exact .found rfl
  case missed e accesses counters hc =>
    have hn : (Counter.miss :: .generation :: counters).count .generation = 1 := by
      simp [hc.count_generation]
    have hu : Unserved key .standard [.read key (.error e)] := ⟨e, rfl⟩
    rw [hn]
    exact .generates hu hc
  case bypassed counters hc =>
    have hn : (Counter.bypass :: .generation :: counters).count .generation = 1 := by
      simp [hc.count_generation]
    have hu : Unserved key .noCache [] := rfl
    rw [hn]
    exact .generates hu hc

end Manager

namespace Execution

variable {σ ε : Type} {e : Encounter ε} {trace : List (Encounter ε)} {id : PartyId}

-- What was done with the store in the looks at a request, one thing after the other.
def accessesOf (trace : List (Encounter ε)) (id : PartyId) : List Access :=
  (trace.filter (·.id = id)).flatMap (·.accesses)

-- How often the generation of a request was invoked.
def invocationsOf (trace : List (Encounter ε)) (id : PartyId) : Nat :=
  ((trace.filter (·.id = id)).map (·.invocations)).foldr (· + ·) 0

section Histories

theorem accessesOf_append (h : e.id = id) :
    accessesOf (trace ++ [e]) id = accessesOf trace id ++ e.accesses := by
  simp [accessesOf, h]

theorem accessesOf_append_of_ne (h : e.id ≠ id) :
    accessesOf (trace ++ [e]) id = accessesOf trace id := by
  simp [accessesOf, h]

theorem invocationsOf_append (h : e.id = id) :
    invocationsOf (trace ++ [e]) id = invocationsOf trace id + e.invocations := by
  have hf : (trace ++ [e]).filter (·.id = id) = trace.filter (·.id = id) ++ [e] := by simp [h]
  rw [invocationsOf, hf, List.map_append]
  exact List.sum_append_nat

theorem invocationsOf_append_of_ne (h : e.id ≠ id) :
    invocationsOf (trace ++ [e]) id = invocationsOf trace id := by
  simp [invocationsOf, h]

theorem filter_eq_nil (h : ∀ e ∈ trace, e.id ≠ id) : trace.filter (·.id = id) = [] := by
  simpa using h

end Histories

-- A generation is invoked once in a look, or not at all.
theorem Encounter.invocations_eq {counters : List Counter}
    (h : e.after = e.before.after counters) (hc : counters.count .generation ≤ 1) :
    e.invocations = counters.count .generation := by
  have hv : e.after.generations = e.before.generations + .ofNat (counters.count .generation) :=
    h ▸ Stats.value_after (c := .generation)
  have hs (a b : UInt64) : a + b - a = b := by
    rw [UInt64.add_comm, UInt64.add_sub_cancel]
  rw [invocations, hv, hs, UInt64.toNat_ofNat']
  exact Nat.mod_eq_of_lt (Nat.lt_of_le_of_lt hc (by decide))

namespace State

variable [ByteStore σ] {s t : State σ ε} {p : Party} {d : Directive} {stage : Stage}
variable {answer : Poll ε} {generation : Generation ε} {counters : List Counter}
variable {drops : List (PartyId × Sighting)} {actions : List (Action σ ε)}
variable {describe : ε → String}

-- A request that waits has done nothing. One that generates has read the store in vain and invoked
-- its generation. One that is done came by its outcome as it should. What is counted as invoked is
-- what is seen to run.
structure Discreet (trace : List (Encounter ε)) (s : State σ ε) : Prop
    extends s.Observed trace where
  waits     : ∀ {id v}, s.live.find? id = some v → v.directive.isSome → v.isOwner = false →
    accessesOf trace id = [] ∧ invocationsOf trace id = 0
  generates : ∀ {id v d}, s.live.find? id = some v → v.directive = some d → v.isOwner →
    Manager.Unserved v.key d (accessesOf trace id) ∧ invocationsOf trace id = 1
  ended     : ∀ {e outcome generated}, e ∈ trace → e.look.answer = .finished outcome generated →
    Manager.Ended e.look.key e.look.progress e.look.directive outcome generated
      (accessesOf trace e.id) (invocationsOf trace e.id)
  invoked   : ∀ id, invocationsOf trace id = if (invokedAt s.looks id).isSome then 1 else 0

namespace Discreet

section

omit [ByteStore σ]

theorem init {store : σ} {now : Instant} : (init store now : State σ ε).Discreet [] where
  toObserved  := .init
  waits h     := by cases h
  generates h := by cases h
  ended h     := by cases h
  invoked _   := rfl

-- Whoever comes has not been looked at.
theorem calm (h : s.Discreet trace) (hc : s.Calm drops t) (ht : t.Observed trace) :
    t.Discreet trace where
  toObserved := ht
  waits {id v} hv hd ho := by
    cases hc.requests hv hd
    case inl hv => exact h.waits hv hd ho
    case inr hn =>
      have hf : trace.filter (·.id = id) = [] := filter_eq_nil fun e he hid =>
        Nat.not_lt_of_le hn.left (hid ▸ h.ids (h.mem_looks he))
      simp [accessesOf, invocationsOf, hf]
  generates hv hd ho := by
    cases hc.requests hv (hd ▸ rfl)
    case inl hv => exact h.generates hv hd ho
    case inr hn =>
      obtain ⟨_, _, _, rfl⟩ := hn
      cases ho
  ended   := h.ended
  invoked := hc.looks ▸ h.invoked

end

theorem course (h : s.Discreet trace)
    (hm : s.Meeting e generation t p d stage answer counters) :
    Manager.Course p.key d (generation (s.coordinator.since e.id s.now)) answer
      (accessesOf (trace ++ [e]) e.id) (invocationsOf (trace ++ [e]) e.id) := by
  have hv := h.faithful.live_of_party hm.party
  have hd : p.sighting.directive = some d := hm.directive
  have hsome : p.sighting.directive.isSome := hd ▸ rfl
  have hst := hm.after
  have ha := hm.acts
  rw [accessesOf_append rfl, invocationsOf_append rfl]
  generalize e.accesses = accesses at ha ⊢
  cases ha
  case waits hw =>
    have ⟨hr, hn⟩ := h.waits hv hsome hw
    rw [hr, hn, e.invocations_eq hst (Nat.zero_le _)]
    exact .waits
  case turns hw ha =>
    have ⟨hr, hn⟩ := h.waits hv hsome hw
    rw [hr, hn, e.invocations_eq hst ha.course.invocations_le, List.nil_append, Nat.zero_add]
    exact ha.course
  case continues ho hc =>
    have ⟨hu, hn⟩ := h.generates hv hd ho
    have hz := hc.count_generation
    rw [hn, e.invocations_eq hst (Nat.le_trans (Nat.le_of_eq hz) (Nat.zero_le _)), hz]
    exact .generates hu hc

theorem look (h : s.Discreet trace) (hm : s.Meeting e generation t p d stage answer counters)
    (ht : t.Observed (trace ++ [e])) : t.Discreet (trace ++ [e]) := by
  have hc := h.course hm
  constructor
  case toObserved => exact ht
  case waits =>
    intro j v hv hd ho
    rw [hm.live] at hv
    split at hv
    case isTrue hj =>
      subst hj
      cases answer <;> cases hv
      cases ho
      exact hc.of_waiting
    case isFalse hne =>
      rw [accessesOf_append_of_ne hne, invocationsOf_append_of_ne hne]
      exact h.waits hv hd ho
  case generates =>
    intro j v d' hv hd ho
    rw [hm.live] at hv
    split at hv
    case isTrue hj =>
      subst hj
      cases answer <;> cases hv
      cases hd
      cases ho
      exact hc.of_generating
    case isFalse hne =>
      rw [accessesOf_append_of_ne hne, invocationsOf_append_of_ne hne]
      exact h.generates hv hd ho
  case ended =>
    intro e' outcome generated he' ho
    cases List.mem_append.mp he'
    case inl he' =>
      have hne : e.id ≠ e'.id := by
        -- A request that is done is not there to be looked at.
        intro heq
        obtain ⟨hp, hd⟩ := hm.live_of_party h.faithful
        obtain ⟨_, hg, _⟩ := h.pending_of_live (heq ▸ hp) hd he'
        cases hg.symm.trans ho
      rw [accessesOf_append_of_ne hne, invocationsOf_append_of_ne hne]
      exact h.ended he' ho
    case inr he' =>
      cases List.mem_singleton.mp he'
      rw [hm.look] at ho ⊢
      cases ho
      exact hc.ended
  case invoked =>
    intro j
    by_cases hj : e.id = j
    case pos =>
      rw [← hj, hc.invocations_eq, h.invokedAt_looks hm.toLooking]
      cases answer.ran <;> rfl
    case neg =>
      rw [invocationsOf_append_of_ne hj, hm.looks, invokedAt_append_of_ne hj]
      exact h.invoked j

theorem lasting : Lasting fun trace _ (s : State σ ε) => s.Discreet trace where
  calm := calm
  look := look

theorem run (h : s.Discreet trace) :
    (s.run describe actions).Discreet (trace ++ s.encounters describe actions) :=
  lasting.run [] h.toObserved h

end Discreet

end State

-- A request of a run is done in one of the looks at it.
structure Done [ByteStore σ] (describe : ε → String) (s : State σ ε) (actions : List (Action σ ε))
    (e : Encounter ε) (outcome : Except ε Served) (generated : Bool) : Prop where
  mem    : e ∈ s.encounters describe actions
  answer : e.look.answer = .finished outcome generated

theorem State.Discreet.of_run [ByteStore σ] (describe : ε → String) (store : σ) (start : Instant)
    (actions : List (Action σ ε)) :
    ((State.init store start).run describe actions).Discreet
      ((State.init store start).encounters describe actions) :=
  have hi : (State.init store start : State σ ε).Discreet [] := .init
  hi.run

-- What clients are sent for a request that is served, whichever responder they asked.
def IsShown (served : Served) : Prop :=
  ∀ (responder : Responder) (target : Http.Target),
    let response := (responder.render target (.ok served)).1
    response.status = 200 ∧ response.body = served.body ∧
      response.headers.all .xCache =
        if responder.cacheStatusHeader then [.ofText served.status.text] else []

theorem isShown (served : Served) : IsShown served := by
  intro responder target
  refine ⟨rfl, rfl, ?_⟩
  cases hc : responder.cacheStatusHeader <;>
    simp [Responder.render, Responder.success, Http.Headers.all, hc, Http.HeaderName.contentType,
      Http.HeaderName.xCache]

-- Whatever two stores do, and whatever else happens at their managers, a request gets its body from
-- the store or from its generation, and nobody but the log learns of any trouble with the store. A
-- generation is invoked once if the looks show it run, and else never.
theorem store_trouble_hidden {τ : Type} [ByteStore σ] [ByteStore τ]
    {describe describe' : ε → String} {store : σ} {store' : τ} {start start' : Instant}
    {actions : List (Action σ ε)} {actions' : List (Action τ ε)} {f : Encounter ε}
    {outcome outcome' : Except ε Served} {generated generated' : Bool}
    (h : Done describe (.init store start) actions e outcome generated)
    (h' : Done describe' (.init store' start') actions' f outcome' generated') :
    let trace := (State.init store start).encounters describe actions
    let trace' := (State.init store' start').encounters describe' actions'
    Manager.Ended e.look.key e.look.progress e.look.directive outcome generated
      (accessesOf trace e.id) (invocationsOf trace e.id) ∧
    (invocationsOf trace e.id =
      if (invokedAt ((State.init store start).run describe actions).looks e.id).isSome then 1
      else 0) ∧
    (e.look.directive = f.look.directive → e.look.progress = f.look.progress →
      (e.look.directive = .noCache ∨ (accessesOf trace e.id).any (·.isFind) = false ∧
        (accessesOf trace' f.id).any (·.isFind) = false) → outcome = outcome') ∧
    ∀ served, outcome = .ok served → IsShown served := by
  intro trace trace'
  have hs := State.Discreet.of_run describe store start actions
  have ht := State.Discreet.of_run describe' store' start' actions'
  have he := hs.ended h.mem h.answer
  have he' := ht.ended h'.mem h'.answer
  refine ⟨he, hs.invoked e.id, fun hd hp hf => ?_, fun served _ => isShown served⟩
  obtain ⟨result, hr, rfl⟩ := he.exists_result (hf.imp_right And.left)
  obtain ⟨result', hr', rfl⟩ := he'.exists_result ((hd ▸ hf).imp_right And.right)
  cases hr.symm.trans (hp.trans hr')
  rw [hd]

-- A store that can neither be read nor written.
def broken : UnreliableStore := { memory := default, readsFail := true, writesFail := true }

-- Two requests for a key, the second of which waits for the first.
def queued : List (Action UnreliableStore String) := [
  .start ⟨"k"⟩ .noCache fun _ => .pending,
  .start ⟨"k"⟩ .standard fun _ => .pending,
  .poll 0 fun _ => .finished (.ok ⟨#[1]⟩),
  .poll 1 fun _ => .pending,
  .poll 1 fun _ => .finished (.ok ⟨#[2]⟩)]

-- A request alone.
def alone : List (Action MemoryStore String) :=
  [.start ⟨"k"⟩ .standard fun _ => .finished (.ok ⟨#[2]⟩)]

theorem store_trouble_hidden_broken :
    let outcome : Except String Served := .ok ⟨⟨#[2]⟩, .miss⟩
    let trace := (State.init broken 0).encounters (·) queued
    ∃ e f, Done (·) (.init broken 0) queued e outcome true ∧
      Done (·) (.init default 0) alone f outcome true ∧
      Manager.Ended ⟨"k"⟩ (.finished (.ok ⟨#[2]⟩)) .standard outcome true
        (accessesOf trace e.id) (invocationsOf trace e.id) ∧
      (accessesOf trace e.id).any (·.isRefusal) := by
  intro outcome trace
  let trace' := (State.init (default : MemoryStore) 0).encounters (·) alone
  have he : Done (·) (.init broken 0) queued (trace.get ⟨4, by decide⟩) outcome true :=
    ⟨List.get_mem .., rfl⟩
  have hf : Done (·) (.init default 0) alone (trace'.get ⟨0, by decide⟩) outcome true :=
    ⟨List.get_mem .., rfl⟩
  exact ⟨_, _, he, hf, (store_trouble_hidden he hf).left, rfl⟩

end Execution

end OnceCache
