import OnceCache.Proofs.Execution.FirstCome
import OnceCache.Proofs.Execution.History
import OnceCache.Responder.Basic

namespace OnceCache

-- When the generation of a request began, as far as its stage tells.
def Stage.since? : Stage → Option Instant
  | .generating _ since => some since
  | .handle | .waiting _ | .holding _ | .queued _ => none

-- A limit is reached when its time is over, as long as timers can count.
theorem Instant.le_of_limitReached {since now : Instant} {limit : Duration}
    (h : since.limitReached limit now) (hn : now / 1000000 < lastMilli) :
    since + limit.total ≤ now := by
  unfold limitReached after? at h
  split at h
  case isTrue =>
    rw [Option.any_some, isPast, decide_eq_true_eq] at h
    have hd := h.resolve_right (Nat.not_le_of_lt hn)
    simp only [Instant] at hd ⊢
    omega
  case isFalse => cases h

namespace Responder

variable {r : Responder} {limit : Duration} {g : Generation Failure} {now since : Instant}

-- Time is up for a generation only while it is pending.
theorem bound_of_pending (hr : r.generateTimeout = some limit) (hg : g since = .pending) :
    r.bound now g since =
      if since.limitReached limit now then .finished (.error (.timeout limit)) else .pending := by
  simp only [bound, Generation.within, hr, hg]

theorem bound_of_finished {outcome : Except Failure Body} (hg : g since = .finished outcome) :
    r.bound now g since = .finished outcome := by
  simp only [bound, Generation.within, hg]

theorem bound_of_broken (hg : g since = .broken) : r.bound now g since = .broken := by
  simp only [bound, Generation.within, hg]

end Responder

theorem Manager.conclude_of_finished {σ ε : Type} [ByteStore σ] {store : σ} {now : Instant}
    {key : Key} {status : Status} {outcome : Except ε Body} :
    (conclude store now key status (.finished outcome)).1 =
      .finished (outcome.map (⟨·, status⟩)) true := by
  cases outcome <;> rfl

namespace Execution

-- When the generation of a request was invoked, as far as the looks tell: in the first of them in
-- which it ran.
def invokedAt {ε : Type} (looks : List (PartyId × Look ε)) (id : PartyId) : Option Instant :=
  (looks.find? fun p => p.1 = id && p.2.answer.ran).map (·.2.time)

variable {σ : Type} [ByteStore σ]

namespace State

-- A request was given up because its time was over. Nothing was written, its failure is counted, it
-- refers to its key no more, and whoever stood behind it has the lock.
structure TimedOut {ε : Type} (s : State σ ε) (id : PartyId) (key : Key) (t : State σ ε) :
    Prop where
  store    : t.store = s.store ∨ t.store = (ByteStore.read s.store s.now key).state
  failures : t.manager.stats.generationFailures = s.manager.stats.generationFailures + 1
  live     : t.live = s.live.erase id
  count    : t.onlooker.count key + 1 = s.onlooker.count key
  refCount : t.coordinator.registry.refCount key =
    if t.onlooker.count key = 0 then none else some (t.onlooker.count key)
  line     : ∀ {lock}, s.coordinator.registry.locks.find? key = some lock →
    (s.coordinator.lineOf lock).parties = id :: (t.coordinator.lineOf lock).parties
  next     : ∀ {lock j rest}, s.coordinator.registry.locks.find? key = some lock →
    (s.coordinator.lineOf lock).parties = id :: j :: rest → t.IsNext j key

-- What a look at a request comes to whose generation `g` has a limit of time. The time runs from
-- when the generation was invoked. It counts only while the generation is pending, and it is never
-- over too early as long as timers can count.
inductive Bounded (limit : Duration) (g : Generation Failure) (s : State σ Failure) (id : PartyId)
    (look : Look Failure) (t : State σ Failure) : Prop
  | queues :
    ¬s.IsNext id look.key → invokedAt t.looks id = none → look.answer = .pending false →
    Bounded limit g s id look t
  | hits {body : Body} :
    s.IsNext id look.key → invokedAt t.looks id = none →
    look.answer = .finished (.ok ⟨body, .hit⟩) false → Bounded limit g s id look t
  | runs {since : Instant} :
    s.IsNext id look.key → invokedAt t.looks id = some since → g since = .pending →
    since.limitReached limit s.now = false → look.answer = .pending true →
    Bounded limit g s id look t
  | timesOut {since : Instant} :
    s.IsNext id look.key → invokedAt t.looks id = some since → g since = .pending →
    since.limitReached limit s.now →
    (s.now / 1000000 < Instant.lastMilli → since + limit.total ≤ s.now) →
    look.answer = .finished (.error (.timeout limit)) true → s.TimedOut id look.key t →
    Bounded limit g s id look t
  | ends {since : Instant} {outcome : Except Failure Body} :
    s.IsNext id look.key → invokedAt t.looks id = some since → g since = .finished outcome →
    look.answer = .finished (outcome.map (⟨·, look.directive.freshStatus⟩)) true →
    Bounded limit g s id look t
  | breaks {since : Instant} :
    s.IsNext id look.key → invokedAt t.looks id = some since → g since = .broken →
    look.answer = .broken → Bounded limit g s id look t

-- Whichever request is looked at next, and whichever comes next, is held to the limit of its
-- responder.
structure KeepsLimit (describe : Failure → String) (responder : Responder) (limit : Duration)
    (s : State σ Failure) : Prop where
  polled  : ∀ {id v}, s.live.find? id = some v → v.directive.isSome → ∀ g,
    let t := s.step describe (.poll id (responder.bound s.now g))
    ∃ look, t.looks = s.looks ++ [(id, look)] ∧ look.key = v.key ∧ Bounded limit g s id look t
  started : ∀ key d g,
    let t := s.step describe (.start key d (responder.bound s.now g))
    ∃ look, t.looks = s.looks ++ [(s.coordinator.nextParty, look)] ∧ look.key = key ∧
      Bounded limit g (s.receive key d) s.coordinator.nextParty look t

end State

section Invoked

variable {ε : Type} {looks : List (PartyId × Look ε)} {id j : PartyId} {look : Look ε}

theorem invokedAt_append : invokedAt (looks ++ [(j, look)]) id =
    (invokedAt looks id).or (if j = id ∧ look.answer.ran then some look.time else none) := by
  simp only [invokedAt, List.find?_append, Option.map_or]
  congr 1
  split <;> simp_all

theorem invokedAt_append_of_ne (h : j ≠ id) :
    invokedAt (looks ++ [(j, look)]) id = invokedAt looks id := by
  rw [invokedAt_append, if_neg fun he => h he.left, Option.or_none]

theorem invokedAt_eq_none (h : ∀ look, (id, look) ∉ looks) : invokedAt looks id = none := by
  rw [invokedAt, Option.map_eq_none_iff, List.find?_eq_none]
  intro (j, look) hm
  have : j ≠ id := by
    rintro rfl
    exact h look hm
  simp [this]

end Invoked

namespace State

variable {ε : Type} {s t : State σ ε} {id j : PartyId} {p : Party} {d : Directive} {stage : Stage}
variable {answer : Poll ε} {generation : Generation ε} {action : Action σ ε}
variable {actions : List (Action σ ε)} {describe : ε → String}

-- A request that stays knows when its generation was invoked.
theorem Looking.since?_eq (hl : s.Looking id generation t p d stage answer)
    (ha : answer.isPending) :
    stage.since? = if answer.ran then some (s.coordinator.since id s.now) else none := by
  have hp := hl.party
  generalize ho : (answer, t.store) = o
  cases ho ▸ hl.looked
  case waits d' hs _ =>
    obtain ⟨rfl, _⟩ := Prod.mk.inj ho
    rw [hs]
    rfl
  case turns d' hs _ =>
    have ha' := (congrArg (·.1) ho).symm
    cases answer
    case pending generating =>
      cases Manager.attend_pending ha'
      rw [Coordinator.since_of_not_isOwner hp (by rw [hs]; rfl)]
      rfl
    all_goals cases ha
  case continues status since hs =>
    have : answer.ran := (congrArg (·.1.ran) ho).trans Manager.conclude_ran
    rw [if_pos this, Coordinator.since_of_generating hp hs, hs]
    rfl

-- Each request that is there knows when its generation was invoked.
structure Clocked (s : State σ ε) : Prop extends s.Recorded where
  faithful : s.Faithful
  since    : ∀ {id p}, s.coordinator.parties.find? id = some p → p.stage.isRequest →
    invokedAt s.looks id = p.stage.since?

namespace Clocked

omit [ByteStore σ] in
theorem init {store : σ} {now : Instant} : (init store now : State σ ε).Clocked where
  toRecorded := .init
  faithful   := .init
  since h    := by cases h

omit [ByteStore σ] in
theorem quiet {request? : Option (Key × Directive)} (h : s.Clocked) (ht : t.Faithful)
    (hq : s.Quiet request? t) : t.Clocked where
  toRecorded := h.toRecorded.quiet hq
  faithful   := ht
  since hp hs := by
    rw [hq.looks]
    cases hq.parties hp hs
    case inl hp => exact h.since hp hs
    case inr hp =>
      obtain ⟨hn, d, hd⟩ := hp
      rw [hd]
      exact invokedAt_eq_none fun _ hm => Nat.not_lt_of_le hn (h.ids hm)

-- A generation that ran in a look was invoked when the request says.
theorem invokedAt_looks (h : s.Clocked) (hl : s.Looking id generation t p d stage answer) :
    invokedAt t.looks id = if answer.ran then some (s.coordinator.since id s.now) else none := by
  have hi := h.since hl.party (Stage.isRequest_of_directive? (by rw [hl.directive]; rfl))
  rw [hl.looks, invokedAt_append, hi]
  have hp := hl.party
  cases hs : p.stage
  case queued => simp [Stage.since?, Coordinator.since_of_not_isOwner hp (by rw [hs]; rfl)]
  case generating status since =>
    have ho : p.stage.isOwner := by rw [hs]; rfl
    have : answer.ran := by
      cases hl.outcome h.faithful
      case waits hw _ _ _ => cases hw.symm.trans ho
      case turns hw _ _ => cases hw.symm.trans ho
      case continues hc => exact (congrArg (·.1.ran) hc).trans Manager.conclude_ran
    simp [Stage.since?, this, Coordinator.since_of_generating hp hs]
  all_goals
    have hd := hl.directive
    rw [hs] at hd
    cases hd

theorem look (h : s.Clocked) (hl : s.Looking id generation t p d stage answer) : t.Clocked where
  toRecorded := h.toRecorded.look h.faithful hl
  faithful   := h.faithful.of_looking hl
  since {j q} hj hq := by
    rw [hl.coordinator, Coordinator.find?_afterLook hl.party] at hj
    split at hj
    case isTrue he =>
      split at hj <;> cases hj
      case isTrue.refl ha => exact he ▸ (h.invokedAt_looks hl).trans (hl.since?_eq ha).symm
    case isFalse hne =>
      rw [hl.looks, invokedAt_append_of_ne hne]
      exact h.since hj hq

theorem step (h : s.Clocked) : (s.step describe action).Clocked := by
  have ht : (s.step describe action).Faithful := h.faithful.step
  have hs : s.Stepped action (s.step describe action) := h.faithful.stepped
  generalize s.step describe action = t at ht hs
  cases hs
  case quiet hq => exact h.quiet ht hq
  case tended =>
    exact { h with ids := h.ids, pending := h.pending, faithful := ht, since := h.since }
  case looked hr hq hl => exact (h.quiet hr hq).look hl

theorem run (h : s.Clocked) : (s.run describe actions).Clocked := by
  induction actions generalizing s
  case nil => exact h
  case cons action actions hi => exact hi h.step

end Clocked

section Departure

omit [ByteStore σ] in
theorem Faithful.isNext_iff (h : s.Faithful) (hp : s.coordinator.parties.find? id = some p) :
    s.IsNext id p.key ↔ (s.coordinator.lineOf p.lock).holder = some id := by
  constructor
  case mp =>
    intro ⟨lock, hlock, hf⟩
    cases hlock.symm.trans (h.sound.lock hp)
    exact hf
  case mpr => exact fun hf => ⟨p.lock, h.sound.lock hp, hf⟩

-- A failure that is answered is counted.
theorem Looking.failures (hl : s.Looking id generation (s.look describe id generation) p d stage
    answer) (h : s.Faithful) :
    (s.look describe id generation).manager.stats.generationFailures =
      s.manager.stats.generationFailures + answer.failures := by
  have hlive : s.onlooker.live.find? id = some ⟨p.key, .request d, p.stage.isOwner⟩ := by
    have := h.live_of_party hl.party
    rwa [Party.sighting, Stage.role_of_directive? hl.directive] at this
  have hlooks := hl.looks
  cases hr : s.manager.poll s.now id describe generation <;> rw [State.look, hr] at hlooks ⊢
  case none => simp at hlooks
  case some r =>
    have ha : r.answer = answer := by
      cases List.append_cancel_left ((Onlooker.looks_looked hlive).symm.trans hlooks)
      rfl
    have hc : s.manager.CountsFailures r := Manager.poll_countsFailures hr
    exact ha ▸ hc

-- Whoever stood behind a request that was first in line and is done has the lock then.
theorem Looking.handsOver (hl : s.Looking id generation t p d stage answer) (h : s.Faithful)
    (hf : (s.coordinator.lineOf p.lock).holder = some id) (ha : answer.isFinished)
    {lock : LockId} (hlock : s.coordinator.registry.locks.find? p.key = some lock) :
    (s.coordinator.lineOf lock).parties = id :: (t.coordinator.lineOf lock).parties := by
  cases hlock.symm.trans (h.sound.lock hl.party)
  have hp : answer.isPending = false := by cases answer <;> first | rfl | cases ha
  rw [hl.coordinator, Coordinator.afterLook, if_neg (by simp [hp]),
    Coordinator.lineOf_depart hl.party, if_pos rfl]
  exact Line.parties_of_holder hf (h.sound.nodup p.lock)

end Departure

section Limit

variable {s t : State σ Failure} {generation : Generation Failure} {answer : Poll Failure}
variable {responder : Responder} {limit : Duration} {g : Generation Failure} {e : Failure}
variable {describe : Failure → String} {since : Instant} {store : σ} {v : Sighting}

theorem Looking.timedOut (hl : s.Looking id generation t p d stage answer) (h : s.Faithful)
    (hf : (s.coordinator.lineOf p.lock).holder = some id) (ha : answer = .finished (.error e) true)
    (hs : t.store = s.store ∨ t.store = (ByteStore.read s.store s.now p.key).state)
    (hc : t.manager.stats.generationFailures =
      s.manager.stats.generationFailures + answer.failures) : s.TimedOut id p.key t := by
  subst ha
  have ht : t.Faithful := h.of_looking hl
  have hline {lock} (hlock : s.coordinator.registry.locks.find? p.key = some lock) :=
    hl.handsOver h hf rfl hlock
  constructor
  case store => exact hs
  case failures => exact hc
  case live => exact hl.live_eq_erase rfl
  case count =>
    have hd := h.count_depart hl.party p.key
    have hr : p.sighting.isCall = false := by
      rw [Sighting.isCall, Party.sighting, Stage.role_of_directive? hl.directive]
      rfl
    rw [if_pos ⟨rfl, hr⟩] at hd
    rwa [ht.count_eq, hl.coordinator]
  case refCount => exact ht.refCount_eq
  case line => exact hline
  case next =>
    intro lock j rest hlock hwaits
    have hrest : (t.coordinator.lineOf lock).parties = j :: rest :=
      (List.cons.inj ((hline hlock).symm.trans hwaits)).right
    have hj : j ∈ (t.coordinator.lineOf lock).parties := hrest ▸ .head _
    obtain ⟨q, hq, rfl, _⟩ := (ht.sound.mem_iff _ _).mp hj
    have hkey : p.key = q.key := by
      have hq' := hq
      rw [hl.coordinator, Coordinator.find?_afterLook hl.party] at hq'
      split at hq'
      case isTrue => cases hq'
      case isFalse => exact h.sound.counts.distinct hlock (h.sound.lock hq')
    rw [hkey, ht.isNext_iff hq, Line.holder, hrest]
    rfl

-- A look at a generation that was invoked, at a store that may have been read before.
theorem Looking.bounded (hl : s.Looking id generation t p d stage answer) (h : s.Faithful)
    (hr : responder.generateTimeout = some limit) {look : Look Failure}
    (hlook : look.key = p.key ∧ look.directive = d ∧ look.answer = answer)
    (hf : (s.coordinator.lineOf p.lock).holder = some id)
    (hi : invokedAt t.looks id = if answer.ran then some since else none)
    (hs : store = s.store ∨ store = (ByteStore.read s.store s.now p.key).state)
    (hc : t.manager.stats.generationFailures =
      s.manager.stats.generationFailures + answer.failures)
    (ho : (answer, t.store) = Manager.conclude store s.now p.key d.freshStatus
      (responder.bound s.now g since)) : Bounded limit g s id look t := by
  obtain ⟨hk, rfl, ha⟩ := hlook
  have hn : s.IsNext id look.key := hk ▸ (h.isNext_iff hl.party).mpr hf
  have hran : answer.ran := (congrArg (·.1.ran) ho).trans Manager.conclude_ran
  rw [if_pos hran] at hi
  cases hg : g since
  case pending =>
    rw [Responder.bound_of_pending hr hg] at ho
    split at ho
    case isTrue hu =>
      obtain ⟨rfl, hst⟩ := Prod.mk.inj ho
      refine .timesOut hn hi hg hu (Instant.le_of_limitReached hu) ha ?_
      exact hk ▸ hl.timedOut h hf rfl (hst ▸ hs) hc
    case isFalse hu =>
      exact .runs hn hi hg (by simpa using hu) (ha.trans (congrArg (·.1) ho))
  case finished outcome =>
    rw [Responder.bound_of_finished hg] at ho
    refine .ends hn hi hg (ha.trans ?_)
    exact (congrArg (·.1) ho).trans Manager.conclude_of_finished
  case broken =>
    rw [Responder.bound_of_broken hg] at ho
    exact .breaks hn hi hg (ha.trans (congrArg (·.1) ho))

theorem Clocked.bounded (h : s.Clocked) (hr : responder.generateTimeout = some limit)
    (hv : s.live.find? id = some v) (hd : v.directive.isSome) :
    let t := s.look describe id (responder.bound s.now g)
    ∃ look, t.looks = s.looks ++ [(id, look)] ∧ look.key = v.key ∧ Bounded limit g s id look t := by
  obtain ⟨p, hp, rfl⟩ := h.faithful.party_of_live hv
  obtain ⟨d, stage, answer, hl : s.Looking id (responder.bound s.now g)
    (s.look describe id (responder.bound s.now g)) p d stage answer⟩ :=
    h.faithful.looking hp (Stage.isRequest_of_directive? hd)
  have hc := hl.failures h.faithful
  have hi := h.invokedAt_looks hl
  refine ⟨_, hl.looks, rfl, ?_⟩
  have ho := hl.outcome h.faithful
  generalize s.look describe id (responder.bound s.now g) = t at hl hc hi ho
  cases ho
  case waits hf ha _ =>
    subst ha
    exact .queues (mt (h.faithful.isNext_iff hp).mp hf) hi rfl
  case continues hf ho =>
    exact hl.bounded h.faithful hr ⟨rfl, rfl, rfl⟩ hf hi (.inl rfl) hc ho
  case turns hw hf ho =>
    rw [Coordinator.since_of_not_isOwner hp hw] at hi ho
    cases d
    case noCache => exact hl.bounded h.faithful hr ⟨rfl, rfl, rfl⟩ hf hi (.inl rfl) hc ho
    case standard =>
      cases hb : (ByteStore.read s.store s.now p.key).answer
      case ok body =>
        rw [Manager.attend_of_ok rfl hb] at ho
        obtain ⟨rfl, _⟩ := Prod.mk.inj ho
        exact .hits ((h.faithful.isNext_iff hp).mpr hf) hi rfl
      case error e =>
        rw [Manager.attend_of_error rfl hb] at ho
        exact hl.bounded h.faithful hr ⟨rfl, rfl, rfl⟩ hf hi (.inr rfl) hc ho

end Limit

end State

-- Whatever happens in which order, the limit of a responder bounds the generations of its requests,
-- and nothing else.
theorem limit_bounds_generation (describe : Failure → String) (store : σ) (start : Instant)
    (actions : List (Action σ Failure)) (responder : Responder) (limit : Duration)
    (hr : responder.generateTimeout = some limit) :
    ((State.init store start).run describe actions).KeepsLimit describe responder limit := by
  have hi : (State.init store start : State σ Failure).Clocked := .init
  have h : (State.run describe _ actions).Clocked := hi.run
  generalize State.run describe _ actions = s at h
  constructor
  case polled => exact fun hv hd g => h.bounded hr hv hd
  case started =>
    intro key d g
    have hs : (s.receive key d).Clocked := h.quiet h.faithful.receive .receive
    have hv : (s.receive key d).live.find? s.coordinator.nextParty =
        some ⟨key, .request d, false⟩ := by
      rw [State.find?_live_receive, if_pos rfl]
    exact hs.bounded hr hv rfl

-- Generations can take 20 milliseconds.
def hurried : Responder := Responder.withGenerateTimeout {} ⟨20000000, by decide⟩

-- Two requests for a key. The time of the first one is over, and then that of the second one begins
-- to run. When it is over, too, there is a body.
def outrun : List (Action MemoryStore Failure) := [
  .start ⟨"k"⟩ .standard (hurried.bound 0 fun _ => .pending),
  .start ⟨"k"⟩ .standard (hurried.bound 0 fun _ => .pending),
  .wait 20000000,
  .poll 1 (hurried.bound 20000000 fun _ => .pending),
  .poll 0 (hurried.bound 20000000 fun _ => .pending),
  .poll 1 (hurried.bound 20000000 fun _ => .pending),
  .wait 45000000,
  .poll 1 (hurried.bound 45000000 fun _ => .finished (.ok ⟨#[1]⟩))]

theorem limit_bounds_generation_outrun :
    let limit : Duration := ⟨20000000, by decide⟩
    let s := (State.init default 0).run Failure.text outrun
    hurried.generateTimeout = some limit ∧ s.KeepsLimit Failure.text hurried limit ∧
      s.looks.map (fun p => (p.1, p.2.answer.ran, p.2.answer.isPending, p.2.answer.failures)) =
        [(0, true, true, 0), (1, false, true, 0), (1, false, true, 0), (0, true, false, 1),
          (1, true, true, 0), (1, true, false, 0)] ∧
      invokedAt s.looks 0 = some 0 ∧ invokedAt s.looks 1 = some 20000000 := by
  intro limit s
  exact ⟨rfl, limit_bounds_generation Failure.text default 0 outrun hurried limit rfl,
    by decide, by decide, by decide⟩

end Execution

end OnceCache
