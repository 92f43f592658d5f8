import OnceCache.Proofs.Execution.Memory

namespace OnceCache.Execution

open Manager

namespace State

section Alone

variable {σ ε : Type} {s t : State σ ε} {key : Key} {d : Directive} {generation : Generation ε}
variable {stage : Stage} {answer : Poll ε} {p : Party} {lock : LockId}

theorem Faithful.parties_eq_empty (h : s.Faithful) (ha : s.live = ∅) :
    s.coordinator.parties = ∅ := by
  refine Table.eq_empty_iff.mpr fun id => ?_
  have := h.live id
  rw [ha, Table.find?_empty] at this
  exact Option.map_eq_none_iff.mp this.symm

theorem Faithful.lineOf_eq_nil (h : s.Faithful) (ha : s.live = ∅) :
    (s.coordinator.lineOf lock).parties = [] := by
  refine List.eq_nil_iff_forall_not_mem.mpr fun id hm => ?_
  have ⟨p, hp, _⟩ := (h.sound.mem_iff id lock).mp hm
  simp [h.parties_eq_empty ha] at hp

theorem find?_receive (s : State σ ε) (key : Key) (d : Directive) :
    (s.receive key d).coordinator.parties.find? s.coordinator.nextParty =
      some (s.coordinator.newcomer key (.queued d)) :=
  Coordinator.find?_enter_self

-- A request that comes when nobody else is there is first in line.
theorem Faithful.holder_receive (h : s.Faithful) (ha : s.live = ∅) :
    ((s.receive key d).coordinator.lineOf (s.coordinator.newcomer key (.queued d)).lock).holder =
      some s.coordinator.nextParty := by
  change ((s.coordinator.enter key (.queued d)).2.lineOf _).holder = _
  have hl : (s.coordinator.lineOf (s.coordinator.registry.acquire key).1).parties = [] :=
    h.lineOf_eq_nil ha
  rw [Coordinator.lineOf_enter, if_pos ⟨rfl, rfl⟩, Line.holder, Line.join, hl]
  rfl

variable [ByteStore σ] {describe : ε → String}

-- So it has its turn at once, and if it is done with it, then nobody is left.
theorem Faithful.start_alone (h : s.Faithful) (ha : s.live = ∅) (describe : ε → String)
    (key : Key) (d : Directive) (generation : Generation ε) :
    let t := s.step describe (.start key d generation)
    ∃ answer, (answer, t.store) = attend s.store s.now key d (generation s.now) ∧ t.now = s.now ∧
      t.looks = s.looks ++
        [(s.coordinator.nextParty, ⟨key, d, s.now, generation s.now, answer⟩)] ∧
      (answer.isFinished → t.live = ∅) := by
  intro t
  have hr : (s.receive key d).Faithful := h.receive
  have hp := find?_receive s key d
  obtain ⟨d', stage, answer, hl : (s.receive key d).Looking _ generation t ..⟩ := hr.looking hp rfl
  cases hl.directive
  have hn : (s.receive key d).coordinator.since s.coordinator.nextParty s.now = s.now :=
    Coordinator.since_of_not_isOwner hp rfl
  have hlooks := hl.looks
  have ho := hl.outcome hr
  rw [show (s.receive key d).now = s.now from rfl, hn] at hlooks ho
  refine ⟨answer, ?_, hl.now, hlooks, fun hf => ?_⟩
  · cases ho
    case waits hh _ _ => exact absurd (h.holder_receive ha) hh
    case turns ho => exact ho
    case continues hw _ _ => cases hw
  · refine Table.eq_empty_iff.mpr fun j => ?_
    rw [hl.live]
    split
    case isTrue => cases answer <;> first | rfl | cases hf
    case isFalse hj => rw [find?_live_receive, if_neg hj, ha, Table.find?_empty]

end Alone

end State

-- One request after the other: each that was served or failed comes at the instant at which it was
-- done, with what its generation had come to by then, and nobody else comes at all.
def serial {σ ε : Type} (looks : List (PartyId × Look ε)) : List (Action σ ε) :=
  (looks.map (·.2)).flatMap fun look =>
    if look.answer.isFinished then
      [.wait look.time, .start look.key look.directive fun _ => look.progress]
    else []

section Memory

variable {ε : Type} {s r t : State MemoryStore ε} {id : PartyId} {p : Party} {d : Directive}
variable {progress : Progress ε} {answer : Poll ε} {store : MemoryStore} {start : Instant}
variable {config : Config} {stage : Stage} {generation : Generation ε} {describe : ε → String}
variable {action : Action MemoryStore ε} {actions : List (Action MemoryStore ε)}
variable {looks : List (PartyId × Look ε)}

-- What a request was answered when it was done is what it would be answered if it had its turn
-- then.
theorem State.Effect.attend_eq (h : s.Effect id p d progress answer store)
    (hl : s.store.Lasting start) (hn : s.store.config.Outlasts start s.now)
    (hf : answer.isFinished) :
    ∃ n, attend s.store s.now p.key d progress = (answer, store.withMisses n) := by
  cases h
  case waits ha _ =>
    rw [ha] at hf
    cases hf
  case hits b _ hd hb ha hs =>
    rw [hd, attend_of_some hb (hl hb hn), ha, hs]
    exact ⟨_, rfl⟩
  case generates n _ hb ha hs =>
    cases d
    case noCache =>
      refine ⟨(conclude s.store s.now p.key .bypass progress).2.stats.misses, Prod.ext ha.symm ?_⟩
      rw [hs]
      rfl
    case standard =>
      rw [attend_of_none (hb rfl), ha, hs]
      exact ⟨_, conclude_withMisses⟩

-- The requests that were done in one run, and the same requests one after the other in another run.
-- Reads that found nothing are not compared: who never came has not read.
structure Mirrors (config : Config) (start : Instant) (s t : State MemoryStore ε) : Prop where
  settled  : s.Settled config start
  faithful : t.Faithful
  alone    : t.live = ∅
  now      : t.now ≤ s.now
  store    : ∃ n, t.store = s.store.withMisses n
  looks    : t.looks.map (·.2) = (s.looks.map (·.2)).filter (·.answer.isFinished)

namespace Mirrors

theorem blank : Mirrors config start (.blank config start) (.blank config start : State _ ε) where
  settled  := .blank
  faithful := .init
  alone    := rfl
  now      := Nat.le_refl _
  store    := ⟨0, rfl⟩
  looks    := rfl

theorem quiet {request? : Option (Key × Directive)} (h : Mirrors config start s t)
    (hr : r.Faithful) (hq : s.Quiet request? r) : Mirrors config start r t where
  settled  := h.settled.quiet hr hq
  faithful := h.faithful
  alone    := h.alone
  now      := Nat.le_trans h.now hq.now
  store    := hq.store ▸ h.store
  looks    := hq.looks ▸ h.looks

-- A look at a request that is not done with it is not mirrored at all.
theorem unfinished (h : Mirrors config start s t) (hn : config.Outlasts start s.now)
    (hl : s.Looking id generation r p d stage answer) (hf : answer.isFinished = false) :
    Mirrors config start r t where
  settled  := h.settled.look hn hl
  faithful := h.faithful
  alone    := h.alone
  now      := hl.now ▸ h.now
  store    := by
    obtain ⟨n, hs⟩ := h.store
    cases h.settled.effect hn hl
    case waits hs' => exact ⟨n, by rw [hs, hs']⟩
    case hits ha _ => simp [ha, Poll.isFinished] at hf
    case generates m _ _ ha hs' =>
      obtain ⟨_, hs'⟩ | ⟨_, _, hb, _⟩ := State.Effect.generates_cases hs'
      case inl =>
        rw [hs, hs']
        exact ⟨n, rfl⟩
      case inr =>
        rw [ha, conclude_of_body?_eq_some hb] at hf
        cases hf
  looks    := by
    rw [hl.looks, List.map_append, List.filter_append, ← h.looks]
    simp [hf]

-- A look at a request that is done with it is mirrored by that request alone.
theorem finished (h : Mirrors config start s t) (hn : config.Outlasts start s.now)
    (hl : s.Looking id generation r p d stage answer) (hf : answer.isFinished) :
    Mirrors config start r (t.run describe [.wait s.now, .start p.key d fun _ =>
      generation (s.coordinator.since id s.now)]) := by
  obtain ⟨n, hs⟩ := h.store
  have hc : s.store.config.Outlasts start s.now := h.settled.config ▸ hn
  let t₁ := t.step describe (.wait s.now)
  have h₁ : t₁.Faithful := h.faithful.step
  have hn₁ : t₁.now = s.now := Nat.max_eq_right h.now
  have hs₁ : t₁.store = s.store.withMisses n := hs
  obtain ⟨answer', ho, hnow, hlooks, hgone⟩ := h₁.start_alone h.alone describe p.key d fun _ =>
    generation (s.coordinator.since id s.now)
  obtain ⟨m, hm⟩ := (h.settled.effect hn hl).attend_eq h.settled.lasting hc hf
  obtain ⟨k, hk⟩ := attend_withMisses (n := n) h.settled.lasting hc
  rw [hn₁, hs₁, hk, hm] at ho
  obtain ⟨rfl, hstore⟩ := Prod.mk.inj ho
  constructor
  case settled => exact h.settled.look hn hl
  case faithful => exact h.faithful.run
  case alone => exact hgone hf
  case now => exact Nat.le_of_eq (hnow.trans (hn₁.trans hl.now.symm))
  case store => exact ⟨k, hstore⟩
  case looks =>
    have hl₁ : t₁.looks = t.looks := rfl
    have ht := congrArg (List.map (·.2)) hlooks
    rw [List.map_append, hl₁, h.looks, hn₁] at ht
    refine ht.trans ?_
    rw [hl.looks, List.map_append, List.filter_append]
    simp [hf]

theorem look (h : Mirrors config start s ((State.blank config start).run describe
    (serial s.looks))) (hn : config.Outlasts start s.now)
    (hl : s.Looking id generation r p d stage answer) :
    Mirrors config start r ((State.blank config start).run describe (serial r.looks)) := by
  rw [hl.looks, serial, List.map_append, List.flatMap_append, ← serial, State.run_append]
  simp only [List.map_singleton, List.flatMap_singleton]
  split
  case isTrue hf => exact h.finished hn hl hf
  case isFalse hf => exact h.unfinished hn hl (by simpa using hf)

-- However far a run has come, the requests that were done in it are mirrored one after the other.
theorem step (h : Mirrors config start s ((State.blank config start).run describe
    (serial s.looks))) (hn : ∀ now, config.Outlasts start now)
    (ha : ∀ change, action ≠ .tend change) :
    Mirrors config start (s.step describe action)
      ((State.blank config start).run describe (serial (s.step describe action).looks)) := by
  have ht : (s.step describe action).Faithful := h.settled.faithful.step
  have hs : s.Stepped action (s.step describe action) := h.settled.faithful.stepped
  generalize s.step describe action = t at ht hs
  cases hs
  case quiet hq => exact hq.looks ▸ h.quiet ht hq
  case tended change => exact absurd rfl (ha change)
  case looked r id generation p d stage answer hk hr hq hl =>
    have := hq.looks ▸ h.quiet hr hq
    exact this.look (hn r.now) hl

theorem run (h : Mirrors config start s ((State.blank config start).run describe
    (serial s.looks))) (hn : ∀ now, config.Outlasts start now)
    (ha : ∀ change, .tend change ∉ actions) :
    Mirrors config start (s.run describe actions)
      ((State.blank config start).run describe (serial (s.run describe actions).looks)) := by
  induction actions generalizing s
  case nil => exact h
  case cons action actions hi =>
    have hs := h.step hn fun change (he : action = _) => ha change (he ▸ .head _)
    exact hi hs fun change hm => ha change (.tail _ hm)

end Mirrors

-- Serializability: at a store in memory whose bodies do not expire, and which nobody else touches,
-- every request that was served or failed got what it would have got alone, at the instant at which
-- it was done and in the order in which they were done. The store ends up as it would then.
theorem serializable (describe : ε → String) (config : Config) (start : Instant)
    (actions : List (Action MemoryStore ε)) (hz : config.defaultTtl.isZero)
    (ha : ∀ change, .tend change ∉ actions) :
    let s := (State.blank config start).run describe actions
    let t := (State.blank config start).run describe (serial s.looks)
    t.looks.map (·.2) = (s.looks.map (·.2)).filter (·.answer.isFinished) ∧ t.live = ∅ ∧
      t.store.bodies = s.store.bodies ∧ t.store.entryCount = s.store.entryCount ∧
      t.store.memoryUsage = s.store.memoryUsage ∧
      t.store.stats.evictions = s.store.stats.evictions := by
  intro s t
  have h : Mirrors config start s t := Mirrors.blank.run (fun _ => .inl hz) ha
  obtain ⟨n, hs⟩ := h.store
  refine ⟨h.looks, h.alone, ?_⟩
  rw [hs]
  exact ⟨rfl, rfl, rfl, rfl⟩

-- Four requests at a store that keeps one body. The second overtakes the first, whose body then
-- takes the place of the body of the second. The third waits for the first, and the fourth is
-- dropped while it generates.
def overtaking : List (Action MemoryStore String) := [
  .start ⟨"a"⟩ .standard fun _ => .pending,
  .start ⟨"b"⟩ .noCache fun _ => .pending,
  .start ⟨"a"⟩ .standard fun _ => .pending,
  .start ⟨"c"⟩ .standard fun _ => .pending,
  .wait 1000,
  .poll 1 fun _ => .finished (.ok ⟨#[1, 2]⟩),
  .wait 2000,
  .poll 0 fun _ => .finished (.ok ⟨#[3]⟩),
  .cancel 3,
  .poll 2 fun _ => .pending]

theorem serializable_overtaking :
    let config : Config := { Config.standard with maxEntries := 1, defaultTtl := .zero }
    let s := (State.blank config 0).run (·) overtaking
    let t := (State.blank config 0).run (·) (serial s.looks)
    (s.looks.length = 7 ∧ t.looks.length = 3 ∧ s.store.stats.evictions = 1) ∧
      t.looks.map (·.2) = (s.looks.map (·.2)).filter (·.answer.isFinished) ∧
      t.store.bodies = s.store.bodies := by
  intro config s t
  have h := serializable (·) config 0 overtaking rfl (by simp [overtaking])
  exact ⟨by decide +kernel, h.left, h.right.right.left⟩

end Memory

end OnceCache.Execution
