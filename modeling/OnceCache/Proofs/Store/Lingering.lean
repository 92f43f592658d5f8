import OnceCache.Proofs.Store.CleanUp

namespace OnceCache

namespace Instant

variable {due now : Instant}

theorem le_of_isPast (h : due.isPast now) (hn : now / 1000000 < lastMilli) : due ≤ now := by
  have hd := (of_decide_eq_true h).resolve_right (Nat.not_le_of_lt hn)
  simp only [Instant] at hd ⊢
  omega

theorem not_isPast_of_lt (h : now < due) (hn : now / 1000000 < lastMilli) :
    due.isPast now = false :=
  Bool.eq_false_iff.mpr fun hp => Nat.not_le_of_lt h (le_of_isPast hp hn)

-- A timer that has not gone off is due later, apart from the millisecond that it waits for.
theorem lt_of_not_isPast (h : due.isPast now = false) : now < due + 1000000 := by
  simp only [isPast, Instant, decide_eq_false_iff_not, not_or] at h ⊢
  omega

theorem lt_lastMilli_of_not_isPast (h : due.isPast now = false) : now / 1000000 < lastMilli := by
  simp only [isPast, decide_eq_false_iff_not, not_or] at h
  exact Nat.lt_of_not_le h.right

theorem le_of_after? {length : Duration} {later : Instant} (h : now.after? length = some later) :
    now ≤ later := by
  unfold after? at h
  split at h
  case isTrue =>
    cases h
    exact Nat.le_add_right ..
  case isFalse => cases h

end Instant

namespace MemoryStore

-- A store, the time on its clock, its clean-up task and the timers that it waits by.
structure Tended extends Timed where
  task : CleanupTask
  timers : Timers

-- Something is done with the store, or its task is polled.
inductive Turn
  | operation (o : Operation)
  | poll

namespace Tended

def step (s : Tended) : Turn → Tended
  | .operation o => { s with toTimed := s.toTimed.step o }
  | .poll =>
    let r := s.task.run s.timers s.now s.store
    { s with store := r.state, task := r.answer }

-- One turn after the other.
def run (s : Tended) (turns : List Turn) : Tended := turns.foldl step s

-- Whether it is time for the task.
def isDue (s : Tended) : Bool := s.task.due.isPast s.now

end Tended

-- No body stays for long when its time is over. A poll is enough for the task not to be due, and
-- then no body is there whose time has been over for an interval and a millisecond. The time before
-- the task was started does not count.
structure NothingLingers (interval : Duration) (since : Instant) (s : Tended) : Prop where
  polled : s.now / 1000000 < Instant.lastMilli → (s.step .poll).isDue = false
  gone   : s.isDue = false → ∀ key b expiry, s.store.bodies.find? key = some b →
    b.expiresAt = some expiry → expiry ≤ s.now →
    s.now - max expiry since < interval.total + 1000000

-- The task comes within an interval from now, and within an interval from the time when a body is
-- over.
structure Keen (interval : Duration) (since : Instant) (s : Tended) : Prop where
  begun  : s.task.hasBegun
  paced  : s.task.interval = interval
  idle   : s.store.cleaning = false
  soon   : s.task.due ≤ s.now + interval.total
  bodies : ∀ {key b expiry}, s.store.bodies.find? key = some b → b.expiresAt = some expiry →
    s.task.due ≤ max expiry since + interval.total

variable {s : Tended} {interval : Duration} {since now : Instant} {task : CleanupTask}
variable {timers : Timers} {turns : List Turn} {turn : Turn} {o : Operation} {key : Key}
variable {b : StoredBody}

section Task

-- No interval is too short for the task to be late and not yet due again.
theorem lt_due (hi : Config.minCleanupInterval ≤ interval) :
    now + CleanupTask.tolerance < timers.due now interval := by
  have hi : Config.minCleanupInterval.total ≤ interval.total := hi
  have hm : Config.minCleanupInterval.total ≤ Nat.min interval.total Instant.thirtyYears :=
    Nat.le_min.mpr ⟨hi, by decide⟩
  calc
    now + CleanupTask.tolerance < now + Config.minCleanupInterval.total :=
      Nat.add_lt_add_left (by decide) _
    _ ≤ now + Nat.min interval.total Instant.thirtyYears := Nat.add_le_add_left hm _
    _ ≤ timers.due now interval := timers.le_due now interval

theorem lt_next (hi : Config.minCleanupInterval ≤ task.interval) :
    now < (task.next timers now).due := by
  simp only [CleanupTask.next]
  split
  case isTrue => exact Nat.lt_of_le_of_lt (Nat.le_add_right ..) (lt_due hi)
  case isFalse h => exact Nat.lt_of_le_of_lt (Nat.le_of_not_lt h) (lt_due hi)

theorem le_next (h : task.due ≤ now) :
    (task.next timers now).due ≤ now + task.interval.total := by
  simp only [CleanupTask.next]
  split
  case isTrue => exact timers.due_le now task.interval
  case isFalse =>
    exact Nat.le_trans (timers.due_le task.due task.interval) (Nat.add_le_add_right h _)

-- A task that has begun cleans up when it is due, and does nothing before.
theorem Tended.poll_eq (h : s.task.hasBegun) : s.step .poll =
    if s.isDue then { s with
      store := (s.store.cleanUp s.now).state
      task := s.task.next s.timers s.now }
    else s := by
  cases hd : s.task.due.isPast s.now
  all_goals simp [step, CleanupTask.run, CleanupTask.begun, isDue, h, hd]

theorem start_of_spawnCleanup {config : Config} {hasRuntime : Bool}
    (h : (config.spawnCleanup hasRuntime now).1 = some task) :
    task = .start config.cleanupInterval now ∧
      Config.minCleanupInterval ≤ config.cleanupInterval := by
  unfold Config.spawnCleanup at h
  split at h
  case isTrue => cases h
  case isFalse =>
    split at h
    case isTrue => cases h
    case isFalse hi =>
      split at h
      case isTrue => cases h
      case isFalse =>
        cases h
        exact ⟨rfl, Nat.le_of_not_lt hi⟩

end Task

namespace Keen

-- A task that is polled at once, on a whole millisecond, begins its intervals.
theorem start {timed : Timed} (hm : timed.now % 1000000 = 0)
    (hn : timed.now / 1000000 < Instant.lastMilli) (hi : Config.minCleanupInterval ≤ interval)
    (hc : timed.store.cleaning = false) :
    Keen interval timed.now (Tended.step ⟨timed, .start interval timed.now, timers⟩ .poll) := by
  have hp : Instant.isPast timed.now timed.now := by
    simp only [Instant.isPast, decide_eq_true_eq, Instant] at hm ⊢
    omega
  have hb : (CleanupTask.start interval timed.now).begun timers timed.now =
      ⟨interval, timers.due timed.now interval, true⟩ := by
    simp [CleanupTask.begun, CleanupTask.start, CleanupTask.next, hp]
  have hd : (timers.due timed.now interval).isPast timed.now = false :=
    Instant.not_isPast_of_lt (Nat.lt_of_le_of_lt (Nat.le_add_right ..) (lt_due hi)) hn
  have hs : Tended.step ⟨timed, .start interval timed.now, timers⟩ .poll =
      ⟨timed, ⟨interval, timers.due timed.now interval, true⟩, timers⟩ := by
    simp [Tended.step, CleanupTask.run, hb, hd]
  have hl : timers.due timed.now interval ≤ timed.now + interval.total :=
    timers.due_le timed.now interval
  rw [hs]
  constructor
  case begun => rfl
  case paced => rfl
  case idle => exact hc
  case soon => exact hl
  case bodies => exact fun _ _ => Nat.le_trans hl (Nat.add_le_add_right (Nat.le_max_right ..) _)

-- Bodies that are put in are not over before now, and others keep their times.
theorem operation (h : Keen interval since s) : Keen interval since (s.step (.operation o)) := by
  have hn : s.now ≤ (s.toTimed.step o).now := Timed.now_le_step
  constructor
  case begun => exact h.begun
  case paced => exact h.paced
  case idle => exact Timed.cleaning_step h.idle
  case soon => exact Nat.le_trans h.soon (Nat.add_le_add_right hn _)
  case bodies =>
    intro key b expiry hb he
    have hf : Timed.Found s.toTimed o key b := Timed.found hb
    clear hb
    cases hf
    case kept hb => exact h.bodies hb he
    case used hb => exact h.bodies hb he
    case stored w =>
      obtain ⟨length, -, hl⟩ := Option.bind_eq_some_iff.mp he
      calc
        s.task.due ≤ s.now + interval.total := h.soon
        _ ≤ expiry + interval.total := Nat.add_le_add_right (Instant.le_of_after? hl) _
        _ ≤ max expiry since + interval.total := Nat.add_le_add_right (Nat.le_max_left ..) _

-- A clean-up leaves only bodies that are over later than now.
theorem poll (h : Keen interval since s) (hn : s.now / 1000000 < Instant.lastMilli) :
    Keen interval since (s.step .poll) := by
  rw [Tended.poll_eq h.begun]
  split
  case isFalse => exact h
  case isTrue hd =>
    have hs : (s.task.next s.timers s.now).due ≤ s.now + interval.total :=
      h.paced ▸ le_next (Instant.le_of_isPast hd hn)
    constructor
    case begun => rfl
    case paced => exact h.paced
    case idle => exact Timed.cleaning_step (s := s.toTimed) (o := .cleanUp) h.idle
    case soon => exact hs
    case bodies =>
      intro key b expiry hb he
      have hx : b.isExpired s.now = false := ((find?_cleanUp h.idle).mp hb).right
      have hl : s.now < expiry := isExpired_eq_false_iff_lt.mp hx expiry he
      calc
        (s.task.next s.timers s.now).due ≤ s.now + interval.total := hs
        _ ≤ expiry + interval.total := Nat.add_le_add_right (Nat.le_of_lt hl) _
        _ ≤ max expiry since + interval.total := Nat.add_le_add_right (Nat.le_max_left ..) _

theorem step (h : Keen interval since s) (hn : s.now / 1000000 < Instant.lastMilli) :
    Keen interval since (s.step turn) := by
  cases turn
  case operation => exact h.operation
  case poll => exact h.poll hn

end Keen

theorem Tended.now_le_step : s.now ≤ (s.step turn).now := by
  cases turn
  case operation => exact Timed.now_le_step
  case poll => exact Nat.le_refl _

theorem Tended.now_le_run : s.now ≤ (s.run turns).now := by
  induction turns generalizing s
  case nil => exact Nat.le_refl _
  case cons turn turns hi => exact Nat.le_trans now_le_step hi

namespace Keen

theorem run (h : Keen interval since s)
    (hn : (s.run turns).now / 1000000 < Instant.lastMilli) : Keen interval since (s.run turns) := by
  induction turns generalizing s
  case nil => exact h
  case cons turn turns hi =>
    have hl : s.now ≤ (s.run (turn :: turns)).now := Tended.now_le_run
    exact hi (h.step (Nat.lt_of_le_of_lt (Nat.div_le_div_right hl) hn)) hn

theorem not_isDue_poll (h : Keen interval since s) (hi : Config.minCleanupInterval ≤ interval)
    (hn : s.now / 1000000 < Instant.lastMilli) : (s.step .poll).isDue = false := by
  rw [Tended.poll_eq h.begun]
  split
  case isTrue => exact Instant.not_isPast_of_lt (lt_next (h.paced ▸ hi)) hn
  case isFalse hd => simpa using hd

theorem gone {expiry : Instant} (h : Keen interval since s) (hd : s.isDue = false)
    (hb : s.store.bodies.find? key = some b) (he : b.expiresAt = some expiry) :
    s.now - max expiry since < interval.total + 1000000 := by
  have hl : s.task.due ≤ max expiry since + interval.total := h.bodies hb he
  have hn : s.now < s.task.due + 1000000 := Instant.lt_of_not_isPast hd
  simp only [Instant] at hl hn ⊢
  omega

end Keen

-- Whatever is done with a store whose clean-up task is started on a whole millisecond and polled at
-- once, by whatever timers it waits and whenever it is polled later, nothing lingers.
theorem nothing_lingers (config : Config) (start : Instant) (before : List Operation)
    (hasRuntime : Bool) (task : CleanupTask) (timers : Timers) (turns : List Turn)
    (hm : ((Timed.init config start).run before).now % 1000000 = 0)
    (ht : (config.spawnCleanup hasRuntime ((Timed.init config start).run before).now).1 =
      some task) :
    NothingLingers config.cleanupInterval ((Timed.init config start).run before).now
      (Tended.run ⟨(Timed.init config start).run before, task, timers⟩ (.poll :: turns)) := by
  have hc : ((Timed.init config start).run before).store.cleaning = false :=
    Timed.cleaning_run rfl
  generalize (Timed.init config start).run before = s at hm ht hc
  have ⟨he, hi⟩ := start_of_spawnCleanup ht
  rw [he]
  generalize hr : Tended.run ⟨s, .start config.cleanupInterval s.now, timers⟩ (.poll :: turns) = t
  have hl : s.now ≤ t.now := hr ▸ Tended.now_le_run (s := ⟨s, _, _⟩)
  have hk (hn : t.now / 1000000 < Instant.lastMilli) : Keen config.cleanupInterval s.now t := by
    have hs : Keen config.cleanupInterval s.now
        (Tended.step ⟨s, .start config.cleanupInterval s.now, timers⟩ .poll) :=
      .start hm (Nat.lt_of_le_of_lt (Nat.div_le_div_right hl) hn) hi hc
    subst hr
    exact hs.run hn
  constructor
  case polled => exact fun hn => (hk hn).not_isDue_poll hi hn
  case gone =>
    exact fun hd _ _ _ hb he _ => (hk (Instant.lt_lastMilli_of_not_isPast hd)).gone hd hb he

-- The interval is forty years, and the timers wait for all of it. A poll that comes seven seconds
-- late moves the next one to the middle of a millisecond, and a body whose time is over just after
-- it stays for more than an interval.
theorem nothing_lingers_late :
    let interval : Duration := .ofSeconds 1261440000
    let config : Config := { Config.conservative with cleanupInterval := interval }
    let before : List Operation := [.wait 3000000000]
    let task : CleanupTask := .start interval 3000000000
    let turns : List Turn := [
      .operation (.setWithTtl ⟨"a"⟩ ⟨#[1]⟩ (some ⟨1261440007000000200, by decide⟩)),
      .operation (.wait 1261440010000000100), .poll, .operation (.wait 2522880010000999999)]
    let s := (Timed.init config 0).run before
    let t := Tended.run ⟨s, task, .exact⟩ (.poll :: turns)
    s.now % 1000000 = 0 ∧ (config.spawnCleanup true s.now).1 = some task ∧
      NothingLingers interval s.now t ∧ t.isDue = false ∧ t.now = 2522880010000999999 ∧
      (t.store.bodies.find? ⟨"a"⟩).bind (·.expiresAt) = some 1261440010000000200 ∧
      (t.step (.operation (.wait 2522880010001000000))).isDue := by
  intro interval config before task turns s t
  have hm : s.now % 1000000 = 0 := by decide
  have ht : (config.spawnCleanup true s.now).1 = some task := by decide
  have h : NothingLingers interval s.now t :=
    nothing_lingers config 0 before true task .exact turns hm ht
  refine ⟨hm, ht, h, ?_, ?_, ?_, ?_⟩
  all_goals decide_cbv

end MemoryStore

end OnceCache
