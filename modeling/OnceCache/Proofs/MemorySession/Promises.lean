import OnceCache.MemorySession.Step
import OnceCache.Proofs.Session.Keeping
import OnceCache.Proofs.Store.Limits

namespace OnceCache

namespace Config

variable {config : Config} {now : Instant} {hasRuntime : Bool}

-- What is checked of a configuration of a store that keeps bodies.
structure Consistent (config : Config) : Prop where
  filled  : config.maxEntryBytes ≠ 0
  fits    : config.maxEntryBytes ≤ config.maxMemoryBytes
  paced   : config.autoCleanup → minCleanupInterval ≤ config.cleanupInterval
  bounded : config.autoCleanup → config.cleanupInterval ≠ .longest

theorem check_eq_ok_iff : config.check = .ok () ↔ (config.isEnabled → config.Consistent) := by
  unfold check
  cases config.isEnabled
  case false => simp
  case true =>
    simp only [Bool.not_true, Bool.false_eq_true, if_false, true_imp_iff]
    split
    case isTrue hz => exact iff_of_false nofun fun h => h.filled hz
    case isFalse hz =>
      split
      case isTrue hf => exact iff_of_false nofun fun h => UInt64.not_lt.mpr h.fits hf
      case isFalse hf =>
        split
        case isTrue hi =>
          obtain ⟨ha, hi⟩ : config.autoCleanup ∧ config.cleanupInterval < minCleanupInterval := by
            simpa using hi
          exact iff_of_false nofun fun h => Nat.not_lt_of_le (h.paced ha) hi
        case isFalse hi =>
          split
          case isTrue hl =>
            obtain ⟨ha, hl⟩ : config.autoCleanup ∧ config.cleanupInterval = .longest := by
              simpa using hl
            exact iff_of_false nofun fun h => h.bounded ha hl
          case isFalse hl =>
            refine iff_of_true rfl ⟨hz, UInt64.not_lt.mp hf, fun ha => ?_, fun ha => ?_⟩
            · exact Nat.le_of_not_lt fun h => hi (by rw [ha]; exact decide_eq_true h)
            · simpa [ha] using hl

namespace Consistent

theorem longest_eq (h : config.Consistent) : config.longest = config.maxEntryBytes.toNat :=
  Nat.min_eq_left (UInt64.le_iff_toNat_le.mp h.fits)

-- The interval of a clean-up task is never too short.
theorem spawnCleanup_eq (h : config.Consistent) (he : config.isEnabled) :
    config.spawnCleanup hasRuntime now =
      if config.autoCleanup then
        if hasRuntime then (some (.start config.cleanupInterval now), [])
        else (none, [.cleanupWithoutRuntime])
      else (none, []) := by
  cases ha : config.autoCleanup
  case false => simp [spawnCleanup, ha]
  case true =>
    have hi : ¬config.cleanupInterval < minCleanupInterval := Nat.not_lt_of_le (h.paced ha)
    cases hasRuntime <;> simp [spawnCleanup, ha, he, hi]

end Consistent

end Config

namespace MemoryStore

variable {s : MemoryStore} {now : Instant} {key : Key} {body : Body}

-- A body that is taken is there at the same instant, however short it is to live.
theorem get_set (h : s.config.takes body) :
    ((s.set now key body).state.get now key).answer = .ok body := by
  have hb : (s.set now key body).state.bodies.find? key =
      some (.create body s.config.ttl now) := by
    rw [set, find?_setWithTtl h, if_pos rfl]
  have hl : s.config.Outlasts now now := by
    cases hz : s.config.defaultTtl.isZero
    case true => exact .inl hz
    case false =>
      have hz : s.config.defaultTtl.total ≠ 0 := by simpa [Duration.isZero] using hz
      exact .inr (Nat.lt_add_of_pos_right (Nat.pos_of_ne_zero hz))
  rw [get_of_some hb (StoredBody.isExpired_create hl (Nat.le_refl _))]
  rfl

end MemoryStore

namespace MemorySession

variable {P : MemoryStore → Prop} {s : MemorySession} {now : Instant} {m : MemoryStore}
variable {tasks : List CleanupTask} {operation : Operation} {operations : List Operation}

section Keeping

theorem keeps_withVisible {act : MemoryStore → Reply MemorySession Session.Answer}
    (hs : P s.memory) (ha : P (act s.memory).state.memory) :
    P (s.withVisible act).state.memory := by
  unfold withVisible
  split
  case isTrue => exact hs
  case isFalse => exact ha

-- What no operation of a store loses,
variable (h : ∀ {s : MemoryStore.Timed} (o : MemoryStore.Operation), P s.store → P (s.step o).store)
include h

-- neither reads nor writes lose, whether they fail or not,
theorem keeps_memory : ByteStore.Keeps fun store : UnreliableStore => P store.memory where
  read {s} now key hs := by
    change P (s.read now key).state.memory
    unfold UnreliableStore.read
    split
    case isTrue => exact hs
    case isFalse => exact h (s := ⟨now, s.memory⟩) (.get key) hs
  write {s} now key body hs := by
    change P (s.write now key body).state.memory
    unfold UnreliableStore.write
    split
    case isTrue => exact hs
    case isFalse => exact h (s := ⟨now, s.memory⟩) (.set key body) hs

-- nor do tasks,
theorem keeps_runAll (hm : P m) : P (CleanupTask.runAll .capped now tasks m).state := by
  induction tasks generalizing m
  case nil => exact hm
  case cons task tasks hi =>
    refine hi ?_
    unfold CleanupTask.run
    dsimp only
    split
    case isTrue => exact h (s := ⟨now, m⟩) .cleanUp hm
    case isFalse => exact hm

-- nor does any operation of a session.
theorem keeps_step (hs : P s.memory) : P (s.step operation).state.memory := by
  let timed : MemoryStore.Timed := ⟨s.session.now, s.memory⟩
  cases operation
  case session => exact Session.keeps_step (keeps_memory h) hs
  case advance length =>
    refine keeps_runAll h ?_
    exact Session.keeps_step (keeps_memory h) hs
  case hitRate => exact hs
  all_goals apply keeps_withVisible hs
  case setWithTtl key body ttl => exact h (s := timed) (.setWithTtl key body ttl) hs
  case remove key => exact h (s := timed) (.remove key) hs
  case clear => exact h (s := timed) .clear hs
  case cleanUp => exact h (s := timed) .cleanUp hs
  case spawnCleanup => exact keeps_runAll h hs
  all_goals exact hs

theorem keeps_run (hs : P s.memory) : P (run operations s).2.memory := by
  induction operations generalizing s
  case nil => exact hs
  case cons operation operations hi => exact hi (keeps_step h hs)

end Keeping

section Start

variable {build : Build} {config : Config} {settings : List Setting} {hasRuntime : Bool}
variable {log : List Event}

-- Where a configuration must be valid, a session begins exactly if it is accepted.
theorem map_start (hb : build = .checked ∨ build = .hidden) :
    (fun _ => ()) <$> start build config settings hasRuntime = config.check := by
  have hc : build.config config = config.check >>= fun _ => pure config := by
    cases hb <;> subst build <;> rfl
  unfold start
  rw [hc]
  cases config.check <;> rfl

-- It begins with an empty store, and with a task if the store is out of reach.
theorem exists_fresh (hc : build.config config = .ok config) :
    ∃ fresh : MemorySession, (∃ log, start build config settings hasRuntime =
        .ok (fresh.runTasks.state, log)) ∧ fresh.memory = .create config ∧
      fresh.tasks =
        if build = .hidden then (config.spawnCleanup hasRuntime 0).1.toList else [] := by
  unfold start
  rw [hc]
  refine ⟨_, ⟨_, rfl⟩, rfl, ?_⟩
  cases build <;> rfl

end Start

theorem length_runAll :
    (CleanupTask.runAll .capped now tasks m).answer.length = tasks.length := by
  induction tasks generalizing m
  case nil => rfl
  case cons task tasks hi => exact congrArg (· + 1) hi

-- A store takes exactly the bodies that are not longer than its configuration says, and gives back
-- what it took.
structure TakesBodies (config : Config) (now : Instant) (m : MemoryStore) : Prop where
  taken   : ∀ key body, body.size ≤ config.maxEntryBytes.toNat →
    (m.set now key body).answer = .ok () ∧
      ((m.set now key body).state.get now key).answer = .ok body
  refused : ∀ key body, config.maxEntryBytes.toNat < body.size → m.set now key body =
    ⟨.error (.payloadTooLarge key body.size config.maxEntryBytes.toNat), m, []⟩

-- Where something can run it, a clean-up task is started if there is to be one. Its interval is
-- never refused, and never empty.
structure StartsTasks (config : Config) (now : Instant) (m : MemoryStore) : Prop where
  started  : (m.config.spawnCleanup true now).1.isSome = config.autoCleanup
  accepted : ∀ hasRuntime length,
    .cleanupTooFrequent length ∉ (m.config.spawnCleanup hasRuntime now).2
  filled   : ∀ hasRuntime, ∀ task ∈ (m.config.spawnCleanup hasRuntime now).1, .zero < task.interval

-- A store that keeps nothing takes every body, gives none back and starts no tasks.
structure KeepsNothing (now : Instant) (m : MemoryStore) : Prop where
  empty : m.bodies = ∅
  set   : ∀ key body, m.set now key body = ⟨.ok (), m, []⟩
  get   : ∀ key, (m.get now key).answer = .error (.notFound key)
  tasks : ∀ hasRuntime, m.config.spawnCleanup hasRuntime now = (none, [])

-- What the store of a session is to be relied on for.
structure KeepsPromises (config : Config) (s : MemorySession) : Prop where
  enabled  : config.isEnabled →
    TakesBodies config s.session.now s.memory ∧ StartsTasks config s.session.now s.memory
  disabled : config.isEnabled = false → KeepsNothing s.session.now s.memory

section Promises

variable {config : Config} (hm : m.config = config)
include hm

theorem takesBodies (h : config.Consistent) (he : config.isEnabled) : TakesBodies config now m := by
  have hl : m.config.bodyLimit.toNat = config.maxEntryBytes.toNat := by
    rw [hm, Config.toNat_bodyLimit, h.longest_eq]
  constructor
  case taken =>
    intro key body hb
    have ht : m.config.takes body := by
      rw [Config.takes, hl, hm, he]
      exact decide_eq_true hb
    exact ⟨(MemoryStore.setWithTtl_of_takes ht).left, MemoryStore.get_set ht⟩
  case refused =>
    intro key body hb
    simp only [MemoryStore.set, MemoryStore.setWithTtl, hl, if_pos hb]
    simp [hm, he]

theorem startsTasks (h : config.Consistent) (he : config.isEnabled) : StartsTasks config now m := by
  subst hm
  constructor
  case started =>
    rw [h.spawnCleanup_eq he]
    cases m.config.autoCleanup <;> rfl
  case accepted =>
    intro hasRuntime length
    rw [h.spawnCleanup_eq he]
    cases m.config.autoCleanup <;> cases hasRuntime <;> simp
  case filled =>
    intro hasRuntime task ht
    rw [h.spawnCleanup_eq he] at ht
    cases ha : m.config.autoCleanup <;> cases hasRuntime <;> simp [ha] at ht
    subst ht
    exact Nat.lt_of_lt_of_le (by decide) (h.paced ha)

theorem keepsNothing (hd : config.isEnabled = false) (hn : m.bodies = ∅) : KeepsNothing now m where
  empty := hn
  set key body := by simp [MemoryStore.set, MemoryStore.setWithTtl, hm, hd]
  get key := by rw [MemoryStore.get_of_none (by simp [hn])]
  tasks hasRuntime := by simp [Config.spawnCleanup, hm, hd]

end Promises

-- A store of a configuration holds nothing if it is to keep nothing.
structure HasConfig (config : Config) (m : MemoryStore) : Prop where
  configured : m.config = config
  empty      : config.isEnabled = false → m.bodies = ∅

theorem HasConfig.step {config : Config} {t : MemoryStore.Timed} (o : MemoryStore.Operation)
    (h : HasConfig config t.store) : HasConfig config (t.step o).store where
  configured := MemoryStore.Timed.config_step.trans h.configured
  empty hd   := by
    have : (t.run [o]).store.bodies = ∅ :=
      MemoryStore.Timed.empty_run (h.empty hd) (h.configured ▸ hd)
    exact this

-- Whether there is a clean-up task from the start.
def HasTask (build : Build) (config : Config) (hasRuntime : Bool) : Prop :=
  build = .hidden ∧ hasRuntime ∧ config.isEnabled ∧ config.autoCleanup

-- Where a configuration must be valid, a session over a store begins exactly if it is accepted. A
-- store of an accepted configuration keeps its promises, whatever is done with it.
theorem accepted_keeps_promises (config : Config) (settings : List Setting) (hasRuntime : Bool) :
    (∀ {build}, build = .checked ∨ build = .hidden →
      (fun _ => ()) <$> start build config settings hasRuntime = config.check) ∧
    (config.check = .ok () → ∀ {build}, build ≠ .standard →
      ∃ s log, start build config settings hasRuntime = .ok (s, log) ∧
        (s.tasks ≠ [] ↔ HasTask build config hasRuntime) ∧
        ∀ operations, KeepsPromises config (run operations s).2) := by
  refine ⟨fun hb => map_start hb, fun hcheck build hb => ?_⟩
  have hc : build.config config = .ok config := by
    cases build
    case unchecked => rfl
    case standard => exact absurd rfl hb
    all_goals
      rw [Build.config, hcheck]
      rfl
  obtain ⟨fresh, ⟨log, hs⟩, hm, ht⟩ := exists_fresh hc
  have hcheck : config.isEnabled → config.Consistent := Config.check_eq_ok_iff.mp hcheck
  refine ⟨_, log, hs, ?_, fun operations => ?_⟩
  case refine_1 =>
    have hl : fresh.runTasks.state.tasks.length = fresh.tasks.length := length_runAll
    rw [← List.length_pos_iff, hl, ht, HasTask]
    cases hd : config.isEnabled
    case false => simp [Config.spawnCleanup, hd]
    case true =>
      rw [(hcheck hd).spawnCleanup_eq hd]
      by_cases hh : build = .hidden <;> cases config.autoCleanup <;> cases hasRuntime <;> simp [hh]
  case refine_2 =>
    have hk : HasConfig config (run operations fresh.runTasks.state).2.memory := by
      refine keeps_run HasConfig.step ?_
      exact keeps_runAll HasConfig.step (hm ▸ ⟨rfl, fun _ => rfl⟩)
    constructor
    case enabled =>
      intro he
      exact ⟨takesBodies hk.configured (hcheck he) he, startsTasks hk.configured (hcheck he) he⟩
    case disabled => exact fun hd => keepsNothing hk.configured hd (hk.empty hd)

-- A store out of reach of two bodies that live for a nanosecond. A third one makes room for itself,
-- and one that is too long is refused.
theorem accepted_keeps_promises_full :
    let config : Config :=
      { Config.conservative with maxEntries := 2, maxEntryBytes := 4, defaultTtl := ⟨1, by decide⟩ }
    let requests : List Operation := [
      .session (.start "a" ⟨"a"⟩ .standard ⟨none, .outcome (.ok ⟨#[1]⟩)⟩),
      .session (.start "b" ⟨"b"⟩ .standard ⟨none, .outcome (.ok ⟨#[2]⟩)⟩)]
    config.check = .ok () ∧ ∃ s log, start .hidden config [] true = .ok (s, log) ∧ s.tasks ≠ [] ∧
      let t := (run requests s).2
      KeepsPromises config t ∧
        ((t.memory.set t.session.now ⟨"c"⟩ ⟨#[3]⟩).state.get t.session.now ⟨"c"⟩).answer =
          .ok ⟨#[3]⟩ ∧
        (t.memory.set t.session.now ⟨"d"⟩ ⟨#[4, 4, 4, 4, 4]⟩).answer =
          .error (.payloadTooLarge ⟨"d"⟩ 5 4) := by
  intro config requests
  have hc : config.check = .ok () := rfl
  have hb : Build.hidden ≠ .standard := by decide
  obtain ⟨s, log, hs, ht, hk⟩ := (accepted_keeps_promises config [] true).right hc hb
  have hp : KeepsPromises config (run requests s).2 := hk requests
  have hb : TakesBodies config _ _ := (hp.enabled rfl).left
  refine ⟨hc, s, log, hs, ht.mpr ⟨rfl, rfl, rfl, rfl⟩, hp, ?_, ?_⟩
  · exact (hb.taken ⟨"c"⟩ ⟨#[3]⟩ (by decide)).right
  · rw [hb.refused ⟨"d"⟩ ⟨#[4, 4, 4, 4, 4]⟩ (by decide)]
    rfl

end MemorySession

end OnceCache
