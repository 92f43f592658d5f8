import OnceCache.MemorySession.Step
import OnceCache.Proofs.Session.Actions

namespace OnceCache

open Execution (Action State)

namespace Session

variable {σ : Type} {s s' s'' : Session σ} [ByteStore σ]

-- What can be done at the manager leads from one session to another.
def Executes (s s' : Session σ) : Prop :=
  ∀ t, Shows t s → ∃ actions, Shows (t.run Failure.text actions) s'

namespace Executes

theorem refl : s.Executes s := fun _ ht => ⟨[], ht⟩

theorem trans (h : s.Executes s') (h' : s'.Executes s'') : s.Executes s'' := by
  intro t ht
  obtain ⟨actions, h₁⟩ := h t ht
  obtain ⟨actions', h₂⟩ := h' _ h₁
  refine ⟨actions ++ actions', ?_⟩
  rwa [State.run_append]

-- Whatever is done with the store is done at one instant.
theorem tend (change : Instant → σ → σ) (hn : s'.now = s.now)
    (hm : s'.manager = { s.manager with store := change s.now s.manager.store }) :
    s.Executes s' := by
  rintro t ⟨onlooker, rfl⟩
  exact ⟨[.tend change], .of_eq hn.symm hm.symm⟩

-- Everything that is done in a session is done at its manager, by those who come and go, by the
-- clock or by those who have the store.
theorem step [SincereStore σ] (s : Session σ) (operation : Operation) :
    s.Executes (s.step operation).state := by
  rintro t ⟨onlooker, rfl⟩
  exact ⟨_, (Performs.step s operation).shows onlooker⟩

end Executes

end Session

namespace MemorySession

open Session (Shows)

variable {s : MemorySession}

-- Tasks tend the store.
theorem runTasks_executes (s : MemorySession) : s.session.Executes s.runTasks.state.session :=
  .tend (fun now store =>
    { store with memory := (CleanupTask.runAll .capped now s.tasks store.memory).state }) rfl rfl

theorem withVisible_executes {act : MemoryStore → Reply MemorySession Session.Answer}
    (h : s.session.Executes (act s.memory).state.session) :
    s.session.Executes (s.withVisible act).state.session := by
  unfold withVisible
  split
  case isTrue => exact .refl
  case isFalse => exact h

theorem step_executes (s : MemorySession) (operation : Operation) :
    s.session.Executes (s.step operation).state.session := by
  cases operation
  case session operation => exact .step s.session operation
  case advance length =>
    have : s.session.Executes _ := .step s.session (.advance length)
    let moved : MemorySession :=
      { s with session := (s.session.step (.advance length)).state }
    exact this.trans moved.runTasks_executes
  case hitRate => exact .refl
  all_goals apply withVisible_executes
  case setWithTtl key body ttl =>
    exact .tend (fun now store =>
      { store with memory := (store.memory.setWithTtl now key body ttl).state }) rfl rfl
  case remove key =>
    exact .tend (fun _ store => { store with memory := (store.memory.remove key).2 }) rfl rfl
  case clear => exact .tend (fun _ store => { store with memory := store.memory.clear }) rfl rfl
  case cleanUp =>
    exact .tend (fun now store =>
      { store with memory := (store.memory.cleanUp now).state }) rfl rfl
  case spawnCleanup =>
    let (task, _) := s.memory.config.spawnCleanup s.hasRuntime s.session.now
    exact runTasks_executes { s with tasks := s.tasks ++ task.toList }
  case fail reads writes =>
    exact .tend (fun _ store => { store with
      readsFail := reads.getD store.readsFail
      writesFail := writes.getD store.writesFail }) rfl rfl
  all_goals exact .refl

theorem run_executes (s : MemorySession) (operations : List Operation) :
    s.session.Executes (run operations s).2.session := by
  induction operations generalizing s
  case nil => exact .refl
  case cons operation operations hi => exact (s.step_executes operation).trans (hi _)

section

variable {build : Build} {config : Config} {settings : List Setting} {hasRuntime : Bool}
variable {log : List Event}

-- A session begins with a new manager of an empty store, and its task if there is one.
theorem of_start (h : start build config settings hasRuntime = .ok (s, log)) :
    ∃ config, ∃ fresh : MemorySession, s = fresh.runTasks.state ∧ fresh.session.now = 0 ∧
      fresh.session.manager = { store := { memory := .create config } } := by
  unfold start at h
  cases hc : build.config config <;> rw [hc] at h
  case error => cases h
  case ok config =>
    cases h
    exact ⟨config, _, rfl, rfl, rfl⟩

-- Whatever is done in a session is an execution from a new manager.
theorem exists_execution (operations : List Operation)
    (h : start build config settings hasRuntime = .ok (s, log)) :
    ∃ config actions, Shows
      ((State.init { memory := .create config } 0).run Failure.text actions)
      (run operations s).2.session := by
  obtain ⟨config, fresh, rfl, hn, hm⟩ := of_start h
  have hf : Shows (State.init { memory := .create config } 0) fresh.session :=
    .of_eq hn.symm hm.symm
  exact ⟨config, fresh.runTasks_executes.trans (run_executes _ operations) _ hf⟩

-- Whoever comes and goes in a session, the parties are in order.
theorem sound_run (operations : List Operation)
    (h : start build config settings hasRuntime = .ok (s, log)) :
    (run operations s).2.session.coordinator.Sound := by
  obtain ⟨config, actions, onlooker, he⟩ := exists_execution operations h
  have hf : (State.run Failure.text (State.init { memory := .create config } 0) actions).Faithful :=
    State.Faithful.init.run
  have := hf.sound
  rwa [he] at this

end

end MemorySession

end OnceCache
