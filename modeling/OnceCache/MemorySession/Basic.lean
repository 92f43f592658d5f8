import OnceCache.Session.Step
import OnceCache.Store.Cleanup
import OnceCache.Store.Unreliable

namespace OnceCache

structure MemorySession where
  session : Session UnreliableStore
  -- Whether the store can be used through the manager only.
  isStoreHidden : Bool := false
  -- Whether there is something to run tasks.
  hasRuntime : Bool := true
  tasks : List CleanupTask := []

namespace MemorySession

inductive Build
  | unchecked
  | checked
  | standard
  -- By a configuration that must be valid, out of reach, and with its clean-up task.
  | hidden
  deriving DecidableEq, Repr

inductive Setting
  | contentType (value : String)
  | generateTimeout (limit : Duration)
  | cacheStatusHeader (isShown : Bool)
  | derivation (derivation : Key.Derivation)

def Setting.apply (r : Responder) : Setting → Responder × List Event
  | contentType value => r.withContentType value
  | generateTimeout limit => (r.withGenerateTimeout limit, [])
  | cacheStatusHeader isShown => (r.withCacheStatusHeader isShown, [])
  | derivation d => (r.withDerivation d, [])

def applyAll : List Setting → Responder → Responder × List Event
  | [], r => (r, [])
  | setting :: settings, r =>
    let (r, log) := setting.apply r
    let (r, rest) := applyAll settings r
    (r, log ++ rest)

def Build.config (build : Build) (config : Config) : Except ConfigError Config :=
  match build with
  | unchecked => .ok config
  | standard => .ok .standard
  | checked | hidden => do
    config.check
    return config

def store (s : MemorySession) : UnreliableStore := s.session.manager.store

def withStore (s : MemorySession) (store : UnreliableStore) : MemorySession :=
  { s with session := { s.session with manager := { s.session.manager with store } } }

def memory (s : MemorySession) : MemoryStore := s.store.memory

def withMemory (s : MemorySession) (memory : MemoryStore) : MemorySession :=
  s.withStore { s.store with memory }

-- Lets tasks do what is due, by the timers that sessions have.
def runTasks (s : MemorySession) : Reply MemorySession Unit :=
  let r := CleanupTask.runAll .capped s.session.now s.tasks s.memory
  ⟨(), { s.withMemory r.state with tasks := r.answer }, r.log⟩

-- Begins a session. The store and its task come first, and then the settings.
def start (build : Build) (config : Config) (settings : List Setting) (hasRuntime : Bool) :
    Except ConfigError (MemorySession × List Event) := do
  let config ← build.config config
  let isStoreHidden := build = .hidden
  let (task, log) := if isStoreHidden then config.spawnCleanup hasRuntime 0 else (none, [])
  let (responder, rest) := applyAll settings {}
  let session : Session UnreliableStore :=
    { manager := { store := { memory := .create config } }, responder }
  let r := runTasks { session, isStoreHidden, hasRuntime, tasks := task.toList }
  return (r.state, log ++ r.log ++ rest)

structure StoreView where
  entryCount : UInt64
  size : Nat
  isEmpty : Bool
  memoryUsage : UInt64
  memoryPercent : Float
  stats : Stats

def StoreView.of (m : MemoryStore) : StoreView where
  entryCount := m.entryCount
  size := m.size
  isEmpty := m.isEmpty
  memoryUsage := m.memoryUsage
  memoryPercent := m.memoryPercent
  stats := m.stats

structure View where
  keys : List (Key × Nat)
  stats : Stats
  store : Option StoreView

def view (s : MemorySession) : View where
  keys := s.session.coordinator.registry.snapshot
  stats := s.session.manager.stats
  store := if s.isStoreHidden then none else some (.of s.memory)

def close (s : MemorySession) : MemorySession := { s with session := s.session.close }

end MemorySession

end OnceCache
