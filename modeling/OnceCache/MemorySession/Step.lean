import OnceCache.MemorySession.Basic

namespace OnceCache

namespace MemorySession

open Session (Answer Refusal)

inductive Operation
  | session (operation : Session.Operation)
  | debugStore
  | hitRate
  | advance (length : Duration)
  | setWithTtl (key : Key) (body : Body) (ttl : Option Duration)
  | remove (key : Key)
  | contains (key : Key)
  | clear
  | cleanUp
  | config
  | spawnCleanup
  -- Lets reads and writes of the store fail from now on, or no longer.
  | fail (reads writes : Option Bool)

def advance (s : MemorySession) (length : Duration) : Reply MemorySession Answer :=
  let moved := s.session.step (.advance length)
  let r := runTasks { s with session := moved.state }
  ⟨moved.answer, r.state, moved.log ++ r.log⟩

def withVisible (s : MemorySession) (act : MemoryStore → Reply MemorySession Answer) :
    Reply MemorySession Answer :=
  if s.isStoreHidden then ⟨.refused .storeHidden, s, []⟩ else act s.memory

def step (s : MemorySession) : Operation → Reply MemorySession Answer
  | .session operation =>
    let r := s.session.step operation
    ⟨r.answer, { s with session := r.state }, r.log⟩
  | .debugStore => s.withVisible fun m => ⟨.text m.debug, s, []⟩
  | .hitRate =>
    let store := if s.isStoreHidden then none else some s.memory.stats.hitRate
    ⟨.rates s.session.manager.stats.hitRate store, s, []⟩
  | .advance length => s.advance length
  | .setWithTtl key body ttl =>
    s.withVisible fun m =>
      let r := m.setWithTtl s.session.now key body ttl
      ⟨.ofWrite r.answer, s.withMemory r.state, r.log⟩
  | .remove key =>
    s.withVisible fun m =>
      let (wasThere, m) := m.remove key
      ⟨.bool wasThere, s.withMemory m, []⟩
  | .contains key => s.withVisible fun m => ⟨.bool (m.contains s.session.now key), s, []⟩
  | .clear => s.withVisible fun m => ⟨.ok, s.withMemory m.clear, []⟩
  | .cleanUp =>
    s.withVisible fun m =>
      let r := m.cleanUp s.session.now
      ⟨.count (some r.answer), s.withMemory r.state, r.log⟩
  | .config => s.withVisible fun m => ⟨.text m.config.debug, s, []⟩
  | .spawnCleanup =>
    s.withVisible fun m =>
      let (task, log) := m.config.spawnCleanup s.hasRuntime s.session.now
      let r := runTasks { s with tasks := s.tasks ++ task.toList }
      ⟨.bool task.isSome, r.state, log ++ r.log⟩
  | .fail reads writes =>
    s.withVisible fun _ =>
      ⟨.ok, s.withStore { s.store with
        readsFail := reads.getD s.store.readsFail
        writesFail := writes.getD s.store.writesFail }, []⟩

-- Does operations one after the other, and shows the session after each.
def run : List Operation → MemorySession → List (Answer × View × List Event) × MemorySession
  | [], s => ([], s)
  | operation :: operations, s =>
    let r := s.step operation
    let (rest, last) := run operations r.state
    ((r.answer, r.state.view, r.log) :: rest, last)

end MemorySession

end OnceCache
