import OnceCache.Proofs.Table
import OnceCache.Store.Memory

namespace OnceCache

-- Whether bodies that are stored from `start` on live longer than until `now`.
def Config.Outlasts (c : Config) (start now : Instant) : Prop :=
  c.defaultTtl.isZero ∨ now < start + c.defaultTtl.total

theorem Config.Outlasts.mono {c : Config} {start now now' : Instant} (h : c.Outlasts start now')
    (hn : now ≤ now') : c.Outlasts start now :=
  h.imp_right (Nat.lt_of_le_of_lt hn)

theorem StoredBody.isExpired_create {c : Config} {start since now : Instant} {body : Body}
    (h : c.Outlasts start now) (hs : start ≤ since) :
    (create body c.ttl since).isExpired now = false := by
  by_cases hz : c.defaultTtl.isZero
  case pos => simp [create, isExpired, Config.ttl, hz]
  case neg =>
    have hn := h.resolve_left hz
    have ht : c.ttl = some c.defaultTtl := if_neg hz
    rw [ht, create, isExpired, Option.bind_some, Instant.after?]
    by_cases he : since + c.defaultTtl.total < Instant.horizon
    case pos =>
      have : now < since + c.defaultTtl.total := Nat.lt_of_lt_of_le hn (Nat.add_le_add_right hs _)
      simpa [he] using this
    case neg => simp [he]

namespace MemoryStore

variable {s t u : MemoryStore} {key k : Key} {b : StoredBody} {body : Body} {now start : Instant}
variable {incoming : UInt64} {c : Counter} {candidates : List (Key × StoredBody)} {n : UInt64}

section Fields

@[simp]
theorem putIn_bodies : (s.putIn key b).bodies = s.bodies.insert key b := rfl

end Fields

-- Some bodies are gone, and all others are as they were.
structure Shrunk (s t : MemoryStore) : Prop where
  config : t.config = s.config
  bodies : ∀ {k b}, t.bodies.find? k = some b → s.bodies.find? k = some b

namespace Shrunk

theorem refl : s.Shrunk s where
  config := rfl
  bodies := id

theorem trans (h : s.Shrunk t) (h' : t.Shrunk u) : s.Shrunk u where
  config   := h'.config.trans h.config
  bodies h₁ := h.bodies (h'.bodies h₁)

theorem takeOut : s.Shrunk (s.takeOut key b) where
  config   := rfl
  bodies h := (Table.find?_erase_eq_some_iff.mp h).right

theorem remove : s.Shrunk (s.remove key).2 := by
  unfold MemoryStore.remove
  split
  case h_1 => exact takeOut
  case h_2 => exact refl

-- Eviction takes bodies out one by one, and does nothing else to them.
theorem evict : s.Shrunk (evict incoming candidates s).2 := by
  induction candidates generalizing s
  case nil => exact refl
  case cons p candidates hi =>
    unfold MemoryStore.evict
    split
    case isTrue => exact refl
    case isFalse =>
      have h : s.Shrunk (s.takeOut p.1 p.2) := takeOut
      have : s.Shrunk ((s.takeOut p.1 p.2).record .eviction) := ⟨rfl, h.bodies⟩
      exact this.trans hi

theorem makeRoom : s.Shrunk (s.makeRoom incoming).2 := by
  unfold MemoryStore.makeRoom
  split
  case isTrue => exact refl
  case isFalse => exact evict

theorem find?_eq_none (h : s.Shrunk t) (hk : s.bodies.find? k = none) :
    t.bodies.find? k = none := by
  cases ht : t.bodies.find? k
  case none => rfl
  case some b => exact absurd (h.bodies ht) (by simp [hk])

end Shrunk

-- A write that is not taken changes nothing. Any other makes room first.
inductive Written (s : MemoryStore) (now : Instant) (key : Key) (body : Body) : MemoryStore → Prop
  | refused :
    s.config.isEnabled = false ∨ s.config.bodyLimit.toNat < body.size → Written s now key body s
  | stored {u : MemoryStore} :
    s.config.isEnabled → body.size ≤ s.config.bodyLimit.toNat →
    u = ((s.remove key).2.makeRoom body.size.toUInt64).2 →
    Written s now key body (u.putIn key (.create body s.config.ttl now))

theorem written : s.Written now key body (s.set now key body).state := by
  unfold set setWithTtl
  split
  case isTrue he => exact .refused (.inl (by simpa using he))
  case isFalse he =>
    split
    case isTrue hl => exact .refused (.inr hl)
    case isFalse hl => exact .stored (by simpa using he) (Nat.le_of_not_lt hl) rfl

-- A write leaves no more than there was before, apart from its own body.
theorem Written.find? (h : s.Written now key body t) (hb : t.bodies.find? k = some b) :
    s.bodies.find? k = some b ∨ key = k ∧ b = .create body s.config.ttl now := by
  cases h
  case refused => exact .inl hb
  case stored u _ _ hu =>
    have hr : s.Shrunk u := hu ▸ Shrunk.remove.trans Shrunk.makeRoom
    rw [putIn_bodies, Table.find?_insert] at hb
    split at hb
    case isTrue he =>
      cases hb
      exact .inr ⟨he, rfl⟩
    case isFalse => exact .inl (hr.bodies hb)

theorem Written.config (h : s.Written now key body t) : t.config = s.config := by
  cases h
  case refused => rfl
  case stored u _ _ hu =>
    have hr : s.Shrunk u := hu ▸ Shrunk.remove.trans Shrunk.makeRoom
    exact hr.config

-- The body under a key, without its times.
def content? (s : MemoryStore) (key : Key) : Option Body := (s.bodies.find? key).map (·.body)

theorem content?_putIn :
    (s.putIn key b).content? k = if key = k then some b.body else s.content? k := by
  rw [content?, putIn_bodies, Table.find?_insert]
  split <;> rfl

-- The store after the body under a key was read.
def touch (s : MemoryStore) (now : Instant) (key : Key) (b : StoredBody) : MemoryStore :=
  { s with bodies := s.bodies.insert key (b.use now) }.record .hit

theorem find?_touch : (s.touch now key b).bodies.find? k =
    if key = k then some (b.use now) else s.bodies.find? k :=
  Table.find?_insert

theorem content?_touch (h : s.bodies.find? key = some b) :
    (s.touch now key b).content? k = s.content? k := by
  rw [content?, find?_touch]
  split
  case isTrue he =>
    rw [content?, ← he, h]
    rfl
  case isFalse => rfl

theorem get_of_none (h : s.bodies.find? key = none) :
    s.get now key = ⟨.error (.notFound key), s.record .miss, []⟩ := by
  simp only [get, h]

theorem get_of_some (h : s.bodies.find? key = some b) (hb : b.isExpired now = false) :
    s.get now key = ⟨.ok b.body, s.touch now key b, []⟩ := by
  simp only [get, h, hb]
  rfl

-- A read is answered with a stored body, or leaves none under the key.
theorem get_cases (s : MemoryStore) (now : Instant) (key : Key) :
    (∃ b, s.bodies.find? key = some b ∧ s.get now key = ⟨.ok b.body, s.touch now key b, []⟩) ∨
      ∃ e, (s.get now key).answer = .error e ∧ s.Shrunk (s.get now key).state ∧
        (s.get now key).state.bodies.find? key = none := by
  cases hb : s.bodies.find? key
  case none =>
    rw [get_of_none hb]
    exact .inr ⟨_, rfl, ⟨rfl, id⟩, hb⟩
  case some b =>
    cases he : b.isExpired now
    case false => exact .inl ⟨b, rfl, get_of_some hb he⟩
    case true =>
      have hs : s.Shrunk (s.takeOut key b) := .takeOut
      simp only [get, hb, he, if_true]
      exact .inr ⟨_, rfl, ⟨hs.config, hs.bodies⟩, Table.find?_erase_self⟩

-- No body expires as long as those that were stored from `start` on live.
def Lasting (s : MemoryStore) (start : Instant) : Prop :=
  ∀ {k b now}, s.bodies.find? k = some b → s.config.Outlasts start now → b.isExpired now = false

namespace Lasting

theorem write (h : s.Lasting start) (hn : start ≤ now) (hw : s.Written now key body t) :
    t.Lasting start := by
  intro k b now' hb hl
  rw [hw.config] at hl
  cases hw.find? hb
  case inl hb => exact h hb hl
  case inr hb => exact hb.right ▸ StoredBody.isExpired_create hl hn

theorem touch (h : s.Lasting start) (hb : s.bodies.find? key = some b) :
    (s.touch now key b).Lasting start := by
  intro k b' now' hb' hl
  rw [find?_touch] at hb'
  split at hb'
  case isTrue =>
    cases hb'
    have := h hb hl
    exact this
  case isFalse => exact h hb' hl

end Lasting

-- The store with another number of reads that found nothing.
def withMisses (s : MemoryStore) (n : UInt64) : MemoryStore :=
  { s with stats := { s.stats with misses := n } }

section Misses

theorem remove_withMisses :
    (s.withMisses n).remove key = ((s.remove key).1, (s.remove key).2.withMisses n) := by
  cases h : s.bodies.find? key
  all_goals
    have h' : (s.withMisses n).bodies.find? key = _ := h
    simp only [remove, h, h']
  case some b => rfl

theorem evict_withMisses :
    evict incoming candidates (s.withMisses n) =
      ((evict incoming candidates s).1, (evict incoming candidates s).2.withMisses n) := by
  induction candidates generalizing s
  case nil => rfl
  case cons p candidates hi =>
    unfold evict
    change (if s.hasRoom incoming then _ else _) = _
    split
    case isTrue => rfl
    case isFalse =>
      have := hi (s := (s.takeOut p.1 p.2).record .eviction)
      exact Prod.ext (congrArg (·.1 + 1) this) (congrArg (·.2) this)

theorem makeRoom_withMisses :
    (s.withMisses n).makeRoom incoming =
      ((s.makeRoom incoming).1, (s.makeRoom incoming).2.withMisses n) := by
  unfold makeRoom
  change (if s.hasRoom incoming then _ else _) = _
  split
  case isTrue => rfl
  case isFalse => exact evict_withMisses

-- Writes do not depend on that number.
theorem set_withMisses :
    ((s.withMisses n).set now key body).state = (s.set now key body).state.withMisses n := by
  unfold set setWithTtl
  change (if !s.config.isEnabled then _ else if s.config.bodyLimit.toNat < body.size then _ else _ :
    Reply _ _).state = _
  split
  case isTrue => rfl
  case isFalse =>
    split
    case isTrue => rfl
    case isFalse =>
      simp only [remove_withMisses, makeRoom_withMisses]
      rfl

end Misses

end MemoryStore

end OnceCache
