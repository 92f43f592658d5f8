import Mathlib.Data.List.Permutation
import OnceCache.Proofs.Store.Lifetime

namespace OnceCache

namespace StoredBody

-- The times of a body that was created since a start and last used at an instant.
structure Dated (b : StoredBody) (start last : Instant) : Prop where
  created   : start ≤ b.createdAt
  used      : b.createdAt ≤ last
  usedAfter : b.usedAfter = min (last.microsSince b.createdAt) (UInt64.size - 1)

namespace Dated

variable {b : StoredBody} {start last now : Instant}

theorem create {body : Body} {ttl : Option Duration} (h : start ≤ now) :
    Dated (.create body ttl now) start now where
  created   := h
  used      := Nat.le_refl _
  usedAfter := by simp [StoredBody.create, Instant.microsSince]

theorem use (h : b.Dated start last) (hn : last ≤ now) : (b.use now).Dated start now where
  created   := h.created
  used      := Nat.le_trans h.used hn
  usedAfter := by
    have : last.microsSince b.createdAt ≤ now.microsSince b.createdAt :=
      Nat.div_le_div_right (Nat.sub_le_sub_right hn _)
    simp only [StoredBody.use, h.usedAfter]
    omega

-- The time of the last use that a body keeps is behind it by less than a microsecond.
theorem lastUse (h : b.Dated start last) (hs : last < start + UInt64.size * 1000) :
    b.lastUse ≤ last ∧ last < b.lastUse + 1000 := by
  obtain ⟨hc, hl, hu⟩ := h
  simp only [StoredBody.lastUse, Instant.microsSince, Instant] at hs hc hl hu ⊢
  omega

end Dated

end StoredBody

namespace MemoryStore

-- Whether an operation uses the body under a key. A write of the key that is taken does, and so
-- does a read that finds it. To ask whether there is a body is no use of it.
def Event.uses (e : Event) (key : Key) : Bool :=
  match e.operation with
  | .get k => k = key && (e.before.store.get e.before.now k).answer.isOk
  | _ => e.taken?.any (·.key = key)

-- When the body under a key was last used.
def lastUse? (history : List Event) (key : Key) : Option Instant :=
  ((history.filter (·.uses key)).getLast?).map (·.before.now)

-- Bodies make room in the order of their last uses. Only uses that are less than a microsecond
-- apart can be mistaken for one another.
structure FollowsUses (history : List Event) (s : Timed) : Prop where
  used   : ∀ key b, s.store.bodies.find? key = some b →
    ∃ used, lastUse? history key = some used ∧ used ≤ s.now
  evicts : ∀ o w, o.write? s.store.config = some w → ∀ early late, early ≠ w.key → late ≠ w.key →
    s.store.bodies.find? early ≠ none → s.store.bodies.find? late ≠ none →
    ∀ before after, lastUse? history early = some before → lastUse? history late = some after →
    before + 1000 ≤ after →
    (s.step o).store.bodies.find? late = none → (s.step o).store.bodies.find? early = none

variable {s : MemoryStore} {key early late : Key} {b c : StoredBody} {w : Write}
variable {start : Instant} {history : List Event} {e : Event} {o : Operation}
variable {incoming : UInt64} {config : Config}

theorem lastUse?_append : lastUse? (history ++ [e]) key =
    if e.uses key then some e.before.now else lastUse? history key := by
  cases he : e.uses key <;> simp [lastUse?, List.filter_append, he]

section Order

theorem mem_take_of_pairwise {α : Type} {r : α → α → Prop} {l : List α} {x y : α} {n : Nat}
    (hl : l.Pairwise r) (hx : x ∈ l.take n) (hy : y ∈ l) (hr : ¬r x y) : y ∈ l.take n := by
  rw [← l.take_append_drop n] at hl hy
  refine (List.mem_append.mp hy).resolve_right fun hd => hr ?_
  exact (List.pairwise_append.mp hl).right.right x hx y hd

theorem byLastUse_pairwise : s.byLastUse.Pairwise fun p q => p.2.lastUse ≤ q.2.lastUse := by
  refine (List.pairwise_mergeSort (fun p q r => ?_) (fun p q => ?_) _).imp of_decide_eq_true
  · simpa using Nat.le_trans
  · simpa using Nat.le_total ..

-- Whatever was used before a body that is picked to make room is picked with it.
theorem mem_picked_of_lastUse_lt {p q : Key × StoredBody} (hp : p ∈ s.picked incoming)
    (hq : s.bodies.find? q.1 = some q.2) (h : q.2.lastUse < p.2.lastUse) : q ∈ s.picked incoming :=
  mem_take_of_pairwise byLastUse_pairwise hp (mem_byLastUse_iff.mpr hq) (Nat.not_le_of_lt h)

theorem mem_evictedFor_of_lastUse_lt {body : Body} (hl : late ∈ s.evictedFor key body)
    (hne : early ≠ key) (he : s.bodies.find? early = some b)
    (hb : s.bodies.find? late = some c) (h : b.lastUse < c.lastUse) :
    early ∈ s.evictedFor key body := by
  obtain ⟨p, hp, rfl⟩ := List.mem_map.mp hl
  have hc : p.2 = c := by
    have := Shrunk.remove.bodies (find?_of_mem_picked hp)
    exact Option.some.inj (this.symm.trans hb)
  have he : (s.remove key).2.bodies.find? early = some b := by
    rwa [find?_remove, if_neg hne.symm]
  exact List.mem_map.mpr ⟨(early, b), mem_picked_of_lastUse_lt hp he (hc ▸ h), rfl⟩

end Order

namespace Timed

variable {s : Timed}

-- How the body that is under a key after an operation came to be there.
inductive Found (s : Timed) (o : Operation) (key : Key) : StoredBody → Prop
  | kept {b : StoredBody} :
    Event.uses ⟨s, o⟩ key = false → s.store.bodies.find? key = some b → Found s o key b
  | used {b : StoredBody} :
    Event.uses ⟨s, o⟩ key → s.store.bodies.find? key = some b → Found s o key (b.use s.now)
  | stored {w : Write} : Event.uses ⟨s, o⟩ key → Found s o key (.create w.body w.ttl s.now)

theorem found_of_write? (hw : o.write? s.store.config = some w)
    (hu : Event.uses ⟨s, o⟩ key = (o.taken? s.store.config).any (·.key = key))
    (h : (s.step o).store.bodies.find? key = some c) : Found s o key c := by
  cases ht : o.taken? s.store.config <;> rw [ht] at hu
  case none =>
    rw [step_of_refused hw ht] at h
    exact .kept hu h
  case some w =>
    rw [find?_step_of_taken? ht] at h
    split at h
    case isTrue hk =>
      cases h
      exact .stored (by simpa [hu] using hk)
    case isFalse hk =>
      split at h
      case isTrue => cases h
      case isFalse => exact .kept (by simpa [hu] using hk) h

theorem found_get {k : Key} (h : (s.step (.get k)).store.bodies.find? key = some c) :
    Found s (.get k) key c := by
  change (s.store.get s.now k).state.bodies.find? key = some c at h
  cases hb : s.store.bodies.find? k
  case none =>
    rw [get_of_none hb] at h
    exact .kept (by simp [Event.uses, get_of_none hb, Except.isOk, Except.toBool]) h
  case some b =>
    cases he : b.isExpired s.now
    case false =>
      have hu : Event.uses ⟨s, .get k⟩ key = decide (k = key) := by
        simp [Event.uses, get_of_some hb he, Except.isOk, Except.toBool]
      rw [get_of_some hb he] at h
      dsimp only at h
      rw [find?_touch] at h
      split at h
      case isTrue hk =>
        cases h
        exact .used (hu.trans (decide_eq_true hk)) (hk ▸ hb)
      case isFalse hk => exact .kept (hu.trans (decide_eq_false hk)) h
    case true =>
      have hu : Event.uses ⟨s, .get k⟩ key = false := by
        simp [Event.uses, get, hb, he, Except.isOk, Except.toBool]
      have hs : s.store.Shrunk (s.store.takeOut k b) := .takeOut
      simp only [get, hb, he, if_true] at h
      exact .kept hu (hs.bodies h)

theorem found (h : (s.step o).store.bodies.find? key = some c) : Found s o key c := by
  cases o
  case set => exact found_of_write? rfl rfl h
  case setWithTtl => exact found_of_write? rfl rfl h
  case get => exact found_get h
  case contains => exact .kept rfl h
  case remove =>
    exact .kept rfl (Shrunk.remove.bodies h)
  case clear => cases find?_clear.symm.trans h
  case cleanUp => exact .kept rfl (Shrunk.cleanUp.bodies h)
  case wait => exact .kept rfl h

end Timed

-- All bodies of a store keep the times of their last uses.
structure KeepsUses (start : Instant) (history : List Event) (s : Timed) : Prop where
  started : start ≤ s.now
  uses    : ∀ key b, s.store.bodies.find? key = some b →
    ∃ last, lastUse? history key = some last ∧ last ≤ s.now ∧ b.Dated start last

namespace KeepsUses

variable {s : Timed} {operations : List Operation}

theorem init : KeepsUses start [] (.init config start) where
  started    := Nat.le_refl _
  uses _ _ h := by cases h

theorem step (h : KeepsUses start history s) :
    KeepsUses start (history ++ [⟨s, o⟩]) (s.step o) where
  started      := Nat.le_trans h.started Timed.now_le_step
  uses key c hc := by
    rw [lastUse?_append]
    have hn : s.now ≤ (s.step o).now := Timed.now_le_step
    cases Timed.found hc
    case kept hu hb =>
      rw [if_neg (by simp [hu])]
      obtain ⟨last, he, hl, hd⟩ := h.uses key c hb
      exact ⟨last, he, Nat.le_trans hl hn, hd⟩
    case used b hu hb =>
      rw [if_pos hu]
      obtain ⟨_, _, hl, hd⟩ := h.uses key b hb
      exact ⟨s.now, rfl, hn, hd.use hl⟩
    case stored hu =>
      rw [if_pos hu]
      exact ⟨s.now, rfl, hn, .create h.started⟩

theorem run (h : KeepsUses start history s) :
    KeepsUses start (history ++ s.trace operations) (s.run operations) :=
  Timed.recorded_run .step h

-- A body that was used a microsecond before another one is the first of the two to make room.
theorem evicts {before after : Instant} (h : KeepsUses start history s)
    (hs : s.now < start + UInt64.size * 1000) (hw : o.write? s.store.config = some w)
    (hne : early ≠ w.key) (hnl : late ≠ w.key) (he : s.store.bodies.find? early = some b)
    (hl : s.store.bodies.find? late = some c) (hb : lastUse? history early = some before)
    (ha : lastUse? history late = some after) (hba : before + 1000 ≤ after)
    (hg : (s.step o).store.bodies.find? late = none) :
    (s.step o).store.bodies.find? early = none := by
  cases ht : o.taken? s.store.config
  case none =>
    rw [Timed.step_of_refused hw ht] at hg
    cases hl.symm.trans hg
  case some w' =>
    cases hw.symm.trans (Option.filter_eq_some_iff.mp ht).left
    have hlt : b.lastUse < c.lastUse := by
      obtain ⟨_, hb', hnb, hdb⟩ := h.uses early b he
      obtain ⟨_, ha', hnc, hdc⟩ := h.uses late c hl
      cases hb.symm.trans hb'
      cases ha.symm.trans ha'
      have hub := (hdb.lastUse (Nat.lt_of_le_of_lt hnb hs)).left
      have huc := (hdc.lastUse (Nat.lt_of_le_of_lt hnc hs)).right
      simp only [Instant] at hub huc hba ⊢
      omega
    rw [Timed.find?_step_of_taken? ht, if_neg hnl.symm] at hg
    rw [Timed.find?_step_of_taken? ht, if_neg hne.symm]
    split at hg
    case isTrue hm => exact if_pos (mem_evictedFor_of_lastUse_lt hm hne he hl hlt)
    case isFalse => cases hl.symm.trans hg

end KeepsUses

-- In a run of less than 2 ^ 64 microseconds eviction follows what the history says about uses.
theorem eviction_follows_uses (config : Config) (start : Instant) (operations : List Operation)
    (hs : ((Timed.init config start).run operations).now < start + UInt64.size * 1000) :
    FollowsUses ((Timed.init config start).trace operations)
      ((Timed.init config start).run operations) := by
  have h : KeepsUses start ((Timed.init config start).trace operations)
      ((Timed.init config start).run operations) := by
    have hi : KeepsUses start [] (.init config start) := .init
    exact hi.run
  generalize (Timed.init config start).run operations = s at h hs
  constructor
  case used =>
    intro key b hb
    obtain ⟨last, hl, hn, _⟩ := h.uses key b hb
    exact ⟨last, hl, hn⟩
  case evicts =>
    intro o w hw early late hne hnl he hl before after hb ha
    obtain ⟨b, he⟩ := Option.ne_none_iff_exists'.mp he
    obtain ⟨c, hl⟩ := Option.ne_none_iff_exists'.mp hl
    exact h.evicts hs hw hne hnl he hl hb ha

-- Of two bodies the older one is read again, and the other one makes room for a third.
theorem eviction_follows_uses_read :
    let config : Config := { Config.conservative with maxEntries := 2 }
    let operations : List Operation :=
      [.set ⟨"a"⟩ ⟨#[1]⟩, .wait 1000, .set ⟨"b"⟩ ⟨#[2]⟩, .wait 2000, .get ⟨"a"⟩]
    let history := (Timed.init config 0).trace operations
    let s := (Timed.init config 0).run operations
    let t := s.step (.set ⟨"c"⟩ ⟨#[3]⟩)
    s.now < 0 + UInt64.size * 1000 ∧ FollowsUses history s ∧
      (lastUse? history ⟨"b"⟩ = some 1000 ∧ lastUse? history ⟨"a"⟩ = some 2000) ∧
      t.store.bodies.keys = [⟨"a"⟩, ⟨"c"⟩] := by
  intro config operations history s t
  have hs : s.now < 0 + UInt64.size * 1000 := by decide
  exact ⟨hs, eviction_follows_uses config 0 operations hs, by decide, by decide_cbv⟩

-- Within a microsecond the body that was used last can be the first to make room.
example :
    let config : Config := { Config.conservative with maxEntries := 2 }
    let operations : List Operation :=
      [.set ⟨"a"⟩ ⟨#[1]⟩, .wait 500, .set ⟨"b"⟩ ⟨#[2]⟩, .wait 999, .get ⟨"a"⟩]
    let history := (Timed.init config 0).trace operations
    let t := ((Timed.init config 0).run operations).step (.set ⟨"c"⟩ ⟨#[3]⟩)
    (lastUse? history ⟨"b"⟩ = some 500 ∧ lastUse? history ⟨"a"⟩ = some 999) ∧
      t.store.bodies.keys = [⟨"b"⟩, ⟨"c"⟩] := by
  decide_cbv

end MemoryStore

end OnceCache
