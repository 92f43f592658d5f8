import Mathlib
import OnceCache.Proofs.Stats
import OnceCache.Proofs.Store.Booking
import OnceCache.Proofs.Store.Lifetime

namespace OnceCache

-- A body as it was when it was put in. To use it does not make it another one.
def StoredBody.unused (b : StoredBody) : StoredBody := { b with usedAfter := 0 }

namespace MemoryStore

-- Why a body leaves a store.
inductive Reason
  -- Another one was put in under its key.
  | replaced
  -- It made room.
  | evicted
  -- Its time was over.
  | expired
  | removed
  | cleared
  deriving DecidableEq

-- The counter that counts those who leave for a reason, if there is one.
def Reason.counter? : Reason → Option Counter
  | evicted => some .eviction
  | expired => some .expiration
  | replaced | removed | cleared => none

abbrev Departure := Reason × Key × StoredBody

-- A key with the body under it as it was when it was put in.
def asPut (p : Key × StoredBody) : Key × StoredBody := (p.1, p.2.unused)

-- The bodies that a new one takes the place of, and why.
def displaced (s : MemoryStore) (w : Write) : List Departure :=
  (s.under w.key).map (.replaced, ·) ++
    ((s.remove w.key).2.picked w.body.size.toUInt64).map (.evicted, ·)

namespace Event

def after (e : Event) : Timed := e.before.step e.operation

-- A write that an enabled store answers with success.
def accepts (e : Event) : Bool :=
  e.before.store.config.isEnabled && (e.operation.write? e.before.store.config).any fun w =>
    (e.before.store.setWithTtl e.before.now w.key w.body w.ttl).answer.isOk

-- The body that an operation puts in, if it does.
def arrivals (e : Event) : List (Key × StoredBody) :=
  e.taken?.toList.map fun w => (w.key, .create w.body w.ttl e.before.now)

-- The bodies that an operation takes out, and why.
def departures (e : Event) : List Departure :=
  match e.operation with
  | .set .. | .setWithTtl .. => e.taken?.toList.flatMap e.before.store.displaced
  | .get _ | .cleanUp => (e.before.leaving e.operation).map (.expired, ·)
  | .remove _ => (e.before.leaving e.operation).map (.removed, ·)
  | .clear => (e.before.leaving e.operation).map (.cleared, ·)
  | .contains _ | .wait _ => []

def isRead (e : Event) : Bool :=
  match e.operation with
  | .get _ => true
  | _ => false

-- A read that is answered with a body.
def finds (e : Event) : Bool :=
  match e.operation with
  | .get key => (e.before.store.get e.before.now key).answer.isOk
  | _ => false

-- A read after which the body is gone that was under its key.
def lapses (e : Event) : Bool :=
  match e.operation with
  | .get key => e.before.store.bodies.contains key && !e.after.store.bodies.contains key
  | _ => false

-- A body is put in where there was one.
def replaces (e : Event) : Bool := e.taken?.any fun w => e.before.store.bodies.contains w.key

-- A removal that says that there was a body.
def removes (e : Event) : Bool :=
  match e.operation with
  | .remove key => (e.before.store.remove key).1
  | _ => false

-- How many bodies an operation cleared.
def clears (e : Event) : Nat :=
  match e.operation with
  | .clear => e.before.store.size - e.after.store.size
  | _ => 0

-- How many bodies a clean-up says that it dropped.
def cleans (e : Event) : Nat :=
  match e.operation with
  | .cleanUp => (e.before.store.cleanUp e.before.now).answer
  | _ => 0

end Event

-- The bodies that were taken out in a history, and why.
def departed (history : List Event) : List Departure := history.flatMap (·.departures)

-- How many bodies left for a reason, as far as the store and the answers of its operations tell.
def headcount (history : List Event) (s : Timed) : Reason → UInt64
  | .replaced => .ofNat (history.countP (·.replaces))
  | .evicted => s.store.stats.evictions
  | .expired => s.store.stats.expirations
  | .removed => .ofNat (history.countP (·.removes))
  | .cleared => .ofNat (history.map (·.clears)).sum

-- Bodies do not get lost. Each one that was put in is there, or it was taken out once and for one
-- reason, and it is counted for that reason and for no other. All of the counts wrap around.
structure Conserves (history : List Event) (s : Timed) : Prop where
  bodies      : (history.flatMap (·.arrivals)).Perm
    (s.store.bodies.pairs.map asPut ++ (departed history).map (asPut ·.2))
  there       : ∀ e ∈ history, (e.departures.map (·.2.1)).Nodup ∧
    ∀ d ∈ e.departures, e.before.store.bodies.find? d.2.1 = some d.2.2
  headcounts  : ∀ reason,
    headcount history s reason = .ofNat ((departed history).countP (·.1 = reason))
  sets        : .ofNat (history.countP (·.accepts)) = .ofNat s.store.size +
    headcount history s .evicted + headcount history s .expired + headcount history s .replaced +
      headcount history s .removed + headcount history s .cleared
  reads       : s.store.stats.hits + s.store.stats.misses = .ofNat (history.countP (·.isRead))
  hits        : s.store.stats.hits = .ofNat (history.countP (·.finds))
  expirations : .ofNat ((history.map (·.cleans)).sum + history.countP (·.lapses)) =
    s.store.stats.expirations

variable {s : MemoryStore} {key : Key} {b : StoredBody} {body : Body} {w : Write} {c : Counter}
variable {pairs : List (Key × StoredBody)} {e : Event} {history : List Event}

-- A read by cases: what it takes out and what it comes to.
inductive LookUp (s : Timed) (key : Key) :
    List (Key × StoredBody) → Reply MemoryStore (Except Error Body) → Prop
  | absent :
    s.store.bodies.find? key = none →
    LookUp s key [] ⟨.error (.notFound key), s.store.record .miss, []⟩
  | expired {b : StoredBody} :
    s.store.bodies.find? key = some b →
    LookUp s key [(key, b)]
      ⟨.error (.notFound key), ((s.store.takeOut key b).record .expiration).record .miss, []⟩
  | found {b : StoredBody} :
    s.store.bodies.find? key = some b →
    LookUp s key [] ⟨.ok b.body, s.store.touch s.now key b, []⟩

theorem Timed.lookUp (s : Timed) (key : Key) :
    LookUp s key (s.leaving (.get key)) (s.store.get s.now key) := by
  cases hb : s.store.bodies.find? key
  case none =>
    rw [get_of_none hb]
    simp only [leaving, under, hb]
    exact .absent hb
  case some b =>
    cases he : b.isExpired s.now
    case false =>
      rw [get_of_some hb he]
      have hl : s.leaving (.get key) = [] := by simp [leaving, under, hb, he]
      rw [hl]
      exact .found hb
    case true =>
      have hl : s.leaving (.get key) = [(key, b)] := by simp [leaving, under, hb, he]
      simp only [MemoryStore.get, hb, he, if_true, hl]
      exact .expired hb

section Bodies

open List

-- What is taken out and what stays is what there was.
theorem perm_foldl {f : MemoryStore → Key × StoredBody → MemoryStore} (hf : TakesOut f)
    (hp : ∀ p ∈ pairs, s.bodies.find? p.1 = some p.2) (hn : (pairs.map (·.1)).Nodup) :
    s.bodies.pairs ~ pairs ++ (pairs.foldl f s).bodies.pairs := by
  induction pairs generalizing s
  case nil => exact .refl _
  case cons p pairs hi =>
    have ⟨hne, hn⟩ := nodup_cons.mp hn
    have hs : s.bodies.pairs ~ p :: (f s p).bodies.pairs := by
      rw [hf.bodies]
      exact Table.perm_cons_erase (hp p (.head _))
    refine hs.trans (.cons p (hi (fun q hq => ?_) hn))
    have : p.1 ≠ q.1 := fun he => hne (mem_map.mpr ⟨q, hq, he.symm⟩)
    rw [hf.bodies, Table.find?_erase_of_ne this]
    exact hp q (.tail _ hq)

theorem perm_remove : s.bodies.pairs ~ s.under key ++ (s.remove key).2.bodies.pairs := by
  rw [remove_eq]
  exact perm_foldl takesOut_takeOut (fun p hp => (mem_under_iff.mp hp).right) under_keys_nodup

theorem perm_roomFor :
    s.bodies.pairs ~ s.replaced w ++ (s.roomFor w.key w.body).bodies.pairs := by
  rw [replaced, append_assoc, roomFor, makeRoom_eq]
  refine perm_remove.trans (.append_left _ ?_)
  exact perm_foldl takesOut_evictOne (fun _ => find?_of_mem_picked) picked_keys_nodup

theorem perm_putIn : ((s.roomFor w.key w.body).putIn w.key b).bodies.pairs ~
    (w.key, b) :: (s.roomFor w.key w.body).bodies.pairs :=
  Table.insert_perm_of_find?_none (by simp [find?_roomFor])

theorem perm_touch {now : Instant} (hb : s.bodies.find? key = some b) :
    (s.touch now key b).bodies.pairs.map asPut ~ s.bodies.pairs.map asPut := by
  have ht : (s.touch now key b).bodies.pairs ~ (key, b.use now) :: (s.bodies.erase key).pairs :=
    Table.insert_perm
  have hs : s.bodies.pairs ~ (key, b) :: (s.bodies.erase key).pairs := Table.perm_cons_erase hb
  exact (ht.map asPut).trans (hs.map asPut).symm

theorem map_snd_displaced : (s.displaced w).map (·.2) = s.replaced w := by
  simp [displaced, replaced, Function.comp_def]

namespace Event

-- The writes that an enabled store answers with success are those that it takes.
theorem accepts_eq : e.accepts = e.taken?.isSome := by
  unfold accepts taken? Operation.taken?
  cases e.operation.write? e.before.store.config
  case none => simp
  case some w =>
    cases ht : e.before.store.config.takes w.body
    case true =>
      have he : e.before.store.config.isEnabled := (Bool.and_eq_true_iff.mp ht).left
      simp [ht, he, (setWithTtl_of_takes ht).left, Except.isOk, Except.toBool]
    case false =>
      have hl (he : e.before.store.config.isEnabled) :
          e.before.store.config.bodyLimit.toNat < w.body.size := by
        simpa [Config.takes, he] using ht
      cases he : e.before.store.config.isEnabled
      case false => simp [ht]
      case true => simp [ht, setWithTtl, he, hl he, Except.isOk, Except.toBool]

theorem map_snd_departures : e.departures.map (·.2) = e.before.leaving e.operation := by
  obtain ⟨s, o⟩ := e
  have hset : ((o.taken? s.store.config).toList.flatMap s.store.displaced).map (·.2) =
      (o.taken? s.store.config).toList.flatMap s.store.replaced := by
    simp only [List.map_flatMap, map_snd_displaced]
  cases o
  case set => exact hset
  case setWithTtl => exact hset
  all_goals simp [departures, Timed.leaving, Function.comp_def]

-- What there was and what is put in is what there is then and what is taken out.
theorem perm_step : e.before.store.bodies.pairs.map asPut ++ e.arrivals ~
    e.after.store.bodies.pairs.map asPut ++ (e.before.leaving e.operation).map asPut := by
  obtain ⟨s, o⟩ := e
  -- Where nothing is put in.
  have hout {t : MemoryStore} (h : s.store.bodies.pairs ~ s.leaving o ++ t.bodies.pairs) :
      s.store.bodies.pairs.map asPut ++ [] ~
        t.bodies.pairs.map asPut ++ (s.leaving o).map asPut := by
    rw [append_nil, ← map_append]
    exact (h.trans perm_append_comm).map _
  have hset {w} (hw : o.write? s.store.config = some w)
      (hl : s.leaving o = (o.taken? s.store.config).toList.flatMap s.store.replaced) :
      s.store.bodies.pairs.map asPut ++ arrivals ⟨s, o⟩ ~
        (s.step o).store.bodies.pairs.map asPut ++ (s.leaving o).map asPut := by
    unfold arrivals taken?
    cases ht : o.taken? s.store.config
    case none =>
      rw [Timed.step_of_refused hw ht]
      rw [ht] at hl
      exact hout (by rw [hl]; exact .refl _)
    case some w =>
      obtain ⟨hw, ht'⟩ := Option.filter_eq_some_iff.mp ht
      rw [Timed.step_of_write? hw, (setWithTtl_of_takes ht').right, Timed.leaving_of_taken? ht]
      have hs : s.store.bodies.pairs.map asPut ~
          ((s.store.roomFor w.key w.body).bodies.pairs ++ s.store.replaced w).map asPut :=
        (perm_roomFor.trans perm_append_comm).map _
      have hb : ((s.store.roomFor w.key w.body).putIn w.key
          (.create w.body w.ttl s.now)).bodies.pairs.map asPut ~ asPut _ :: _ :=
        perm_putIn.map asPut
      calc
        _ ~ asPut (w.key, .create w.body w.ttl s.now) :: s.store.bodies.pairs.map asPut :=
          perm_append_singleton ..
        _ ~ _ := .cons _ hs
        _ ~ _ := by
          rw [map_append, ← cons_append]
          exact hb.symm.append_right _
  cases o
  case set => exact hset rfl rfl
  case setWithTtl => exact hset rfl rfl
  case get key =>
    change s.store.bodies.pairs.map asPut ++ [] ~
      (s.store.get s.now key).state.bodies.pairs.map asPut ++ (s.leaving (.get key)).map asPut
    have h : LookUp s key (s.leaving (.get key)) (s.store.get s.now key) := s.lookUp key
    generalize s.leaving (.get key) = out, s.store.get s.now key = r at h hout
    cases h
    case absent => exact hout (.refl _)
    case expired hb => exact hout (Table.perm_cons_erase hb)
    case found hb => exact (perm_touch hb).symm.append_right []
  case contains => exact hout (.refl _)
  case remove => exact hout perm_remove
  case clear =>
    refine hout (perm_foldl takesOut_takeOut (fun p hp => ?_) s.store.bodies.keys_nodup)
    exact Table.find?_eq_some_iff.mpr hp
  case cleanUp =>
    change s.store.bodies.pairs.map asPut ++ [] ~
      (s.store.cleanUp s.now).state.bodies.pairs.map asPut ++ (s.leaving .cleanUp).map asPut
    cases hc : s.store.cleaning
    case true =>
      have hl : s.leaving .cleanUp = [] := by simp [Timed.leaving, hc]
      rw [MemoryStore.cleanUp, if_pos hc]
      exact hout (by rw [hl]; exact .refl _)
    case false =>
      have hl : s.leaving .cleanUp = s.store.expired s.now := by simp [Timed.leaving, hc]
      rw [MemoryStore.cleanUp, if_neg (by simp [hc])]
      refine hout ?_
      rw [hl]
      refine perm_foldl (s := { s.store with cleaning := true }) takesOut_expire (fun p hp => ?_)
        expired_keys_nodup
      exact (mem_expired_iff.mp hp).left
  case wait => exact hout (.refl _)

end Event

end Bodies

section Counters

variable {r : Reason}

theorem stats_foldl : (pairs.foldl (fun s p => (s.takeOut p.1 p.2).record c) s).stats =
    s.stats.after (pairs.map fun _ => c) := by
  induction pairs generalizing s
  case nil => rfl
  case cons p pairs hi => exact hi

theorem stats_without : (s.without pairs).stats = s.stats := by
  induction pairs generalizing s
  case nil => rfl
  case cons p pairs hi => exact hi

theorem stats_roomFor : (s.roomFor key body).stats =
    s.stats.after (((s.remove key).2.picked body.size.toUInt64).map fun _ => .eviction) := by
  rw [roomFor, makeRoom_eq]
  refine stats_foldl.trans ?_
  rw [remove_eq, stats_without]

namespace Event

-- What a read counts for.
def lookups (e : Event) : List Counter := if e.isRead then [if e.finds then .hit else .miss] else []

-- What is counted in an operation.
def counters (e : Event) : List Counter := e.departures.filterMap (·.1.counter?) ++ e.lookups

-- Those who leave for a reason with a counter of its own are counted there, and nowhere else.
theorem counters_of_reason : (pairs.map (r, ·) : List Departure).filterMap (·.1.counter?) =
    r.counter?.toList.flatMap fun c => pairs.map fun _ => c := by
  rw [List.filterMap_map, Function.comp_def]
  cases hc : r.counter?
  case none => simp [hc]
  case some c =>
    simp only [hc, Option.toList_some, List.flatMap_singleton]
    exact congrFun List.filterMap_eq_map' pairs

theorem counters_displaced : (s.displaced w).filterMap (·.1.counter?) =
    ((s.remove w.key).2.picked w.body.size.toUInt64).map fun _ => .eviction := by
  rw [displaced, List.filterMap_append, counters_of_reason, counters_of_reason]
  simp [Reason.counter?]

theorem stats_step : e.after.store.stats = e.before.store.stats.after e.counters := by
  obtain ⟨s, o⟩ := e
  have hset {w} (hw : o.write? s.store.config = some w) (hl : lookups ⟨s, o⟩ = [])
      (hd : departures ⟨s, o⟩ = (o.taken? s.store.config).toList.flatMap s.store.displaced) :
      (s.step o).store.stats = s.store.stats.after (counters ⟨s, o⟩) := by
    rw [counters, hl, hd, List.append_nil]
    cases ht : o.taken? s.store.config
    case none =>
      rw [Timed.step_of_refused hw ht]
      rfl
    case some w =>
      obtain ⟨hw, ht⟩ := Option.filter_eq_some_iff.mp ht
      rw [Timed.step_of_write? hw, (setWithTtl_of_takes ht).right, Option.toList_some,
        List.flatMap_singleton, counters_displaced]
      exact stats_roomFor
  cases o
  case set => exact hset rfl rfl rfl
  case setWithTtl => exact hset rfl rfl rfl
  case get key =>
    have h : LookUp s key (s.leaving (.get key)) (s.store.get s.now key) := s.lookUp key
    change (s.store.get s.now key).state.stats = s.store.stats.after
      (((s.leaving (.get key)).map (Reason.expired, ·)).filterMap (·.1.counter?) ++
        [if (s.store.get s.now key).answer.isOk then .hit else .miss])
    generalize s.leaving (.get key) = out, s.store.get s.now key = r at h
    cases h <;> rfl
  case contains => rfl
  case remove key =>
    change (s.store.remove key).2.stats = s.store.stats.after
      (((s.store.under key).map (Reason.removed, ·)).filterMap (·.1.counter?) ++ [])
    rw [counters_of_reason, remove_eq, stats_without]
    rfl
  case clear =>
    change (s.store.without s.store.bodies.pairs).stats = s.store.stats.after
      ((s.store.bodies.pairs.map (Reason.cleared, ·)).filterMap (·.1.counter?) ++ [])
    rw [counters_of_reason, stats_without]
    rfl
  case cleanUp =>
    change (s.store.cleanUp s.now).state.stats = s.store.stats.after
      (((s.leaving .cleanUp).map (Reason.expired, ·)).filterMap (·.1.counter?) ++ [])
    rw [counters_of_reason, Timed.leaving, MemoryStore.cleanUp]
    cases s.store.cleaning
    case true => rfl
    case false =>
      simp only [Reason.counter?, Option.toList_some, List.flatMap_singleton, List.append_nil]
      exact stats_foldl
  case wait => rfl

theorem count_counters : e.counters.count c =
    e.departures.countP (·.1.counter? == some c) + e.lookups.count c := by
  rw [counters, List.count_append, List.count_filterMap]

-- Whoever leaves for a reason with a counter counts there, and nobody else does.
theorem count_departure (hr : r.counter? = some c) :
    e.counters.count c = e.departures.countP (·.1 = r) := by
  have hl : e.lookups.count c = 0 := by
    unfold lookups
    cases r <;> cases hr <;> cases e.isRead <;> cases e.finds <;> rfl
  rw [count_counters, hl]
  refine List.countP_congr fun d _ => ?_
  cases r <;> cases hr <;> cases d.1 <;> simp [Reason.counter?]

-- Nothing that leaves counts as read.
theorem count_lookup (hc : ∀ r : Reason, r.counter? ≠ some c) :
    e.counters.count c = e.lookups.count c := by
  simp [count_counters, hc]

theorem isRead_of_finds (h : e.finds) : e.isRead := by
  obtain ⟨s, o⟩ := e
  cases o <;> first | rfl | cases h

theorem count_hit : e.counters.count .hit = e.finds.toNat := by
  rw [count_lookup fun r => by cases r <;> simp [Reason.counter?], lookups]
  cases hf : e.finds
  case false => cases e.isRead <;> rfl
  case true => simp [isRead_of_finds hf]

theorem count_read : e.counters.count .hit + e.counters.count .miss = e.isRead.toNat := by
  rw [count_hit, count_lookup fun r => by cases r <;> simp [Reason.counter?], lookups]
  cases hf : e.finds
  case false => cases e.isRead <;> rfl
  case true => simp [isRead_of_finds hf]

end Event

end Counters

section Reasons

variable {r r' : Reason}

theorem length_under : (s.under key).length = (s.bodies.contains key).toNat := by
  unfold under Table.contains
  cases s.bodies.find? key <;> rfl

theorem countP_of_reason : (pairs.map (r, ·) : List Departure).countP (·.1 = r') =
    if r = r' then pairs.length else 0 := by
  split
  case isTrue h => simp [h, Function.comp_def]
  case isFalse h => simp [h, Function.comp_def]

theorem countP_displaced : (s.displaced w).countP (·.1 = r) =
    (if .replaced = r then (s.bodies.contains w.key).toNat else 0) +
      if .evicted = r then ((s.remove w.key).2.picked w.body.size.toUInt64).length else 0 := by
  rw [displaced, List.countP_append, countP_of_reason, countP_of_reason, length_under]

theorem countP_flatMap_displaced {w? : Option Write} (hr : .replaced ≠ r) (he : .evicted ≠ r) :
    (w?.toList.flatMap s.displaced).countP (·.1 = r) = 0 := by
  cases w?
  case none => rfl
  case some w =>
    rw [Option.toList_some, List.flatMap_singleton, countP_displaced, if_neg hr, if_neg he]

namespace Event

theorem countP_replaced : e.departures.countP (·.1 = .replaced) = e.replaces.toNat := by
  obtain ⟨s, o⟩ := e
  have hset : ((o.taken? s.store.config).toList.flatMap s.store.displaced).countP
      (·.1 = .replaced) = (replaces ⟨s, o⟩).toNat := by
    unfold replaces taken?
    cases o.taken? s.store.config
    case none => rfl
    case some w =>
      rw [Option.toList_some, List.flatMap_singleton, countP_displaced]
      rfl
  cases o
  case set => exact hset
  case setWithTtl => exact hset
  case contains => rfl
  case wait => rfl
  all_goals exact countP_of_reason

theorem countP_removed : e.departures.countP (·.1 = .removed) = e.removes.toNat := by
  obtain ⟨s, o⟩ := e
  cases o
  case set => exact countP_flatMap_displaced nofun nofun
  case setWithTtl => exact countP_flatMap_displaced nofun nofun
  case remove key =>
    refine countP_of_reason.trans ?_
    change (s.store.under key).length = (s.store.remove key).1.toNat
    unfold under remove
    cases s.store.bodies.find? key <;> rfl
  case contains => rfl
  case wait => rfl
  all_goals exact countP_of_reason

theorem countP_cleared : e.departures.countP (·.1 = .cleared) = e.clears := by
  obtain ⟨s, o⟩ := e
  cases o
  case set => exact countP_flatMap_displaced nofun nofun
  case setWithTtl => exact countP_flatMap_displaced nofun nofun
  case clear =>
    have : s.store.clear.bodies = ∅ := Table.eq_empty_iff.mpr fun _ => find?_clear
    refine countP_of_reason.trans ?_
    change s.store.size = s.store.size - s.store.clear.bodies.size
    rw [this]
    rfl
  case contains => rfl
  case wait => rfl
  all_goals exact countP_of_reason

theorem countP_expired : e.departures.countP (·.1 = .expired) = e.cleans + e.lapses.toNat := by
  obtain ⟨s, o⟩ := e
  cases o
  case set => exact countP_flatMap_displaced nofun nofun
  case setWithTtl => exact countP_flatMap_displaced nofun nofun
  case get key =>
    refine countP_of_reason.trans ?_
    have h : LookUp s key (s.leaving (.get key)) (s.store.get s.now key) := s.lookUp key
    change (s.leaving (.get key)).length = 0 + (s.store.bodies.contains key &&
      !(s.store.get s.now key).state.bodies.contains key).toNat
    generalize s.leaving (.get key) = out, s.store.get s.now key = r at h
    unfold Table.contains
    cases h
    case absent hb => simp [hb]
    case expired hb => simp [hb, record, takeOut]
    case found hb => simp [hb, find?_touch]
  case cleanUp =>
    refine countP_of_reason.trans ?_
    change (s.leaving .cleanUp).length = (s.store.cleanUp s.now).answer + 0
    rw [Timed.leaving, MemoryStore.cleanUp]
    cases s.store.cleaning <;> rfl
  case contains => rfl
  case wait => rfl
  all_goals exact countP_of_reason

end Event

end Reasons

open List

-- What was put in is there or was taken out, and all that happened is counted.
structure Booked (history : List Event) (s : Timed) : Prop where
  bodies : (history.flatMap (·.arrivals)).Perm
    (s.store.bodies.pairs.map asPut ++ (departed history).map (asPut ·.2))
  stats  : s.store.stats = ({} : Stats).after (history.flatMap (·.counters))

namespace Booked

variable {s : Timed} {o : Operation} {operations : List Operation} {config : Config}
variable {start : Instant}

theorem init : Booked [] (.init config start) where
  bodies := .nil
  stats  := rfl

theorem step (h : Booked history s) : Booked (history ++ [⟨s, o⟩]) (s.step o) where
  bodies := by
    let e : Event := ⟨s, o⟩
    have hd : e.departures.map (asPut ·.2) = (e.before.leaving e.operation).map asPut := by
      rw [← e.map_snd_departures, map_map]
      rfl
    have he : s.store.bodies.pairs.map asPut ++ e.arrivals ~
      (s.step o).store.bodies.pairs.map asPut ++ (e.before.leaving e.operation).map asPut :=
        e.perm_step
    rw [flatMap_append, flatMap_singleton, departed, flatMap_append, flatMap_singleton, map_append,
      hd]
    calc
      _ ~ (s.store.bodies.pairs.map asPut ++ (departed history).map (asPut ·.2)) ++ e.arrivals :=
        h.bodies.append_right _
      _ ~ (s.store.bodies.pairs.map asPut ++ e.arrivals) ++ (departed history).map (asPut ·.2) := by
        rw [append_assoc, append_assoc]
        exact .append_left _ perm_append_comm
      _ ~ _ := he.append_right _
      _ ~ _ := by
        rw [append_assoc]
        exact .append_left _ perm_append_comm
  stats := by
    have he : (s.step o).store.stats = s.store.stats.after (Event.counters ⟨s, o⟩) :=
      Event.stats_step (e := ⟨s, o⟩)
    rw [he, h.stats, ← Stats.after_append, List.flatMap_append, List.flatMap_singleton]

theorem run (h : Booked history s) :
    Booked (history ++ s.trace operations) (s.run operations) :=
  Timed.recorded_run .step h

end Booked

theorem countP_eq_sum {p : Event → Bool} :
    history.countP p = (history.map fun e => (p e).toNat).sum := by
  induction history
  case nil => rfl
  case cons e history hi =>
    rw [countP_cons, hi, map_cons, sum_cons, Nat.add_comm]
    cases p e <;> rfl

-- Every body that leaves does so for one reason.
theorem length_departed {departures : List Departure} : departures.length =
    departures.countP (·.1 = .evicted) + departures.countP (·.1 = .expired) +
      departures.countP (·.1 = .replaced) + departures.countP (·.1 = .removed) +
      departures.countP (·.1 = .cleared) := by
  induction departures
  case nil => rfl
  case cons d departures hi =>
    obtain ⟨r, p⟩ := d
    cases r <;> simp [hi] <;> omega

namespace Booked

variable {s : Timed}

theorem value_eq (h : Booked history s) : s.store.stats.value c =
    .ofNat (history.map fun e => e.counters.count c).sum := by
  rw [h.stats, Stats.value_after, count_flatMap]
  cases c <;> exact UInt64.zero_add _

theorem headcounts (h : Booked history s) (r : Reason) :
    headcount history s r = .ofNat ((departed history).countP (·.1 = r)) := by
  rw [departed, countP_flatMap, Function.comp_def]
  cases r
  case evicted =>
    refine h.value_eq (c := .eviction) |>.trans ?_
    simp only [Event.count_departure (r := .evicted) rfl]
  case expired =>
    refine h.value_eq (c := .expiration) |>.trans ?_
    simp only [Event.count_departure (r := .expired) rfl]
  case replaced => simp only [headcount, countP_eq_sum, Event.countP_replaced]
  case removed => simp only [headcount, countP_eq_sum, Event.countP_removed]
  case cleared => simp only [headcount, Event.countP_cleared]

theorem conserves (h : Booked history s) : Conserves history s where
  bodies := h.bodies
  there e _ := by
    have hk : e.departures.map (·.2.1) = (e.before.leaving e.operation).map (·.1) := by
      rw [← e.map_snd_departures, map_map]
      rfl
    refine ⟨hk ▸ Timed.leaving_keys_nodup, fun d hd => ?_⟩
    have hm : d.2 ∈ e.before.leaving e.operation :=
      e.map_snd_departures ▸ mem_map.mpr ⟨d, hd, rfl⟩
    exact Timed.find?_of_mem_leaving hm
  headcounts := h.headcounts
  sets := by
    have hl := h.bodies.length_eq
    have ha : (history.flatMap (·.arrivals)).length = history.countP (·.accepts) := by
      rw [length_flatMap, countP_eq_sum]
      refine congrArg sum (map_congr_left fun e _ => ?_)
      rw [Event.accepts_eq, Event.arrivals]
      cases e.taken? <;> rfl
    rw [ha, length_append, length_map, length_map, length_departed] at hl
    simp only [h.headcounts, ← UInt64.ofNat_add, hl, MemoryStore.size, Table.size, Nat.add_assoc]
  reads := by
    have hh : s.store.stats.hits = _ := h.value_eq (c := .hit)
    have hm : s.store.stats.misses = _ := h.value_eq (c := .miss)
    rw [hh, hm, ← UInt64.ofNat_add, ← sum_map_add, countP_eq_sum]
    simp only [Event.count_read]
  hits := by
    have hh : s.store.stats.hits = _ := h.value_eq (c := .hit)
    simp only [hh, Event.count_hit, countP_eq_sum]
  expirations := by
    have he : s.store.stats.expirations = _ := h.value_eq (c := .expiration)
    rw [he, countP_eq_sum, ← sum_map_add]
    simp only [Event.count_departure (r := .expired) rfl, Event.countP_expired]

end Booked

-- Whatever is done with a store, no body gets lost.
theorem bodies_conserved (config : Config) (start : Instant) (operations : List Operation) :
    Conserves ((Timed.init config start).trace operations)
      ((Timed.init config start).run operations) := by
  have h : Booked [] (.init config start) := .init
  exact h.run.conserves

-- A body that makes room after its time is over counts as evicted, and not as expired.
example :
    let config : Config := { Config.conservative with maxEntries := 1 }
    let operations : List Operation := [
      .setWithTtl ⟨"a"⟩ ⟨#[1]⟩ (some (.ofSeconds 1)), .wait 2000000000, .set ⟨"b"⟩ ⟨#[2]⟩,
      .get ⟨"a"⟩]
    let history := (Timed.init config 0).trace operations
    let s := (Timed.init config 0).run operations
    (departed history).map (fun d => (d.1, d.2.1)) = [(.evicted, ⟨"a"⟩)] ∧
      s.store.stats = { misses := 1, evictions := 1 } := by
  decide_cbv

end MemoryStore

end OnceCache
