import OnceCache.Proofs.Store.Conservation
import OnceCache.Proofs.Store.Recency
import OnceCache.Proofs.Text.Order

namespace OnceCache

namespace MemoryStore

-- Room for one more body of so many bytes next to others.
structure Room (config : Config) (others : List (Key × StoredBody)) (bytes : Nat) : Prop where
  entries : others.length < config.maxEntries.toNat
  memory  : (others.map (·.2.body.size)).sum + bytes ≤ config.maxMemoryBytes.toNat

-- A body that is the first of two to make room: the one that was used first, or of two that were
-- used at the same time the one whose key has the smaller bytes.
def Precedes (p q : Key × StoredBody) : Prop :=
  p.2.lastUse < q.2.lastUse ∨
    p.2.lastUse = q.2.lastUse ∧ Bytes.ofText p.1.text < Bytes.ofText q.1.text

-- A new body is stored, and the first `count` of the others make room for it. These are as few as
-- can be. The body before under the key of the new one is not one of the others. Nothing else
-- changes.
structure Admits (s t : MemoryStore) (now : Instant) (w : Write) (others : List (Key × StoredBody))
    (count : Nat) : Prop where
  perm      : others.Perm (s.bodies.pairs.filter (·.1 ≠ w.key))
  ordered   : others.Pairwise Precedes
  inside    : count ≤ others.length
  room      : Room s.config (others.drop count) w.body.size
  fewest    : ∀ fewer < count, ¬Room s.config (others.drop fewer) w.body.size
  fits      : Room s.config others w.body.size → count = 0
  bodies    : t.bodies.pairs.Perm ((w.key, .create w.body w.ttl now) :: others.drop count)
  stats     : t.stats = { s.stats with evictions := s.stats.evictions + .ofNat count }
  accounts  : t.Accounted
  unchanged : t.config = s.config ∧ t.cleaning = s.cleaning

-- Whatever is accepted, it evicts the fewest of the others that can make room for it.
structure EvictsFewest (s : Timed) : Prop where
  set        : ∀ key body, (s.store.set s.now key body).answer = .ok () → ∃ others count,
    Admits s.store (s.store.set s.now key body).state s.now ⟨key, body, s.store.config.ttl⟩ others
      count
  setWithTtl : ∀ key body ttl, (s.store.setWithTtl s.now key body ttl).answer = .ok () →
    ∃ others count, Admits s.store (s.store.setWithTtl s.now key body ttl).state s.now
      ⟨key, body, ttl⟩ others count

variable {s : MemoryStore} {key : Key} {body : Body} {w : Write} {config : Config}
variable {incoming : UInt64} {candidates pairs : List (Key × StoredBody)} {n : Nat}

section Order

theorem pairs_precede : (s.bodies.pairs.filter (·.2.lastUse = n)).Pairwise Precedes := by
  refine List.pairwise_filter.mpr (s.bodies.ascending.imp fun {p q} h hp hq => .inr ⟨?_, ?_⟩)
  · rw [of_decide_eq_true hp, of_decide_eq_true hq]
  · have : p.1.text < q.1.text := compareOfLessAndEq_eq_lt.mp (Ordering.isLT_iff_eq_lt.mp h)
    exact Bytes.ofText_lt_iff.mpr this

-- Bodies that were used at the same time stay in the order of their keys.
theorem filter_byLastUse :
    s.byLastUse.filter (·.2.lastUse = n) = s.bodies.pairs.filter (·.2.lastUse = n) := by
  have hs : (s.bodies.pairs.filter (·.2.lastUse = n)).Sublist s.byLastUse := by
    refine List.sublist_mergeSort (fun p q r => ?_) (fun p q => ?_) ?_ List.filter_sublist
    · simpa using Nat.le_trans
    · simpa using Nat.le_total ..
    refine List.pairwise_filter.mpr (List.pairwise_of_forall fun p q hp hq => ?_)
    rw [of_decide_eq_true hp, of_decide_eq_true hq]
    exact decide_eq_true (Nat.le_refl _)
  have hf := hs.filter (·.2.lastUse = n)
  rw [List.filter_filter] at hf
  simp only [Bool.and_self] at hf
  exact (hf.eq_of_length ((List.mergeSort_perm ..).filter _).length_eq.symm).symm

theorem byLastUse_ordered : s.byLastUse.Pairwise Precedes := by
  refine List.pairwise_iff_forall_sublist.mpr fun {p q} h => ?_
  have hl : p.2.lastUse ≤ q.2.lastUse := List.pairwise_iff_forall_sublist.mp byLastUse_pairwise h
  obtain hlt | heq := Nat.lt_or_eq_of_le hl
  case inl => exact .inl hlt
  case inr =>
    have hs : [p, q].Sublist (s.bodies.pairs.filter (·.2.lastUse = q.2.lastUse)) := by
      have := h.filter (·.2.lastUse = q.2.lastUse)
      rw [filter_byLastUse] at this
      simpa [heq] using this
    exact List.pairwise_iff_forall_sublist.mp pairs_precede hs

end Order

section Room

-- The store after the first of its bodies have made room.
abbrev afterFirst (s : MemoryStore) (n : Nat) : MemoryStore :=
  (s.byLastUse.take n).foldl evictOne s

-- Bodies make room only as long as there is none.
theorem not_hasRoom_of_lt_evict (h : n < (evict incoming candidates s).1) :
    ¬((candidates.take n).foldl evictOne s).hasRoom incoming := by
  induction candidates generalizing s n
  case nil => cases h
  case cons p candidates hi =>
    unfold evict at h
    split at h
    case isTrue => cases h
    case isFalse hr =>
      cases n
      case zero => exact hr
      case succ n => exact hi (Nat.lt_of_succ_lt_succ h)

theorem not_hasRoom_of_lt (h : n < (s.makeRoom incoming).1) :
    ¬(s.afterFirst n).hasRoom incoming := by
  unfold makeRoom at h
  split at h
  case isTrue => cases h
  case isFalse => exact not_hasRoom_of_lt_evict h

theorem perm_afterFirst : (s.afterFirst n).bodies.pairs.Perm (s.byLastUse.drop n) := by
  have hp : s.byLastUse.Perm s.bodies.pairs := List.mergeSort_perm ..
  have ht : s.bodies.pairs.Perm (s.byLastUse.take n ++ (s.afterFirst n).bodies.pairs) :=
    perm_foldl takesOut_evictOne (fun _ => find?_of_mem_take) take_keys_nodup
  refine (List.perm_append_left_iff (s.byLastUse.take n)).mp (ht.symm.trans ?_)
  rw [List.take_append_drop]
  exact hp.symm

theorem InOrder.afterFirst (h : s.InOrder config) : (s.afterFirst n).InOrder config :=
  foldl_of takesOut_evictOne takeOut record h (fun _ => find?_of_mem_take) take_keys_nodup

theorem room_iff_fits (hp : s.bodies.pairs.Perm pairs) :
    Room config pairs n ↔ s.Fits config n := by
  have hc : s.bodies.size = pairs.length := hp.length_eq
  have hb : s.bytes = (pairs.map (·.2.body.size)).sum := (hp.map _).sum_nat
  constructor
  case mp => exact fun h => ⟨hc ▸ h.entries, hb ▸ h.memory⟩
  case mpr => exact fun h => ⟨hc ▸ h.entries, hb ▸ h.memory⟩

-- With fewer bodies gone than those that make room there is none yet.
theorem InOrder.not_room_of_lt (h : s.InOrder config) (hl : body.size ≤ config.longest)
    (hn : n < (s.makeRoom body.size.toUInt64).1) :
    ¬Room config (s.byLastUse.drop n) body.size := by
  intro hr
  have hf : (s.afterFirst n).Fits config body.size := (room_iff_fits perm_afterFirst).mp hr
  have ha : (s.afterFirst n).InOrder config := h.afterFirst
  refine not_hasRoom_of_lt hn (ha.accounts.hasRoom ?_ ?_)
  all_goals rw [ha.configured]
  · exact hf.entries
  · rw [Config.toNat_size hl]
    exact hf.memory

end Room

theorem after_evictions {u : Stats} : u.after (pairs.map fun _ => .eviction) =
    { u with evictions := u.evictions + .ofNat pairs.length } := by
  refine Stats.ext_value fun c => ?_
  rw [Stats.value_after_map]
  cases c <;> simp [Stats.value]

theorem bodies_remove : (s.remove key).2.bodies = s.bodies.erase key := by
  unfold remove
  split
  case h_1 => rfl
  case h_2 h => exact (Table.erase_of_find?_none h).symm

theorem perm_byLastUse_remove :
    (s.remove key).2.byLastUse.Perm (s.bodies.pairs.filter (·.1 ≠ key)) := by
  have hp : (s.remove key).2.byLastUse.Perm (s.remove key).2.bodies.pairs := List.mergeSort_perm ..
  rwa [bodies_remove] at hp

theorem perm_roomFor_drop : (s.roomFor key body).bodies.pairs.Perm
    ((s.remove key).2.byLastUse.drop ((s.remove key).2.makeRoom body.size.toUInt64).1) := by
  rw [roomFor, makeRoom_eq]
  exact perm_afterFirst

theorem roomFor_unchanged :
    (s.roomFor key body).config = s.config ∧ (s.roomFor key body).cleaning = s.cleaning :=
  roomFor_of (P := fun t => t.config = s.config ∧ t.cleaning = s.cleaning) (fun h _ => h)
    (fun h => h) ⟨rfl, rfl⟩

theorem InOrder.admits {now : Instant} (h : s.InOrder config) (hc : config.Limits)
    (ht : s.config.takes w.body) : ∃ others count,
      Admits s (s.setWithTtl now w.key w.body w.ttl).state now w others count := by
  have hl : w.body.size ≤ config.longest := (h.takes_iff hc).mp ht
  have hi : (s.setWithTtl now w.key w.body w.ttl).state.InOrder config := h.setWithTtl hc ht
  have hd : (s.remove w.key).2.InOrder config := remove_of takeOut h
  have hs : (s.roomFor w.key w.body).stats = _ := stats_roomFor.trans after_evictions
  have hp : (s.roomFor w.key w.body).bodies.pairs.Perm _ := perm_roomFor_drop
  have hr : Room config _ w.body.size := (room_iff_fits hp).mpr (h.fits hc hl)
  have hf {fewer : Nat} := hd.not_room_of_lt (n := fewer) hl
  rw [(setWithTtl_of_takes ht).right] at hi ⊢
  rw [picked] at hs
  generalize ((s.remove w.key).2.makeRoom w.body.size.toUInt64).1 = count at hs hp hr hf
  have hcount : count ≤ (s.remove w.key).2.byLastUse.length := by
    -- With all of them gone there is room.
    refine Nat.le_of_not_lt fun hlt => hf hlt ?_
    rw [List.drop_length]
    rwa [List.drop_of_length_le hlt.le] at hr
  refine ⟨(s.remove w.key).2.byLastUse, count, ?_⟩
  constructor
  case perm => exact perm_byLastUse_remove
  case ordered => exact byLastUse_ordered
  case inside => exact hcount
  case room => exact h.configured ▸ hr
  case fewest => exact fun _ hlt => h.configured ▸ hf hlt
  case fits => exact fun hr => Nat.eq_zero_of_not_pos fun hlt => hf hlt (h.configured ▸ hr)
  case bodies => exact perm_putIn.trans (.cons _ hp)
  case stats => rwa [List.length_take_of_le hcount] at hs
  case accounts => exact hi.accounts
  case unchanged => exact roomFor_unchanged

-- Whatever was done with a store before, a body that is accepted evicts the fewest others that can
-- make room for it, in the order of their last uses.
theorem set_evicts_fewest (config : Config) (start : Instant) (operations : List Operation)
    (hc : config.Limits) : EvictsFewest ((Timed.init config start).run operations) := by
  have h : ((Timed.init config start).run operations).store.InOrder config :=
    Timed.inOrder_run .create hc
  generalize (Timed.init config start).run operations = s at h
  have hw (w : Write) (ha : (s.store.setWithTtl s.now w.key w.body w.ttl).answer = .ok ()) :
      s.store.config.takes w.body := by
    rw [(settles h hc).answer] at ha
    split at ha
    case isTrue => cases ha
    case isFalse hl => exact (h.takes_iff hc).mpr (Nat.le_of_not_lt hl)
  constructor
  case set =>
    intro key body ha
    exact h.admits (w := ⟨key, body, s.store.config.ttl⟩) hc (hw ⟨key, body, _⟩ ha)
  case setWithTtl =>
    intro key body ttl ha
    exact h.admits (w := ⟨key, body, ttl⟩) hc (hw ⟨key, body, ttl⟩ ha)

-- Of two bodies that were used at the same time the one with the smaller key makes room, although
-- it was stored last.
theorem set_evicts_fewest_tie :
    let config : Config := { Config.conservative with maxEntries := 3, maxMemoryBytes := 6 }
    let s := (Timed.init config 0).run [
      .set ⟨"c"⟩ ⟨#[3, 3]⟩, .set ⟨"b"⟩ ⟨#[2, 2]⟩, .wait 5000, .set ⟨"a"⟩ ⟨#[1]⟩]
    let t := s.step (.setWithTtl ⟨"a"⟩ ⟨#[4, 4, 4]⟩ none)
    config.Limits ∧ EvictsFewest s ∧
      (s.store.setWithTtl s.now ⟨"a"⟩ ⟨#[4, 4, 4]⟩ none).answer = .ok () ∧
      t.store.bodies.keys = [⟨"a"⟩, ⟨"c"⟩] ∧ t.store.stats.evictions = 1 := by
  intro config s t
  have hc : config.Limits := ⟨by decide, by decide⟩
  have ht : s.store.config.takes ⟨#[4, 4, 4]⟩ := by decide_cbv
  refine ⟨hc, set_evicts_fewest config 0 _ hc, (setWithTtl_of_takes ht).left, ?_, ?_⟩
  · decide_cbv
  · decide_cbv

end MemoryStore

end OnceCache
