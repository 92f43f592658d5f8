import OnceCache.Proofs.Store.Accounts
import OnceCache.Proofs.Store.Timed

namespace OnceCache

namespace Config

-- A configuration that keeps bodies. The bytes of all of them are never as many as those that a sum
-- too large for the accounts counts as.
structure Limits (c : Config) : Prop where
  enabled : c.isEnabled
  memory  : c.maxMemoryBytes.toNat < UInt64.size - 1

-- How long a body can be.
def longest (c : Config) : Nat := min c.maxEntryBytes.toNat c.maxMemoryBytes.toNat

theorem toNat_bodyLimit {c : Config} : c.bodyLimit.toNat = c.longest := by
  simp only [bodyLimit, longest, min, Min.min, UInt64.le_iff_toNat_le]
  split <;> rfl

-- The length of a body that is not too long has room in 64 bits.
theorem toNat_size {c : Config} {body : Body} (h : body.size ≤ c.longest) :
    body.size.toUInt64.toNat = body.size := by
  have : body.size ≤ c.maxMemoryBytes.toNat := Nat.le_trans h (Nat.min_le_right ..)
  exact UInt64.toNat_ofNat_of_lt' (Nat.lt_of_le_of_lt this c.maxMemoryBytes.toNat_lt)

end Config

namespace MemoryStore

variable {s : MemoryStore} {config : Config} {key k : Key} {b : StoredBody} {body : Body}
variable {now : Instant} {ttl : Option Duration} {incoming : UInt64}
variable {candidates : List (Key × StoredBody)}

-- One more body of so many bytes is within the limits.
structure Fits (config : Config) (s : MemoryStore) (bytes : Nat) : Prop where
  entries : s.bodies.size < config.maxEntries.toNat
  memory  : s.bytes + bytes ≤ config.maxMemoryBytes.toNat

structure WithinLimits (config : Config) (s : MemoryStore) : Prop where
  entries : s.bodies.size ≤ config.maxEntries.toNat
  memory  : s.bytes ≤ config.maxMemoryBytes.toNat
  lengths : ∀ {key b}, s.bodies.find? key = some b → b.body.size ≤ config.longest

-- A write that succeeds exactly if its body is not too long. If it is, nothing changes. If it is
-- not, there is room for it in the end, and it is stored.
structure Settles (config : Config) (s : Timed) (w : Write)
    (r : Reply MemoryStore (Except Error Unit)) : Prop where
  answer  : r.answer =
    if config.longest < w.body.size then
      .error (.payloadTooLarge w.key w.body.size config.longest)
    else .ok ()
  refused : config.longest < w.body.size → r.state = s.store
  room    : w.body.size ≤ config.longest →
    Fits config (s.store.roomFor w.key w.body) w.body.size ∧
      r.state = (s.store.roomFor w.key w.body).putIn w.key (.create w.body w.ttl s.now)
  stored  : w.body.size ≤ config.longest →
    r.state.bodies.find? w.key = some (.create w.body w.ttl s.now)

structure KeepsLimits (config : Config) (s : Timed) : Prop where
  within     : config.Limits → s.store.Accounted ∧ s.store.WithinLimits config
  set        : config.Limits → ∀ key body,
    Settles config s ⟨key, body, config.ttl⟩ (s.store.set s.now key body)
  setWithTtl : config.Limits → ∀ key body ttl,
    Settles config s ⟨key, body, ttl⟩ (s.store.setWithTtl s.now key body ttl)
  disabled   : config.isEnabled = false → s.store.bodies = ∅ ∧
    (∀ key body, (s.store.set s.now key body).answer = .ok ()) ∧
    ∀ key body ttl, (s.store.setWithTtl s.now key body ttl).answer = .ok ()

section Room

-- Candidates that are all bodies there are make room in the end: with none left, all is free.
theorem hasRoom_evict (h : s.Tallied) (hp : candidates.Perm s.bodies.pairs)
    (he : 0 < s.config.maxEntries.toNat)
    (hm : incoming.toNat ≤ s.config.maxMemoryBytes.toNat) :
    (evict incoming candidates s).2.hasRoom incoming := by
  induction candidates generalizing s
  case nil =>
    have hs : s.bodies.pairs = [] := hp.nil_eq.symm
    have hc : s.bodies.size = 0 := by rw [Table.size, hs, List.length_nil]
    have hb : s.bytes = 0 := by rw [bytes, Table.sum, hs, List.map_nil, List.foldr_nil]
    exact h.hasRoom_iff.mpr ⟨hc ▸ he, fun _ => by rwa [hb, Nat.zero_add]⟩
  case cons p candidates hi =>
    unfold evict
    split
    case isTrue hr => exact hr
    case isFalse =>
      have hb : s.bodies.find? p.1 = some p.2 := Table.find?_eq_some_iff.mpr (hp.subset (.head _))
      exact hi (h.takeOut hb).record (hp.trans (Table.perm_cons_erase hb)).cons_inv he hm

theorem hasRoom_makeRoom (h : s.Tallied) (he : 0 < s.config.maxEntries.toNat)
    (hm : incoming.toNat ≤ s.config.maxMemoryBytes.toNat) :
    (s.makeRoom incoming).2.hasRoom incoming := by
  unfold makeRoom
  split
  case isTrue hr => exact hr
  case isFalse => exact hasRoom_evict h (List.mergeSort_perm _ _) he hm

namespace Tallied

theorem roomFor (h : s.Tallied) : (s.roomFor key body).Tallied := roomFor_of takeOut record h

-- Whatever was stored before, room is made for a body that is taken.
theorem hasRoom_roomFor (h : s.Tallied) (ht : s.config.takes body) :
    (s.roomFor key body).hasRoom body.size.toUInt64 := by
  have ⟨he, hl⟩ : s.config.isEnabled ∧ body.size ≤ s.config.longest := by
    simpa [Config.takes, Config.toNat_bodyLimit] using ht
  have hc : (s.remove key).2.config = s.config := Shrunk.remove.config
  refine hasRoom_makeRoom (remove_of takeOut h) ?_ ?_
  all_goals rw [hc]
  · have : 0 < s.config.maxEntries := by
      simp only [Config.isEnabled, Bool.and_eq_true, decide_eq_true_eq] at he
      exact he.left
    exact UInt64.lt_iff_toNat_lt.mp this
  · rw [Config.toNat_size hl]
    exact Nat.le_trans hl (Nat.min_le_right ..)

theorem setWithTtl (h : s.Tallied) (ht : s.config.takes body) :
    (s.setWithTtl now key body ttl).state.Tallied := by
  have hl : body.size ≤ s.config.longest := by
    simp only [Config.takes, Config.toNat_bodyLimit, Bool.and_eq_true, decide_eq_true_eq] at ht
    exact ht.right
  have hu : (s.roomFor key body).Tallied := h.roomFor
  rw [(setWithTtl_of_takes ht).right]
  exact hu.putIn (by simp [find?_roomFor]) (Config.toNat_size hl) (h.hasRoom_roomFor ht)

-- Whatever is done with a store, its accounts stay as right as its limits ask.
theorem step {s : Timed} {o : Operation} (h : s.store.Tallied) : (s.step o).store.Tallied :=
  Timed.step_of h h.setWithTtl h.touch takeOut record withCleaning

theorem run {s : Timed} {operations : List Operation} (h : s.store.Tallied) :
    (s.run operations).store.Tallied := by
  induction operations generalizing s
  case nil => exact h
  case cons o operations hi => exact hi h.step

end Tallied

end Room

namespace WithinLimits

theorem create : (create config).WithinLimits config where
  entries := Nat.zero_le _
  memory  := Nat.zero_le _
  lengths := nofun

theorem touch (h : s.WithinLimits config) (hb : s.bodies.find? key = some b) :
    (s.touch now key b).WithinLimits config where
  entries := Nat.le_trans (Nat.le_of_eq (Table.size_insert_of_find?_some hb)) h.entries
  memory  := Nat.le_trans (Nat.le_of_eq (bytes_touch hb)) h.memory
  lengths {k c} hc := by
    rw [find?_touch] at hc
    split at hc
    case isTrue =>
      cases hc
      have := h.lengths hb
      exact this
    case isFalse => exact h.lengths hc

theorem takeOut (h : s.WithinLimits config) (hb : s.bodies.find? key = some b) :
    (s.takeOut key b).WithinLimits config where
  entries    := Nat.le_trans (Nat.le.intro (Table.size_erase_add hb)) h.entries
  memory     := Nat.le_trans (Nat.le.intro (bytes_takeOut hb)) h.memory
  lengths hc := h.lengths (Table.find?_erase_eq_some_iff.mp hc).right

-- One more body that fits leaves a store within its limits.
theorem putIn (h : s.WithinLimits config) (hk : s.bodies.find? key = none)
    (hf : s.Fits config b.body.size) (hl : b.body.size ≤ config.longest) :
    (s.putIn key b).WithinLimits config where
  entries := Nat.le_trans (Nat.le_of_eq (Table.size_insert_of_find?_none hk)) hf.entries
  memory  := Nat.le_trans (Nat.le_of_eq (bytes_putIn hk)) hf.memory
  lengths {k c} hc := by
    rw [putIn_bodies, Table.find?_insert] at hc
    split at hc
    case isTrue =>
      cases hc
      exact hl
    case isFalse => exact h.lengths hc

end WithinLimits

-- What holds of a store with limits all along: its accounts are right and its limits hold.
structure InOrder (config : Config) (s : MemoryStore) : Prop where
  configured : s.config = config
  accounts   : s.Accounted
  within     : s.WithinLimits config

namespace InOrder

theorem create : (create config).InOrder config where
  configured := rfl
  accounts   := .create
  within     := .create

theorem record {c : Counter} (h : s.InOrder config) : (s.record c).InOrder config where
  configured := h.configured
  accounts   := h.accounts.record
  within     := ⟨h.within.entries, h.within.memory, h.within.lengths⟩

theorem takeOut (h : s.InOrder config) (hb : s.bodies.find? key = some b) :
    (s.takeOut key b).InOrder config where
  configured := h.configured
  accounts   := h.accounts.takeOut hb
  within     := h.within.takeOut hb

theorem touch (h : s.InOrder config) (hb : s.bodies.find? key = some b) :
    (s.touch now key b).InOrder config where
  configured := h.configured
  accounts   := h.accounts.touch hb
  within     := h.within.touch hb

theorem roomFor (h : s.InOrder config) : (s.roomFor key body).InOrder config :=
  roomFor_of takeOut record h

theorem takes_iff (h : s.InOrder config) (hc : config.Limits) :
    s.config.takes body ↔ body.size ≤ config.longest := by
  rw [h.configured, Config.takes, hc.enabled, Config.toNat_bodyLimit]
  simp

-- Whatever was stored before, room is made for a body that is not too long.
theorem fits (h : s.InOrder config) (hc : config.Limits) (hl : body.size ≤ config.longest) :
    (s.roomFor key body).Fits config body.size := by
  have ht : s.config.takes body := (h.takes_iff hc).mpr hl
  have hr : (s.roomFor key body).hasRoom body.size.toUInt64 := h.accounts.tallied.hasRoom_roomFor ht
  have hu : (s.roomFor key body).InOrder config := h.roomFor
  have := hu.accounts.room_of_hasRoom (hu.configured ▸ hc.memory) hr
  rw [hu.configured, Config.toNat_size hl] at this
  exact ⟨this.left, this.right⟩

theorem setWithTtl (h : s.InOrder config) (hc : config.Limits) (ht : s.config.takes body) :
    (s.setWithTtl now key body ttl).state.InOrder config := by
  have hl : body.size ≤ config.longest := (h.takes_iff hc).mp ht
  have hf : (s.roomFor key body).Fits config body.size := h.fits hc hl
  have hu : (s.roomFor key body).InOrder config := h.roomFor
  have hk : (s.roomFor key body).bodies.find? key = none := by simp [find?_roomFor]
  rw [(setWithTtl_of_takes ht).right]
  constructor
  case configured => exact hu.configured
  case accounts =>
    refine hu.accounts.putIn hk ?_ ?_
    · exact Nat.lt_of_le_of_lt hf.entries config.maxEntries.toNat_lt
    · exact Nat.lt_of_le_of_lt hf.memory config.maxMemoryBytes.toNat_lt
  case within => exact hu.within.putIn hk hf hl

end InOrder

-- A store that takes a body has limits.
theorem InOrder.limits (h : s.InOrder config)
    (hm : config.maxMemoryBytes.toNat < UInt64.size - 1) (ht : s.config.takes body) :
    config.Limits where
  enabled := by
    rw [h.configured, Config.takes, Bool.and_eq_true] at ht
    exact ht.left
  memory  := hm

theorem Timed.inOrder_run_of_memory {s : Timed} {operations : List Operation}
    (h : s.store.InOrder config) (hm : config.maxMemoryBytes.toNat < UInt64.size - 1) :
    (s.run operations).store.InOrder config := by
  induction operations generalizing s
  case nil => exact h
  case cons o operations hi =>
    have hw {w : Write} (ht : s.store.config.takes w.body) :
        (s.store.setWithTtl s.now w.key w.body w.ttl).state.InOrder config :=
      h.setWithTtl (h.limits hm ht) ht
    refine hi (step_of h hw h.touch .takeOut .record fun h => ?_)
    exact ⟨h.configured, ⟨h.accounts.entryCount, h.accounts.memoryUsage⟩,
      ⟨h.within.entries, h.within.memory, h.within.lengths⟩⟩

theorem Timed.inOrder_run {s : Timed} {operations : List Operation} (h : s.store.InOrder config)
    (hc : config.Limits) : (s.run operations).store.InOrder config :=
  inOrder_run_of_memory h hc.memory

theorem Timed.empty_run {s : Timed} {operations : List Operation} (h : s.store.bodies = ∅)
    (hc : s.store.config.isEnabled = false) : (s.run operations).store.bodies = ∅ := by
  induction operations generalizing s
  case nil => exact h
  case cons o operations hi =>
    have hn {key b} (hb : s.store.bodies.find? key = some b) : False := by simp [h] at hb
    refine hi (step_of (P := fun t => t.bodies = ∅) h (fun ht => ?_) (fun hb => (hn hb).elim)
      (fun h hb => ?_) (fun h => h) (fun h => h)) ?_
    · simp [Config.takes, hc] at ht
    · simp [h] at hb
    · rw [config_step, hc]

theorem settles {s : Timed} {w : Write} (h : s.store.InOrder config) (hc : config.Limits) :
    Settles config s w (s.store.setWithTtl s.now w.key w.body w.ttl) := by
  have ht : s.store.config.takes w.body ↔ w.body.size ≤ config.longest := h.takes_iff hc
  constructor
  case answer =>
    unfold setWithTtl
    rw [h.configured, hc.enabled, Config.toNat_bodyLimit, Bool.not_true, if_neg Bool.false_ne_true]
    split <;> rfl
  case refused =>
    intro hl
    refine setWithTtl_of_not_takes (Bool.eq_false_iff.mpr fun h => ?_)
    exact Nat.not_le_of_lt hl (ht.mp h)
  case room => exact fun hl => ⟨h.fits hc hl, (setWithTtl_of_takes (ht.mpr hl)).right⟩
  case stored => exact fun hl => by rw [find?_setWithTtl (ht.mpr hl), if_pos rfl]

-- Whatever is done with a store, its limits hold, and it takes exactly the bodies that are not too
-- long. A store that keeps nothing takes every body and stays empty.
theorem limits_hold (config : Config) (start : Instant) (operations : List Operation) :
    KeepsLimits config ((Timed.init config start).run operations) := by
  generalize hs : (Timed.init config start).run operations = s
  have hr : s.store.config = config := hs ▸ Timed.config_run
  have h (hc : config.Limits) : s.store.InOrder config := by
    have hi : (Timed.init config start).store.InOrder config := .create
    exact hs ▸ Timed.inOrder_run hi hc
  constructor
  case within => exact fun hc => ⟨(h hc).accounts, (h hc).within⟩
  case set =>
    intro hc key body
    have : Settles config s ⟨key, body, s.store.config.ttl⟩ (s.store.set s.now key body) :=
      settles (h hc) hc
    rwa [hr] at this
  case setWithTtl => exact fun hc key body ttl => settles (w := ⟨key, body, ttl⟩) (h hc) hc
  case disabled =>
    intro hd
    refine ⟨hs ▸ Timed.empty_run rfl hd, fun key body => ?_, fun key body ttl => ?_⟩
    · simp [MemoryStore.set, MemoryStore.setWithTtl, hr, hd]
    · simp [MemoryStore.setWithTtl, hr, hd]

-- Three bodies where only the last has room, and one that never has.
theorem limits_hold_crowded :
    let config : Config := { Config.conservative with maxEntries := 2, maxMemoryBytes := 4 }
    let s := (Timed.init config 0).run [
      .set ⟨"a"⟩ ⟨#[1]⟩, .wait 1000, .set ⟨"b"⟩ ⟨#[2, 2]⟩, .setWithTtl ⟨"c"⟩ ⟨#[3, 3, 3]⟩ none]
    config.Limits ∧ s.store.WithinLimits config ∧
      (s.store.set s.now ⟨"c"⟩ ⟨#[4, 4, 4, 4, 4]⟩).answer =
        .error (.payloadTooLarge ⟨"c"⟩ 5 4) := by
  intro config s
  have hc : config.Limits := ⟨by decide, by decide⟩
  have h : KeepsLimits config s := limits_hold config 0 _
  exact ⟨hc, (h.within hc).right, (h.set hc ⟨"c"⟩ ⟨#[4, 4, 4, 4, 4]⟩).answer⟩

end MemoryStore

end OnceCache
