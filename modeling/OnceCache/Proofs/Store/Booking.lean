import OnceCache.Proofs.Store.Limits
import OnceCache.Proofs.Trace

namespace OnceCache.MemoryStore

-- An entry in the accounts: a body is taken out or put in.
inductive Booking
  | out (key : Key) (b : StoredBody)
  | into (key : Key) (b : StoredBody)

namespace Booking

def book (s : MemoryStore) : Booking → MemoryStore
  | out key b => s.takeOut key b
  | into key b => s.putIn key b

-- Neither account wraps around. What is taken off is on it, and what is added has room in 64 bits.
def IsExact (s : MemoryStore) : Booking → Prop
  | out _ b => 1 ≤ s.entryCount.toNat ∧ b.body.size ≤ s.memoryUsage.toNat
  | into _ b => s.entryCount.toNat + 1 < UInt64.size ∧
    s.memoryUsage.toNat + b.body.size < UInt64.size

-- Each of some entries is exact in the store that the entries before it lead to.
def AllExact (s : MemoryStore) (entries : List Booking) : Prop :=
  Along (fun before (e : Booking) => e.IsExact (before.foldl book s)) entries

end Booking

-- The body under a key, if there is one.
def under (s : MemoryStore) (key : Key) : List (Key × StoredBody) :=
  (s.bodies.find? key).toList.map (key, ·)

-- The bodies that a new one takes the place of: the one before it under its key, and those that
-- are picked to make room.
def replaced (s : MemoryStore) (w : Write) : List (Key × StoredBody) :=
  s.under w.key ++ (s.remove w.key).2.picked w.body.size.toUInt64

namespace Timed

-- The bodies that an operation takes out, in the order in which it does.
def leaving (s : Timed) (o : Operation) : List (Key × StoredBody) :=
  match o with
  | .set .. | .setWithTtl .. => (o.taken? s.store.config).toList.flatMap s.store.replaced
  | .get key => (s.store.under key).filter fun p => p.2.isExpired s.now
  | .contains _ | .wait _ => []
  | .remove key => s.store.under key
  | .clear => s.store.bodies.pairs
  | .cleanUp => bif s.store.cleaning then [] else s.store.expired s.now

-- The entries in the accounts that an operation makes, one after the other.
def bookings (s : Timed) (o : Operation) : List Booking :=
  (s.leaving o).map (fun p => .out p.1 p.2) ++
    (o.taken? s.store.config).toList.map fun w => .into w.key (.create w.body w.ttl s.now)

end Timed

-- The accounts are the same, and so are the bodies, apart from their times.
structure Balances (s t : MemoryStore) : Prop where
  entryCount  : t.entryCount = s.entryCount
  memoryUsage : t.memoryUsage = s.memoryUsage
  content     : ∀ key, t.content? key = s.content? key

-- The accounts say how many bodies there are and how many bytes they have. Whatever is done next,
-- it leads where the entries that it makes in the accounts lead, and none of these wraps around.
structure KeepsAccounts (s : Timed) : Prop where
  entries : s.store.entryCount.toNat = s.store.size
  isEmpty : s.store.isEmpty ↔ s.store.entryCount = 0
  memory  : s.store.memoryUsage.toNat = s.store.bytes
  once    : s.store.bodies.keys.Nodup
  booked  : ∀ o, Balances ((s.bookings o).foldl Booking.book s.store) (s.step o).store
  exact   : ∀ o, Booking.AllExact s.store (s.bookings o)

variable {s t : MemoryStore} {key k : Key} {b : StoredBody} {now : Instant} {config : Config}
variable {pairs : List (Key × StoredBody)} {o : Operation} {w : Write} {p : Key × StoredBody}

section Leaving

theorem mem_under_iff : p ∈ s.under key ↔ p.1 = key ∧ s.bodies.find? p.1 = some p.2 := by
  obtain ⟨k, b⟩ := p
  simp only [under, List.mem_map, Option.mem_toList, Prod.mk.injEq]
  constructor
  case mp =>
    rintro ⟨b, hb, rfl, rfl⟩
    exact ⟨rfl, hb⟩
  case mpr =>
    rintro ⟨rfl, hb⟩
    exact ⟨b, hb, rfl, rfl⟩

theorem under_keys_nodup : ((s.under key).map (·.1)).Nodup := by
  unfold under
  cases s.bodies.find? key <;> simp

theorem find?_of_mem_replaced (h : p ∈ s.replaced w) : s.bodies.find? p.1 = some p.2 := by
  cases List.mem_append.mp h
  case inl hu => exact (mem_under_iff.mp hu).right
  case inr hp => exact Shrunk.remove.bodies (find?_of_mem_picked hp)

theorem replaced_keys_nodup : ((s.replaced w).map (·.1)).Nodup := by
  rw [replaced, List.map_append]
  refine List.nodup_append.mpr ⟨under_keys_nodup, picked_keys_nodup, fun k hk j hj he => ?_⟩
  -- What is picked is not under the key of the new body.
  obtain ⟨p, hp, rfl⟩ := List.mem_map.mp hk
  obtain ⟨q, hq, rfl⟩ := List.mem_map.mp hj
  have := find?_of_mem_picked hq
  rw [find?_remove, if_pos ((mem_under_iff.mp hp).left.symm.trans he)] at this
  cases this

namespace Timed

variable {s : Timed}

theorem leaving_of_taken? (h : o.taken? s.store.config = some w) :
    s.leaving o = s.store.replaced w := by
  have hw := (Option.filter_eq_some_iff.mp h).left
  cases o <;> cases hw
  all_goals simp [leaving, h]

-- What an operation takes out is there,
theorem find?_of_mem_leaving (h : p ∈ s.leaving o) : s.store.bodies.find? p.1 = some p.2 := by
  have hset (h : p ∈ (o.taken? s.store.config).toList.flatMap s.store.replaced) :
      s.store.bodies.find? p.1 = some p.2 := by
    obtain ⟨w, _, hw⟩ := List.mem_flatMap.mp h
    exact find?_of_mem_replaced hw
  cases o
  case set => exact hset h
  case setWithTtl => exact hset h
  case get => exact (mem_under_iff.mp (List.mem_filter.mp h).left).right
  case contains => cases h
  case remove => exact (mem_under_iff.mp h).right
  case clear => exact Table.find?_eq_some_iff.mpr h
  case cleanUp =>
    unfold leaving at h
    cases hc : s.store.cleaning <;> rw [hc] at h
    case true => cases h
    case false => exact (mem_expired_iff.mp h).left
  case wait => cases h

-- and is taken out once.
theorem leaving_keys_nodup : ((s.leaving o).map (·.1)).Nodup := by
  have hset : (((o.taken? s.store.config).toList.flatMap s.store.replaced).map (·.1)).Nodup := by
    cases o.taken? s.store.config
    case none => exact .nil
    case some w =>
      rw [Option.toList_some, List.flatMap_singleton]
      exact replaced_keys_nodup
  cases o
  case set => exact hset
  case setWithTtl => exact hset
  case get => exact under_keys_nodup.sublist (List.filter_sublist.map _)
  case contains => exact .nil
  case remove => exact under_keys_nodup
  case clear => exact s.store.bodies.keys_nodup
  case cleanUp =>
    unfold leaving
    cases s.store.cleaning
    case true => exact .nil
    case false => exact expired_keys_nodup
  case wait => exact .nil

end Timed

end Leaving

section Booked

-- The store without some bodies.
def without (s : MemoryStore) (pairs : List (Key × StoredBody)) : MemoryStore :=
  pairs.foldl (fun s p => s.takeOut p.1 p.2) s

theorem without_append {pairs' : List (Key × StoredBody)} :
    s.without (pairs ++ pairs') = (s.without pairs).without pairs' :=
  List.foldl_append

theorem remove_eq : (s.remove key).2 = s.without (s.under key) := by
  unfold remove under
  cases s.bodies.find? key <;> rfl

namespace Balances

variable {c : Counter}

theorem refl : s.Balances s where
  entryCount  := rfl
  memoryUsage := rfl
  content _   := rfl

theorem record (h : s.Balances t) : s.Balances (t.record c) where
  entryCount  := h.entryCount
  memoryUsage := h.memoryUsage
  content     := h.content

theorem withCleaning {cleaning : Bool} (h : s.Balances t) :
    s.Balances { t with cleaning } where
  entryCount  := h.entryCount
  memoryUsage := h.memoryUsage
  content     := h.content

theorem touch (hb : s.bodies.find? key = some b) : s.Balances (s.touch now key b) where
  entryCount  := rfl
  memoryUsage := rfl
  content _   := content?_touch hb

theorem takeOut (h : s.Balances t) : (s.takeOut key b).Balances (t.takeOut key b) where
  entryCount  := congrArg (· - 1) h.entryCount
  memoryUsage := congrArg (· - b.size) h.memoryUsage
  content k   := by
    change ((t.bodies.erase key).find? k).map _ = ((s.bodies.erase key).find? k).map _
    rw [Table.find?_erase, Table.find?_erase]
    split
    case isTrue => rfl
    case isFalse => exact h.content k

theorem putIn (h : s.Balances t) : (s.putIn key b).Balances (t.putIn key b) where
  entryCount  := congrArg (· + 1) h.entryCount
  memoryUsage := congrArg (· + b.size) h.memoryUsage
  content k   := by rw [content?_putIn, content?_putIn, h.content]

-- It does not matter for the accounts what is counted when bodies are taken out.
theorem foldl {f : MemoryStore → Key × StoredBody → MemoryStore} (hf : TakesOut f)
    (h : s.Balances t) : (s.without pairs).Balances (pairs.foldl f t) := by
  induction pairs generalizing s t
  case nil => exact h
  case cons p pairs hi =>
    have ht : (s.takeOut p.1 p.2).Balances (t.takeOut p.1 p.2) := h.takeOut
    refine hi ?_
    obtain he | ⟨_, he⟩ := hf t p
    case inl => exact he ▸ ht
    case inr => exact he ▸ ht.record

theorem roomFor : (s.without (s.replaced w)).Balances (s.roomFor w.key w.body) := by
  rw [MemoryStore.roomFor, makeRoom_eq, replaced, without_append, ← remove_eq]
  exact foldl takesOut_evictOne refl

end Balances

namespace Timed

variable {s : Timed}

theorem foldl_bookings : (s.bookings o).foldl Booking.book s.store =
    (o.taken? s.store.config).toList.foldl
      (fun t w => t.putIn w.key (.create w.body w.ttl s.now)) (s.store.without (s.leaving o)) := by
  rw [bookings, List.foldl_append, List.foldl_map, List.foldl_map]
  rfl

-- An operation leads where the entries that it makes in the accounts lead.
theorem balances : Balances ((s.bookings o).foldl Booking.book s.store) (s.step o).store := by
  have hset {w} (hw : o.write? s.store.config = some w)
      (hl : s.leaving o = (o.taken? s.store.config).toList.flatMap s.store.replaced) :
      Balances ((s.bookings o).foldl Booking.book s.store) (s.step o).store := by
    rw [foldl_bookings, hl]
    cases ht : o.taken? s.store.config
    case none =>
      rw [step_of_refused hw ht]
      exact .refl
    case some w' =>
      obtain ⟨hw', ht⟩ := Option.filter_eq_some_iff.mp ht
      rw [step_of_write? hw', (setWithTtl_of_takes ht).right, Option.toList_some,
        List.flatMap_singleton]
      exact Balances.roomFor.putIn
  cases o
  case set => exact hset rfl rfl
  case setWithTtl => exact hset rfl rfl
  case get key =>
    rw [foldl_bookings]
    change Balances (s.store.without ((s.store.under key).filter _)) (s.store.get s.now key).state
    unfold under
    cases hb : s.store.bodies.find? key
    case none =>
      rw [get_of_none hb]
      exact .record .refl
    case some b =>
      rw [Option.toList_some, List.map_singleton]
      cases he : b.isExpired s.now
      case false =>
        rw [List.filter_cons_of_neg (by simp [he]), get_of_some hb he]
        exact .touch hb
      case true =>
        rw [List.filter_cons_of_pos (by simpa using he)]
        simp only [MemoryStore.get, hb, he, if_true]
        exact .record (.record .refl)
  case contains => exact .refl
  case remove key =>
    have : (s.step (.remove key)).store = _ := remove_eq
    rw [foldl_bookings, this]
    exact .refl
  case clear => exact foldl_bookings ▸ .refl
  case cleanUp =>
    rw [foldl_bookings]
    change Balances (s.store.without (s.leaving .cleanUp)) (s.store.cleanUp s.now).state
    unfold leaving MemoryStore.cleanUp
    cases s.store.cleaning
    case true => exact .refl
    case false => exact (Balances.foldl takesOut_expire (.withCleaning .refl)).withCleaning
  case wait => exact .refl

end Timed

end Booked

section Exact

-- What is there can be taken off the accounts.
theorem Accounted.isExact_out (h : s.Accounted) (hb : s.bodies.find? key = some b) :
    Booking.IsExact s (.out key b) where
  left  := by
    rw [h.entryCount, ← Table.size_erase_add hb]
    exact Nat.le_add_left ..
  right := by
    rw [h.memoryUsage, ← bytes_takeOut hb]
    exact Nat.le_add_left ..

theorem Accounted.without (h : s.Accounted)
    (hp : ∀ p ∈ pairs, s.bodies.find? p.1 = some p.2) (hn : (pairs.map (·.1)).Nodup) :
    (s.without pairs).Accounted :=
  foldl_of takesOut_takeOut .takeOut .record h hp hn

-- Different bodies that are there can be taken off the accounts one after the other.
theorem Accounted.allExact_out (h : s.Accounted)
    (hp : ∀ p ∈ pairs, s.bodies.find? p.1 = some p.2) (hn : (pairs.map (·.1)).Nodup) :
    Booking.AllExact s (pairs.map fun p => .out p.1 p.2) := by
  intro before e after he
  obtain ⟨gone, rest, rfl, rfl, hr⟩ := List.map_eq_append_iff.mp he
  obtain ⟨p, later, rfl, rfl, -⟩ := List.map_eq_cons_iff.mp hr
  rw [List.foldl_map]
  change Booking.IsExact (s.without gone) (.out p.1 p.2)
  have hg : (s.without gone).Accounted := by
    refine h.without (fun q hq => hp q (by simp [hq])) ?_
    exact hn.sublist ((List.sublist_append_left ..).map _)
  have hf : p.1 ∉ gone.map (·.1) := by
    rw [List.map_append, List.map_cons] at hn
    exact fun hm => (List.nodup_append.mp hn).right.right _ hm _ (.head _) rfl
  refine hg.isExact_out ((find?_foldl takesOut_takeOut).trans ?_)
  rw [if_neg hf]
  exact hp p (by simp)

-- A body that fits is put onto the accounts without a wrap.
theorem InOrder.isExact_into (h : s.InOrder config) (hf : s.Fits config b.body.size) :
    Booking.IsExact s (.into key b) where
  left  := by
    rw [h.accounts.entryCount]
    exact Nat.lt_of_le_of_lt hf.entries config.maxEntries.toNat_lt
  right := by
    rw [h.accounts.memoryUsage]
    exact Nat.lt_of_le_of_lt hf.memory config.maxMemoryBytes.toNat_lt

theorem Booking.IsExact.of_balances (h : Booking.IsExact t (.into key b)) (hb : s.Balances t) :
    Booking.IsExact s (.into key b) := by
  simpa only [Booking.IsExact, hb.entryCount, hb.memoryUsage] using h

theorem InOrder.allExact_bookings {s : Timed} (h : s.store.InOrder config)
    (hm : config.maxMemoryBytes.toNat < UInt64.size - 1) :
    Booking.AllExact s.store (s.bookings o) := by
  have hout : Booking.AllExact s.store ((s.leaving o).map fun p => .out p.1 p.2) :=
    h.accounts.allExact_out (fun _ => Timed.find?_of_mem_leaving) Timed.leaving_keys_nodup
  rw [Timed.bookings]
  cases ht : o.taken? s.store.config
  case none => rwa [Option.toList_none, List.map_nil, List.append_nil]
  case some w =>
    refine hout.append ?_
    have ht' := (Option.filter_eq_some_iff.mp ht).right
    have hc : config.Limits := h.limits hm ht'
    have hr : (s.store.roomFor w.key w.body).InOrder config := h.roomFor
    have hf : (s.store.roomFor w.key w.body).Fits config w.body.size :=
      h.fits hc ((h.takes_iff hc).mp ht')
    rw [Timed.leaving_of_taken? ht, List.foldl_map]
    exact (hr.isExact_into hf).of_balances .roomFor

end Exact

-- The accounts never drift, whatever is done with a store, and no entry in them wraps around.
theorem accounts_exact (config : Config) (start : Instant) (operations : List Operation)
    (hm : config.maxMemoryBytes.toNat < UInt64.size - 1) :
    KeepsAccounts ((Timed.init config start).run operations) := by
  have h : ((Timed.init config start).run operations).store.InOrder config :=
    Timed.inOrder_run_of_memory .create hm
  generalize (Timed.init config start).run operations = s at h
  constructor
  case entries => exact h.accounts.entryCount
  case isEmpty =>
    rw [← UInt64.toNat_inj, h.accounts.entryCount, MemoryStore.isEmpty, Table.isEmpty, Table.size]
    simp
  case memory => exact h.accounts.memoryUsage
  case once => exact s.store.bodies.keys_nodup
  case booked => exact fun _ => Timed.balances
  case exact => exact fun _ => h.allExact_bookings hm

-- A body of three bytes where the limits are two bodies and four bytes. It takes the place of the
-- one before it under its key and of another one.
theorem accounts_exact_crowded :
    let config : Config := { Config.conservative with maxEntries := 2, maxMemoryBytes := 4 }
    let s := (Timed.init config 0).run [.set ⟨"a"⟩ ⟨#[1]⟩, .wait 1000, .set ⟨"b"⟩ ⟨#[2, 2]⟩]
    let o : Operation := .setWithTtl ⟨"a"⟩ ⟨#[3, 3, 3]⟩ none
    config.maxMemoryBytes.toNat < UInt64.size - 1 ∧ KeepsAccounts s ∧
      ((s.leaving o).map (·.1) = [⟨"a"⟩, ⟨"b"⟩] ∧ (s.bookings o).length = 3) ∧
      ((s.step o).store.entryCount, (s.step o).store.memoryUsage) = (1, 3) := by
  intro config s o
  have hm : config.maxMemoryBytes.toNat < UInt64.size - 1 := by decide
  exact ⟨hm, accounts_exact config 0 _ hm, by decide +kernel, by decide +kernel⟩

end OnceCache.MemoryStore
