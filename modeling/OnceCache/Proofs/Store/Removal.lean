import OnceCache.Proofs.Store.Memory
import OnceCache.Store.Cleanup

namespace OnceCache.MemoryStore

variable {s : MemoryStore} {key k : Key} {b : StoredBody} {body : Body} {now : Instant}
variable {ttl : Option Duration} {incoming : UInt64} {candidates pairs : List (Key × StoredBody)}

section Fold

variable {f : MemoryStore → Key × StoredBody → MemoryStore}

-- Takes out one body, and perhaps counts that.
def TakesOut (f : MemoryStore → Key × StoredBody → MemoryStore) : Prop :=
  ∀ s p, f s p = s.takeOut p.1 p.2 ∨ ∃ c, f s p = (s.takeOut p.1 p.2).record c

theorem TakesOut.bodies (hf : TakesOut f) (s : MemoryStore) (p : Key × StoredBody) :
    (f s p).bodies = s.bodies.erase p.1 := by
  obtain h | ⟨_, h⟩ := hf s p
  all_goals
    rw [h]
    rfl

theorem find?_foldl (hf : TakesOut f) :
    (pairs.foldl f s).bodies.find? k =
      if k ∈ pairs.map (·.1) then none else s.bodies.find? k := by
  induction pairs generalizing s
  case nil => rfl
  case cons p pairs hi =>
    rw [List.foldl_cons, hi, hf.bodies, Table.find?_erase, List.map_cons]
    simp only [List.mem_cons]
    by_cases hk : p.1 = k
    case pos => simp [hk]
    case neg => simp only [hk, Ne.symm hk, if_false, false_or]

-- What holds of a store, and is not lost when a body that is there is taken out or something is
-- counted, still holds when different bodies that are there are taken out one after the other.
theorem foldl_of {P : MemoryStore → Prop} (hf : TakesOut f)
    (ht : ∀ {s key b}, P s → s.bodies.find? key = some b → P (s.takeOut key b))
    (hr : ∀ {s c}, P s → P (s.record c)) (hs : P s)
    (hp : ∀ p ∈ pairs, s.bodies.find? p.1 = some p.2) (hn : (pairs.map (·.1)).Nodup) :
    P (pairs.foldl f s) := by
  induction pairs generalizing s
  case nil => exact hs
  case cons p pairs hi =>
    have ⟨hne, hn⟩ := List.nodup_cons.mp hn
    refine hi ?_ (fun q hq => ?_) hn
    · have h := ht hs (hp p (.head _))
      obtain he | ⟨_, he⟩ := hf s p
      case inl => exact he ▸ h
      case inr => exact he ▸ hr h
    · have : p.1 ≠ q.1 := fun he => hne (List.mem_map.mpr ⟨q, hq, he.symm⟩)
      rw [hf.bodies, Table.find?_erase_of_ne this]
      exact hp q (.tail _ hq)

end Fold

theorem find?_remove :
    (s.remove key).2.bodies.find? k = if key = k then none else s.bodies.find? k := by
  unfold remove
  split
  case h_1 => exact Table.find?_erase
  case h_2 h =>
    split
    case isTrue he => exact he ▸ h
    case isFalse => rfl

theorem takesOut_takeOut : TakesOut fun s p => s.takeOut p.1 p.2 := fun _ _ => .inl rfl

theorem find?_clear : s.clear.bodies.find? k = none := by
  refine (find?_foldl takesOut_takeOut).trans ?_
  split
  case isTrue => rfl
  case isFalse h => exact Table.find?_eq_none_iff.mpr h

section CleanUp

-- The bodies that a clean-up finds expired.
def expired (s : MemoryStore) (now : Instant) : List (Key × StoredBody) :=
  s.bodies.pairs.filter fun p => p.2.isExpired now

theorem takesOut_expire : TakesOut expire := fun _ _ => .inr ⟨_, rfl⟩

theorem mem_expired_iff : (key, b) ∈ s.expired now ↔
    s.bodies.find? key = some b ∧ b.isExpired now := by
  rw [expired, List.mem_filter, ← Table.find?_eq_some_iff]

theorem expired_keys_nodup : ((s.expired now).map (·.1)).Nodup :=
  s.bodies.keys_nodup.sublist (List.filter_sublist.map _)

theorem cleanUp_cases (s : MemoryStore) (now : Instant) : (s.cleanUp now).state = s ∨
    (s.cleanUp now).state =
      { (s.expired now).foldl expire { s with cleaning := true } with cleaning := false } := by
  unfold cleanUp
  split
  case isTrue => exact .inl rfl
  case isFalse => exact .inr rfl

theorem Shrunk.cleanUp : s.Shrunk (s.cleanUp now).state := by
  obtain h | h := s.cleanUp_cases now
  case inl =>
    rw [h]
    exact .refl
  case inr =>
    have hs : s.Shrunk ((s.expired now).foldl expire { s with cleaning := true }) := by
      refine foldl_of takesOut_expire (fun h _ => h.trans .takeOut) (fun h => ⟨h.config, h.bodies⟩)
        ⟨rfl, id⟩ (fun p hp => ?_) expired_keys_nodup
      exact (mem_expired_iff.mp hp).left
    rw [h]
    exact ⟨hs.config, hs.bodies⟩

end CleanUp

section Eviction

-- Takes out a body that makes room.
abbrev evictOne (s : MemoryStore) (p : Key × StoredBody) : MemoryStore :=
  (s.takeOut p.1 p.2).record .eviction

theorem takesOut_evictOne : TakesOut evictOne := fun _ _ => .inr ⟨_, rfl⟩

-- Eviction takes out the first candidates, as many of them as it counts.
theorem evict_eq : (evict incoming candidates s).2 =
    (candidates.take (evict incoming candidates s).1).foldl evictOne s := by
  induction candidates generalizing s
  case nil => rfl
  case cons p candidates hi =>
    unfold evict
    split
    case isTrue => rfl
    case isFalse => exact hi

-- The bodies that are picked to make room.
def picked (s : MemoryStore) (incoming : UInt64) : List (Key × StoredBody) :=
  s.byLastUse.take (s.makeRoom incoming).1

theorem makeRoom_eq : (s.makeRoom incoming).2 = (s.picked incoming).foldl evictOne s := by
  unfold picked makeRoom
  split
  case isTrue => rfl
  case isFalse => exact evict_eq

theorem mem_byLastUse_iff : (key, b) ∈ s.byLastUse ↔ s.bodies.find? key = some b := by
  rw [byLastUse, (List.mergeSort_perm _ _).mem_iff, Table.find?_eq_some_iff]

theorem byLastUse_keys_nodup : (s.byLastUse.map (·.1)).Nodup :=
  ((List.mergeSort_perm _ _).map _).nodup_iff.mpr s.bodies.keys_nodup

theorem find?_of_mem_take {p : Key × StoredBody} {n : Nat} (h : p ∈ s.byLastUse.take n) :
    s.bodies.find? p.1 = some p.2 :=
  mem_byLastUse_iff.mp (List.mem_of_mem_take h)

theorem take_keys_nodup {n : Nat} : ((s.byLastUse.take n).map (·.1)).Nodup :=
  s.byLastUse_keys_nodup.sublist ((List.take_sublist ..).map _)

theorem find?_of_mem_picked {p : Key × StoredBody} (h : p ∈ s.picked incoming) :
    s.bodies.find? p.1 = some p.2 :=
  find?_of_mem_take h

theorem picked_keys_nodup : ((s.picked incoming).map (·.1)).Nodup := take_keys_nodup

-- The keys whose bodies are picked when room is made for a body under a key. The body before under
-- that key makes room in any case and is not picked.
def evictedFor (s : MemoryStore) (key : Key) (body : Body) : List Key :=
  ((s.remove key).2.picked body.size.toUInt64).map (·.1)

-- The store with the body under a key removed and room made for another one.
def roomFor (s : MemoryStore) (key : Key) (body : Body) : MemoryStore :=
  ((s.remove key).2.makeRoom body.size.toUInt64).2

theorem find?_roomFor : (s.roomFor key body).bodies.find? k =
    if key = k ∨ k ∈ s.evictedFor key body then none else s.bodies.find? k := by
  rw [roomFor, makeRoom_eq, find?_foldl takesOut_evictOne, find?_remove, ← evictedFor]
  by_cases hk : key = k <;> simp [hk]

section

-- What holds of a store, and is not lost when a body that is there is taken out or something is
-- counted.
variable {P : MemoryStore → Prop}
variable (ht : ∀ {s key b}, P s → s.bodies.find? key = some b → P (s.takeOut key b))
include ht

theorem remove_of (hs : P s) : P (s.remove key).2 := by
  unfold remove
  split
  case h_1 hb => exact ht hs hb
  case h_2 => exact hs

variable (hr : ∀ {s c}, P s → P (s.record c))
include hr

theorem roomFor_of (hs : P s) : P (s.roomFor key body) := by
  rw [roomFor, makeRoom_eq]
  exact foldl_of takesOut_evictOne ht hr (remove_of ht hs) (fun _ => find?_of_mem_picked)
    picked_keys_nodup

end

end Eviction

end OnceCache.MemoryStore

namespace OnceCache

-- Whether a store takes a body.
def Config.takes (c : Config) (body : Body) : Bool :=
  c.isEnabled && body.size ≤ c.bodyLimit.toNat

namespace MemoryStore

variable {s : MemoryStore} {key k : Key} {body : Body} {now : Instant} {ttl : Option Duration}

-- A body that is not taken changes nothing.
theorem setWithTtl_of_not_takes (h : s.config.takes body = false) :
    (s.setWithTtl now key body ttl).state = s := by
  unfold setWithTtl
  split
  case isTrue => rfl
  case isFalse he =>
    have he : s.config.isEnabled := by simpa using he
    have : s.config.bodyLimit.toNat < body.size := by simpa [Config.takes, he] using h
    rw [if_pos this]

theorem setWithTtl_of_takes (h : s.config.takes body) :
    (s.setWithTtl now key body ttl).answer = .ok () ∧
      (s.setWithTtl now key body ttl).state =
        (s.roomFor key body).putIn key (.create body ttl now) := by
  obtain ⟨he, hl⟩ : s.config.isEnabled ∧ body.size ≤ s.config.bodyLimit.toNat := by
    simpa [Config.takes] using h
  unfold setWithTtl
  rw [if_neg (by simp [he]), if_neg (Nat.not_lt_of_le hl)]
  exact ⟨rfl, rfl⟩

theorem find?_setWithTtl (h : s.config.takes body) :
    (s.setWithTtl now key body ttl).state.bodies.find? k =
      if key = k then some (.create body ttl now)
      else if k ∈ s.evictedFor key body then none
      else s.bodies.find? k := by
  rw [(setWithTtl_of_takes h).right, putIn_bodies, Table.find?_insert, find?_roomFor]
  by_cases hk : key = k <;> simp [hk]

end MemoryStore

end OnceCache
