import Mathlib.Algebra.Order.BigOperators.Group.Finset
import Mathlib.Algebra.Order.BigOperators.Group.List
import OnceCache.Proofs.Store.Accounts

namespace OnceCache

variable {K : Finset Key} {L : Key → Nat} {key : Key}

-- One key is free, and what is under each of the others is no more than what it may be.
theorem Table.sum_add_le {β : Type} {t : Table Key β} {f : Key × β → Nat}
    (h : ∀ {k v}, t.find? k = some v → k ∈ K ∧ f (k, v) ≤ L k) (hn : t.find? key = none)
    (hk : key ∈ K) : t.sum f + L key ≤ ∑ k ∈ K, L k := by
  have hp {p : Key × β} (hp : p ∈ t.pairs) : p.1 ∈ K ∧ f p ≤ L p.1 := h (find?_eq_some_iff.mpr hp)
  have hs : Insert.insert key t.keys.toFinset ⊆ K := by
    refine Finset.insert_subset hk fun k hm => ?_
    obtain ⟨p, hm', rfl⟩ := List.mem_map.mp (List.mem_toFinset.mp hm)
    exact (hp hm').left
  have hf : key ∉ t.keys.toFinset := mt List.mem_toFinset.mp (find?_eq_none_iff.mp hn)
  calc t.sum f + L key
    _ ≤ (t.pairs.map fun p => L p.1).sum + L key :=
      Nat.add_le_add_right (List.sum_le_sum fun p hm => (hp hm).right) _
    _ = ∑ k ∈ t.keys.toFinset, L k + L key := by
      rw [List.sum_toFinset L t.keys_nodup, keys, List.map_map]
      rfl
    _ = ∑ k ∈ Insert.insert key t.keys.toFinset, L k := by rw [Finset.sum_insert hf, Nat.add_comm]
    _ ≤ ∑ k ∈ K, L k := Finset.sum_le_sum_of_subset hs

-- A configuration whose limits leave room for one body of some length under each of some keys.
structure Config.HasRoomFor (c : Config) (K : Finset Key) (L : Key → Nat) : Prop where
  enabled : c.isEnabled
  entries : K.card ≤ c.maxEntries.toNat
  memory  : ∑ key ∈ K, L key ≤ c.maxMemoryBytes.toNat

namespace MemoryStore

variable {s : MemoryStore} {body : Body}

-- A store that has such a configuration and holds such bodies takes a body for a key that has none,
-- and keeps all others.
theorem Accounted.set (h : s.Accounted) (now : Instant) (hc : s.config.HasRoomFor K L)
    (hb : ∀ {k b}, s.bodies.find? k = some b → k ∈ K ∧ b.body.size ≤ L k)
    (hn : s.bodies.find? key = none) (hk : key ∈ K) (hl : body.size ≤ L key)
    (he : body.size ≤ s.config.maxEntryBytes.toNat) :
    (s.set now key body).state.Accounted ∧
      (s.set now key body).state = s.putIn key (.create body s.config.ttl now) := by
  have hcount : s.bodies.size + 1 ≤ s.config.maxEntries.toNat := by
    have := Table.sum_add_le (f := fun _ => 1) (L := fun _ => 1)
      (fun hb' => ⟨(hb hb').left, Nat.le_refl _⟩) hn hk
    rw [Table.sum_one, ← Finset.card_eq_sum_ones] at this
    exact Nat.le_trans this hc.entries
  have hbytes : s.bytes + body.size ≤ s.config.maxMemoryBytes.toNat := by
    have := Table.sum_add_le (f := fun p => p.2.body.size) hb hn hk
    exact Nat.le_trans (Nat.add_le_add_left hl _) (Nat.le_trans this hc.memory)
  have hsize : body.size ≤ s.config.maxMemoryBytes.toNat :=
    Nat.le_trans (Nat.le_add_left ..) hbytes
  have hlimit : body.size ≤ s.config.bodyLimit.toNat := by
    change _ ≤ (if s.config.maxEntryBytes ≤ s.config.maxMemoryBytes then _ else _ : UInt64).toNat
    split
    case isTrue => exact he
    case isFalse => exact hsize
  have hword : body.size.toUInt64.toNat = body.size :=
    UInt64.toNat_ofNat_of_lt' (Nat.lt_of_le_of_lt hsize (UInt64.toNat_lt _))
  have hroom : s.hasRoom body.size.toUInt64 :=
    h.hasRoom hcount (by rwa [hword])
  have hs : (s.set now key body).state = s.putIn key (.create body s.config.ttl now) :=
    set_of_hasRoom hc.enabled hlimit hn hroom
  refine ⟨?_, hs⟩
  rw [hs]
  exact h.putIn hn (Nat.lt_of_le_of_lt hcount (UInt64.toNat_lt _))
    (Nat.lt_of_le_of_lt hbytes (UInt64.toNat_lt _))

end MemoryStore

end OnceCache
