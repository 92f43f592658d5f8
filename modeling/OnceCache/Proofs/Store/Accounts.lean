import OnceCache.Proofs.Store.Memory
import OnceCache.Store.Cleanup

namespace OnceCache.MemoryStore

variable {s : MemoryStore} {key : Key} {b : StoredBody} {body : Body} {now : Instant}
variable {incoming : UInt64}

-- The length of all bodies together.
def bytes (s : MemoryStore) : Nat := s.bodies.sum fun p => p.2.body.size

theorem bytes_touch (hb : s.bodies.find? key = some b) : (s.touch now key b).bytes = s.bytes :=
  Table.sum_insert_of_find?_some hb rfl

theorem bytes_takeOut (hb : s.bodies.find? key = some b) :
    (s.takeOut key b).bytes + b.body.size = s.bytes :=
  Table.sum_erase_add hb

theorem bytes_putIn (hk : s.bodies.find? key = none) :
    (s.putIn key b).bytes = s.bytes + b.body.size :=
  Table.sum_insert_of_find?_none hk

section Entries

-- An account that was right is right after the entry of one body.
theorem toNat_entryCount_putIn (h : s.entryCount.toNat = s.bodies.size)
    (hk : s.bodies.find? key = none) (hc : s.bodies.size + 1 < UInt64.size) :
    (s.putIn key b).entryCount.toNat = (s.putIn key b).bodies.size := by
  change (s.entryCount + 1).toNat = (s.bodies.insert key b).size
  rw [Table.size_insert_of_find?_none hk, UInt64.toNat_add, h]
  exact Nat.mod_eq_of_lt hc

theorem toNat_memoryUsage_putIn (h : s.memoryUsage.toNat = s.bytes)
    (hk : s.bodies.find? key = none) (hm : s.bytes + b.body.size < UInt64.size) :
    (s.putIn key b).memoryUsage.toNat = (s.putIn key b).bytes := by
  have hb : b.size.toNat = b.body.size :=
    UInt64.toNat_ofNat_of_lt' (Nat.lt_of_le_of_lt (Nat.le_add_left ..) hm)
  change (s.memoryUsage + b.size).toNat = _
  rw [bytes_putIn hk, UInt64.toNat_add, h, hb]
  exact Nat.mod_eq_of_lt hm

theorem toNat_entryCount_takeOut (h : s.entryCount.toNat = s.bodies.size)
    (hb : s.bodies.find? key = some b) :
    (s.takeOut key b).entryCount.toNat = (s.takeOut key b).bodies.size := by
  have hs := Table.size_erase_add hb
  rw [← h] at hs
  have : 1 ≤ s.entryCount := UInt64.le_iff_toNat_le.mpr (hs ▸ Nat.le_add_left ..)
  change (s.entryCount - 1).toNat = (s.bodies.erase key).size
  rw [UInt64.toNat_sub_of_le _ _ this, ← hs]
  rfl

theorem toNat_memoryUsage_takeOut (h : s.memoryUsage.toNat = s.bytes)
    (hb : s.bodies.find? key = some b) :
    (s.takeOut key b).memoryUsage.toNat = (s.takeOut key b).bytes := by
  have hs := bytes_takeOut hb
  rw [← h] at hs
  have hl : b.body.size ≤ s.memoryUsage.toNat := Nat.le.intro ((Nat.add_comm ..).trans hs)
  have hn : b.size.toNat = b.body.size :=
    UInt64.toNat_ofNat_of_lt' (Nat.lt_of_le_of_lt hl s.memoryUsage.toNat_lt)
  have : b.size ≤ s.memoryUsage := UInt64.le_iff_toNat_le.mpr (hn ▸ hl)
  change (s.memoryUsage - b.size).toNat = _
  rw [UInt64.toNat_sub_of_le _ _ this, hn, ← hs, Nat.add_sub_cancel]

end Entries

-- The accounts are right as far as the limits ask for them. No sum of bytes is above a limit of
-- `2 ^ 64 - 1`, and then the account of bytes can wrap around.
structure Tallied (s : MemoryStore) : Prop where
  entryCount  : s.entryCount.toNat = s.bodies.size
  memoryUsage : s.config.maxMemoryBytes.toNat < UInt64.size - 1 → s.memoryUsage.toNat = s.bytes

namespace Tallied

theorem create {config : Config} : (create config).Tallied where
  entryCount    := rfl
  memoryUsage _ := rfl

theorem record {c : Counter} (h : s.Tallied) : (s.record c).Tallied where
  entryCount  := h.entryCount
  memoryUsage := h.memoryUsage

theorem withCleaning {cleaning : Bool} (h : s.Tallied) : { s with cleaning }.Tallied where
  entryCount  := h.entryCount
  memoryUsage := h.memoryUsage

theorem touch (h : s.Tallied) (hb : s.bodies.find? key = some b) : (s.touch now key b).Tallied where
  entryCount     := h.entryCount.trans (Table.size_insert_of_find?_some hb).symm
  memoryUsage hm := (h.memoryUsage hm).trans (bytes_touch hb).symm

theorem takeOut (h : s.Tallied) (hb : s.bodies.find? key = some b) :
    (s.takeOut key b).Tallied where
  entryCount     := toNat_entryCount_takeOut h.entryCount hb
  memoryUsage hm := toNat_memoryUsage_takeOut (h.memoryUsage hm) hb

-- A store has room exactly if its limits say so.
theorem hasRoom_iff (h : s.Tallied) : s.hasRoom incoming ↔
    s.bodies.size < s.config.maxEntries.toNat ∧
      (s.config.maxMemoryBytes.toNat < UInt64.size - 1 →
        s.bytes + incoming.toNat ≤ s.config.maxMemoryBytes.toNat) := by
  simp only [MemoryStore.hasRoom, Bool.and_eq_true, decide_eq_true_eq, UInt64.lt_iff_toNat_lt,
    h.entryCount]
  refine and_congr_right fun _ => ?_
  by_cases hm : s.config.maxMemoryBytes.toNat < UInt64.size - 1
  case pos =>
    have hu : s.memoryUsage.toNat = s.bytes := h.memoryUsage hm
    omega
  case neg => omega

-- Where there is room for a body it can be put in.
theorem putIn (h : s.Tallied) (hk : s.bodies.find? key = none)
    (hn : b.size.toNat = b.body.size) (hr : s.hasRoom b.size) : (s.putIn key b).Tallied := by
  have ⟨hc, hm⟩ := h.hasRoom_iff.mp hr
  rw [hn] at hm
  constructor
  case entryCount =>
    refine toNat_entryCount_putIn h.entryCount hk ?_
    exact Nat.lt_of_le_of_lt hc s.config.maxEntries.toNat_lt
  case memoryUsage =>
    intro hl
    refine toNat_memoryUsage_putIn (h.memoryUsage hl) hk ?_
    exact Nat.lt_of_le_of_lt (hm hl) s.config.maxMemoryBytes.toNat_lt

end Tallied

-- The accounts of bodies and of bytes are right.
structure Accounted (s : MemoryStore) : Prop where
  entryCount  : s.entryCount.toNat = s.bodies.size
  memoryUsage : s.memoryUsage.toNat = s.bytes

namespace Accounted

theorem create {config : Config} : (create config).Accounted where
  entryCount  := rfl
  memoryUsage := rfl

theorem record {c : Counter} (h : s.Accounted) : (s.record c).Accounted where
  entryCount  := h.entryCount
  memoryUsage := h.memoryUsage

theorem touch (h : s.Accounted) (hb : s.bodies.find? key = some b) :
    (s.touch now key b).Accounted where
  entryCount  := h.entryCount.trans (Table.size_insert_of_find?_some hb).symm
  memoryUsage := h.memoryUsage.trans (bytes_touch hb).symm

theorem putIn (h : s.Accounted) (hk : s.bodies.find? key = none)
    (hc : s.bodies.size + 1 < UInt64.size) (hm : s.bytes + b.body.size < UInt64.size) :
    (s.putIn key b).Accounted where
  entryCount  := toNat_entryCount_putIn h.entryCount hk hc
  memoryUsage := toNat_memoryUsage_putIn h.memoryUsage hk hm

theorem takeOut (h : s.Accounted) (hb : s.bodies.find? key = some b) :
    (s.takeOut key b).Accounted where
  entryCount  := toNat_entryCount_takeOut h.entryCount hb
  memoryUsage := toNat_memoryUsage_takeOut h.memoryUsage hb

theorem tallied (h : s.Accounted) : s.Tallied where
  entryCount    := h.entryCount
  memoryUsage _ := h.memoryUsage

-- A store has room if its limits say so.
theorem hasRoom (h : s.Accounted) (hc : s.bodies.size < s.config.maxEntries.toNat)
    (hm : s.bytes + incoming.toNat ≤ s.config.maxMemoryBytes.toNat) : s.hasRoom incoming :=
  h.tallied.hasRoom_iff.mpr ⟨hc, fun _ => hm⟩

-- And only then, if the limit of bytes is not one that sums without a name count as.
theorem room_of_hasRoom (h : s.Accounted)
    (hm : s.config.maxMemoryBytes.toNat < UInt64.size - 1) (hr : s.hasRoom incoming) :
    s.bodies.size < s.config.maxEntries.toNat ∧
      s.bytes + incoming.toNat ≤ s.config.maxMemoryBytes.toNat :=
  have ⟨hc, hb⟩ := h.tallied.hasRoom_iff.mp hr
  ⟨hc, hb hm⟩

end Accounted

-- Where there is room and no body yet, a body is put in and nothing is evicted.
theorem set_of_hasRoom (he : s.config.isEnabled) (hl : body.size ≤ s.config.bodyLimit.toNat)
    (hk : s.bodies.find? key = none) (hr : s.hasRoom body.size.toUInt64) :
    (s.set now key body).state = s.putIn key (.create body s.config.ttl now) := by
  have hd : s.remove key = (false, s) := by simp only [remove, hk]
  have hm : s.makeRoom body.size.toUInt64 = (0, s) := if_pos hr
  have hl' : ¬s.config.bodyLimit.toNat < body.size := Nat.not_lt_of_le hl
  simp only [set, setWithTtl, he, Bool.not_true, Bool.false_eq_true, if_false, hl', hd]
  rw [show (StoredBody.create body s.config.ttl now).size = body.size.toUInt64 from rfl, hm]

-- A clean-up finds nothing to do as long as nothing has expired.
theorem cleanUp_eq (h : ∀ {key b}, s.bodies.find? key = some b → b.isExpired now = false) :
    s.cleanUp now = ⟨0, s, []⟩ := by
  unfold cleanUp
  split
  case isTrue => rfl
  case isFalse hc =>
    have he : (s.bodies.pairs.filter fun p => p.2.isExpired now) = [] := by
      refine List.filter_eq_nil_iff.mpr fun p hp => ?_
      simp [h (Table.find?_eq_some_iff.mpr hp)]
    have hs : { s with cleaning := false } = s :=
      MemoryStore.ext rfl rfl rfl rfl rfl (by simpa using hc)
    simp only [he, List.foldl_nil, List.length_nil, List.isEmpty_nil, if_true, hs]

end OnceCache.MemoryStore
