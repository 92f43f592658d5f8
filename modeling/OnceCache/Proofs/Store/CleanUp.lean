import OnceCache.Proofs.Store.Eviction
import OnceCache.Session.Operation

namespace OnceCache

namespace MemoryStore

-- Reads, writes and questions, with time that goes by between them.
def Operation.isCall : Operation → Bool
  | .set .. | .setWithTtl .. | .get _ | .contains _ | .wait _ => true
  | .remove _ | .clear | .cleanUp => false

namespace Event

-- What a call is answered.
def answer? (e : Event) : Option Session.Answer :=
  match e.operation with
  | .set key body => some (.ofWrite (e.before.store.set e.before.now key body).answer)
  | .setWithTtl key body ttl =>
    some (.ofWrite (e.before.store.setWithTtl e.before.now key body ttl).answer)
  | .get key => some (.ofRead (e.before.store.get e.before.now key).answer)
  | .contains key => some (.bool (e.before.store.contains e.before.now key))
  | _ => none

-- No body makes room.
def EvictsNothing (e : Event) : Prop := ∀ d ∈ e.departures, d.1 ≠ .evicted

end Event

-- A clean-up takes out the bodies whose time is over, and nothing else, and says how many they are.
-- Later calls are answered as they would be without it, as long as no body would have to make room
-- then.
structure CleansUp (s : MemoryStore) (now : Instant) : Prop where
  runs      : s.cleaning = false
  found     : ∀ key b, (s.cleanUp now).state.bodies.find? key = some b ↔
    s.bodies.find? key = some b ∧ ∀ expiry ∈ b.expiresAt, now < expiry
  counted   : (s.cleanUp now).state.size + (s.cleanUp now).answer = s.size
  stats     : (s.cleanUp now).state.stats =
    { s.stats with expirations := s.stats.expirations + .ofNat (s.cleanUp now).answer }
  unchanged : (s.cleanUp now).state.config = s.config ∧
    (s.cleanUp now).state.cleaning = s.cleaning
  again     : (s.cleanUp now).state.cleanUp now = ⟨0, (s.cleanUp now).state, []⟩
  unseen    : ∀ calls, (∀ o ∈ calls, o.isCall) →
    let kept := Timed.trace ⟨now, s⟩ calls
    let cleaned := Timed.trace ⟨now, (s.cleanUp now).state⟩ calls
    (∀ e ∈ kept, e.EvictsNothing) →
      cleaned.map (·.answer?) = kept.map (·.answer?) ∧ ∀ e ∈ cleaned, e.EvictsNothing

variable {s t : MemoryStore} {key k : Key} {b : StoredBody} {body : Body} {w : Write}
variable {now since : Instant} {ttl : Option Duration} {incoming : UInt64} {o : Operation}

section Exact

theorem isExpired_eq_false_iff_lt :
    b.isExpired now = false ↔ ∀ expiry ∈ b.expiresAt, now < expiry := by
  unfold StoredBody.isExpired
  cases b.expiresAt <;> simp

theorem cleanUp_of_not_cleaning (now : Instant) (h : s.cleaning = false) :
    (s.cleanUp now).answer = (s.expired now).length ∧ (s.cleanUp now).state =
      { (s.expired now).foldl expire { s with cleaning := true } with cleaning := false } := by
  simp [cleanUp, expired, h]

theorem find?_cleanUp (h : s.cleaning = false) :
    (s.cleanUp now).state.bodies.find? key = some b ↔
      s.bodies.find? key = some b ∧ b.isExpired now = false := by
  have hf : (s.cleanUp now).state.bodies.find? key =
      if key ∈ (s.expired now).map (·.1) then none else s.bodies.find? key := by
    rw [(cleanUp_of_not_cleaning now h).right]
    exact find?_foldl takesOut_expire
  have hm (hb : s.bodies.find? key = some b) :
      key ∈ (s.expired now).map (·.1) ↔ b.isExpired now := by
    constructor
    case mp =>
      intro hk
      have ⟨p, hp, he⟩ := List.mem_map.mp hk
      have ⟨hp, hx⟩ := mem_expired_iff.mp hp
      rw [he, hb] at hp
      cases hp
      exact hx
    case mpr => exact fun hx => List.mem_map.mpr ⟨(key, b), mem_expired_iff.mpr ⟨hb, hx⟩, rfl⟩
  rw [hf]
  cases hx : b.isExpired now <;> by_cases hb : s.bodies.find? key = some b <;> simp_all

theorem size_cleanUp (h : s.cleaning = false) :
    (s.cleanUp now).state.size + (s.cleanUp now).answer = s.size := by
  have ⟨ha, hs⟩ := cleanUp_of_not_cleaning now h
  have hp : s.bodies.pairs.Perm (s.expired now ++ (s.cleanUp now).state.bodies.pairs) := by
    rw [hs]
    refine perm_foldl (s := { s with cleaning := true }) takesOut_expire (fun p hp => ?_)
      expired_keys_nodup
    exact (mem_expired_iff.mp hp).left
  rw [ha, Nat.add_comm]
  simpa [size, Table.size] using hp.length_eq.symm

theorem stats_cleanUp (h : s.cleaning = false) : (s.cleanUp now).state.stats =
    { s.stats with expirations := s.stats.expirations + .ofNat (s.cleanUp now).answer } := by
  have ⟨ha, hs⟩ := cleanUp_of_not_cleaning now h
  rw [ha, hs]
  refine stats_foldl.trans (Stats.ext_value fun c => ?_)
  rw [Stats.value_after_map]
  cases c <;> simp [Stats.value]

-- No clean-up is ever under way when something else is done.
theorem Timed.cleaning_step {s : Timed} (h : s.store.cleaning = false) :
    (s.step o).store.cleaning = false := by
  refine step_of_cleanUp (P := fun t => t.cleaning = false) h (fun ht => ?_) (fun _ => h)
    (fun h _ => h) (fun h => h) ?_
  · rw [(setWithTtl_of_takes ht).right]
    exact roomFor_unchanged.right.trans h
  · simp [cleanUp, h]

theorem Timed.cleaning_run {s : Timed} {operations : List Operation}
    (h : s.store.cleaning = false) : (s.run operations).store.cleaning = false := by
  induction operations generalizing s
  case nil => exact h
  case cons o operations hi => exact hi (cleaning_step h)

end Exact

section Room

theorem picked_eq_nil_iff :
    s.picked incoming = [] ↔ s.hasRoom incoming ∨ s.bodies.pairs = [] := by
  have hl : s.byLastUse = [] ↔ s.bodies.pairs = [] := by
    rw [← List.length_eq_zero_iff, byLastUse, List.length_mergeSort, List.length_eq_zero_iff]
  unfold picked makeRoom
  split
  case isTrue hr => simp [hr]
  case isFalse hr =>
    simp only [← hl, hr, false_or, Bool.false_eq_true]
    cases s.byLastUse
    case nil => simp
    case cons p candidates => simp [evict, hr]

namespace Shrunk

theorem exists_perm (h : s.Shrunk t) : ∃ gone, s.bodies.pairs.Perm (t.bodies.pairs ++ gone) := by
  have hm : t.bodies.pairs ⊆ s.bodies.pairs := fun p hp =>
    Table.find?_eq_some_iff.mp (h.bodies (Table.find?_eq_some_iff.mpr hp))
  have ⟨pairs, hp, hs⟩ := t.bodies.pairs_nodup.subperm hm
  have ⟨gone, hg⟩ := hs.exists_perm_append
  exact ⟨gone, hg.trans (hp.append_right gone)⟩

theorem size_le (h : s.Shrunk t) : t.bodies.size ≤ s.bodies.size := by
  have ⟨gone, hp⟩ := h.exists_perm
  have hl := hp.length_eq
  rw [List.length_append] at hl
  exact Nat.le.intro hl.symm

theorem bytes_le (h : s.Shrunk t) : t.bytes ≤ s.bytes := by
  have ⟨gone, hp⟩ := h.exists_perm
  have hs := (hp.map (·.2.body.size)).sum_nat
  rw [List.map_append, List.sum_append] at hs
  exact Nat.le.intro hs.symm

-- Where bodies are gone there is no less room.
theorem hasRoom (h : s.Shrunk t) (hs : s.Tallied) (ht : t.Tallied) (hr : s.hasRoom incoming) :
    t.hasRoom incoming := by
  have ⟨hc, hm⟩ := hs.hasRoom_iff.mp hr
  rw [ht.hasRoom_iff, h.config]
  exact ⟨Nat.lt_of_le_of_lt h.size_le hc,
    fun hl => Nat.le_trans (Nat.add_le_add_right h.bytes_le _) (hm hl)⟩

theorem removed (h : s.Shrunk t) : (s.remove key).2.Shrunk (t.remove key).2 where
  config := by
    have hs : s.Shrunk (s.remove key).2 := .remove
    have ht : t.Shrunk (t.remove key).2 := .remove
    rw [hs.config, ht.config, h.config]
  bodies hb := by
    rw [find?_remove] at hb ⊢
    split at hb
    case isTrue => cases hb
    case isFalse hk => simp [hk, h.bodies hb]

-- Where bodies are gone none makes room that would not have made room before.
theorem evictedFor_eq_nil (h : s.Shrunk t) (hs : s.Tallied) (ht : t.Tallied)
    (he : s.evictedFor key body = []) : t.evictedFor key body = [] := by
  have hr : (s.remove key).2.Shrunk (t.remove key).2 := h.removed
  simp only [evictedFor, List.map_eq_nil_iff, picked_eq_nil_iff] at he ⊢
  refine he.imp (hr.hasRoom (remove_of .takeOut hs) (remove_of .takeOut ht)) fun hn => ?_
  obtain ⟨gone, hp⟩ := hr.exists_perm
  rw [hn] at hp
  exact (List.append_eq_nil_iff.mp hp.symm.eq_nil).left

end Shrunk

end Room

section Unseen

-- The body under a key if its time is not over yet.
def live? (s : MemoryStore) (now : Instant) (key : Key) : Option StoredBody :=
  (s.bodies.find? key).filter (!·.isExpired now)

theorem live?_eq_some_iff :
    s.live? now key = some b ↔ s.bodies.find? key = some b ∧ b.isExpired now = false := by
  simp [live?, Option.filter_eq_some_iff]

theorem find?_get : (s.get now key).state.bodies.find? k =
    if key = k then (s.live? now key).map (·.use now) else s.bodies.find? k := by
  unfold live?
  cases hb : s.bodies.find? key
  case none =>
    rw [get_of_none hb]
    split
    case isTrue hk => exact hk ▸ hb
    case isFalse => rfl
  case some b =>
    cases he : b.isExpired now
    case false =>
      simp [get_of_some hb he, find?_touch, Option.filter_some, he]
    case true =>
      have hs : (s.get now key).state.bodies = s.bodies.erase key := by
        simp only [get, hb, he, if_true]
        rfl
      simp [hs, Table.find?_erase, Option.filter_some, he]

-- What a write is answered is up to the configuration.
theorem setWithTtl_answer_eq (h : t.config = s.config) :
    (t.setWithTtl now key body ttl).answer = (s.setWithTtl now key body ttl).answer := by
  unfold setWithTtl
  rw [h]
  split
  case isTrue => rfl
  case isFalse => split <;> rfl

namespace Event

variable {s : Timed}

theorem evictsNothing_iff (hw : o.write? s.store.config = some w) : EvictsNothing ⟨s, o⟩ ↔
    ∀ w ∈ o.taken? s.store.config, s.store.evictedFor w.key w.body = [] := by
  have hd : departures ⟨s, o⟩ = (o.taken? s.store.config).toList.flatMap s.store.displaced := by
    cases o <;> first | rfl | cases hw
  rw [EvictsNothing, hd]
  cases o.taken? s.store.config
  case none => simp
  case some w =>
    simp only [Option.toList_some, List.flatMap_singleton, displaced, List.forall_mem_append,
      List.forall_mem_map, evictedFor, Option.mem_some_iff, forall_eq', List.map_eq_nil_iff]
    simp [List.eq_nil_iff_forall_not_mem]

theorem evictsNothing_of_write? (hw : o.write? s.store.config = none) : EvictsNothing ⟨s, o⟩ := by
  cases o <;> cases hw
  all_goals simp +contextual [EvictsNothing, departures, eq_comm]

end Event

-- Two stores at the same time. One of them can lack bodies whose time was over at some time.
structure Cleaned (since : Instant) (s t : Timed) : Prop where
  now     : t.now = s.now
  later   : since ≤ s.now
  shrunk  : s.store.Shrunk t.store
  alive   : ∀ {key b}, s.store.bodies.find? key = some b → b.isExpired since = false →
    t.store.bodies.find? key = some b
  tallied : s.store.Tallied ∧ t.store.Tallied

namespace Cleaned

variable {s t : Timed} {calls : List Operation}

-- They have the same bodies whose time is not over yet.
theorem live?_eq (h : Cleaned since s t) :
    t.store.live? s.now key = s.store.live? s.now key := by
  ext b
  rw [live?_eq_some_iff, live?_eq_some_iff]
  constructor
  case mp => exact fun ⟨hb, he⟩ => ⟨h.shrunk.bodies hb, he⟩
  case mpr =>
    intro ⟨hb, he⟩
    refine ⟨h.alive hb (Bool.eq_false_iff.mpr fun hx => ?_), he⟩
    simp [isExpired_mono hx h.later] at he

theorem get_answer_eq (h : Cleaned since s t) :
    (t.store.get s.now key).answer = (s.store.get s.now key).answer := by
  refine MemoryStore.get_answer_eq fun body => ?_
  simp only [get_eq_ok_iff, ← and_assoc, ← live?_eq_some_iff, h.live?_eq]

theorem contains_eq (h : Cleaned since s t) :
    t.store.contains s.now key = s.store.contains s.now key := by
  rw [Bool.eq_iff_iff, contains_iff, contains_iff, h.get_answer_eq]

-- Whatever is asked of them, they answer the same.
theorem answer?_eq (h : Cleaned since s t) (hc : o.isCall) :
    Event.answer? ⟨t, o⟩ = Event.answer? ⟨s, o⟩ := by
  have hw {key body ttl} : (t.store.setWithTtl t.now key body ttl).answer =
      (s.store.setWithTtl s.now key body ttl).answer := by
    rw [h.now]
    exact setWithTtl_answer_eq h.shrunk.config
  cases o
  case set => simp only [Event.answer?, MemoryStore.set, hw, h.shrunk.config]
  case setWithTtl => simp only [Event.answer?, hw]
  case get => simp only [Event.answer?, h.now, h.get_answer_eq]
  case contains => simp only [Event.answer?, h.now, h.contains_eq]
  case wait => rfl
  all_goals cases hc

theorem evictsNothing (h : Cleaned since s t) (he : Event.EvictsNothing ⟨s, o⟩) :
    Event.EvictsNothing ⟨t, o⟩ := by
  have hc : t.store.config = s.store.config := h.shrunk.config
  cases hw : o.write? s.store.config
  case none => exact Event.evictsNothing_of_write? (hc ▸ hw)
  case some w =>
    rw [Event.evictsNothing_iff hw] at he
    rw [Event.evictsNothing_iff (hc ▸ hw), hc]
    exact fun w hw =>
      h.shrunk.evictedFor_eq_nil h.tallied.left h.tallied.right (he w hw)

-- What becomes of a key in both stores, as long as no body makes room.
theorem find?_step (h : Cleaned since s t) (key : Key) (hc : o.isCall)
    (he : Event.EvictsNothing ⟨s, o⟩) :
    (t.step o).store.bodies.find? key = (s.step o).store.bodies.find? key ∨
      (s.step o).store.bodies.find? key = s.store.bodies.find? key ∧
        (t.step o).store.bodies.find? key = t.store.bodies.find? key := by
  have he' : Event.EvictsNothing ⟨t, o⟩ := h.evictsNothing he
  have hconfig : t.store.config = s.store.config := h.shrunk.config
  have hset {w} (hw : o.write? s.store.config = some w) :
      (t.step o).store.bodies.find? key = (s.step o).store.bodies.find? key ∨
        (s.step o).store.bodies.find? key = s.store.bodies.find? key ∧
          (t.step o).store.bodies.find? key = t.store.bodies.find? key := by
    have hw' : o.write? t.store.config = some w := hconfig ▸ hw
    cases ht : o.taken? s.store.config
    case none =>
      rw [Timed.step_of_refused hw ht, Timed.step_of_refused hw' (hconfig ▸ ht)]
      exact .inr ⟨rfl, rfl⟩
    case some w =>
      have ht' : o.taken? t.store.config = some w := hconfig ▸ ht
      have hs : s.store.evictedFor w.key w.body = [] := (Event.evictsNothing_iff hw).mp he w ht
      have hs' : t.store.evictedFor w.key w.body = [] :=
        (Event.evictsNothing_iff hw').mp he' w ht'
      rw [Timed.find?_step_of_taken? ht, Timed.find?_step_of_taken? ht', hs, hs', h.now]
      by_cases hk : w.key = key
      case pos => simp [hk]
      case neg => simp [hk]
  cases o
  case set => exact hset rfl
  case setWithTtl => exact hset rfl
  case get k =>
    simp only [Timed.step, find?_get, h.now, h.live?_eq]
    by_cases hk : k = key
    case pos => simp [hk]
    case neg => simp [hk]
  case contains => exact .inr ⟨rfl, rfl⟩
  case wait => exact .inr ⟨rfl, rfl⟩
  all_goals cases hc

theorem step (h : Cleaned since s t) (hc : o.isCall) (he : Event.EvictsNothing ⟨s, o⟩) :
    Cleaned since (s.step o) (t.step o) where
  now     := by cases o <;> simp [Timed.step, h.now]
  later   := Nat.le_trans h.later Timed.now_le_step
  shrunk  := by
    refine ⟨by rw [Timed.config_step, Timed.config_step, h.shrunk.config], fun {k b} hb => ?_⟩
    cases h.find?_step k hc he
    case inl hk => exact hk ▸ hb
    case inr hk => exact hk.left ▸ h.shrunk.bodies (hk.right ▸ hb)
  alive {k b} hb hx := by
    cases h.find?_step k hc he
    case inl hk => exact hk ▸ hb
    case inr hk => exact hk.right ▸ h.alive (hk.left ▸ hb) hx
  tallied := ⟨h.tallied.left.step, h.tallied.right.step⟩

theorem trace (h : Cleaned since s t) (hc : ∀ o ∈ calls, o.isCall)
    (he : ∀ e ∈ s.trace calls, e.EvictsNothing) :
    (t.trace calls).map (·.answer?) = (s.trace calls).map (·.answer?) ∧
      ∀ e ∈ t.trace calls, e.EvictsNothing := by
  induction calls generalizing s t
  case nil => exact ⟨rfl, nofun⟩
  case cons o calls hi =>
    have hc₁ : o.isCall := hc o (.head _)
    have he₁ : Event.EvictsNothing ⟨s, o⟩ := he _ (.head _)
    have ⟨ha, hn⟩ := hi (h.step hc₁ he₁) (fun o ho => hc o (.tail _ ho))
      (fun e he' => he e (.tail _ he'))
    constructor
    case left => simp [Timed.trace, ha, h.answer?_eq hc₁]
    case right => simpa [Timed.trace] using ⟨h.evictsNothing he₁, hn⟩

end Cleaned

end Unseen

-- Whenever a clean-up is done, whatever was done with the store before, it takes out exactly the
-- bodies whose time is over, and nobody notices as long as no body has to make room.
theorem clean_up_exact (config : Config) (start : Instant) (operations : List Operation)
    (now : Instant) : CleansUp ((Timed.init config start).run operations).store now := by
  have hc : ((Timed.init config start).run operations).store.cleaning = false :=
    Timed.cleaning_run rfl
  have ht : ((Timed.init config start).run operations).store.Tallied := Tallied.create.run
  generalize ((Timed.init config start).run operations).store = s at hc ht
  have hf {key b} : (s.cleanUp now).state.bodies.find? key = some b ↔
      s.bodies.find? key = some b ∧ b.isExpired now = false := find?_cleanUp hc
  constructor
  case runs => exact hc
  case found =>
    intro key b
    rw [hf, isExpired_eq_false_iff_lt]
  case counted => exact size_cleanUp hc
  case stats => exact stats_cleanUp hc
  case unchanged =>
    have hs : s.Shrunk (s.cleanUp now).state := .cleanUp
    exact ⟨hs.config, (Timed.cleaning_step (s := ⟨now, s⟩) (o := .cleanUp) hc).trans hc.symm⟩
  case again => exact cleanUp_eq fun hb => (hf.mp hb).right
  case unseen =>
    intro calls hcalls kept cleaned he
    have h : Cleaned now ⟨now, s⟩ ⟨now, (s.cleanUp now).state⟩ := {
      now     := rfl
      later   := Nat.le_refl _
      shrunk  := .cleanUp
      alive   := fun hb hx => hf.mpr ⟨hb, hx⟩
      tallied := ⟨ht, ht.step (s := ⟨now, s⟩) (o := .cleanUp)⟩ }
    exact h.trace hcalls he

-- Where bodies make room it can be noticed: without the clean-up one that lives makes room, and one
-- whose time is over stays.
example :
    let config : Config := { Config.conservative with maxEntries := 2 }
    let s := (Timed.init config 0).run [
      .set ⟨"a"⟩ ⟨#[1]⟩, .wait 1000, .setWithTtl ⟨"b"⟩ ⟨#[2]⟩ (some (.ofSeconds 1)),
      .wait 2000000000]
    let calls : List Operation := [.set ⟨"c"⟩ ⟨#[3]⟩, .contains ⟨"a"⟩]
    (s.run calls).store.contains s.now ⟨"a"⟩ = false ∧
      ((s.step .cleanUp).run calls).store.contains s.now ⟨"a"⟩ = true := by
  decide_cbv

end MemoryStore

end OnceCache
