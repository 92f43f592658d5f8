import Mathlib.Data.List.Induction
import OnceCache.Proofs.Store.Timed

namespace OnceCache.MemoryStore

-- What is stored lives until its time is over. It lives for good if it has no time of its own, or
-- one that ends where the clock has no name for it.
def Write.Lives (w : Write) (since now : Instant) : Prop :=
  ∀ d ∈ w.ttl, Instant.horizon ≤ since + d.total ∨ now < since + d.total

namespace Event

-- What an operation stored.
def taken? (e : Event) : Option Write := e.operation.taken? e.before.store.config

-- Whether an operation put an end to what was stored under a key. Reads and clean-ups never do:
-- what they drop has ended before.
def ends (e : Event) (key : Key) : Bool :=
  match e.operation with
  | .remove k => k = key
  | .clear => true
  | _ => e.taken?.any fun w => w.key = key || (e.before.store.evictedFor w.key w.body).contains key

end Event

-- The last write of a key that was taken, if its time is not over, and if the key was not removed,
-- cleared or picked to make room since.
def Kept (history : List Event) (now : Instant) (key : Key) (w : Write) : Prop :=
  ∃ before e after, history = before ++ e :: after ∧ e.taken? = some w ∧ w.key = key ∧
    w.Lives e.before.now now ∧ ∀ f ∈ after, f.ends key = false

namespace Operation

-- Writes that are refused, reads and clean-ups, and time that goes by.
def isPassive (config : Config) : Operation → Bool
  | .set _ body | .setWithTtl _ body _ => !config.takes body
  | .get _ | .contains _ | .cleanUp | .wait _ => true
  | .remove _ | .clear => false

end Operation

-- A store that is a map whose entries live for a time. Its operations so far are its history.
structure IsTtlMap (config : Config) (history : List Event) (s : Timed) : Prop where
  configured : ∀ e ∈ history, e.before.store.config = config
  found      : ∀ key body, (s.store.get s.now key).answer = .ok body ↔
    ∃ w, Kept history s.now key w ∧ w.body = body
  notFound   : ∀ key, (¬∃ w, Kept history s.now key w) →
    (s.store.get s.now key).answer = .error (.notFound key)
  contains   : ∀ key, s.store.contains s.now key ↔
    ∃ body, (s.store.get s.now key).answer = .ok body
  passive    : ∀ o key later, o.isPassive config → s.now ≤ later →
    ((s.step o).store.get later key).answer = (s.store.get later key).answer

variable {s : MemoryStore} {key : Key} {b c : StoredBody} {body : Body} {w : Write}
variable {now since later : Instant} {history : List Event} {e : Event} {o : Operation}
variable {config : Config}

section Answers

theorem get_eq_ok_iff : (s.get now key).answer = .ok body ↔
    ∃ b, s.bodies.find? key = some b ∧ b.isExpired now = false ∧ b.body = body := by
  unfold get
  split
  case h_1 h => simp [h]
  case h_2 b h =>
    split
    case isTrue he => simp [h, he]
    case isFalse he => simp [h, he]

theorem get_eq_ok_or_notFound (s : MemoryStore) (now : Instant) (key : Key) :
    (∃ body, (s.get now key).answer = .ok body) ∨
      (s.get now key).answer = .error (.notFound key) := by
  unfold get
  split
  case h_1 => exact .inr rfl
  case h_2 b _ =>
    split
    case isTrue => exact .inr rfl
    case isFalse => exact .inl ⟨b.body, rfl⟩

-- Two stores that find the same bodies answer the same.
theorem get_answer_eq {t : MemoryStore} (h : ∀ body,
    (s.get now key).answer = .ok body ↔ (t.get now key).answer = .ok body) :
    (s.get now key).answer = (t.get now key).answer := by
  obtain ⟨body, hs⟩ | hs := s.get_eq_ok_or_notFound now key
  case inl => rw [hs, (h body).mp hs]
  case inr =>
    obtain ⟨body, ht⟩ | ht := t.get_eq_ok_or_notFound now key
    case inl => rw [ht, (h body).mpr ht]
    case inr => rw [hs, ht]

theorem contains_iff :
    s.contains now key ↔ ∃ body, (s.get now key).answer = .ok body := by
  simp only [get_eq_ok_iff, contains]
  cases s.bodies.find? key <;> simp

end Answers

-- A body expires when its time is over, and not before.
theorem isExpired_eq_false_iff (h : b.expiresAt = w.ttl.bind since.after?) :
    b.isExpired now = false ↔ w.Lives since now := by
  rw [StoredBody.isExpired, h, Write.Lives]
  cases w.ttl
  case none => simp
  case some d =>
    by_cases hd : since + d.total < Instant.horizon
    case pos => simp [Instant.after?, hd, Nat.not_le_of_lt hd]
    case neg => simp [Instant.after?, hd, Nat.le_of_not_lt hd]

theorem isExpired_mono (h : b.isExpired now) (hn : now ≤ later) : b.isExpired later := by
  unfold StoredBody.isExpired at h ⊢
  cases he : b.expiresAt <;> simp only [he] at h ⊢
  case none => cases h
  case some expiry =>
    have h : expiry ≤ now := by simpa using h
    simpa using Nat.le_trans h hn

-- What becomes of the body under a key when nothing puts an end to it: it stays, with its time, or
-- its time is over and it is dropped.
inductive Fades (now : Instant) : Option StoredBody → Option StoredBody → Prop
  | kept {b c : StoredBody} :
    c.body = b.body → c.expiresAt = b.expiresAt → Fades now (some b) (some c)
  | expired {b : StoredBody} : b.isExpired now → Fades now (some b) none
  | absent : Fades now none none

namespace Fades

variable {found : Option StoredBody}

theorem refl : Fades now found found := by
  cases found
  case none => exact .absent
  case some b => exact .kept rfl rfl

-- It cannot be told from the answers to later reads whether a body that has expired is dropped.
theorem get_answer_eq {t : MemoryStore} (h : Fades now (s.bodies.find? key) (t.bodies.find? key))
    (hn : now ≤ later) : (t.get later key).answer = (s.get later key).answer := by
  refine MemoryStore.get_answer_eq fun body => ?_
  rw [get_eq_ok_iff, get_eq_ok_iff]
  generalize s.bodies.find? key = found, t.bodies.find? key = found' at h
  cases h
  case kept hb he => simp [hb, StoredBody.isExpired, he]
  case expired he => simp [isExpired_mono he hn]
  case absent => rfl

end Fades

namespace Timed

variable {s : Timed}

theorem fades_of_taken? {w' : Write} (hw : o.write? s.store.config = some w')
    (h : ∀ w ∈ o.taken? s.store.config, w.key ≠ key ∧ key ∉ s.store.evictedFor w.key w.body) :
    Fades s.now (s.store.bodies.find? key) ((s.step o).store.bodies.find? key) := by
  cases ht : o.taken? s.store.config
  case none =>
    rw [step_of_refused hw ht]
    exact .refl
  case some w =>
    have ⟨hk, he⟩ := h w ht
    rw [find?_step_of_taken? ht, if_neg hk, if_neg he]
    exact .refl

theorem fades_get {k : Key} :
    Fades s.now (s.store.bodies.find? key) ((s.step (.get k)).store.bodies.find? key) := by
  change Fades _ _ ((s.store.get s.now k).state.bodies.find? key)
  cases hb : s.store.bodies.find? k
  case none =>
    rw [get_of_none hb]
    exact .refl
  case some b =>
    cases he : b.isExpired s.now
    case false =>
      rw [get_of_some hb he]
      dsimp only
      rw [find?_touch]
      split
      case isTrue hk =>
        rw [← hk, hb]
        exact .kept rfl rfl
      case isFalse => exact .refl
    case true =>
      simp only [get, hb, he, if_true]
      change Fades _ _ ((s.store.bodies.erase k).find? key)
      rw [Table.find?_erase]
      split
      case isTrue hk =>
        rw [← hk, hb]
        exact .expired he
      case isFalse => exact .refl

theorem fades_cleanUp :
    Fades s.now (s.store.bodies.find? key) ((s.step .cleanUp).store.bodies.find? key) := by
  change Fades _ _ ((s.store.cleanUp s.now).state.bodies.find? key)
  obtain h | h := s.store.cleanUp_cases s.now
  case inl =>
    rw [h]
    exact .refl
  case inr =>
    rw [h]
    change Fades _ _ (((s.store.expired s.now).foldl expire _).bodies.find? key)
    rw [find?_foldl takesOut_expire]
    split
    case isTrue hm =>
      obtain ⟨⟨k, b⟩, hp, rfl⟩ := List.mem_map.mp hm
      obtain ⟨hb, he⟩ := mem_expired_iff.mp hp
      rw [hb]
      exact .expired he
    case isFalse => exact .refl

-- What an operation does to what is stored under a key, unless it puts an end to it.
theorem fades (h : Event.ends ⟨s, o⟩ key = false) :
    Fades s.now (s.store.bodies.find? key) ((s.step o).store.bodies.find? key) := by
  cases o
  case set =>
    refine fades_of_taken? rfl fun w hw => ?_
    simpa [Event.ends, Event.taken?, Option.mem_def.mp hw] using h
  case setWithTtl =>
    refine fades_of_taken? rfl fun w hw => ?_
    simpa [Event.ends, Event.taken?, Option.mem_def.mp hw] using h
  case get => exact fades_get
  case contains => exact .refl
  case remove k =>
    have hk : k ≠ key := by simpa [Event.ends] using h
    change Fades _ _ ((s.store.remove k).2.bodies.find? key)
    rw [find?_remove, if_neg hk]
    exact .refl
  case clear => cases h
  case cleanUp => exact fades_cleanUp
  case wait => exact .refl

-- An operation that puts an end to what is stored under a key leaves its own body there, or none.
theorem find?_of_ends (h : Event.ends ⟨s, o⟩ key) : (s.step o).store.bodies.find? key =
    ((o.taken? s.store.config).filter (·.key = key)).map fun w =>
      .create w.body w.ttl s.now := by
  have hset (h : (o.taken? s.store.config).any fun w =>
      w.key = key || (s.store.evictedFor w.key w.body).contains key) :
      (s.step o).store.bodies.find? key =
        ((o.taken? s.store.config).filter (·.key = key)).map fun w =>
          .create w.body w.ttl s.now := by
    cases ht : o.taken? s.store.config <;> rw [ht] at h
    case none => cases h
    case some w =>
      rw [find?_step_of_taken? ht]
      by_cases hk : w.key = key
      case pos => simp [Option.filter_some, hk]
      case neg =>
        have : key ∈ s.store.evictedFor w.key w.body := by simpa [hk] using h
        simp [Option.filter_some, hk, this]
  cases o
  case set => exact hset h
  case setWithTtl => exact hset h
  case remove k =>
    have hk : k = key := by simpa [Event.ends] using h
    change (s.store.remove k).2.bodies.find? key = none
    rw [find?_remove, if_pos hk]
  case clear => exact find?_clear
  all_goals cases h

end Timed

section Latest

-- The last write of a key that was taken, and when, if nothing put an end to it since.
def latest (history : List Event) (key : Key) : Option (Instant × Write) :=
  history.foldl (fun found e =>
    if e.ends key then (e.taken?.filter (·.key = key)).map fun w => (e.before.now, w)
    else found) none

theorem latest_append : latest (history ++ [e]) key =
    if e.ends key then (e.taken?.filter (·.key = key)).map fun w => (e.before.now, w)
    else latest history key := by
  rw [latest, List.foldl_append]
  rfl

theorem ends_of_taken? (h : e.taken? = some w) (hk : w.key = key) : e.ends key := by
  obtain ⟨before, o⟩ := e
  cases o <;> first | cases h | simp [Event.ends, h, hk]

theorem latest_eq_some_iff : latest history key = some (since, w) ↔
    ∃ before e after, history = before ++ e :: after ∧ e.taken? = some w ∧ w.key = key ∧
      e.before.now = since ∧ ∀ f ∈ after, f.ends key = false := by
  induction history using List.reverseRecOn
  case nil => simp [latest]
  case append_singleton history f hi =>
    rw [latest_append]
    split
    case isTrue hf =>
      constructor
      case mp =>
        intro h
        obtain ⟨w', hw, he⟩ := Option.map_eq_some_iff.mp h
        obtain ⟨hw, hk⟩ := Option.filter_eq_some_iff.mp hw
        cases he
        exact ⟨history, f, [], rfl, hw, by simpa using hk, rfl, fun _ h => by cases h⟩
      case mpr =>
        intro ⟨before, e, after, he, hw, hk, hn, ha⟩
        cases after using List.reverseRecOn
        case nil =>
          cases List.append_inj_right' he rfl
          simp [hw, hk, hn]
        case append_singleton after g _ =>
          rw [← List.cons_append, ← List.append_assoc] at he
          cases List.append_inj_right' he rfl
          simp [ha f (by simp)] at hf
    case isFalse hf =>
      rw [hi]
      constructor
      case mp =>
        intro ⟨before, e, after, he, hw, hk, hn, ha⟩
        refine ⟨before, e, after ++ [f], by simp [he], hw, hk, hn, fun g hg => ?_⟩
        cases List.mem_append.mp hg
        case inl hg => exact ha g hg
        case inr hg => simpa [List.mem_singleton.mp hg] using hf
      case mpr =>
        intro ⟨before, e, after, he, hw, hk, hn, ha⟩
        cases after using List.reverseRecOn
        case nil =>
          cases List.append_inj_right' he rfl
          exact absurd (ends_of_taken? hw hk) hf
        case append_singleton after g _ =>
          rw [← List.cons_append, ← List.append_assoc] at he
          obtain ⟨rfl, _⟩ := List.append_inj' he rfl
          exact ⟨before, e, after, rfl, hw, hk, hn, fun g hg => ha g (by simp [hg])⟩

theorem kept_iff : Kept history now key w ↔
    ∃ since, latest history key = some (since, w) ∧ w.Lives since now := by
  simp only [latest_eq_some_iff]
  constructor
  case mp =>
    intro ⟨before, e, after, he, hw, hk, hl, ha⟩
    exact ⟨_, ⟨before, e, after, he, hw, hk, rfl, ha⟩, hl⟩
  case mpr =>
    intro ⟨_, ⟨before, e, after, he, hw, hk, hn, ha⟩, hl⟩
    exact ⟨before, e, after, he, hw, hk, hn ▸ hl, ha⟩

end Latest

-- What is stored under a key, against the last write of it that was taken. What is no longer there
-- has expired.
inductive Matches (now : Instant) : Option (Instant × Write) → Option StoredBody → Prop
  | stored {since : Instant} {w : Write} {b : StoredBody} :
    b.body = w.body → b.expiresAt = w.ttl.bind since.after? → Matches now (some (since, w)) (some b)
  | lapsed {since : Instant} {w : Write} : ¬w.Lives since now → Matches now (some (since, w)) none
  | nothing : Matches now none none

-- A store that is what its history makes it.
def Recalls (history : List Event) (s : Timed) : Prop :=
  ∀ key, Matches s.now (latest history key) (s.store.bodies.find? key)

namespace Recalls

variable {s : Timed} {operations : List Operation} {start : Instant}

theorem init : Recalls [] (.init config start) := fun _ => .nothing

theorem step (h : Recalls history s) : Recalls (history ++ [⟨s, o⟩]) (s.step o) := by
  intro key
  rw [latest_append]
  split
  case isTrue he =>
    rw [Timed.find?_of_ends he, Event.taken?]
    cases (o.taken? s.store.config).filter (·.key = key)
    case none => exact .nothing
    case some w => exact .stored rfl rfl
  case isFalse he =>
    have hm := h key
    have hf := Timed.fades (Bool.eq_false_iff.mpr he)
    have hn : s.now ≤ (s.step o).now := Timed.now_le_step
    generalize s.store.bodies.find? key = found, latest history key = last at hm hf
    generalize (s.step o).store.bodies.find? key = found' at hf
    cases hm
    case stored b w since hb ht =>
      cases hf
      case kept hb' ht' => exact .stored (hb'.trans hb) (ht'.trans ht)
      case expired he =>
        refine .lapsed fun hl => ?_
        have := (isExpired_eq_false_iff ht).mpr hl
        simp [isExpired_mono he hn] at this
    case lapsed hl =>
      cases hf
      refine .lapsed fun hl' => hl fun d hd => ?_
      exact (hl' d hd).imp_right (Nat.lt_of_le_of_lt hn)
    case nothing =>
      cases hf
      exact .nothing

theorem run (h : Recalls history s) :
    Recalls (history ++ s.trace operations) (s.run operations) :=
  Timed.recorded_run .step h

end Recalls

theorem Event.ends_of_isPassive {s : Timed} (h : o.isPassive s.store.config) :
    Event.ends ⟨s, o⟩ key = false := by
  cases o
  case set k body =>
    have : s.store.config.takes body = false := by simpa [Operation.isPassive] using h
    simp [Event.ends, Event.taken?, Operation.taken?, Operation.write?, this]
  case setWithTtl k body ttl =>
    have : s.store.config.takes body = false := by simpa [Operation.isPassive] using h
    simp [Event.ends, Event.taken?, Operation.taken?, Operation.write?, this]
  case remove => cases h
  case clear => cases h
  all_goals rfl

theorem Recalls.found {s : Timed} (h : Recalls history s) (key : Key) (body : Body) :
    (s.store.get s.now key).answer = .ok body ↔
      ∃ w, Kept history s.now key w ∧ w.body = body := by
  have hm := h key
  simp only [get_eq_ok_iff, kept_iff]
  generalize s.store.bodies.find? key = found, latest history key = last at hm
  cases hm
  case stored b w since hb ht => simp [isExpired_eq_false_iff ht, hb]
  case lapsed since w hl => simp [hl]
  case nothing => simp

-- A store is a map whose entries live for a time, whatever is done with it: each read is answered
-- with the last write of the key that was taken, if nothing put an end to it since.
theorem is_ttl_map (config : Config) (start : Instant) (operations : List Operation) :
    IsTtlMap config ((Timed.init config start).trace operations)
      ((Timed.init config start).run operations) := by
  generalize hs : (Timed.init config start).run operations = s
  have hc : s.store.config = config := hs ▸ Timed.config_run
  have h : Recalls ((Timed.init config start).trace operations) s := by
    have hr : Recalls [] (.init config start) := .init
    exact hs ▸ hr.run
  constructor
  case configured => exact fun e he => Timed.config_of_mem_trace he
  case found => exact h.found
  case notFound =>
    intro key hn
    refine (s.store.get_eq_ok_or_notFound s.now key).resolve_left fun ⟨body, hb⟩ => hn ?_
    have ⟨w, hw, _⟩ := (h.found key body).mp hb
    exact ⟨w, hw⟩
  case contains => exact fun key => contains_iff
  case passive =>
    intro o key later ho hl
    exact (Timed.fades (Event.ends_of_isPassive (hc ▸ ho))).get_answer_eq hl

end OnceCache.MemoryStore
