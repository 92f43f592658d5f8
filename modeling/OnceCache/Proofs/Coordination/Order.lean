import OnceCache.Proofs.Coordination.Handle
import OnceCache.Proofs.Trace

namespace OnceCache

-- What there is to notice about those who want a lock.
inductive Notice
  | asks (id : PartyId) (key : Key)
  -- It is told whether it has the lock.
  | learns (id : PartyId) (hasLock : Bool)
  -- It gives up the lock or the wait for it, if there is one.
  | leaves (id : PartyId)

-- What a notice means for those who asked for the lock of a key.
def Notice.change (key : Key) (line : List PartyId) : Notice → List PartyId
  | asks id k => if k = key then line ++ [id] else line
  | learns .. => line
  | leaves id => line.filter (· ≠ id)

-- Those who asked for the lock of a key and have not given it up, in the order of their asking.
def asked (trace : List Notice) (key : Key) : List PartyId :=
  trace.foldl (Notice.change key) []

-- Each lock call and each request asks once. Whoever asked for a lock has it exactly if all who
-- asked before have given it up.
def Notice.IsFair (before : List Notice) : Notice → Prop
  | asks id _ => ∀ key, id ∉ asked before key
  | learns id hasLock => ∃ key, id ∈ asked before key ∧
    (hasLock ↔ (asked before key).head? = some id)
  | leaves _ => True

section Asked

variable {trace : List Notice} {id : PartyId} {key k : Key} {hasLock : Bool}

theorem asked_asks : asked (trace ++ [.asks id k]) key =
    if k = key then asked trace key ++ [id] else asked trace key := by
  rw [asked, List.foldl_append]
  rfl

@[simp]
theorem asked_learns : asked (trace ++ [.learns id hasLock]) = asked trace := by
  funext key
  rw [asked, List.foldl_append]
  rfl

theorem asked_leaves :
    asked (trace ++ [.leaves id]) key = (asked trace key).filter (· ≠ id) := by
  rw [asked, List.foldl_append]
  rfl

end Asked

namespace Coordinator

-- The line in front of the lock of a key is made up of those who asked for it, in the order of
-- their asking. Whoever asks has just come, so that this is the order of their coming.
structure Lined (c : Coordinator) (line : Key → List PartyId) : Prop where
  parties : ∀ {id p}, c.parties.find? id = some p → (c.lineOf p.lock).parties = line p.key
  there   : ∀ {id key}, id ∈ line key → ∃ p, c.parties.find? id = some p ∧ p.key = key
  ranked  : ∀ {key}, (line key).Pairwise (· < ·)

variable {c : Coordinator} {line line' : Key → List PartyId} {id : PartyId} {p : Party}
variable {key : Key} {stage : Stage}

namespace Lined

theorem empty : Lined {} fun _ => [] where
  parties h := by simp at h
  there h   := by simp at h
  ranked    := .nil

theorem mem_iff (h : c.Lined line) (hs : c.Sound) : id ∈ line key ↔
    ∃ p, c.parties.find? id = some p ∧ p.key = key ∧ p.stage.isInLine := by
  constructor
  case mp =>
    intro hm
    obtain ⟨p, hp, rfl⟩ := h.there hm
    obtain ⟨q, hq, _, hi⟩ := (hs.mem_iff _ _).mp (h.parties hp ▸ hm)
    cases hp.symm.trans hq
    exact ⟨p, hp, rfl, hi⟩
  case mpr =>
    rintro ⟨p, hp, rfl, hi⟩
    exact h.parties hp ▸ (hs.mem_iff _ _).mpr ⟨p, hp, rfl, hi⟩

theorem nodup (h : c.Lined line) (hs : c.Sound) : (line key).Nodup := by
  cases hl : line key
  case nil => exact .nil
  case cons id rest =>
    have hm : id ∈ line key := by rw [hl]; exact .head _
    obtain ⟨p, hp, rfl⟩ := h.there hm
    rw [← hl, ← h.parties hp]
    exact hs.nodup p.lock

section Enter

-- Whoever comes stands behind all who asked for the lock of its key before.
theorem arrive (h : c.Lined line) (hf : ∀ {j q}, c.parties.find? j = some q → j < c.nextParty)
    (hp : (c.lineOf p.lock).parties = line p.key)
    (hk : ∀ {j q}, c.parties.find? j = some q → (p.lock = q.lock ↔ p.key = q.key))
    (hl : ∀ k, line' k =
      if p.key = k ∧ p.stage.isInLine then line k ++ [c.nextParty] else line k) :
    (c.arrive p).2.Lined line' where
  parties {j q} hj := by
    rw [find?_arrive] at hj
    have hq : (c.lineOf q.lock).parties = line q.key ∧ (p.lock = q.lock ↔ p.key = q.key) := by
      split at hj
      case isTrue =>
        cases hj
        exact ⟨hp, by simp⟩
      case isFalse => exact ⟨h.parties hj, hk hj⟩
    simp only [lineOf_arrive, hl, hq.right]
    split
    case isTrue => rw [Line.join, hq.left]
    case isFalse => exact hq.left
  there {j k} hj := by
    rw [hl] at hj
    have hold (hj : j ∈ line k) : ∃ q, (c.arrive p).2.parties.find? j = some q ∧ q.key = k := by
      obtain ⟨q, hq, hk⟩ := h.there hj
      have : c.nextParty ≠ j := Nat.ne_of_gt (hf hq)
      exact ⟨q, by rwa [find?_arrive, if_neg this], hk⟩
    split at hj
    case isTrue hk =>
      cases List.mem_append.mp hj
      case inl hj => exact hold hj
      case inr hj =>
        cases List.mem_singleton.mp hj
        exact ⟨_, find?_arrive_self, hk.left⟩
    case isFalse => exact hold hj
  ranked {k} := by
    rw [hl]
    split
    case isTrue =>
      refine List.pairwise_append.mpr ⟨h.ranked, List.pairwise_singleton _ _, fun i hi j hj => ?_⟩
      cases List.mem_singleton.mp hj
      obtain ⟨q, hq, _⟩ := h.there hi
      exact hf hq
    case isFalse => exact h.ranked

-- Whoever comes for a key meets the line of those who asked for it before.
theorem newcomer (h : c.Lined line) (hs : c.Sound) (ht : stage.handle? = none) :
    (c.lineOf (c.newcomer key stage).lock).parties = line key := by
  have hr : (c.enter key stage).2.Registered := hs.toRegistered.enter ht
  have hf {j q} (hj : c.parties.find? j = some q) :
      (c.enter key stage).2.parties.find? j = some q := by
    have : c.nextParty ≠ j := Nat.ne_of_gt (hs.fresh hj)
    rwa [find?_enter, if_neg this]
  by_cases hk : ∃ j q, c.parties.find? j = some q ∧ q.key = key
  case pos =>
    obtain ⟨j, q, hj, rfl⟩ := hk
    rw [hr.lock_eq find?_enter_self (hf hj) rfl, h.parties hj]
  case neg =>
    have hl : line key = [] := List.eq_nil_iff_forall_not_mem.mpr fun j hj => by
      obtain ⟨q, hq, hk'⟩ := h.there hj
      exact hk ⟨j, q, hq, hk'⟩
    rw [hl]
    refine List.eq_nil_iff_forall_not_mem.mpr fun j hj => ?_
    obtain ⟨q, hq, hlock, _⟩ := (hs.mem_iff _ _).mp hj
    exact hk ⟨j, q, hq, (hr.lock_eq_iff (hf hq) find?_enter_self).mp hlock⟩

theorem enter (h : c.Lined line) (hs : c.Sound) (ht : stage.handle? = none)
    (hl : ∀ k, line' k = if key = k ∧ stage.isInLine then line k ++ [c.nextParty] else line k) :
    (c.enter key stage).2.Lined line' := by
  have hr : (c.enter key stage).2.Registered := hs.toRegistered.enter ht
  have hw : (c.withReference key).Lined line := ⟨h.parties, h.there, h.ranked⟩
  refine hw.arrive ?_ (h.newcomer hs ht) (fun {j q} hj => ?_) hl
  · exact hs.fresh
  · have : c.nextParty ≠ j := Nat.ne_of_gt (hs.fresh hj)
    exact hr.lock_eq_iff find?_enter_self (by rwa [find?_enter, if_neg this])

theorem arriveCall {i : PartyId} (h : c.Lined line) (hs : c.Sound)
    (hp : c.parties.find? i = some p)
    (hl : ∀ k, line' k = if p.key = k then line k ++ [c.nextParty] else line k) :
    (c.arrive (newCall p i)).2.Lined line' := by
  have hline := h.parties hp
  have hlock {j q} (hj : c.parties.find? j = some q) : p.lock = q.lock ↔ p.key = q.key :=
    hs.lock_eq_iff hp hj
  exact h.arrive hs.fresh hline hlock fun k => by simpa [Stage.isInLine] using hl k

end Enter

theorem depart (h : c.Lined line) (hs : c.Sound)
    (hl : ∀ k, line' k = (line k).filter (· ≠ id)) : (c.depart id).Lined line' := by
  have hne {j k} (hj : j ∈ line' k) : id ≠ j ∧ j ∈ line k := by
    rw [hl, List.mem_filter, decide_eq_true_iff] at hj
    exact ⟨Ne.symm hj.right, hj.left⟩
  constructor
  case parties =>
    intro j q hj
    have hj := (find?_depart_eq_some_iff.mp hj).right
    rw [hl, ← h.parties hj]
    have hkeep (hn : id ∉ (c.lineOf q.lock).parties) :
        (c.lineOf q.lock).parties = (c.lineOf q.lock).parties.filter (· ≠ id) := by
      refine (List.filter_eq_self.mpr fun i hi => decide_eq_true ?_).symm
      rintro rfl
      exact hn hi
    cases hp : c.parties.find? id
    case none =>
      rw [depart_of_none hp]
      refine hkeep fun hm => ?_
      obtain ⟨q', hq', _⟩ := (hs.mem_iff _ _).mp hm
      cases hp.symm.trans hq'
    case some p =>
      rw [lineOf_depart hp]
      split
      case isTrue => rfl
      case isFalse hlock =>
        -- It does not stand in any other line.
        refine hkeep fun hm => hlock ?_
        obtain ⟨q', hq', hlock', _⟩ := (hs.mem_iff _ _).mp hm
        cases hp.symm.trans hq'
        exact hlock'
  case there =>
    intro j k hj
    obtain ⟨hj, hm⟩ := hne hj
    obtain ⟨q, hq, hk⟩ := h.there hm
    exact ⟨q, find?_depart_eq_some_iff.mpr ⟨hj, hq⟩, hk⟩
  case ranked =>
    intro k
    rw [hl]
    exact h.ranked.filter _

-- It does not matter for the lines at which stage a party stands.
theorem setStage (h : c.Lined line) (hp : c.parties.find? id = some p) :
    (c.setStage id stage).Lined line where
  parties {j q} hj := by
    rw [find?_setStage hp] at hj
    split at hj
    case isTrue =>
      cases hj
      have := h.parties hp
      exact this
    case isFalse => exact h.parties hj
  there {j k} hj := by
    obtain ⟨q, hq, hk⟩ := h.there hj
    rw [find?_setStage hp]
    split
    case isTrue he =>
      cases hp.symm.trans (he ▸ hq)
      exact ⟨_, rfl, hk⟩
    case isFalse => exact ⟨q, hq, hk⟩
  ranked := h.ranked

-- The first in line holds the lock.
theorem head?_eq (h : c.Lined line) (hp : c.parties.find? id = some p) :
    (line p.key).head? = (c.lineOf p.lock).holder := by
  rw [← h.parties hp]
  rfl

end Lined

-- What there was to notice is fair and tells who is in line for which lock.
structure Follows (c : Coordinator) (trace : List Notice) : Prop where
  lined : c.Lined (asked trace)
  fair  : Along Notice.IsFair trace

namespace Follows

variable {trace : List Notice} {c' : Coordinator} {hasLock : Bool} {directive : Directive}
variable {call : PartyId}

theorem empty : Follows {} [] where
  lined := .empty
  fair  := .nil

-- A handle comes.
theorem allocate (h : c.Follows trace) (hs : c.Sound) :
    (c.enter key .handle).2.Follows trace where
  lined := h.lined.enter hs rfl fun k => by simp [Stage.isInLine]
  fair  := h.fair

-- Whoever comes has not asked before.
theorem not_mem (h : c.Follows trace) (hs : c.Sound) : c.nextParty ∉ asked trace key := by
  intro hm
  obtain ⟨p, hp, _⟩ := h.lined.there hm
  cases hs.unused.symm.trans hp

-- A request comes.
theorem enter (h : c.Follows trace) (hs : c.Sound) :
    (c.enter key (.queued directive)).2.Follows (trace ++ [.asks c.nextParty key]) where
  lined := h.lined.enter hs rfl fun k => by simp [asked_asks, Stage.isInLine]
  fair  := h.fair.append fun _ => h.not_mem hs

theorem learns (h : c.Follows trace) (hs : c.Sound) (hp : c.parties.find? id = some p)
    (hi : p.stage.isInLine) (hl : hasLock ↔ (c.lineOf p.lock).holder = some id) :
    c.Follows (trace ++ [.learns id hasLock]) where
  lined := by rw [asked_learns]; exact h.lined
  fair  := by
    refine h.fair.append ⟨p.key, ?_, ?_⟩
    · exact (h.lined.mem_iff hs).mpr ⟨p, hp, rfl, hi⟩
    · rw [hl, h.lined.head?_eq hp]

theorem setStage (h : c.Follows trace) (hp : c.parties.find? id = some p) :
    (c.setStage id stage).Follows trace where
  lined := h.lined.setStage hp
  fair  := h.fair

theorem depart (h : c.Follows trace) (hs : c.Sound) :
    (c.depart id).Follows (trace ++ [.leaves id]) where
  lined := h.lined.depart hs fun _ => asked_leaves
  fair  := h.fair.append trivial

theorem pollLock (h : c.Follows trace) (hs : c.Sound) (ha : c.pollLock id = .ok (hasLock, c')) :
    c'.Follows (trace ++ [.learns id hasLock]) := by
  obtain ⟨p, i, hp, hi, hl, rfl⟩ := hs.of_pollLock ha
  exact (h.learns hs hp (Stage.isInLine_of_handle? (hi ▸ rfl)) hl).setStage hp

theorem askLock (h : c.Follows trace) (hs : c.Sound) (hp : c.parties.find? id = some p)
    (ha : c.askLock id = .ok (call, hasLock, c')) :
    c'.Follows (trace ++ [.asks call p.key, .learns call hasLock]) := by
  obtain ⟨q, hq, hstage, rfl, ha⟩ := of_askLock ha
  cases hp.symm.trans hq
  have hf : (c.arrive (newCall p id)).2.Follows (trace ++ [.asks c.nextParty p.key]) :=
    ⟨h.lined.arriveCall hs hp fun _ => asked_asks, h.fair.append fun _ => h.not_mem hs⟩
  have := hf.pollLock (hs.arriveCall hp hstage) ha
  rwa [List.append_assoc] at this

theorem goes (h : c.Follows trace) (hs : c.Sound) (hg : c.Goes id p c') :
    c'.Follows (trace ++ [.leaves id]) :=
  hg.eq ▸ h.depart hs

end Follows

end Coordinator

end OnceCache
