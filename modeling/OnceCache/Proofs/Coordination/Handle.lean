import OnceCache.Coordination.Handle
import OnceCache.Proofs.Coordination.Soundness

namespace OnceCache.Coordinator

variable {c c' : Coordinator} {id i call : PartyId} {p : Party} {isHolder : Bool}

@[simp]
theorem isFirst_eq : c.isFirst id p = true ↔ (c.lineOf p.lock).holder = some id := by
  simp [isFirst]

theorem handle?_eq_ok_iff :
    c.handle? id = .ok p ↔ c.parties.find? id = some p ∧ p.stage = .handle := by
  unfold handle?
  cases c.parties.find? id
  case none => simp
  case some q =>
    dsimp only
    split
    case isTrue hs => simpa using fun he : q = p => he ▸ hs
    case isFalse hs =>
      constructor
      case mp => exact nofun
      case mpr => exact fun ⟨he, hs'⟩ => absurd (Option.some.inj he ▸ hs') hs

theorem call?_eq_ok_iff :
    c.call? id = .ok p ↔ c.parties.find? id = some p ∧ p.stage.handle?.isSome := by
  unfold call?
  cases c.parties.find? id
  case none => simp
  case some q =>
    dsimp only
    split
    case isTrue hs => simpa using fun he : q = p => he ▸ hs
    case isFalse hs =>
      constructor
      case mp => exact nofun
      case mpr => exact fun ⟨he, hs'⟩ => absurd (Option.some.inj he ▸ hs') hs

-- The stage of a lock call that was just told whether it holds the lock.
def told (i : PartyId) (isHolder : Bool) : Stage := if isHolder then .holding i else .waiting i

@[simp]
theorem told_role : (told i isHolder).role = .call i := by
  cases isHolder <;> rfl

@[simp]
theorem told_isOwner : (told i isHolder).isOwner = isHolder := by
  cases isHolder <;> rfl

theorem role_of_handle? {stage : Stage} (h : stage.handle? = some i) : stage.role = .call i := by
  cases stage <;> cases h <;> rfl

-- A lock call that looks learns whether it is the first in line.
theorem Sound.pollLock_eq (h : c.Sound) (hp : c.parties.find? id = some p)
    (hi : p.stage.handle? = some i) :
    c.pollLock id = .ok (c.isFirst id p, c.setStage id (told i (c.isFirst id p))) := by
  have hr : c.call? id = .ok p := call?_eq_ok_iff.mpr ⟨hp, by rw [hi]; rfl⟩
  have hkept : c.setStage id p.stage = c := setStage_self hp
  simp only [pollLock, hr, bind, Except.bind]
  cases hs : p.stage <;> rw [hs] at hi hkept <;> cases hi
  case waiting =>
    cases hf : c.isFirst id p
    case false =>
      rw [told]
      exact congrArg (fun c => Except.ok (false, c)) hkept.symm
    case true => rfl
  case holding =>
    have hf : c.isFirst id p := isFirst_eq.mpr (h.first hp (by rw [hs]; rfl))
    rw [hf, told]
    exact congrArg (fun c => Except.ok (true, c)) hkept.symm

theorem Sound.of_pollLock (h : c.Sound) (ha : c.pollLock id = .ok (isHolder, c')) :
    ∃ p i, c.parties.find? id = some p ∧ p.stage.handle? = some i ∧
      (isHolder ↔ (c.lineOf p.lock).holder = some id) ∧ c' = c.setStage id (told i isHolder) := by
  cases hr : c.call? id
  case error => simp [pollLock, hr, bind, Except.bind] at ha
  case ok p =>
    have ⟨hp, hs⟩ := call?_eq_ok_iff.mp hr
    obtain ⟨i, hi⟩ := Option.isSome_iff_exists.mp hs
    cases (h.pollLock_eq hp hi).symm.trans ha
    exact ⟨p, i, hp, hi, isFirst_eq, rfl⟩

theorem of_askLock (h : c.askLock id = .ok (call, isHolder, c')) :
    ∃ p, c.parties.find? id = some p ∧ p.stage = .handle ∧ call = c.nextParty ∧
      (c.arrive (newCall p id)).2.pollLock c.nextParty = .ok (isHolder, c') := by
  cases hr : c.handle? id
  case error => simp [askLock, hr, bind, Except.bind] at h
  case ok p =>
    have ⟨hp, hs⟩ := handle?_eq_ok_iff.mp hr
    refine ⟨p, hp, hs, ?_⟩
    have hc : (c.arrive (newCall p id)).1 = c.nextParty := rfl
    simp only [askLock, hr, bind, Except.bind, hc] at h
    split at h <;> cases h
    case h_2 ha => exact ⟨rfl, ha⟩

-- A handle can always ask for the lock.
theorem Sound.askLock_eq (h : c.Sound) (hp : c.parties.find? id = some p)
    (hs : p.stage = .handle) :
    let d := (c.arrive (newCall p id)).2
    let isHolder := d.isFirst c.nextParty (newCall p id)
    c.askLock id = .ok (c.nextParty, isHolder, d.setStage c.nextParty (told id isHolder)) := by
  intro d isHolder
  have hr : c.handle? id = .ok p := handle?_eq_ok_iff.mpr ⟨hp, hs⟩
  have hd : d.Sound := h.arriveCall hp hs
  have ha : d.pollLock c.nextParty = _ := hd.pollLock_eq find?_arrive_self rfl
  have hc : (c.arrive (newCall p id)).1 = c.nextParty := rfl
  simp only [askLock, hr, bind, Except.bind, hc]
  rw [ha]
  rfl

section Leaving

theorem isInUse_eq_false_iff : c.isInUse id = false ↔ c.Unused id := by
  rw [isInUse, List.any_eq_false]
  constructor
  case mp =>
    intro h j q hq
    simpa using h (j, q) (Table.find?_eq_some_iff.mp hq)
  case mpr =>
    intro h (j, q) hq
    simpa using h (Table.find?_eq_some_iff.mpr hq)

-- A handle or a lock call goes.
structure Goes (c : Coordinator) (id : PartyId) (p : Party) (c' : Coordinator) : Prop where
  party     : c.parties.find? id = some p
  isRequest : p.stage.isRequest = false
  unused    : c.Unused id
  eq        : c' = c.depart id

theorem Registered.of_call? (h : c.Registered) (hr : c.call? id = .ok p) :
    c.Goes id p (c.depart id) := by
  have ⟨hp, hs⟩ := call?_eq_ok_iff.mp hr
  refine ⟨hp, ?_, h.unused_of_isInLine hp (Stage.isInLine_of_handle? hs), rfl⟩
  cases hstage : p.stage <;> rw [hstage] at hs <;> first | rfl | cases hs

theorem Registered.of_abandon (h : c.Registered) (ha : c.abandon id = .ok c') :
    ∃ p, c.Goes id p c' := by
  cases hr : c.call? id <;> rw [abandon, hr] at ha <;> cases ha
  exact ⟨_, h.of_call? hr⟩

theorem of_guard? (h : c.guard? id = .ok p) : c.call? id = .ok p ∧ p.stage.isOwner := by
  cases hr : c.call? id <;> simp only [guard?, hr, bind, Except.bind] at h
  case error => cases h
  case ok q =>
    split at h <;> cases h
    case isTrue ho => exact ⟨rfl, ho⟩

theorem Registered.of_unlock (h : c.Registered) (ha : c.unlock id = .ok c') :
    ∃ p, c.Goes id p c' := by
  cases hr : c.guard? id <;> rw [unlock, hr] at ha <;> cases ha
  exact ⟨_, h.of_call? (of_guard? hr).left⟩

theorem of_free (h : c.free id = .ok c') : ∃ p, c.Goes id p c' := by
  cases hr : c.handle? id <;> simp only [free, hr, bind, Except.bind] at h
  case error => cases h
  case ok p =>
    have ⟨hp, hs⟩ := handle?_eq_ok_iff.mp hr
    split at h <;> cases h
    case isFalse hu =>
      exact ⟨p, hp, by rw [hs]; rfl, isInUse_eq_false_iff.mp (eq_false_of_ne_true hu), rfl⟩

section

variable (hp : c.parties.find? id = some p)
include hp

-- A lock call can always be dropped,
theorem abandon_eq (hs : p.stage.handle?.isSome) : c.abandon id = .ok (c.depart id) := by
  rw [abandon, call?_eq_ok_iff.mpr ⟨hp, hs⟩]
  rfl

-- and unlocked if it holds the lock.
theorem unlock_eq (hs : p.stage.handle?.isSome) (ho : p.stage.isOwner) :
    c.unlock id = .ok (c.depart id) := by
  have hg : c.guard? id = .ok p := by
    simp only [guard?, call?_eq_ok_iff.mpr ⟨hp, hs⟩, bind, Except.bind, ho, if_true]
    rfl
  rw [unlock, hg]
  rfl

-- A handle can be given up as soon as its lock calls are gone.
theorem free_eq (hs : p.stage = .handle) (hu : c.Unused id) : c.free id = .ok (c.depart id) := by
  simp only [free, handle?_eq_ok_iff.mpr ⟨hp, hs⟩, bind, Except.bind, isInUse_eq_false_iff.mpr hu]
  rfl

end

end Leaving

theorem sharesLock_eq {i j : PartyId} {q : Party} (hp : c.handle? i = .ok p)
    (hq : c.handle? j = .ok q) : c.sharesLock i j = .ok (decide (p.lock = q.lock)) := by
  rw [sharesLock, hp, hq]
  rfl

section Soundness

theorem Sound.pollLock (h : c.Sound) (ha : c.pollLock id = .ok (isHolder, c')) : c'.Sound := by
  obtain ⟨p, i, hp, hi, hl, rfl⟩ := h.of_pollLock ha
  refine h.setStage hp (told_role.trans (role_of_handle? hi).symm) fun ho => hl.mp ?_
  rwa [told_isOwner] at ho

theorem Sound.askLock (h : c.Sound) (ha : c.askLock id = .ok (call, isHolder, c')) :
    c'.Sound := by
  obtain ⟨p, hp, hs, _, ha⟩ := of_askLock ha
  exact (h.arriveCall hp hs).pollLock ha

theorem Sound.goes (h : c.Sound) (hg : c.Goes id p c') : c'.Sound :=
  hg.eq ▸ h.depart hg.unused

end Soundness

end OnceCache.Coordinator
