import OnceCache.Proofs.Coordination.Order
import OnceCache.Proofs.Execution.References
import OnceCache.Proofs.Execution.Turn

namespace OnceCache

-- What there is to notice in an answer to a request.
def Poll.notices {ε : Type} (answer : Poll ε) (id : PartyId) : List Notice :=
  .learns id answer.hasTurn :: if answer.isPending then [] else [.leaves id]

namespace Execution

variable {σ ε : Type}

namespace State

-- What there is to notice when something was done, if it was possible.
def heard {α : Type} (result : Except Misuse α) (notices : α → List Notice) : List Notice :=
  match result with
  | .ok a => notices a
  | .error _ => []

-- What there is to notice in the looks from one state to another.
def lookNotices (s t : State σ ε) : List Notice :=
  (t.looks.drop s.looks.length).flatMap fun (id, look) => look.answer.notices id

variable [ByteStore σ]

-- What there is to notice in a step.
def noticed (describe : ε → String) (s : State σ ε) : Action σ ε → List Notice
  | .allocate _ | .wait _ | .tend _ => []
  | .askLock id => heard (s.coordinator.askLock id) fun (call, hasLock, _) =>
    match s.live.find? id with
    | some v => [.asks call v.key, .learns call hasLock]
    | none => []
  | .pollLock id => heard (s.coordinator.pollLock id) fun (hasLock, _) => [.learns id hasLock]
  | .abandon id => heard (s.coordinator.abandon id) fun _ => [.leaves id]
  | .unlock id => heard (s.coordinator.unlock id) fun _ => [.leaves id]
  | .free id => heard (s.coordinator.free id) fun _ => [.leaves id]
  | .start key directive generation =>
    .asks s.coordinator.nextParty key ::
      s.lookNotices (s.step describe (.start key directive generation))
  | .poll id generation => s.lookNotices (s.look describe id generation)
  | .cancel id => if (s.manager.cancel id).isSome then [.leaves id] else []

-- What there is to notice in a run.
def notices (describe : ε → String) (s : State σ ε) : List (Action σ ε) → List Notice
  | [] => []
  | action :: actions =>
    s.noticed describe action ++ (s.step describe action).notices describe actions

-- The lock of a key is with somebody who is there: a lock call that holds it, or a request that
-- generates, or one of those who will be told that they have it in the next look at them.
def Owned (describe : ε → String) (s : State σ ε) (id : PartyId) (key : Key) : Prop :=
  (∃ v, s.live.find? id = some v ∧ v.key = key) ∧ s.IsNext id key ∧
    (s.noticed describe (.pollLock id) = [.learns id true] ∨
      ∀ generation, ∃ rest, s.noticed describe (.poll id generation) = .learns id true :: rest)

-- A look at each request, in the order in which they came, with its generation done.
def sweep (s : State σ ε) (outcome : PartyId → Instant → Except ε Body) : List (Action σ ε) :=
  s.live.keys.map fun id => .poll id fun since => .finished (outcome id since)

-- Everybody is gone, and each request of a state was looked at once and is done.
structure Swept (s t : State σ ε) : Prop where
  live     : t.live = ∅
  registry : t.coordinator.registry.locks = ∅ ∧ t.coordinator.registry.references = ∅
  looks    : ∃ looks, t.looks = s.looks ++ looks ∧ looks.map (·.1) = s.live.keys ∧
    ∀ v ∈ looks, v.2.answer.isFinished

-- First come, first served. What there was to notice is fair, the lock of a key never stays with
-- somebody who is gone as long as somebody wants it, and requests whose generations are done need
-- one look each, in the order in which they came. A handle can ask as often as it likes, and
-- whoever is there can be dropped and passes the lock on if it has it.
structure FirstCome (describe : ε → String) (s : State σ ε) (trace : List Notice) : Prop where
  fair       : Along Notice.IsFair trace
  inLine     : ∀ {id key}, id ∈ asked trace key ↔
    ∃ p, s.coordinator.parties.find? id = some p ∧ p.key = key ∧ p.stage.isInLine
  owned      : ∀ {id key rest}, asked trace key = id :: rest → s.Owned describe id key
  handedOver : ∀ {action id j key rest}, asked trace key = id :: j :: rest →
    .leaves id ∈ s.noticed describe action → (s.step describe action).Owned describe j key
  asks       : ∀ {id v}, s.live.find? id = some v → v.role = .handle →
    s.noticed describe (.askLock id) = [.asks s.coordinator.nextParty v.key,
      .learns s.coordinator.nextParty (asked trace v.key).isEmpty]
  parted     : ∀ {id v action}, s.Parting id v action →
    s.noticed describe action = [.leaves id] ∧
    (s.step describe action).live = s.live.erase id ∧
    ∀ {j key rest}, asked trace key = id :: j :: rest →
      (s.step describe action).Owned describe j key
  swept      : (∀ {id v}, s.live.find? id = some v → v.directive.isSome) →
    ∀ outcome, s.Swept (s.run describe (s.sweep outcome))

variable {s r t : State σ ε} {id j : PartyId} {p : Party} {d : Directive} {stage : Stage}
variable {answer : Poll ε} {generation : Generation ε} {action : Action σ ε} {key : Key}
variable {actions : List (Action σ ε)} {describe : ε → String} {trace : List Notice}

section Notices

omit [ByteStore σ]

theorem lookNotices_of_eq (h : t.looks = s.looks) : s.lookNotices t = [] := by
  rw [lookNotices, h, List.drop_length, List.flatMap_nil]

theorem lookNotices_of_append {look : Look ε} (h : t.looks = s.looks ++ [(id, look)]) :
    s.lookNotices t = look.answer.notices id := by
  rw [lookNotices, h, List.drop_left]
  simp

end Notices

theorem Looking.isInLine (hl : s.Looking id generation t p d stage answer) :
    p.stage.isInLine :=
  Stage.isInLine_of_isRequest hl.looked.isRequest

-- Whoever is first in line is done in the next look if its generation is.
theorem Looking.isFinished_of {outcome : Except ε Body}
    (hl : s.Looking id generation t p d stage answer) (h : s.Faithful)
    (hf : (s.coordinator.lineOf p.lock).holder = some id)
    (hg : generation (s.coordinator.since id s.now) = .finished outcome) : answer.isFinished := by
  have ho := hl.outcome h
  rw [hg] at ho
  cases ho
  case waits hh _ _ => exact absurd hf hh
  case turns ho => exact (congrArg (·.1.isFinished) ho).trans Manager.attend_isFinished
  case continues ho => exact (congrArg (·.1.isFinished) ho).trans Manager.conclude_isFinished

theorem Looking.live_eq_erase (hl : s.Looking id generation t p d stage answer)
    (ha : answer.isFinished) : t.live = s.live.erase id := by
  refine Table.ext_find? fun j => ?_
  rw [hl.live, Table.find?_erase]
  cases answer <;> first | rfl | cases ha

-- What there was to notice tells how things stand.
structure Watched (trace : List Notice) (s : State σ ε) : Prop where
  faithful : s.Faithful
  follows  : s.coordinator.Follows trace

namespace Watched

omit [ByteStore σ] in
theorem init {store : σ} {now : Instant} : (init store now : State σ ε).Watched [] where
  faithful := .init
  follows  := .empty

theorem look (h : s.Watched trace) (hl : s.Looking id generation t p d stage answer) :
    t.Watched (trace ++ answer.notices id) where
  faithful := h.faithful.of_looking hl
  follows  := by
    have hf : s.coordinator.Follows (trace ++ [.learns id answer.hasTurn]) :=
      h.follows.learns h.faithful.sound hl.party hl.isInLine (hl.hasTurn_iff h.faithful)
    rw [hl.coordinator, Coordinator.afterLook, Poll.notices]
    split
    case isTrue => exact hf.setStage hl.party
    case isFalse =>
      have hd : (s.coordinator.depart id).Follows
          (trace ++ [.learns id answer.hasTurn] ++ [.leaves id]) := hf.depart h.faithful.sound
      rwa [List.append_assoc] at hd

section

omit [ByteStore σ]

-- What is not possible is not noticed, and changes nothing.
theorem attempt {α : Type} {result : Except Misuse α} {done : α → State σ ε}
    {notices : α → List Notice} (h : s.Watched trace)
    (hd : ∀ a, result = .ok a → (done a).coordinator.Follows (trace ++ notices a)) :
    (s.attempt result done).coordinator.Follows (trace ++ heard result notices) := by
  cases result
  case error =>
    rw [heard, List.append_nil]
    exact h.follows
  case ok a => exact hd a rfl

theorem receive (h : s.Watched trace) :
    (s.receive key d).Watched (trace ++ [.asks s.coordinator.nextParty key]) where
  faithful := h.faithful.receive
  follows  := h.follows.enter h.faithful.sound

end

theorem looks (h : s.Watched trace) :
    (s.look describe id generation).Watched
      (trace ++ s.lookNotices (s.look describe id generation)) := by
  obtain he | ⟨p, d, stage, answer, hl⟩ := h.faithful.look_cases describe id generation
  case inl =>
    rw [he, lookNotices_of_eq rfl, List.append_nil]
    exact h
  case inr =>
    rw [lookNotices_of_append hl.looks]
    exact h.look hl

theorem step (h : s.Watched trace) :
    (s.step describe action).Watched (trace ++ s.noticed describe action) := by
  have hs := h.faithful.sound
  have ht : (s.step describe action).Faithful := h.faithful.step
  cases action
  case allocate key =>
    refine ⟨ht, ?_⟩
    rw [noticed, List.append_nil]
    exact h.follows.allocate hs
  case askLock id =>
    refine ⟨ht, h.attempt fun (call, hasLock, c) hr => ?_⟩
    obtain ⟨p, hp, _⟩ := Coordinator.of_askLock hr
    rw [h.faithful.live_of_party hp]
    exact h.follows.askLock hs hp hr
  case pollLock id => exact ⟨ht, h.attempt fun _ hr => h.follows.pollLock hs hr⟩
  case abandon id =>
    refine ⟨ht, h.attempt fun c hr => ?_⟩
    obtain ⟨p, hg⟩ := hs.of_abandon hr
    exact h.follows.goes hs hg
  case unlock id =>
    refine ⟨ht, h.attempt fun c hr => ?_⟩
    obtain ⟨p, hg⟩ := hs.of_unlock hr
    exact h.follows.goes hs hg
  case free id =>
    refine ⟨ht, h.attempt fun c hr => ?_⟩
    obtain ⟨p, hg⟩ := Coordinator.of_free hr
    exact h.follows.goes hs hg
  case start key directive generation =>
    have hr : (s.receive key directive).Watched (trace ++ [.asks s.coordinator.nextParty key]) :=
      h.receive
    have hl : ((s.receive key directive).look describe s.coordinator.nextParty generation).Watched
        (trace ++ [.asks s.coordinator.nextParty key] ++ (s.receive key directive).lookNotices _) :=
      hr.looks
    rwa [List.append_assoc] at hl
  case poll id generation => exact h.looks
  case cancel id =>
    refine ⟨ht, ?_⟩
    simp only [noticed, State.step]
    cases hc : s.manager.cancel id
    case none => exact (List.append_nil trace).symm ▸ h.follows
    case some m =>
      obtain ⟨p, hp, hs, rfl⟩ := Manager.of_cancel hc
      exact h.follows.depart h.faithful.sound
  case wait => exact ⟨ht, (List.append_nil trace).symm ▸ h.follows⟩
  case tend => exact ⟨ht, (List.append_nil trace).symm ▸ h.follows⟩

theorem run (h : s.Watched trace) :
    (s.run describe actions).Watched (trace ++ s.notices describe actions) := by
  induction actions generalizing s trace
  case nil => rwa [State.notices, List.append_nil]
  case cons action actions hi =>
    rw [State.notices, ← List.append_assoc]
    exact hi h.step

section Leaving

omit [ByteStore σ] in
theorem notices_of_leaves (h : .leaves id ∈ answer.notices j) :
    j = id ∧ answer.notices id = [.learns id answer.hasTurn, .leaves id] := by
  unfold Poll.notices at h ⊢
  split at h
  case isTrue => simp at h
  case isFalse hp =>
    rw [if_neg hp]
    exact ⟨by simpa [eq_comm] using h, rfl⟩

omit [ByteStore σ] in
theorem heard_of_leaves {α : Type} {result : Except Misuse α}
    (h : .leaves id ∈ heard result fun _ => [.leaves j]) :
    heard result (fun _ => [.leaves j]) = [.leaves id] := by
  cases result
  case error => cases h
  case ok =>
    cases List.mem_singleton.mp h
    rfl

theorem lookNotices_of_leaves (h : s.Faithful)
    (hm : .leaves id ∈ s.lookNotices (s.look describe j generation)) :
    j = id ∧ ∃ hasLock, s.lookNotices (s.look describe j generation) =
      [.learns id hasLock, .leaves id] := by
  obtain he | ⟨p, d, stage, answer, hl⟩ := h.look_cases describe j generation
  case inl => simp [he, lookNotices_of_eq] at hm
  case inr =>
    rw [lookNotices_of_append hl.looks] at hm ⊢
    obtain ⟨rfl, hn⟩ := notices_of_leaves hm
    exact ⟨rfl, _, hn⟩

-- In a step in which somebody leaves that was there, nothing else is noticed, unless it learns
-- before that it has the lock.
theorem noticed_of_leaves (h : s.Faithful) (hid : id < s.coordinator.nextParty)
    (hm : .leaves id ∈ s.noticed describe action) : s.noticed describe action = [.leaves id] ∨
      ∃ hasLock, s.noticed describe action = [.learns id hasLock, .leaves id] := by
  cases action
  case allocate => cases hm
  case askLock i =>
    cases hr : s.coordinator.askLock i <;> simp only [noticed, hr, heard] at hm
    case error => cases hm
    case ok => split at hm <;> simp at hm
  case pollLock i =>
    cases hr : s.coordinator.pollLock i <;> simp only [noticed, hr, heard] at hm
    case error => cases hm
    case ok => simp at hm
  case abandon => exact .inl (heard_of_leaves hm)
  case unlock => exact .inl (heard_of_leaves hm)
  case free => exact .inl (heard_of_leaves hm)
  case start key directive generation =>
    -- Only the request that comes in this step could leave in it.
    have hm := (List.mem_cons.mp hm).resolve_left (by simp)
    have hr : (s.receive key directive).Faithful := h.receive
    obtain ⟨hn, _⟩ := lookNotices_of_leaves hr hm
    exact absurd hid (hn ▸ Nat.lt_irrefl _)
  case poll j generation =>
    obtain ⟨rfl, hn⟩ := lookNotices_of_leaves h hm
    exact .inr hn
  case cancel i =>
    rw [noticed] at hm ⊢
    split at hm
    case isTrue hc =>
      cases List.mem_singleton.mp hm
      exact .inl (if_pos hc)
    case isFalse => cases hm
  case wait => cases hm
  case tend => cases hm

end Leaving

-- Whoever is first among those who asked for a lock has it, and is told so when it looks.
theorem owned (h : s.Watched trace) {rest : List PartyId} (hl : asked trace key = id :: rest) :
    s.Owned describe id key := by
  have hs := h.faithful.sound
  have hm : id ∈ asked trace key := hl ▸ .head _
  obtain ⟨p, hp, rfl, hi⟩ := (h.follows.lined.mem_iff hs).mp hm
  have hf : (s.coordinator.lineOf p.lock).holder = some id := by
    rw [← h.follows.lined.head?_eq hp, hl, List.head?_cons]
  refine ⟨⟨_, h.faithful.live_of_party hp, rfl⟩, ⟨p.lock, hs.lock hp, hf⟩, ?_⟩
  cases hcall : p.stage.handle?
  case some i =>
    have hpoll : s.coordinator.pollLock id = _ := hs.pollLock_eq hp hcall
    rw [Coordinator.isFirst_eq.mpr hf] at hpoll
    exact .inl (by rw [noticed, hpoll]; rfl)
  case none =>
    have hr : p.stage.isRequest := Stage.isRequest_of_isInLine hi hcall
    refine .inr fun generation => ?_
    obtain ⟨d, stage, answer, hlook : s.Looking id generation (s.look describe id generation) ..⟩ :=
      h.faithful.looking hp hr
    have ha : answer.hasTurn = true := (hlook.hasTurn_iff h.faithful).mpr hf
    exact ⟨_, by rw [noticed, lookNotices_of_append hlook.looks, Poll.notices, ha]⟩

-- When the first in line leaves, the next one has the lock.
theorem handedOver (h : s.Watched trace) {rest : List PartyId}
    (hl : asked trace key = id :: j :: rest) (hm : .leaves id ∈ s.noticed describe action) :
    (s.step describe action).Owned describe j key := by
  have hs := h.faithful.sound
  have hid : id < s.coordinator.nextParty := by
    have hm : id ∈ asked trace key := hl ▸ .head _
    obtain ⟨p, hp, _⟩ := h.follows.lined.there hm
    exact hs.fresh hp
  have hne : j ≠ id := by
    have hn : (id :: j :: rest).Nodup := hl ▸ h.follows.lined.nodup hs
    simp only [List.nodup_cons, List.mem_cons, not_or] at hn
    exact Ne.symm hn.left.left
  have ha : asked (trace ++ s.noticed describe action) key = (asked trace key).filter (· ≠ id) := by
    obtain he | ⟨hasLock, he⟩ := noticed_of_leaves h.faithful hid hm
    case inl => rw [he, asked_leaves]
    case inr =>
      have : trace ++ [.learns id hasLock, .leaves id] =
          trace ++ [.learns id hasLock] ++ [.leaves id] := by simp
      rw [he, this, asked_leaves, asked_learns]
  rw [hl, List.filter_cons_of_neg (by simp), List.filter_cons_of_pos (by simpa using hne)] at ha
  exact h.step.owned ha

-- A handle can always ask, and has the lock at once if nobody else asked for it.
theorem asks (h : s.Watched trace) {v : Sighting} (hv : s.live.find? id = some v)
    (hr : v.role = .handle) : s.noticed describe (.askLock id) =
      [.asks s.coordinator.nextParty v.key,
        .learns s.coordinator.nextParty (asked trace v.key).isEmpty] := by
  have hs := h.faithful.sound
  obtain ⟨p, hp, rfl⟩ := h.faithful.party_of_live hv
  have ha : s.coordinator.askLock id = _ := hs.askLock_eq hp (Stage.role_eq_handle_iff.mp hr)
  have hline : ((s.call p id).coordinator.lineOf p.lock).parties =
      asked trace p.key ++ [s.coordinator.nextParty] := by
    have := h.follows.lined.parties hp
    change ((s.coordinator.arrive (Coordinator.newCall p id)).2.lineOf p.lock).parties = _
    rw [Coordinator.lineOf_arrive, if_pos ⟨rfl, rfl⟩, Line.join, this]
  have hl : (s.call p id).coordinator.isFirst s.coordinator.nextParty (Coordinator.newCall p id) =
      (asked trace p.key).isEmpty := by
    rw [Coordinator.isFirst, Line.holder, hline]
    cases hasked : asked trace p.key
    case nil => simp
    case cons j rest =>
      have hn : s.coordinator.nextParty ∉ asked trace p.key := h.follows.not_mem hs
      rw [hasked, List.mem_cons, not_or] at hn
      simp [Ne.symm hn.left]
  rw [noticed, ha, heard, hv]
  exact congrArg (fun b => [_, Notice.learns _ b]) hl

-- Whoever is there can be dropped, and the next in line has the lock then.
theorem parted (h : s.Watched trace) {v : Sighting} (hd : s.Parting id v action) :
    s.noticed describe action = [.leaves id] ∧
      (s.step describe action).live = s.live.erase id ∧
      ∀ {j key rest}, asked trace key = id :: j :: rest →
        (s.step describe action).Owned describe j key := by
  have hn : s.noticed describe action = [.leaves id] := by
    obtain ⟨p, hp, rfl, hu, -⟩ := h.faithful.step_of_parting describe hd
    cases hd
    case request d _ hr =>
      have hs : p.stage.isRequest := Stage.isRequest_iff.mpr ⟨d, congrArg Role.directive? hr⟩
      simp [noticed, Manager.cancel_eq hp hs]
    case call i _ hr =>
      rw [noticed, Coordinator.abandon_eq hp (Faithful.handle?_of_role hr)]
      rfl
    case guard i _ hr ho =>
      rw [noticed, Coordinator.unlock_eq hp (Faithful.handle?_of_role hr) ho]
      rfl
    case handle _ hr _ =>
      rw [noticed, Coordinator.free_eq hp (Stage.role_eq_handle_iff.mp hr) hu]
      rfl
  refine ⟨hn, (h.faithful.parted hd).live, fun hl => h.handedOver hl ?_⟩
  rw [hn]
  exact .head _

section Sweep

omit [ByteStore σ] in
-- If there are only requests, the one that came first is first in line.
theorem first_of_keys (h : s.Watched trace) {ids : List PartyId}
    (hr : ∀ {id v}, s.live.find? id = some v → v.directive.isSome)
    (hk : s.live.keys = id :: ids) :
    ∃ p, s.coordinator.parties.find? id = some p ∧ p.stage.isRequest ∧
      (s.coordinator.lineOf p.lock).holder = some id := by
  have hs := h.faithful.sound
  obtain ⟨v, hv⟩ := Table.mem_keys_iff.mp (hk ▸ List.mem_cons_self)
  obtain ⟨p, hp, rfl⟩ := h.faithful.party_of_live hv
  have hh : p.stage.isRequest := Stage.isRequest_of_directive? (hr hv)
  refine ⟨p, hp, hh, ?_⟩
  have hm : id ∈ asked trace p.key :=
    (h.follows.lined.mem_iff hs).mpr ⟨p, hp, rfl, Stage.isInLine_of_isRequest hh⟩
  rw [← h.follows.lined.head?_eq hp]
  have hranked : (asked trace p.key).Pairwise _ := h.follows.lined.ranked
  cases hl : asked trace p.key
  case nil => simp [hl] at hm
  case cons i more =>
    rw [hl] at hm hranked
    cases hm
    case head => rfl
    case tail hm =>
      -- Whoever stood in front of it would have come before.
      have hlt : i < id := (List.pairwise_cons.mp hranked).left id hm
      have hi : i ∈ asked trace p.key := hl ▸ .head _
      obtain ⟨q, hq, _⟩ := h.follows.lined.there hi
      have hi : i ∈ id :: ids := hk ▸ Table.mem_keys_iff.mpr ⟨_, h.faithful.live_of_party hq⟩
      have hi := (List.mem_cons.mp hi).resolve_left (Nat.ne_of_lt hlt)
      have hka : (id :: ids).Pairwise _ := hk ▸ s.live.keys_ascending
      have hgt := (List.pairwise_cons.mp hka).left i hi
      simp only [Ordering.isLT_iff_eq_lt, Nat.compare_eq_lt] at hgt
      exact absurd hlt (Nat.lt_asymm hgt)

theorem swept (h : s.Watched trace)
    (hr : ∀ {id v}, s.live.find? id = some v → v.directive.isSome)
    (outcome : PartyId → Instant → Except ε Body) :
    s.Swept (s.run describe (s.sweep outcome)) := by
  generalize hk : s.live.keys = ids
  induction ids generalizing s trace
  case nil =>
    have hl : s.live = ∅ := Table.ext (List.map_eq_nil_iff.mp hk)
    rw [sweep, hk]
    have hc (key : Key) : s.onlooker.count key = 0 := by
      rw [Onlooker.count, show s.onlooker.live = ∅ from hl]
      rfl
    have he : s.Exact describe := h.faithful.exact
    exact ⟨hl, (he.drained hc).right, [], (List.append_nil _).symm, hk.symm, List.forall_mem_nil _⟩
  case cons id ids hi =>
    obtain ⟨p, hp, hh, hf⟩ := h.first_of_keys hr hk
    obtain ⟨d, stage, answer, hl : s.Looking id (fun since => .finished (outcome id since))
      (s.look describe id fun since => .finished (outcome id since)) ..⟩ := h.faithful.looking hp hh
    have ha : answer.isFinished := hl.isFinished_of h.faithful hf rfl
    rw [sweep, hk]
    change s.Swept ((s.look describe id _).run describe (ids.map _))
    generalize s.look describe id _ = t at hl
    have hlive : t.live = s.live.erase id := hl.live_eq_erase ha
    have hkeys : t.live.keys = ids := by rw [hlive, Table.keys_erase_of_cons hk]
    have ht : t.Swept (t.run describe (t.sweep outcome)) := by
      refine hi (h.look hl) (fun {j v} hv => ?_) hkeys
      rw [hlive, Table.find?_erase_eq_some_iff] at hv
      exact hr hv.right
    obtain ⟨looks, he, hids, hdone⟩ := ht.looks
    obtain ⟨look, hlook, hdone'⟩ : ∃ look : Look ε,
      t.looks = s.looks ++ [(id, look)] ∧ look.answer.isFinished := ⟨_, hl.looks, ha⟩
    rw [sweep, hkeys] at ht he
    refine ⟨ht.live, ht.registry, (id, look) :: looks, ?_, ?_, ?_⟩
    · rw [he, hlook, List.append_assoc]
      rfl
    · rw [List.map_cons, hids, hkeys, hk]
    · intro v hv
      cases hv
      case head => exact hdone'
      case tail hv => exact hdone v hv

end Sweep

end Watched

end State

-- First come, first served, whatever happens in which order.
theorem first_come [ByteStore σ] (describe : ε → String) (store : σ) (start : Instant)
    (actions : List (Action σ ε)) :
    ((State.init store start).run describe actions).FirstCome describe
      ((State.init store start).notices describe actions) := by
  have hi : (State.init store start : State σ ε).Watched [] := .init
  have h : (State.run describe _ actions).Watched (State.notices describe _ actions) := hi.run
  exact {
    fair       := h.follows.fair
    inLine     := h.follows.lined.mem_iff h.faithful.sound
    owned      := h.owned
    handedOver := h.handedOver
    asks       := h.asks
    parted     := h.parted
    swept      := h.swept }

-- Three requests for a key. The first one is dropped while it generates. The second one has the
-- lock then, but is dropped before it is looked at again.
def abandoned : List (Action MemoryStore String) := [
  .start ⟨"k"⟩ .standard fun _ => .pending,
  .start ⟨"k"⟩ .standard fun _ => .pending,
  .start ⟨"k"⟩ .standard fun _ => .pending,
  .cancel 0,
  .cancel 1]

theorem first_come_abandoned :
    let s := (State.init default 0).run (·) abandoned
    s.Owned (·) 2 ⟨"k"⟩ ∧ s.Swept (s.run (·) (s.sweep fun _ _ => .ok ⟨#[1]⟩)) := by
  intro s
  have h : s.FirstCome (·) _ := first_come (·) default 0 abandoned
  have hr : ∀ p ∈ s.live.pairs, p.2.directive.isSome := by decide
  refine ⟨h.owned (by decide : asked _ _ = [2]), h.swept (fun hv => ?_) _⟩
  exact hr _ (Table.find?_eq_some_iff.mp hv)

end Execution

end OnceCache
