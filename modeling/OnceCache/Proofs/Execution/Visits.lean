import OnceCache.Proofs.Execution.History

namespace OnceCache.Execution

-- A look at a request and the store that it met.
structure Visit (σ ε : Type) where
  id : PartyId
  look : Look ε
  store : σ

namespace State

variable {σ ε : Type}

-- The looks from one state to another.
def looksTo (s t : State σ ε) : List (Visit σ ε) :=
  (t.looks.drop s.looks.length).map fun (id, look) => ⟨id, look, s.store⟩

-- Whether a request has come and has not gone.
def Awaits (s : State σ ε) (id : PartyId) : Prop :=
  ∃ v, s.live.find? id = some v ∧ v.directive.isSome

variable [ByteStore σ]

-- The looks of a run.
def visits (describe : ε → String) (s : State σ ε) : List (Action σ ε) → List (Visit σ ε)
  | [] => []
  | action :: actions =>
    s.looksTo (s.step describe action) ++ (s.step describe action).visits describe actions

variable {s r t : State σ ε} {id : PartyId} {p : Party} {d : Directive} {stage : Stage}
variable {answer : Poll ε} {generation : Generation ε} {action : Action σ ε}
variable {actions later : List (Action σ ε)} {visits : List (Visit σ ε)} {describe : ε → String}
variable {request? : Option (Key × Directive)}

theorem visits_append : s.visits describe (actions ++ later) =
    s.visits describe actions ++ (s.run describe actions).visits describe later := by
  induction actions generalizing s
  case nil => rfl
  case cons action actions hi =>
    simp only [State.visits, List.cons_append, hi, List.append_assoc]
    rfl

section

omit [ByteStore σ]

theorem looksTo_of_eq (h : t.looks = s.looks) : s.looksTo t = [] := by
  rw [looksTo, h, List.drop_length, List.map_nil]

theorem looksTo_of_append {look : Look ε} (h : t.looks = s.looks ++ [(id, look)]) :
    s.looksTo t = [⟨id, look, s.store⟩] := by
  rw [looksTo, h, List.drop_left]
  rfl

theorem looksTo_tend {store : σ} :
    s.looksTo { s with manager := { s.manager with store } } = [] :=
  looksTo_of_eq rfl

-- Requests that have gone do not come back.
theorem Quiet.awaits (h : s.Quiet request? t) (ha : t.Awaits id)
    (hid : id < s.coordinator.nextParty) : s.Awaits id := by
  obtain ⟨v, hv, hd⟩ := ha
  cases h.requests hv hd
  case inl hv => exact ⟨v, hv, hd⟩
  case inr hv => exact absurd hid (Nat.not_lt_of_le hv.left)

end

theorem Looking.live_of_party (hl : s.Looking id generation t p d stage answer) (hs : s.Faithful) :
    s.live.find? id = some p.sighting ∧ p.sighting.directive.isSome := by
  have hd : p.sighting.directive = some d := hl.directive
  exact ⟨hs.live_of_party hl.party, hd ▸ rfl⟩

-- A look lets nobody come.
theorem Looking.live_of (hl : s.Looking id generation t p d stage answer) (hs : s.Faithful)
    {j : PartyId} {w : Sighting} (hw : t.live.find? j = some w) :
    ∃ v, s.live.find? j = some v ∧ v.key = w.key ∧ v.directive = w.directive := by
  rw [hl.live] at hw
  split at hw
  case isTrue he =>
    cases answer <;> cases hw
    exact ⟨p.sighting, he ▸ hs.live_of_party hl.party, rfl, hl.directive⟩
  case isFalse => exact ⟨w, hw, rfl, rfl⟩

-- What is known of the requests that were looked at. Each is done once, and whoever had its turn is
-- done before somebody else has a turn.
structure Followed (visits : List (Visit σ ε)) (s : State σ ε) : Prop extends s.Recorded where
  faithful : s.Faithful
  looks    : s.looks = visits.map fun v => (v.id, v.look)
  keys     : ∀ {v w}, v ∈ visits → s.live.find? v.id = some w → w.directive.isSome →
    v.look.key = w.key
  once     : visits.Pairwise fun a b => a.id = b.id → a.look.answer.isPending
  gone     : visits.Pairwise fun a b => a.look.key = b.look.key → a.look.answer.hasTurn →
    b.look.answer.hasTurn → a.id ≠ b.id → ¬s.Awaits a.id
  ordered  : ∀ {a b c}, [a, b, c].Sublist visits → a.look.key = b.look.key →
    a.look.answer.hasTurn → b.look.answer.hasTurn → a.id ≠ b.id → c.id ≠ a.id

namespace Followed

section

omit [ByteStore σ]

theorem mem_looks {v : Visit σ ε} (h : s.Followed visits) (hv : v ∈ visits) :
    (v.id, v.look) ∈ s.looks :=
  h.looks ▸ List.mem_map.mpr ⟨v, hv, rfl⟩

theorem init {store : σ} {now : Instant} : (init store now : State σ ε).Followed [] where
  toRecorded := .init
  faithful   := .init
  looks      := rfl
  keys hv    := by cases hv
  once       := .nil
  gone       := .nil
  ordered h  := by cases h

theorem quiet (h : s.Followed visits) (ht : t.Faithful) (hq : s.Quiet request? t) :
    t.Followed visits where
  toRecorded := h.toRecorded.quiet hq
  faithful   := ht
  looks      := hq.looks.trans h.looks
  keys hv hw hd := by
    cases hq.requests hw hd
    case inl hw => exact h.keys hv hw hd
    case inr hw => exact absurd (h.ids (h.mem_looks hv)) (Nat.not_lt_of_le hw.left)
  once       := h.once
  gone       := by
    refine h.gone.imp_of_mem fun {a b} ha _ hg hk hat hbt hne hw => hg hk hat hbt hne ?_
    exact hq.awaits hw (h.ids (h.mem_looks ha))
  ordered    := h.ordered

end

-- Somebody else whose turn came earlier is gone when somebody has its turn.
theorem not_awaits (h : s.Followed visits) (hl : s.Looking id generation t p d stage answer)
    {v : Visit σ ε} (hv : v ∈ visits) (hk : v.look.key = p.key) (ht : v.look.answer.hasTurn)
    (ha : answer.hasTurn) (hne : v.id ≠ id) : ¬t.Awaits v.id := by
  intro ⟨w, hw, hd⟩
  rw [hl.live, if_neg (Ne.symm hne)] at hw
  obtain ⟨generating, hg, ho⟩ := h.pending hw hd (h.mem_looks hv)
  have ho : w.isOwner := by
    cases generating
    case false => simp [hg, Poll.hasTurn] at ht
    case true => exact ho rfl
  have hkey : w.key = p.key := (h.keys hv hw hd).symm.trans hk
  obtain ⟨q, hq, rfl⟩ := h.faithful.party_of_live hw
  have hi := (hl.hasTurn_iff h.faithful).mp ha
  exact hne (h.faithful.sound.owner_unique hl.party hq hkey.symm hi ho)

theorem look (h : s.Followed visits) (hl : s.Looking id generation t p d stage answer)
    {v : Visit σ ε} (hv : v.id = id)
    (hlook : v.look = ⟨p.key, d, s.now, generation (s.coordinator.since id s.now), answer⟩) :
    t.Followed (visits ++ [v]) where
  toRecorded := h.toRecorded.look h.faithful hl
  faithful   := h.faithful.of_looking hl
  looks      := by rw [hl.looks, h.looks, List.map_append, List.map_singleton, hv, hlook]
  keys {w x} hw hx hd := by
    have ⟨y, hy, hk, hd'⟩ := hl.live_of h.faithful hx
    rw [List.mem_append, List.mem_singleton] at hw
    cases hw
    case inl hw => exact (h.keys hw hy (hd' ▸ hd)).trans hk
    case inr he =>
      cases he
      cases (hv ▸ hy).symm.trans (h.faithful.live_of_party hl.party)
      rw [hlook, ← hk]
      rfl
  once := by
    refine List.pairwise_append.mpr ⟨h.once, List.pairwise_singleton _ _, ?_⟩
    intro a ha b hb hid
    cases List.mem_singleton.mp hb
    have ⟨hp, hd⟩ := hl.live_of_party h.faithful
    obtain ⟨_, hg, _⟩ := h.pending hp hd (hid.trans hv ▸ h.mem_looks ha)
    rw [hg]
    rfl
  gone := by
    refine List.pairwise_append.mpr ⟨?_, List.pairwise_singleton _ _, ?_⟩
    · refine h.gone.imp fun {a b} hg hk hat hbt hne ⟨w, hw, hd⟩ => hg hk hat hbt hne ?_
      have ⟨y, hy, _, hd'⟩ := hl.live_of h.faithful hw
      exact ⟨y, hy, hd' ▸ hd⟩
    · intro a ha b hb hk hat hbt hne
      cases List.mem_singleton.mp hb
      rw [hlook] at hk
      exact h.not_awaits hl ha hk hat (by rwa [hlook] at hbt) (hv ▸ hne)
  ordered {a b c} hsub hk hat hbt hne := by
    have hrev : [c, b, a].Sublist (v :: visits.reverse) := by
      simpa using List.reverse_sublist.mpr hsub
    cases hrev
    case cons hrev => exact h.ordered (List.reverse_sublist.mp hrev) hk hat hbt hne
    case cons_cons hrev =>
      -- The request that is looked at has not gone.
      have hab : [a, b].Sublist visits := List.reverse_sublist.mp hrev
      have hg := List.pairwise_iff_forall_sublist.mp h.gone hab hk hat hbt hne
      exact fun he => hg ⟨_, he ▸ hv ▸ hl.live_of_party h.faithful⟩

theorem step (h : s.Followed visits) :
    (s.step describe action).Followed (visits ++ s.looksTo (s.step describe action)) := by
  have ht : (s.step describe action).Faithful := h.faithful.step
  have hs : s.Stepped action (s.step describe action) := h.faithful.stepped
  generalize s.step describe action = t at ht hs
  cases hs
  case quiet hq =>
    rw [looksTo_of_eq hq.looks, List.append_nil]
    exact h.quiet ht hq
  case tended =>
    rw [looksTo_tend, List.append_nil]
    exact { h with ids := h.ids, pending := h.pending, faithful := ht }
  case looked r id generation p d stage answer _ hr hq hl =>
    rw [looksTo_of_append (hq.looks ▸ hl.looks)]
    exact (h.quiet hr hq).look hl rfl rfl

theorem run (h : s.Followed visits) :
    (s.run describe actions).Followed (visits ++ s.visits describe actions) := by
  induction actions generalizing s visits
  case nil => rwa [State.visits, List.append_nil]
  case cons action actions hi =>
    rw [State.visits, ← List.append_assoc]
    exact hi h.step

end Followed

namespace Stepped

theorem next (h : s.Stepped action t) : s.coordinator.nextParty ≤ t.coordinator.nextParty := by
  cases h
  case quiet hq => exact hq.next
  case tended => exact Nat.le_refl _
  case looked hq hl =>
    rw [hl.coordinator, Coordinator.afterLook_nextParty]
    exact hq.next

theorem awaits (h : s.Stepped action t) (hid : id < s.coordinator.nextParty) (ha : t.Awaits id) :
    s.Awaits id := by
  cases h
  case quiet hq => exact hq.awaits ha hid
  case tended => exact ha
  case looked hr hq hl =>
    obtain ⟨w, hw, hd⟩ := ha
    have ⟨v, hv, _, hd'⟩ := hl.live_of hr hw
    exact hq.awaits ⟨v, hv, hd' ▸ hd⟩ hid

theorem awaits_of_mem {v : Visit σ ε} (h : s.Stepped action t)
    (hid : v.id < s.coordinator.nextParty) (hv : v ∈ s.looksTo t) : s.Awaits v.id := by
  cases h
  case quiet hq => simp [looksTo_of_eq hq.looks] at hv
  case tended => simp [looksTo_tend] at hv
  case looked hr hq hl =>
    rw [looksTo_of_append (hq.looks ▸ hl.looks), List.mem_singleton] at hv
    cases hv
    exact hq.awaits ⟨_, hl.live_of_party hr⟩ hid

end Stepped

-- A request that has gone is not looked at again.
theorem Faithful.ne_of_not_awaits (h : s.Faithful) (hid : id < s.coordinator.nextParty)
    (ha : ¬s.Awaits id) : ∀ v ∈ s.visits describe actions, v.id ≠ id := by
  induction actions generalizing s
  case nil => nofun
  case cons action actions hi =>
    have hs : s.Stepped action (s.step describe action) := h.stepped
    intro v hv
    cases List.mem_append.mp hv
    case inl hv => exact fun he => ha (he ▸ hs.awaits_of_mem (he ▸ hid) hv)
    case inr hv =>
      have hid' := Nat.lt_of_lt_of_le hid hs.next
      exact hi h.step hid' (fun ha' => ha (hs.awaits hid ha')) v hv

theorem Faithful.cancel_eq (h : s.Faithful) (ha : s.Awaits id) :
    s.step describe (.cancel id) = s.update (s.coordinator.depart id) (s.onlooker.went id) := by
  obtain ⟨v, hv, hd⟩ := ha
  obtain ⟨p, hp, rfl⟩ := h.party_of_live hv
  have hc : s.manager.cancel id = some (s.manager.depart id) :=
    Manager.cancel_eq hp (Stage.isRequest_of_directive? hd)
  rw [State.step, hc]
  rfl

-- A request that is dropped was never done, and is not looked at again.
theorem Followed.pending_of_cancel (h : s.Followed []) {v : Visit σ ε}
    (ha : (s.run describe actions).Awaits id)
    (hv : v ∈ s.visits describe (actions ++ .cancel id :: later)) (he : v.id = id) :
    v.look.answer.isPending := by
  have hf : (s.run describe actions).Followed (s.visits describe actions) := h.run
  rw [visits_append, List.mem_append, State.visits, hf.faithful.cancel_eq ha] at hv
  cases hv
  case inl hv =>
    obtain ⟨w, hw, hd⟩ := ha
    obtain ⟨_, hg, _⟩ := hf.pending (he ▸ hw) hd (hf.mem_looks hv)
    rw [hg]
    rfl
  case inr hv =>
    generalize s.run describe actions = r at hf ha hv
    have hd : (r.update (r.coordinator.depart id) (r.onlooker.went id)).Faithful := by
      obtain ⟨w, hw, hd⟩ := ha
      obtain ⟨p, hp, rfl⟩ := hf.faithful.party_of_live hw
      exact hf.faithful.depart (hf.faithful.unused hp (Stage.isRequest_of_directive? hd))
    have hid : id < r.coordinator.nextParty := by
      obtain ⟨w, hw, _⟩ := ha
      exact hf.faithful.id_lt hw
    have hn : r.looksTo (r.update (r.coordinator.depart id) (r.onlooker.went id)) = [] :=
      looksTo_of_eq rfl
    rw [hn, List.nil_append] at hv
    refine absurd he (hd.ne_of_not_awaits ?_ ?_ v hv)
    · exact Nat.lt_of_lt_of_eq hid Coordinator.depart_nextParty.symm
    · exact fun ⟨w, hw, _⟩ => by simp [live, update, Onlooker.went] at hw

end State

end OnceCache.Execution
