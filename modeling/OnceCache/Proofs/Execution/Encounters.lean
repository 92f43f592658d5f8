import OnceCache.Proofs.Execution.Deadline
import OnceCache.Proofs.Execution.Visits
import OnceCache.Proofs.Manager.Journal

namespace OnceCache.Execution

-- A look at a request and what it did: what was done with the store, and what the statistics showed
-- before it and after it.
structure Encounter (ε : Type) where
  id : PartyId
  look : Look ε
  accesses : List Access
  before : Stats
  after : Stats

-- How often a generation was invoked.
def Encounter.invocations {ε : Type} (e : Encounter ε) : Nat :=
  (e.after.generations - e.before.generations).toNat

namespace State

variable {σ ε : Type}

def stats (s : State σ ε) : Stats := s.manager.stats

-- How many requests generate.
def generating (s : State σ ε) : Nat := s.live.count fun p => p.2.directive.isSome && p.2.isOwner

-- The state with a record of what is done with its store from now on.
def journaled (s : State σ ε) : State (JournaledStore σ) ε where
  now := s.now
  manager := { coordinator := s.coordinator, store := { store := s.store }, stats := s.stats }
  onlooker := s.onlooker

-- The state without the record.
def plain (s : State (JournaledStore σ) ε) : State σ ε where
  now := s.now
  manager := s.manager.plain
  onlooker := s.onlooker

-- The requests that are dropped in a step.
def dropped (s : State σ ε) : Action σ ε → List (PartyId × Sighting)
  | .cancel id =>
    match s.live.find? id with
    | some v => if v.directive.isSome then [(id, v)] else []
    | none => []
  | _ => []

variable [ByteStore σ]

-- The look at a request, if it is there, with what it does.
def encounter (describe : ε → String) (s : State σ ε) (id : PartyId) (generation : Generation ε) :
    List (Encounter ε) :=
  let t := s.journaled.look describe id generation
  (t.looks.drop s.looks.length).map fun (id, look) =>
    ⟨id, look, t.store.journal, s.stats, t.stats⟩

def encountered (describe : ε → String) (s : State σ ε) : Action σ ε → List (Encounter ε)
  | .start key directive generation =>
    (s.receive key directive).encounter describe s.coordinator.nextParty generation
  | .poll id generation => s.encounter describe id generation
  | _ => []

-- The looks of a run with what they do.
def encounters (describe : ε → String) (s : State σ ε) : List (Action σ ε) → List (Encounter ε)
  | [] => []
  | action :: actions =>
    s.encountered describe action ++ (s.step describe action).encounters describe actions

-- The requests that are dropped in a run.
def drops (describe : ε → String) (s : State σ ε) :
    List (Action σ ε) → List (PartyId × Sighting)
  | [] => []
  | action :: actions => s.dropped action ++ (s.step describe action).drops describe actions

variable {s r t : State σ ε} {id : PartyId} {p : Party} {d : Directive} {stage : Stage}
variable {answer : Poll ε} {generation : Generation ε} {progress : Progress ε}
variable {action : Action σ ε} {actions : List (Action σ ε)} {describe : ε → String}
variable {accesses : List Access} {counters : List Counter} {trace : List (Encounter ε)}
variable {drops : List (PartyId × Sighting)} {v : Sighting} {key : Key}

-- The record makes no difference to a look.
theorem poll_journaled : s.manager.poll s.now id describe generation =
    (s.journaled.manager.poll s.now id describe generation).map Manager.plainReply :=
  Manager.poll_plain (m := s.journaled.manager)

theorem look_journaled :
    s.look describe id generation = (s.journaled.look describe id generation).plain := by
  unfold look
  rw [poll_journaled]
  have hn : s.journaled.now = s.now := rfl
  rw [hn]
  cases s.journaled.manager.poll s.now id describe generation <;> rfl

-- A look at a request that is there, with what it does.
section Look

variable {r : Reply (Manager (JournaledStore σ)) (Poll ε)}

theorem look_journaled_of_poll
    (hr : s.journaled.manager.poll s.now id describe generation = some r) :
    s.journaled.look describe id generation =
      { s.journaled with
        manager := r.state
        onlooker := s.onlooker.looked id s.now (generation (s.coordinator.since id s.now))
          r.answer } := by
  unfold look
  rw [show s.journaled.now = s.now from rfl, hr]
  rfl

theorem encounter_of_poll (hv : s.live.find? id = some v) (hd : v.directive = some d)
    (hr : s.journaled.manager.poll s.now id describe generation = some r) :
    s.encounter describe id generation =
      [⟨id, ⟨v.key, d, s.now, generation (s.coordinator.since id s.now), r.answer⟩,
        r.state.store.journal, s.stats, r.state.stats⟩] := by
  have hlooks : (s.journaled.look describe id generation).looks = s.looks ++
      [(id, ⟨v.key, d, s.now, generation (s.coordinator.since id s.now), r.answer⟩)] := by
    obtain ⟨key, role, isOwner⟩ := v
    cases role <;> cases hd
    rw [look_journaled_of_poll hr]
    exact Onlooker.looks_looked hv
  rw [encounter, hlooks, List.drop_left, List.map_singleton, look_journaled_of_poll hr]
  rfl

theorem encounter_of_poll_eq_none (hr : s.manager.poll s.now id describe generation = none) :
    s.encounter describe id generation = [] := by
  have hr' : s.journaled.manager.poll s.now id describe generation = none :=
    Option.map_eq_none_iff.mp (poll_journaled.symm.trans hr)
  have hj : s.journaled.look describe id generation = s.journaled := by
    unfold look
    rw [show s.journaled.now = s.now from rfl, hr']
  rw [encounter, hj, show s.journaled.looks = s.looks from rfl, List.drop_length, List.map_nil]

end Look

-- What a look at a request comes to. One who waits does nothing.
inductive Acts (p : Party) (d : Directive) (progress : Progress ε) :
    Poll ε → List Access → List Counter → Prop
  | waits :
    p.stage.isOwner = false → Acts p d progress (.pending false) [] []
  | turns {answer : Poll ε} {accesses : List Access} {counters : List Counter} :
    p.stage.isOwner = false → Manager.Attended p.key progress d answer accesses counters →
    Acts p d progress answer accesses counters
  | continues {answer : Poll ε} {accesses : List Access} {counters : List Counter} :
    p.stage.isOwner → Manager.Concluded p.key d.freshStatus progress answer accesses counters →
    Acts p d progress answer accesses counters

-- Whoever is not told that its turn has come waits.
theorem Acts.of_not_hasTurn (h : Acts p d progress answer accesses counters)
    (ht : answer.hasTurn = false) :
    p.stage.isOwner = false ∧ accesses = [] ∧ counters = [] := by
  cases h
  case waits hw => exact ⟨hw, rfl, rfl⟩
  case turns ha => cases ht.symm.trans ha.hasTurn
  case continues hc => cases ht.symm.trans hc.hasTurn

section Faithful

omit [ByteStore σ]

theorem Faithful.status_eq {status : Status} {since : Instant} (h : s.Faithful)
    (hp : s.coordinator.parties.find? id = some p) (hs : p.stage = .generating status since)
    (hd : p.stage.directive? = some d) : status = d.freshStatus := by
  have := h.fresh hp hs
  rw [hs] at hd
  cases status <;> cases hd <;> first | rfl | contradiction

theorem Faithful.acts (h : s.Faithful) (hp : s.coordinator.parties.find? id = some p)
    (hd : p.stage.directive? = some d)
    (ha : Manager.Acted s.now p generation answer accesses counters) :
    Acts p d (generation (s.coordinator.since id s.now)) answer accesses counters := by
  cases ha
  case waits d' hs => exact .waits (by rw [hs]; rfl)
  case turns d' hs ha =>
    have hw : p.stage.isOwner = false := by rw [hs]; rfl
    rw [hs] at hd
    cases hd
    rw [Coordinator.since_of_not_isOwner hp hw]
    exact .turns hw ha
  case continues status since hs hc =>
    rw [Coordinator.since_of_generating hp hs]
    exact .continues (by rw [hs]; rfl) (h.status_eq hp hs hd ▸ hc)

end Faithful

-- A look that is seen with what it does, and what is counted for it.
structure Meeting (s : State σ ε) (e : Encounter ε) (generation : Generation ε) (t : State σ ε)
    (p : Party) (d : Directive) (stage : Stage) (answer : Poll ε) (counters : List Counter) : Prop
    extends s.Looking e.id generation t p d stage answer where
  acts   : Acts p d (generation (s.coordinator.since e.id s.now)) answer e.accesses counters
  look   : e.look =
    ⟨p.key, d, s.now, generation (s.coordinator.since e.id s.now), answer⟩
  stats  : t.stats = s.stats.after counters
  before : e.before = s.stats
  after  : e.after = e.before.after counters

theorem Faithful.meeting (h : s.Faithful) (describe : ε → String) (id : PartyId)
    (generation : Generation ε) :
    s.look describe id generation = s ∧ s.encounter describe id generation = [] ∨
      ∃ e p d stage answer counters, s.encounter describe id generation = [e] ∧
        s.Meeting e generation (s.look describe id generation) p d stage answer counters := by
  cases hr : s.journaled.manager.poll s.now id describe generation
  case none =>
    have hp : s.manager.poll s.now id describe generation = none := by rw [poll_journaled, hr]; rfl
    exact .inl ⟨by rw [State.look, hp], encounter_of_poll_eq_none hp⟩
  case some r =>
    obtain ⟨p, accesses, counters, hp, hleads, hacted⟩ := Manager.acted_of_poll hr
    obtain ⟨d, stage, answer, hl : s.Looking id generation (s.look describe id generation) ..⟩ :=
      h.looking hp hacted.isRequest
    have hplain : s.look describe id generation = _ :=
      look_journaled.trans (congrArg plain (look_journaled_of_poll hr))
    have he : s.encounter describe id generation = _ :=
      encounter_of_poll (h.live_of_party hl.party) hl.directive hr
    have ha : r.answer = answer := by
      have hlooks := hl.looks
      have hlive : s.onlooker.live.find? id = some ⟨p.key, .request d, p.stage.isOwner⟩ := by
        have := h.live_of_party hl.party
        rwa [Party.sighting, Stage.role_of_directive? hl.directive] at this
      rw [hplain] at hlooks
      cases List.append_cancel_left ((Onlooker.looks_looked hlive).symm.trans hlooks)
      rfl
    subst ha
    have hjournal : r.state.store.journal = accesses := hleads.journal
    refine .inr ⟨_, p, d, stage, r.answer, counters, he, ?_⟩
    exact {
      toLooking := hl
      acts      := hjournal ▸ h.acts hp hl.directive hacted
      look      := rfl
      stats     := by rw [hplain]; exact hleads.stats
      before    := rfl
      after     := hleads.stats
    }

-- Nobody is looked at. Requests may come and go, and those that stay get no further.
structure Calm (s : State σ ε) (drops : List (PartyId × Sighting)) (t : State σ ε) : Prop where
  stats      : t.stats = s.stats
  looks      : t.looks = s.looks
  next       : s.coordinator.nextParty ≤ t.coordinator.nextParty
  generating : t.generating + drops.countP (·.2.isOwner) = s.generating
  requests   : ∀ {id v}, t.live.find? id = some v → v.directive.isSome →
    s.live.find? id = some v ∨ s.coordinator.nextParty ≤ id ∧ ∃ key d, v = ⟨key, .request d, false⟩
  gone       : ∀ {id v}, (id, v) ∈ drops →
    s.live.find? id = some v ∧ v.directive.isSome ∧ t.live.find? id = none

-- A step by cases. Somebody is looked at, who may have come just before, or nobody is.
inductive Encountered (s t : State σ ε) :
    List (Encounter ε) → List (PartyId × Sighting) → Prop
  | calm {drops : List (PartyId × Sighting)} : s.Calm drops t → Encountered s t [] drops
  | looked {request? : Option (Key × Directive)} {r : State σ ε} {e : Encounter ε}
      {generation : Generation ε} {p : Party} {d : Directive} {stage : Stage} {answer : Poll ε}
      {counters : List Counter} :
    s.Quiet request? r → s.Calm [] r → r.Faithful →
    r.Meeting e generation t p d stage answer counters → Encountered s t [e] []

section Calm

omit [ByteStore σ]

theorem Calm.refl : s.Calm [] s where
  stats        := rfl
  looks        := rfl
  next         := Nat.le_refl _
  generating   := rfl
  requests h _ := .inl h
  gone h       := by cases h

theorem Faithful.generating_came (h : s.Faithful) {role : Role} {c : Coordinator} :
    (s.update c (s.onlooker.came s.coordinator.nextParty key role)).generating =
      s.generating := by
  have hn : s.live.find? s.coordinator.nextParty = none := by
    cases hv : s.live.find? s.coordinator.nextParty
    case none => rfl
    case some v => exact absurd (h.id_lt hv) (Nat.lt_irrefl _)
  refine (Table.count_insert_of_find?_none hn).trans ?_
  simp [generating]

-- It does not matter to requests whether lock calls hold locks,
theorem Faithful.generating_told (h : s.Faithful) {c : Coordinator} {isHolder : Bool}
    (hr : s.coordinator.pollLock id = .ok (isHolder, c)) :
    (s.update c (s.onlooker.told id isHolder)).generating = s.generating := by
  refine Table.count_modify fun v hv => ?_
  obtain ⟨p, i, hp, hi, _⟩ := h.sound.of_pollLock hr
  cases hv.symm.trans (h.live_of_party hp)
  simp [Sighting.directive, Party.sighting, Coordinator.role_of_handle? hi, Role.directive?]

-- or whether they go.
theorem generating_went {c : Coordinator} (hv : s.live.find? id = some v) :
    (s.update c (s.onlooker.went id)).generating +
      (if v.directive.isSome && v.isOwner then 1 else 0) = s.generating :=
  Table.count_erase_add hv

theorem Faithful.generating_goes (h : s.Faithful) {c : Coordinator}
    (hg : s.coordinator.Goes id p c) :
    (s.update c (s.onlooker.went id)).generating = s.generating := by
  have := generating_went (c := c) (h.live_of_party hg.party)
  simpa [Party.sighting_directive_eq_none hg.isRequest] using this

theorem Faithful.calm_receive (h : s.Faithful) : s.Calm [] (s.receive key d) where
  stats           := rfl
  looks           := rfl
  next            := Quiet.receive.next
  generating      := h.generating_came
  requests hv hd  := (Quiet.receive.requests hv hd).imp_right fun ⟨hn, key, d, _, hv⟩ =>
    ⟨hn, key, d, hv⟩
  gone h          := by cases h

end Calm

theorem Faithful.requests_of_looks_eq (h : s.Faithful)
    (hl : (s.step describe action).looks = s.looks) {id : PartyId} {v : Sighting}
    (hv : (s.step describe action).live.find? id = some v) (hd : v.directive.isSome) :
    s.live.find? id = some v ∨
      s.coordinator.nextParty ≤ id ∧ ∃ key d, v = ⟨key, .request d, false⟩ := by
  have hs : s.Stepped action (s.step describe action) := h.stepped
  generalize s.step describe action = t at hl hv hs
  cases hs
  case quiet hq => exact (hq.requests hv hd).imp_right fun ⟨hn, key, d, _, hv⟩ => ⟨hn, key, d, hv⟩
  case tended => exact .inl hv
  case looked hq hlook => simp [hlook.looks, hq.looks] at hl

theorem Faithful.encountered_look (h : r.Faithful) {request? : Option (Key × Directive)}
    (hq : s.Quiet request? r) (hc : s.Calm [] r) :
    s.Encountered (r.look describe id generation) (r.encounter describe id generation) [] := by
  obtain ⟨ht, he⟩ | ⟨e, p, d, stage, answer, counters, he, hm⟩ := h.meeting describe id generation
  case inl =>
    rw [ht, he]
    exact .calm hc
  case inr =>
    rw [he]
    exact .looked hq hc h hm

-- Whatever a handle or a lock call attempts makes no difference to requests.
theorem Faithful.calm_attempt {α : Type} {result : Except Misuse α} {c : α → Coordinator}
    {o : α → Onlooker ε} (h : s.Faithful)
    (hs : s.step describe action = s.attempt result fun a => s.update (c a) (o a))
    (hl : ∀ a, (o a).looks = s.looks)
    (hg : ∀ a, result = .ok a → (s.update (c a) (o a)).generating = s.generating) :
    s.Calm [] (s.step describe action) := by
  have hlooks : (s.step describe action).looks = s.looks := by
    rw [hs]
    exact attempt_of (P := fun t => t.looks = s.looks) rfl fun a _ => hl a
  constructor
  case stats =>
    rw [hs]
    exact attempt_of (P := fun t => t.stats = s.stats) rfl fun _ _ => rfl
  case looks => exact hlooks
  case next => exact h.stepped.next
  case generating =>
    rw [hs]
    exact attempt_of (P := fun t => t.generating = s.generating) rfl hg
  case requests => exact h.requests_of_looks_eq hlooks
  case gone => nofun

theorem Faithful.calm_cancel (h : s.Faithful) :
    s.Calm (s.dropped (.cancel id : Action σ ε)) (s.step describe (.cancel id)) := by
  by_cases ha : s.Awaits id
  case pos =>
    have he : s.step describe (.cancel id) = _ := h.cancel_eq ha
    obtain ⟨v, hv, hd⟩ := ha
    have hdrops : s.dropped (.cancel id : Action σ ε) = [(id, v)] := by simp [dropped, hv, hd]
    rw [hdrops]
    constructor
    case stats => rw [he]; rfl
    case looks => rw [he]; rfl
    case next => exact h.stepped.next
    case generating =>
      have := generating_went (c := s.coordinator.depart id) hv
      rw [he]
      simpa [hd, List.countP_cons] using this
    case requests => exact h.requests_of_looks_eq (by rw [he]; rfl)
    case gone =>
      intro j w hm
      cases List.mem_singleton.mp hm
      exact ⟨hv, hd, by rw [he]; exact Table.find?_erase_self⟩
  case neg =>
    have hdrops : s.dropped (.cancel id : Action σ ε) = [] := by
      simp only [dropped]
      split
      case h_1 v hv => exact if_neg fun hd => ha ⟨v, hv, hd⟩
      case h_2 => rfl
    have he : s.step describe (.cancel id) = s := by
      refine (s.cancel_cases describe id).resolve_right ?_
      rintro ⟨p, hp, hs, _⟩
      exact ha ⟨_, h.live_of_party hp, Stage.isRequest_eq ▸ hs⟩
    rw [hdrops, he]
    exact .refl

theorem Faithful.encountered (h : s.Faithful) :
    s.Encountered (s.step describe action) (s.encountered describe action) (s.dropped action) := by
  cases action
  case start key directive generation =>
    exact h.receive.encountered_look .receive h.calm_receive
  case poll id generation => exact h.encountered_look (Quiet.refl : s.Quiet none s) .refl
  case allocate key =>
    exact .calm ⟨rfl, rfl, h.stepped.next, h.generating_came, h.requests_of_looks_eq rfl,
      fun hm => by cases hm⟩
  case askLock id =>
    refine .calm (h.calm_attempt rfl (fun ⟨call, _⟩ => ?_) fun ⟨call, isHolder, c⟩ hr => ?_)
    · simp only [Onlooker.called]
      split <;> rfl
    · obtain ⟨p, hp, hs, _, ha, he⟩ := h.of_askLock hr
      have hc : (s.call p id).generating = s.generating := h.generating_came
      rw [he, (h.call hp hs).generating_told ha, hc]
  case pollLock id =>
    exact .calm (h.calm_attempt rfl (fun _ => rfl) fun _ hr => h.generating_told hr)
  case abandon id =>
    refine .calm (h.calm_attempt rfl (fun _ => rfl) fun c hr => ?_)
    obtain ⟨p, hg⟩ := h.sound.of_abandon hr
    exact h.generating_goes hg
  case unlock id =>
    refine .calm (h.calm_attempt rfl (fun _ => rfl) fun c hr => ?_)
    obtain ⟨p, hg⟩ := h.sound.of_unlock hr
    exact h.generating_goes hg
  case free id =>
    refine .calm (h.calm_attempt rfl (fun _ => rfl) fun c hr => ?_)
    obtain ⟨p, hg⟩ := Coordinator.of_free hr
    exact h.generating_goes hg
  case cancel id => exact .calm h.calm_cancel
  case wait =>
    exact .calm ⟨rfl, rfl, h.stepped.next, rfl, h.requests_of_looks_eq rfl, fun hm => by cases hm⟩
  case tend =>
    exact .calm ⟨rfl, rfl, h.stepped.next, rfl, h.requests_of_looks_eq rfl, fun hm => by cases hm⟩

-- What there was to see of a state is what there was in the looks that led to it.
structure Observed (trace : List (Encounter ε)) (s : State σ ε) : Prop extends s.Clocked where
  looks : s.looks = trace.map fun e => (e.id, e.look)

namespace Observed

variable {e : Encounter ε}

omit [ByteStore σ] in
theorem init {store : σ} {now : Instant} : (init store now : State σ ε).Observed [] where
  toClocked := .init
  looks     := rfl

omit [ByteStore σ] in
theorem mem_looks (h : s.Observed trace) (he : e ∈ trace) : (e.id, e.look) ∈ s.looks :=
  h.looks ▸ List.mem_map.mpr ⟨e, he, rfl⟩

omit [ByteStore σ] in
-- A request that is there was never done.
theorem pending_of_live (h : s.Observed trace) (hv : s.live.find? e.id = some v)
    (hd : v.directive.isSome) (he : e ∈ trace) :
    ∃ generating, e.look.answer = .pending generating ∧ (generating → v.isOwner) :=
  h.pending hv hd (h.mem_looks he)

omit [ByteStore σ] in
theorem quiet (h : s.Observed trace) {request? : Option (Key × Directive)} (hr : r.Faithful)
    (hq : s.Quiet request? r) : r.Observed trace where
  toClocked := h.toClocked.quiet hr hq
  looks     := hq.looks.trans h.looks

theorem step (h : s.Observed trace) :
    (s.step describe action).Observed (trace ++ s.encountered describe action) where
  toClocked := h.toClocked.step
  looks     := by
    have he : s.Encountered (s.step describe action) (s.encountered describe action)
      (s.dropped action) := h.faithful.encountered
    rw [List.map_append, ← h.looks]
    generalize s.step describe action = t, s.encountered describe action = new,
      s.dropped action = drops at he ⊢
    cases he
    case calm hc => exact hc.looks.trans (List.append_nil _).symm
    case looked hc _ hm =>
      rw [hm.looks, hc.looks, ← hm.look]
      rfl

end Observed

-- What looks keep, and what stays while nobody is looked at.
structure Lasting (P : List (Encounter ε) → List (PartyId × Sighting) → State σ ε → Prop) :
    Prop where
  calm : ∀ {s t : State σ ε} {trace drops new}, P trace drops s → s.Calm new t →
    t.Observed trace → P trace (drops ++ new) t
  look : ∀ {s t : State σ ε} {trace drops e generation p d stage answer counters},
    P trace drops s → s.Meeting e generation t p d stage answer counters →
    t.Observed (trace ++ [e]) → P (trace ++ [e]) drops t

namespace Lasting

variable {P : List (Encounter ε) → List (PartyId × Sighting) → State σ ε → Prop}

theorem step (hl : Lasting P) (ho : s.Observed trace) (h : P trace drops s) :
    P (trace ++ s.encountered describe action) (drops ++ s.dropped action)
      (s.step describe action) := by
  have ht : (s.step describe action).Observed (trace ++ s.encountered describe action) := ho.step
  have he : s.Encountered (s.step describe action) (s.encountered describe action)
    (s.dropped action) := ho.faithful.encountered
  generalize s.step describe action = t, s.encountered describe action = new,
    s.dropped action = gone at ht he ⊢
  cases he
  case calm hc =>
    rw [List.append_nil] at ht ⊢
    exact hl.calm h hc ht
  case looked hq hc hr hm => exact hl.look (hl.calm h hc (ho.quiet hr hq)) hm ht

theorem run (hl : Lasting P) (drops : List (PartyId × Sighting)) (ho : s.Observed trace)
    (h : P trace drops s) :
    P (trace ++ s.encounters describe actions) (drops ++ s.drops describe actions)
      (s.run describe actions) := by
  induction actions generalizing s trace drops
  case nil => rwa [encounters, State.drops, List.append_nil, List.append_nil]
  case cons action actions hi =>
    rw [encounters, State.drops, ← List.append_assoc, ← List.append_assoc]
    exact hi _ ho.step (hl.step ho h)

end Lasting

end State

end OnceCache.Execution
