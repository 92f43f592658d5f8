import OnceCache.Proofs.Coordination.Mirrors

namespace OnceCache

open Handles

namespace Coordinator

variable {keys known : List Key} {key : Key} {c c' d : Coordinator} {i : PartyId} {p : Party}
variable {o : Operation}

-- What a demand that is possible comes to.
structure Demanded (c : Coordinator) (i : PartyId) (x : Demand) (v : Verdict) (c' : Coordinator) :
    Prop where
  party     : ∃ p, c.parties.find? i = some p
  sound     : c'.Sound
  named     : ∀ {known}, Named known c → Named (comes known (.demand i x, .verdict v)) c'
  untouched : ∀ {key}, (∀ {p}, c.parties.find? i = some p → p.key ≠ key) → c.Untouched key c'

theorem Sound.demanded_of_goes {x : Demand} (h : c.Sound) (hg : c.Goes i p c') :
    Demanded c i x .done c' where
  party        := ⟨p, hg.party⟩
  sound        := h.goes hg
  named hn     := by
    rw [hg.eq]
    exact hn.depart
  untouched hk := .goes h hk hg

theorem Sound.demanded {x : Demand} {v : Verdict} (h : c.Sound) (hx : x.on? c i = .ok (v, c')) :
    Demanded c i x v c' := by
  cases x
  case askLock =>
    cases ha : c.askLock i <;> rw [Demand.on?, ha] at hx <;> cases hx
    case ok r =>
      obtain ⟨call, isHolder, c'⟩ := r
      obtain ⟨p, hp, hs, rfl, hr⟩ := of_askLock ha
      obtain ⟨q, _, hq, _, _, he⟩ := (h.arriveCall hp hs).of_pollLock hr
      refine ⟨⟨p, hp⟩, h.askLock ha, fun {known} hn => ?_, fun hk => .askLock h hk ha⟩
      have hcomes : comes known (.demand i .askLock, .verdict (.asked c.nextParty isHolder)) =
          known ++ [p.key] := by
        rw [comes, hn.key hp]
        rfl
      rw [hcomes, he]
      have : Named (known ++ [p.key]) (c.arrive (newCall p i)).2 :=
        hn.come (p := newCall p i) arrive_nextParty fun _ => find?_arrive
      exact this.setStage hq
  case pollLock =>
    cases ha : c.pollLock i <;> rw [Demand.on?, ha] at hx <;> cases hx
    obtain ⟨p, _, hp, _, _, he⟩ := h.of_pollLock ha
    refine ⟨⟨p, hp⟩, h.pollLock ha, fun hn => ?_, fun hk => .pollLock h hk ha⟩
    rw [he]
    exact hn.setStage hp
  case abandon =>
    cases ha : c.abandon i <;> rw [Demand.on?, ha] at hx <;> cases hx
    obtain ⟨p, hg⟩ := h.of_abandon ha
    exact h.demanded_of_goes hg
  case unlock =>
    cases ha : c.unlock i <;> rw [Demand.on?, ha] at hx <;> cases hx
    obtain ⟨p, hg⟩ := h.of_unlock ha
    exact h.demanded_of_goes hg
  case free =>
    cases ha : c.free i <;> rw [Demand.on?, ha] at hx <;> cases hx
    obtain ⟨p, hg⟩ := of_free ha
    exact h.demanded_of_goes hg

-- What an operation comes to for those that it is not about.
structure Stepped (known : List Key) (o : Operation) (c : Coordinator) : Prop where
  sound     : (step c o).2.Sound
  named     : Named (comes known (o, (step c o).1)) (step c o).2
  untouched : ∀ {keys key}, known <+: keys → o.isOn keys key = false →
    c.Untouched key (step c o).2

theorem Sound.stepped (h : c.Sound) (hn : Named known c) : Stepped known o c := by
  cases o
  case allocate k =>
    refine ⟨h.enter rfl rfl, ?_, fun _ ho => .enter h.toRegistered (of_decide_eq_false ho)⟩
    exact hn.come (p := c.newcomer k .handle) enter_nextParty fun _ => find?_enter
  case demand i x =>
    cases hx : x.on? c i
    case error m =>
      have hstep : step c (.demand i x) = (.verdict (.refused m), c) := by rw [step, hx]
      constructor
      all_goals rw [hstep]
      case sound => exact h
      case named => exact hn
      case untouched => exact fun _ _ => .refl
    case ok r =>
      have hd : Demanded c i x r.1 r.2 := h.demanded hx
      have hstep : step c (.demand i x) = (.verdict r.1, r.2) := by rw [step, hx]
      constructor
      all_goals rw [hstep]
      case sound => exact hd.sound
      case named => exact hd.named hn
      case untouched =>
        refine fun hpre ho => hd.untouched fun hp hk => of_decide_eq_false ho ?_
        exact getElem?_of_prefix hpre (hk ▸ hn.key hp)

-- A run and the one without the handles of other keys and their lock calls, side by side.
structure Paired (keys : List Key) (key : Key) (known : List Key) (c d : Coordinator) : Prop where
  sound   : c.Sound
  sound'  : d.Sound
  named   : Named known c
  mirrors : Mirrors keys key c d

namespace Paired

variable {operations : List Operation}

theorem empty : Paired keys key [] {} {} where
  sound   := .empty
  sound'  := .empty
  named   := ⟨rfl, fun h => by simp at h⟩
  mirrors := {
    next      := rfl
    refCount  := rfl
    own h     := by simp [Coordinator.queue] at h
    queue     := rfl
    parties _ := rfl
    onto h    := by simp at h }

-- Who comes for another key is not counted for this one.
theorem count_comes {a : Answer} (hpre : known <+: keys) (ho : o.isOn keys key = false) :
    (comes known (o, a)).count key = known.count key := by
  unfold comes
  split
  case h_1 k _ he =>
    cases he
    have hk : k ≠ key := of_decide_eq_false ho
    rw [List.count_append, List.count_singleton, if_neg (by simpa using hk), Nat.add_zero]
  case h_2 i x _ _ he =>
    cases he
    have hi : keys[i]? ≠ some key := of_decide_eq_false ho
    rw [List.count_append]
    cases hk : known[i]?
    case none => rfl
    case some k =>
      have hne : k ≠ key := fun he => hi (he ▸ getElem?_of_prefix hpre hk)
      rw [Option.toList, List.count_singleton, if_neg (by simpa using hne), Nat.add_zero]
  case h_3 => rfl

-- An operation on others than the handles of the key and their lock calls makes no difference.
theorem other (h : Paired keys key known c d) (hpre : comes known (o, (step c o).1) <+: keys)
    (ho : o.isOn keys key = false) :
    Paired keys key (comes known (o, (step c o).1)) (step c o).2 d := by
  have hs : Stepped known o c := h.sound.stepped h.named
  have hknown : known <+: keys := prefix_comes.trans hpre
  refine ⟨hs.sound, h.sound', hs.named, h.mirrors.untouched (hs.untouched hknown ho) ?_ ?_ ?_⟩
  · exact fun hp => getElem?_of_prefix hknown (h.named.key hp)
  · exact fun hp => getElem?_of_prefix hpre (hs.named.key hp)
  · rw [← hs.named.length, ← h.named.length, number_length hpre, number_length hknown,
      count_comes hknown ho]

-- An operation on a handle of the key or such a lock call is answered the same in both runs.
theorem own (h : Paired keys key known c d) (hpre : comes known (o, (step c o).1) <+: keys)
    (ho : o.isOn keys key) :
    Paired keys key (comes known (o, (step c o).1)) (step c o).2
        (step d (o.rename (number keys key))).2 ∧
      (step d (o.rename (number keys key))).1 = (step c o).1.rename (number keys key) := by
  have hs : Stepped known o c := h.sound.stepped h.named
  have hknown : known <+: keys := prefix_comes.trans hpre
  have hk {id p} (hp : c.parties.find? id = some p) : keys[id]? = some p.key :=
    getElem?_of_prefix hknown (h.named.key hp)
  cases o
  case allocate k =>
    have hkey : k = key := of_decide_eq_true ho
    subst hkey
    have hn : keys[c.nextParty]? = some k := h.named.length ▸ getElem?_length hpre
    refine ⟨⟨hs.sound, h.sound'.enter rfl rfl, hs.named, ?_⟩, congrArg Answer.handle h.mirrors.next⟩
    exact h.mirrors.allocate hn h.sound h.sound'
  case demand i x =>
    have hi : keys[i]? = some key := of_decide_eq_true ho
    have hn {call isHolder c'} (hx : x.on? c i = .ok (.asked call isHolder, c')) :
        keys[c.nextParty]? = some key := by
      have hd : Demanded c i x _ _ := h.sound.demanded hx
      obtain ⟨p, hp⟩ := hd.party
      have hstep : (step c (.demand i x)).1 = .verdict (.asked call isHolder) := by rw [step, hx]
      have hpk : p.key = key := Option.some.inj ((hk hp).symm.trans hi)
      rw [hstep, comes, h.named.key hp, hpk] at hpre
      exact h.named.length ▸ getElem?_length hpre
    have ha := h.mirrors.demand hi h.sound h.sound' hk hn
    rw [Operation.rename]
    generalize hx : x.on? c i = r, hx' : x.on? d (number keys key i) = r' at ha
    cases ha
    case refused m =>
      have hstep : step c (.demand i x) = (.verdict (.refused m), c) := by rw [step, hx]
      have hstep' : step d (.demand (number keys key i) x) = (.verdict (.refused m), d) := by
        rw [step, hx']
      rw [hstep, hstep']
      exact ⟨h, rfl⟩
    case done v c' d' hm =>
      have hdem : Demanded c i x v c' := h.sound.demanded hx
      have hdem' : Demanded d _ x _ d' := h.sound'.demanded hx'
      have hstep : step c (.demand i x) = (.verdict v, c') := by rw [step, hx]
      have hstep' : step d (.demand (number keys key i) x) =
          (.verdict (v.rename (number keys key)), d') := by rw [step, hx']
      rw [hstep, hstep']
      exact ⟨⟨hdem.sound, hdem'.sound, hdem.named h.named, hm⟩, rfl⟩

-- Both runs go on side by side: in the one the operations that are not on the key are left out.
theorem run (h : Paired keys key known c d)
    (hk : keys = (trace c operations).foldl comes known) :
    Paired keys key keys (Handles.run c operations)
        (Handles.run d (only keys key operations)) ∧
      trace d (only keys key operations) = talk keys key (trace c operations) := by
  induction operations generalizing c d known
  case nil =>
    cases hk
    exact ⟨h, rfl⟩
  case cons o operations hi =>
    have hpre : comes known (o, (step c o).1) <+: keys := by
      rw [hk]
      exact prefix_foldl_comes
    cases ho : o.isOn keys key
    case true =>
      have he : only keys key (o :: operations) =
          o.rename (number keys key) :: only keys key operations := by
        rw [only, List.filter_cons_of_pos ho]
        rfl
      obtain ⟨hp, ha⟩ := h.own hpre ho
      obtain ⟨hr, ht⟩ := hi hp hk
      rw [he]
      refine ⟨hr, ?_⟩
      rw [trace, ht, ha]
      simp [talk, trace, ho]
    case false =>
      have he : only keys key (o :: operations) = only keys key operations := by
        rw [only, List.filter_cons_of_neg (by simp [ho])]
        rfl
      obtain ⟨hr, ht⟩ := hi (h.other hpre ho) hk
      rw [he]
      refine ⟨hr, ?_⟩
      rw [ht]
      simp [talk, trace, ho]

end Paired

theorem goesAlone (operations : List Operation) (key : Key) : GoesAlone operations key := by
  have h : Paired (Handles.keys (trace {} operations)) key [] {} {} := .empty
  obtain ⟨h, ha⟩ := h.run rfl
  constructor
  case numbers => exact number_inj
  case answers => exact ha
  case contains =>
    rw [h.sound.counts.contains_eq, h.sound'.counts.contains_eq, h.mirrors.refCount]
  case refCount => exact h.mirrors.refCount
  case queue => exact h.mirrors.queue
  case stages =>
    intro id hi
    have := congrArg (Option.map (·.2)) (h.mirrors.parties hi)
    simpa only [Option.map_map, Function.comp_def] using this
  case sharesLock => exact fun hi hj => h.mirrors.sharesLock hi hj h.sound h.sound'

-- The handle of the other key has two lock calls. All of it is left out.
example :
    let operations : List Operation := [.allocate ⟨"a"⟩, .allocate ⟨"b"⟩, .demand 1 .askLock,
      .demand 0 .askLock, .demand 0 .askLock, .demand 1 .askLock, .demand 2 .unlock,
      .demand 5 .pollLock]
    let keys := Handles.keys (trace {} operations)
    only keys ⟨"b"⟩ operations = [.allocate ⟨"b"⟩, .demand 0 .askLock, .demand 0 .askLock,
      .demand 1 .unlock, .demand 2 .pollLock] := by
  decide +kernel

end Coordinator

end OnceCache
