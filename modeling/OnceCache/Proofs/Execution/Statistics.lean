import Mathlib.Data.Finset.Card
import OnceCache.Proofs.Execution.Encounters
import OnceCache.Store.Memory

namespace OnceCache

namespace Poll

variable {ε : Type}

-- The request was served a stored body.
def isHit : Poll ε → Bool
  | finished (.ok ⟨_, .hit⟩) _ => true
  | _ => false

-- The request was served a fresh body.
def isFresh : Poll ε → Bool
  | finished (.ok ⟨_, .miss⟩) _ | finished (.ok ⟨_, .bypass⟩) _ => true
  | _ => false

def hasFailed : Poll ε → Bool
  | finished (.error _) _ => true
  | _ => false

def isBroken : Poll ε → Bool
  | broken => true
  | _ => false

-- The request generates, and is not done.
def isGenerating : Poll ε → Bool
  | pending generating => generating
  | _ => false

end Poll

-- What is counted in a look, by what was answered, by what was done with the store, and by whether
-- the request generated before.
structure Tally {ε : Type} (wasOwner : Bool) (answer : Poll ε) (accesses : List Access)
    (counters : List Counter) : Prop where
  turns       : counters.count .hit + counters.count .miss + counters.count .bypass +
    wasOwner.toNat = answer.hasTurn.toNat
  hits        : counters.count .hit = answer.isHit.toNat
  generations : counters.count .generation = counters.count .miss + counters.count .bypass
  endings     : counters.count .generation + wasOwner.toNat = answer.isFresh.toNat +
    answer.hasFailed.toNat + answer.isBroken.toNat + answer.isGenerating.toNat
  failures    : counters.count .generationFailure = answer.hasFailed.toNat
  refusals    : counters.count .storeFailure = accesses.countP (·.isRefusal)
  evictions   : counters.count .eviction = 0
  expirations : counters.count .expiration = 0

section Tally

variable {ε : Type} {key : Key} {status : Status} {progress : Progress ε} {answer : Poll ε}
variable {accesses : List Access} {counters : List Counter} {d : Directive} {p : Party}

theorem Manager.Concluded.tally (hs : status ≠ .hit)
    (h : Concluded key status progress answer accesses counters) :
    Tally true answer accesses counters := by
  cases status
  case hit => exact absurd rfl hs
  all_goals
    cases h
    all_goals constructor <;> rfl

-- A generation that begins is counted as such, and its request as one that was not served.
theorem Tally.begin {c : Counter} {reads : List Access} (h : Tally true answer accesses counters)
    (hc : c = .miss ∨ c = .bypass) (hr : reads.countP (·.isRefusal) = 0) :
    Tally false answer (reads ++ accesses) (c :: .generation :: counters) := by
  obtain ⟨turns, hits, generations, endings, failures, refusals, evictions, expirations⟩ := h
  constructor
  case refusals => rcases hc with rfl | rfl <;> simp [hr, refusals]
  all_goals
    rcases hc with rfl | rfl
    all_goals
      simp at *
      omega

theorem Manager.Attended.tally (h : Attended key progress d answer accesses counters) :
    Tally false answer accesses counters := by
  cases h
  case found => constructor <;> rfl
  case missed e _ _ hc =>
    exact (hc.tally (by decide)).begin (.inl rfl) (rfl : [Access.read key (.error e)].countP _ = 0)
  case bypassed hc => exact (hc.tally (by decide)).begin (.inr rfl) (rfl : [].countP _ = 0)

theorem Execution.State.Acts.tally (h : Acts p d progress answer accesses counters) :
    Tally p.stage.isOwner answer accesses counters := by
  cases h
  case waits hw =>
    rw [hw]
    constructor <;> rfl
  case turns hw ha =>
    rw [hw]
    exact ha.tally
  case continues ho hc =>
    rw [ho]
    exact hc.tally d.freshStatus_ne_hit

end Tally

namespace Execution

variable {σ ε : Type} {looks : List (PartyId × Look ε)} {trace : List (Encounter ε)}
variable {drops : List (PartyId × Sighting)} {counters : List Counter} {id : PartyId}

-- The requests that got the lock of their key.
def turned (looks : List (PartyId × Look ε)) : Finset PartyId :=
  ((looks.filter (·.2.answer.hasTurn)).map (·.1)).toFinset

theorem mem_turned_iff : id ∈ turned looks ↔ ∃ look, (id, look) ∈ looks ∧ look.answer.hasTurn := by
  simp [turned]

-- A request gets the lock of its key once.
theorem card_turned_append {look : Look ε} {wasOwner : Bool}
    (hid : id ∈ turned looks ↔ wasOwner) (ho : wasOwner → look.answer.hasTurn) :
    (turned (looks ++ [(id, look)])).card + wasOwner.toNat =
      (turned looks).card + look.answer.hasTurn.toNat := by
  have happ : turned (looks ++ [(id, look)]) =
      if look.answer.hasTurn then insert id (turned looks) else turned looks := by
    ext j
    split <;> simp_all [turned]
  rw [happ]
  cases wasOwner
  case false =>
    have hid : id ∉ turned looks := by simpa using hid
    split <;> simp_all
  case true =>
    have hid : id ∈ turned looks := by simpa using hid
    simp [ho rfl, hid]

-- Generations that were dropped, by a fault of their own or with the requests that asked for them.
def cutOff (looks : List (PartyId × Look ε)) (drops : List (PartyId × Sighting)) : Nat :=
  looks.countP (·.2.answer.isBroken) + drops.countP (·.2.isOwner)

namespace State

-- The statistics of a manager account for all requests to it. All of the numbers wrap around.
structure Accounted [ByteStore σ] (describe : ε → String) (trace : List (Encounter ε))
    (drops : List (PartyId × Sighting)) (s : State σ ε) : Prop where
  turns       : s.stats.hits + s.stats.misses + s.stats.bypasses = .ofNat (turned s.looks).card
  hits        : s.stats.hits = .ofNat (s.looks.countP (·.2.answer.isHit))
  generations : s.stats.generations = s.stats.misses + s.stats.bypasses
  endings     : s.stats.generations = .ofNat (s.looks.countP (·.2.answer.isFresh)) +
    s.stats.generationFailures + .ofNat (cutOff s.looks drops) + .ofNat s.generating
  failures    : s.stats.generationFailures = .ofNat (s.looks.countP (·.2.answer.hasFailed))
  refusals    : s.stats.storeFailures =
    .ofNat ((trace.flatMap (·.accesses)).countP (·.isRefusal))
  evictions   : s.stats.evictions = 0
  expirations : s.stats.expirations = 0
  -- A request that is dropped while it waits changed nothing before, and changes nothing then.
  dropped     : ∀ {id v}, (id, v) ∈ drops → v.isOwner = false →
    ∀ e ∈ trace, e.id = id → e.after = e.before
  cancel      : ∀ id, (s.step describe (.cancel id)).stats = s.stats

variable {s t : State σ ε} {p : Party} {d : Directive} {stage : Stage} {answer : Poll ε}
variable {generation : Generation ε} {e : Encounter ε} {counters' : List Counter}
variable {actions : List (Action σ ε)} {describe : ε → String}

-- What was counted so far, in plain numbers.
structure Booked (trace : List (Encounter ε)) (drops : List (PartyId × Sighting))
    (counters : List Counter) (s : State σ ε) : Prop extends s.Observed trace where
  stats       : s.stats = ({} : Stats).after counters
  turns       : counters.count .hit + counters.count .miss + counters.count .bypass =
    (turned s.looks).card
  hits        : counters.count .hit = s.looks.countP (·.2.answer.isHit)
  generations : counters.count .generation = counters.count .miss + counters.count .bypass
  endings     : counters.count .generation = s.looks.countP (·.2.answer.isFresh) +
    s.looks.countP (·.2.answer.hasFailed) + cutOff s.looks drops + s.generating
  failures    : counters.count .generationFailure = s.looks.countP (·.2.answer.hasFailed)
  refusals    : counters.count .storeFailure =
    (trace.flatMap (·.accesses)).countP (·.isRefusal)
  evictions   : counters.count .eviction = 0
  expirations : counters.count .expiration = 0
  waits       : ∀ {id v}, s.live.find? id = some v → v.directive.isSome → v.isOwner = false →
    ∀ e ∈ trace, e.id = id → e.after = e.before
  dropped     : ∀ {id v}, (id, v) ∈ drops → id < s.coordinator.nextParty ∧ ¬s.Awaits id ∧
    (v.isOwner = false → ∀ e ∈ trace, e.id = id → e.after = e.before)

namespace Booked

theorem init {store : σ} {now : Instant} : (init store now : State σ ε).Booked [] [] [] where
  toObserved  := .init
  stats       := rfl
  turns       := rfl
  hits        := rfl
  generations := rfl
  endings     := rfl
  failures    := rfl
  refusals    := rfl
  evictions   := rfl
  expirations := rfl
  waits       := nofun
  dropped     := nofun

theorem calm {drops' : List (PartyId × Sighting)} (h : s.Booked trace drops counters)
    (hc : s.Calm drops' t) (ht : t.Observed trace) : t.Booked trace (drops ++ drops') counters where
  toObserved  := ht
  stats       := hc.stats.trans h.stats
  turns       := hc.looks ▸ h.turns
  hits        := hc.looks ▸ h.hits
  generations := h.generations
  endings     := by
    have he := h.endings
    have hg := hc.generating
    rw [hc.looks]
    simp only [cutOff, List.countP_append] at he ⊢
    omega
  failures    := hc.looks ▸ h.failures
  refusals    := h.refusals
  evictions   := h.evictions
  expirations := h.expirations
  waits {id v} hv hd ho e he hid := by
    cases hc.requests hv hd
    case inl hv => exact h.waits hv hd ho e he hid
    case inr hn => exact absurd (h.ids (h.mem_looks he)) (Nat.not_lt_of_le (hid ▸ hn.left))
  dropped {id v} hm := by
    cases List.mem_append.mp hm
    case inl hm =>
      have ⟨hn, ha, hq⟩ := h.dropped hm
      refine ⟨Nat.lt_of_lt_of_le hn hc.next, fun ⟨w, hw, hd⟩ => ?_, hq⟩
      cases hc.requests hw hd
      case inl hw => exact ha ⟨w, hw, hd⟩
      case inr hw => exact Nat.not_lt_of_le hw.left hn
    case inr hm =>
      have ⟨hv, hd, hg⟩ := hc.gone hm
      refine ⟨Nat.lt_of_lt_of_le (h.faithful.id_lt hv) hc.next, ?_, h.waits hv hd⟩
      exact fun ⟨w, hw, _⟩ => by simp [hg] at hw

end Booked

variable [ByteStore σ]

-- The requests that got their locks are those that generate, and those that are done.
theorem Looking.mem_turned_iff (hl : s.Looking id generation t p d stage answer) (h : s.Clocked) :
    id ∈ turned s.looks ↔ p.stage.isOwner := by
  have ⟨hv, hd⟩ := hl.live_of_party h.faithful
  rw [Execution.mem_turned_iff]
  constructor
  case mp =>
    intro ⟨look, hm, ht⟩
    obtain ⟨generating, ha, hg⟩ := h.pending hv hd hm
    rw [ha] at ht
    exact hg ht
  case mpr =>
    intro ho
    have hs := Stage.isRequest_of_directive? (by rw [hl.directive]; rfl : p.stage.directive?.isSome)
    have hi := h.since hl.party hs
    obtain ⟨since, hsince⟩ : ∃ since, p.stage.since? = some since := by
      cases hp : p.stage <;> simp_all [Stage.isOwner, Stage.isRequest, Stage.since?]
    rw [hsince, invokedAt, Option.map_eq_some_iff] at hi
    obtain ⟨⟨j, look⟩, hf, _⟩ := hi
    have hm := List.mem_of_find?_eq_some hf
    have hr := List.find?_some hf
    simp only [Bool.and_eq_true, decide_eq_true_eq] at hr
    obtain ⟨rfl, hr⟩ := hr
    obtain ⟨generating, ha, _⟩ := h.pending hv hd hm
    rw [ha] at hr
    exact ⟨look, hm, by rw [ha]; exact hr⟩

-- A look changes how many requests generate by the one that is looked at.
theorem Looking.generating (hl : s.Looking id generation t p d stage answer) (h : s.Faithful) :
    t.generating + p.stage.isOwner.toNat = s.generating + answer.isGenerating.toNat := by
  have ⟨hv, hd⟩ := hl.live_of_party h
  have hs := Table.count_erase_add (q := fun p => p.2.directive.isSome && p.2.isOwner) hv
  have he : t.live.erase id = s.live.erase id := by
    refine Table.ext_find? fun j => ?_
    rw [Table.find?_erase, Table.find?_erase, hl.live]
    split <;> rfl
  have ht := hl.live id
  rw [if_pos rfl] at ht
  have hq : (p.sighting.directive.isSome && p.sighting.isOwner) = p.stage.isOwner := by
    rw [hd, Bool.true_and]
    rfl
  simp only [hq] at hs
  unfold State.generating
  cases answer
  case pending generating =>
    have := Table.count_erase_add (q := fun p => p.2.directive.isSome && p.2.isOwner) ht
    have hr : (⟨p.key, .request d, generating⟩ : Sighting).directive = some d := rfl
    rw [he] at this
    simp only [hr, Option.isSome_some, Bool.true_and] at this
    simp only [Poll.isGenerating, ← hs, ← this]
    cases generating <;> cases p.stage.isOwner <;> simp
  all_goals
    rw [← Table.erase_of_find?_none ht, he, ← hs]
    cases p.stage.isOwner <;> simp [Poll.isGenerating]

namespace Booked

theorem look (h : s.Booked trace drops counters)
    (hm : s.Meeting e generation t p d stage answer counters') (ht : t.Observed (trace ++ [e])) :
    t.Booked (trace ++ [e]) drops (counters ++ counters') := by
  have htally := hm.acts.tally
  have hg := hm.generating h.faithful
  have hp (q : Poll ε → Bool) : t.looks.countP (fun p => q p.2.answer) =
      s.looks.countP (fun p => q p.2.answer) + (q answer).toNat := by
    rw [hm.looks, List.countP_append, List.countP_singleton]
    cases q answer <;> rfl
  constructor
  case toObserved => exact ht
  case stats => rw [hm.stats, h.stats, Stats.after_append]
  case turns =>
    have := h.turns
    have hturns := htally.turns
    have hc : (turned t.looks).card + p.stage.isOwner.toNat =
        (turned s.looks).card + answer.hasTurn.toNat := by
      rw [hm.looks]
      refine card_turned_append (hm.mem_turned_iff h.toClocked) fun ho => ?_
      cases hh : answer.hasTurn
      case true => rfl
      case false => simp [ho, hh] at hturns
    simp only [List.count_append]
    omega
  case hits => rw [List.count_append, hp, h.hits, htally.hits]
  case generations =>
    have := h.generations
    have := htally.generations
    simp only [List.count_append]
    omega
  case endings =>
    have := h.endings
    have := htally.endings
    simp only [List.count_append, cutOff, hp] at *
    omega
  case failures => rw [List.count_append, hp, h.failures, htally.failures]
  case refusals =>
    rw [List.count_append, h.refusals, htally.refusals]
    simp
  case evictions => rw [List.count_append, h.evictions, htally.evictions]
  case expirations => rw [List.count_append, h.expirations, htally.expirations]
  case waits =>
    intro j v hv hd ho e' he' hid
    rw [hm.live] at hv
    split at hv
    case isTrue hj =>
      subst hj
      have ht : answer.hasTurn = false := by
        cases answer <;> cases hv
        exact ho
      obtain ⟨hw, _, hcounters⟩ := hm.acts.of_not_hasTurn ht
      obtain ⟨hp, hd⟩ := hm.live_of_party h.faithful
      cases List.mem_append.mp he'
      case inl he' => exact h.waits hp hd hw e' he' hid
      case inr he' =>
        rw [List.mem_singleton.mp he', hm.after, hcounters]
        rfl
    case isFalse hj =>
      cases List.mem_append.mp he'
      case inl he' => exact h.waits hv hd ho e' he' hid
      case inr he' => exact absurd (List.mem_singleton.mp he' ▸ hid) hj
  case dropped =>
    intro j v hd
    obtain ⟨hn, hawaits, hq⟩ := h.dropped hd
    refine ⟨?_, ?_, fun ho e' he' hid => ?_⟩
    · rwa [hm.coordinator, Coordinator.afterLook_nextParty]
    · rintro ⟨w, hw, hd⟩
      obtain ⟨x, hx, _, hd'⟩ := hm.live_of h.faithful hw
      exact hawaits ⟨x, hx, hd' ▸ hd⟩
    · cases List.mem_append.mp he'
      case inl he' => exact hq ho e' he' hid
      case inr he' =>
        cases List.mem_singleton.mp he'
        subst hid
        exact absurd ⟨_, hm.live_of_party h.faithful⟩ hawaits

theorem lasting :
    Lasting fun trace drops (s : State σ ε) => ∃ counters, s.Booked trace drops counters where
  calm h hc ht := h.imp fun _ h => h.calm hc ht
  look h hm ht := h.elim fun _ h => ⟨_, h.look hm ht⟩

theorem run (h : s.Booked trace drops counters) : ∃ counters,
    (s.run describe actions).Booked (trace ++ s.encounters describe actions)
      (drops ++ s.drops describe actions) counters :=
  lasting.run drops h.toObserved ⟨counters, h⟩

theorem accounted (h : s.Booked trace drops counters) : s.Accounted describe trace drops := by
  have hv (c : Counter) : s.stats.value c = .ofNat (counters.count c) := by
    rw [h.stats, Stats.value_after]
    cases c <;> exact UInt64.zero_add _
  have hhits : s.stats.hits = .ofNat _ := hv .hit
  have hmisses : s.stats.misses = .ofNat _ := hv .miss
  have hbypasses : s.stats.bypasses = .ofNat _ := hv .bypass
  have hgenerations : s.stats.generations = .ofNat _ := hv .generation
  have hfailures : s.stats.generationFailures = .ofNat _ := hv .generationFailure
  constructor
  case turns =>
    rw [hhits, hmisses, hbypasses, ← UInt64.ofNat_add, ← UInt64.ofNat_add, h.turns]
  case hits => rw [hhits, h.hits]
  case generations => rw [hgenerations, hmisses, hbypasses, ← UInt64.ofNat_add, h.generations]
  case endings =>
    rw [hgenerations, hfailures, ← UInt64.ofNat_add, ← UInt64.ofNat_add, ← UInt64.ofNat_add,
      h.endings, h.failures]
  case failures => rw [hfailures, h.failures]
  case refusals => exact (hv .storeFailure).trans (by rw [h.refusals])
  case evictions => exact (hv .eviction).trans (by rw [h.evictions]; rfl)
  case expirations => exact (hv .expiration).trans (by rw [h.expirations]; rfl)
  case dropped => exact fun hm => (h.dropped hm).right.right
  case cancel => exact fun id => h.faithful.calm_cancel.stats

end Booked

end State

-- In every state of every run the statistics of a manager account for all requests to it.
theorem statistics_accounted [ByteStore σ] (describe : ε → String) (store : σ) (start : Instant)
    (actions : List (Action σ ε)) :
    let s : State σ ε := .init store start
    (s.run describe actions).Accounted describe (s.encounters describe actions)
      (s.drops describe actions) := by
  intro s
  have hi : s.Booked [] [] [] := .init
  obtain ⟨_, hr⟩ := hi.run
  exact hr.accounted

-- Six requests: the first is served a fresh body, the second is dropped while it waits, the third
-- fails, the fourth is served the body of the first, the fifth is dropped while it generates, and
-- the last one generates.
def assorted : List (Action MemoryStore String) := [
  .start ⟨"a"⟩ .standard fun _ => .pending,
  .start ⟨"a"⟩ .standard fun _ => .pending,
  .start ⟨"a"⟩ .noCache fun _ => .pending,
  .cancel 1,
  .poll 0 fun _ => .finished (.ok ⟨#[1]⟩),
  .start ⟨"a"⟩ .standard fun _ => .pending,
  .poll 2 fun _ => .finished (.error "out of luck"),
  .poll 3 fun _ => .pending,
  .start ⟨"b"⟩ .standard fun _ => .pending,
  .cancel 4,
  .start ⟨"b"⟩ .standard fun _ => .pending]

example : ((State.init default 0).run (·) assorted).stats =
    { hits := 1, misses := 3, bypasses := 1, generations := 4, generationFailures := 1 } := by
  decide

end Execution

end OnceCache
