import OnceCache.Proofs.Session.Actions

namespace OnceCache

open Execution (Action Encounter Onlooker)
open Event (mentions)

namespace Session

variable {σ : Type} [ByteStore σ]

-- The looks at requests in a session from its beginning, with what they do.
def encounters (s : Session σ) (operations : List Operation) : List (Encounter Failure) :=
  (s.seen {}).encounters Failure.text (s.runActions operations)

-- The log tells exactly what happened to requests. All counters wrap around.
structure Chronicled (r : Reply (Session σ) (List Answer)) (trace : List (Encounter Failure)) :
    Prop where
  hits     : r.state.manager.stats.hits = .ofNat (mentions r.log .debug "Cache hit")
  misses   : r.state.manager.stats.misses = .ofNat (mentions r.log .debug "Cache miss" +
    mentions r.log .warn "Byte store read failed, regenerating")
  failures : r.state.manager.stats.generationFailures =
    .ofNat (mentions r.log .debug "Generation failed, nothing cached")
  refusals : r.state.manager.stats.storeFailures =
    .ofNat (mentions r.log .warn "Failed to store generated body, serving uncached")
  -- The words of the manager are those for the looks, one after the other, and each names the key
  -- that the request came with.
  told     : r.log.filter (·.isOfManager) = trace.flatMap (·.told Failure.text)
  keys     : ∀ e ∈ trace, ∀ event ∈ e.told Failure.text, event.key? = some e.look.key
  -- The responder has one word for each response that reports a failure.
  verdicts : r.log.filterMap (·.verdict?) =
    (r.answer.flatMap (·.responses)).filterMap (·.verdict?)
  others   : ∀ event ∈ r.log, event.isOfStore ∨ event.isOfManager ∨ event.verdict?.isSome ∨
    event = .readSkipped
  -- Without trouble with the store and faults of the server there is nothing to warn of.
  quiet    : (∀ e ∈ trace, ∀ a ∈ e.accesses, a.isTrouble = false) →
    (∀ response ∈ r.answer.flatMap (·.responses), response.status < 500) →
    ∀ event ∈ r.log, event.isOfStore = false → event.level = .debug

namespace Performs

variable {s s' : Session σ} {actions : List (Action σ Failure)} {log : List Event}
variable {responses : List Response} {onlooker : Onlooker Failure} {c : Counter}

-- What is counted for the looks is what the log tells.
theorem value_eq (h : s.Performs actions s' log responses) (hf : (s.seen onlooker).Faithful)
    (hr : ((s.seen onlooker).run Failure.text actions).Recounted Failure.text
      ((s.seen onlooker).encounters Failure.text actions)) (hc : c.isTold) :
    s'.manager.stats.value c = .ofNat (log.countP c.isToldBy) := by
  obtain ⟨o, ho⟩ := h.shows onlooker
  have hv := hr.counts c hc
  rwa [ho, ← h.told onlooker hf, Event.countP_isToldBy] at hv

-- Without trouble there is nothing to warn of.
theorem level_eq (h : s.Performs actions s' log responses) (hf : (s.seen onlooker).Faithful)
    (ha : ∀ e ∈ (s.seen onlooker).encounters Failure.text actions,
      ∀ a ∈ e.accesses, a.isTrouble = false)
    (hr : ∀ response ∈ responses, response.status < 500) :
    ∀ event ∈ log, event.isOfStore = false → event.level = .debug := by
  intro event he hs
  obtain hstore | hm | hv | rfl := h.others event he
  case inl => cases hs.symm.trans hstore
  case inr.inl =>
    have hm := List.mem_filter.mpr ⟨he, hm⟩
    rw [h.told onlooker hf] at hm
    obtain ⟨e, hmem, htold⟩ := List.mem_flatMap.mp hm
    cases List.mem_append.mp htold
    case inl htold =>
      obtain ⟨a, ha', htold⟩ := List.mem_flatMap.mp htold
      exact Access.level_of_not_isTrouble (ha e hmem a ha') event htold
    case inr htold => exact Poll.level_of_told event htold
  case inr.inr.inl =>
    obtain ⟨⟨status, level⟩, hv⟩ := Option.isSome_iff_exists.mp hv
    have hm := List.mem_filterMap.mpr ⟨event, he, hv⟩
    rw [h.verdicts] at hm
    obtain ⟨response, hmem, hv'⟩ := List.mem_filterMap.mp hm
    rw [Event.level_of_verdict? hv]
    exact Response.level_of_verdict? hv' (hr response hmem)
  case inr.inr.inr => rfl

end Performs

-- Whatever is done in a session with a new manager, whichever responders its requests go to and
-- however its store behaves, the log tells exactly what happened.
theorem log_tells_all [SincereStore σ] (store : σ) (now : Instant) (responder : Responder)
    (operations : List Operation) :
    let s : Session σ := { now, manager := { store }, responder }
    Chronicled (run operations s) (s.encounters operations) := by
  intro s
  have hf : (s.seen {}).Faithful := .init
  have hp : s.Performs _ _ _ _ := .run s operations
  have hr : ((s.seen {}).run Failure.text (s.runActions operations)).Recounted _ _ := .run ..
  constructor
  case hits =>
    rw [Event.mentions_hit]
    exact hp.value_eq hf hr (c := .hit) rfl
  case misses =>
    rw [Event.mentions_miss]
    exact hp.value_eq hf hr (c := .miss) rfl
  case failures =>
    rw [Event.mentions_generationFailed]
    exact hp.value_eq hf hr (c := .generationFailure) rfl
  case refusals =>
    rw [Event.mentions_writeFailed]
    exact hp.value_eq hf hr (c := .storeFailure) rfl
  case told => exact hp.told {} hf
  case keys => exact hr.keys
  case verdicts => exact hp.verdicts
  case others => exact hp.others
  case quiet => exact hp.level_eq hf

-- A store that takes no more bodies, and faults of both sorts; and then a run without any trouble.
theorem log_tells_all_disk_full :
    let disk : UnreliableStore :=
      { memory := ((default : MemoryStore).set 0 ⟨"a"⟩ ⟨#[1]⟩).state, writesFail := true }
    let s : Session UnreliableStore := { manager := { store := disk } }
    let mixed : List Operation := [
      .start "a" ⟨"a"⟩ .standard ⟨none, .gated none⟩,
      .start "b" ⟨"b"⟩ .standard ⟨none, .outcome (.ok ⟨#[2]⟩)⟩,
      .respond "c" { target := Bytes.ofText "/c" } ⟨none, .gated none⟩,
      .respond "d" { target := Bytes.ofText "/d", headers := [("pragma", Bytes.ofText "no-cache")] }
        ⟨none, .outcome (.error (.limitExceeded "rows"))⟩
        (some { derivation := Key.Derivation.byParameters, cacheStatusHeader := false }),
      .finish "c" (.error (.internal "disk full"))]
    let t : Session MemoryStore := { manager := { store := default } }
    let calm : List Operation := [
      .respond "a" { target := Bytes.ofText "/a" } ⟨none, .outcome (.ok ⟨#[1]⟩)⟩,
      .respond "b" { target := Bytes.ofText "/b" }
        ⟨none, .outcome (.error (.missingParameter "id"))⟩]
    (SincereStore UnreliableStore ∧ Chronicled (run mixed s) (s.encounters mixed) ∧
      (run mixed s).log.map (fun e => (e.level, e.message)) = [
        (.debug, "Cache hit"), (.debug, "Cache miss"),
        (.warn, "Failed to store generated body, serving uncached"), (.debug, "Cache miss"),
        (.debug, "Request carries a no-cache directive, bypassing stored body"),
        (.debug, "Generation failed, nothing cached"), (.debug, "Rejected request"),
        (.debug, "Generation failed, nothing cached"), (.error, "Response generation failed")]) ∧
    SincereStore MemoryStore ∧ (run calm t).answer.length = 2 ∧
      ∀ event ∈ (run calm t).log, event.isOfStore = false → event.level = .debug := by
  intro disk s mixed t calm
  have hs : Chronicled (run mixed s) (s.encounters mixed) := log_tells_all disk 0 {} mixed
  have ht : Chronicled (run calm t) (t.encounters calm) := log_tells_all default 0 {} calm
  refine ⟨⟨inferInstance, hs, by decide +kernel⟩, inferInstance, rfl, ht.quiet ?_ ?_⟩
  all_goals decide +kernel

end Session

end OnceCache
