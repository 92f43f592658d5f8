import OnceCache.Proofs.Execution.Encounters
import OnceCache.Proofs.Manager.Log

namespace OnceCache.Execution

-- What there is to tell of a look at a request.
def Encounter.told {ε : Type} (describe : ε → String) (e : Encounter ε) : List Event :=
  Manager.told e.look.key describe e.accesses e.look.answer

namespace State

variable {σ ε : Type} {s t : State σ ε} {id : PartyId} {p : Party} {d : Directive} {stage : Stage}
variable {answer : Poll ε} {generation : Generation ε} {progress : Progress ε}
variable {actions later : List (Action σ ε)} {describe : ε → String} {accesses : List Access}
variable {counters : List Counter} {c : Counter} {e : Encounter ε} {trace : List (Encounter ε)}

theorem Acts.count_eq (h : Acts p d progress answer accesses counters) (hc : c.isTold) :
    counters.count c = (Manager.told p.key describe accesses answer).countP c.isToldBy := by
  cases h
  case waits => rfl
  case turns ha => exact ha.count_eq hc
  case continues hd => exact hd.count_eq

theorem Acts.key?_eq (h : Acts p d progress answer accesses counters) :
    ∀ event ∈ Manager.told p.key describe accesses answer, event.key? = some p.key := by
  cases h
  case waits => nofun
  case turns ha => exact ha.key?_eq
  case continues hd => exact hd.key?_eq

variable [ByteStore σ]

theorem encounters_append : s.encounters describe (actions ++ later) =
    s.encounters describe actions ++ (s.run describe actions).encounters describe later := by
  induction actions generalizing s
  case nil => rfl
  case cons action actions hi =>
    rw [List.cons_append, encounters, encounters, hi, List.append_assoc]
    rfl

theorem Meeting.told_eq {generation : Generation ε}
    (h : s.Meeting e generation t p d stage answer counters) :
    e.told describe = Manager.told p.key describe e.accesses answer := by
  rw [Encounter.told, h.look]

-- What is told of a look is what is counted for it, and names the request that was looked at.
theorem Meeting.count_eq (h : s.Meeting e generation t p d stage answer counters) (hc : c.isTold) :
    counters.count c = (e.told describe).countP c.isToldBy := by
  rw [h.told_eq, h.acts.count_eq hc]

theorem Meeting.key?_eq (h : s.Meeting e generation t p d stage answer counters) :
    ∀ event ∈ e.told describe, event.key? = some e.look.key := by
  rw [h.told_eq, h.look]
  exact h.acts.key?_eq

-- What is told of the looks that led to a state is what its statistics show.
structure Recounted (describe : ε → String) (trace : List (Encounter ε)) (s : State σ ε) :
    Prop where
  counts : ∀ c : Counter, c.isTold →
    s.stats.value c = .ofNat ((trace.flatMap (·.told describe)).countP c.isToldBy)
  keys   : ∀ e ∈ trace, ∀ event ∈ e.told describe, event.key? = some e.look.key

namespace Recounted

omit [ByteStore σ] in
theorem init {store : σ} {now : Instant} : (init store now : State σ ε).Recounted describe [] where
  counts c _ := by cases c <;> rfl
  keys _ h   := by cases h

theorem lasting :
    Lasting (σ := σ) fun trace _ s => Recounted describe trace (s : State σ ε) where
  calm h hc _ := { h with counts := hc.stats ▸ h.counts }
  look {s t trace drops e generation p d stage answer counters} h hm _ := {
    counts := fun c hc => by
      rw [hm.stats, Stats.value_after, h.counts c hc, hm.count_eq hc, ← UInt64.ofNat_add,
        List.flatMap_append, List.countP_append, List.flatMap_singleton]
    keys := fun e' he => by
      cases List.mem_append.mp he
      case inl he => exact h.keys e' he
      case inr he => exact List.mem_singleton.mp he ▸ hm.key?_eq
  }

theorem run (store : σ) (now : Instant) (actions : List (Action σ ε)) :
    let s : State σ ε := .init store now
    (s.run describe actions).Recounted describe (s.encounters describe actions) :=
  lasting.run [] .init .init

end Recounted

-- The log of a look is what there is to tell of it, between the words of the store.
theorem Faithful.tells_of_poll [SincereStore σ] (h : s.Faithful) {r : Reply (Manager σ) (Poll ε)}
    (hr : s.manager.poll s.now id describe generation = some r) :
    Event.Tells r.log ((s.encounter describe id generation).flatMap (·.told describe)) := by
  obtain ⟨p, _, hp, hlooked, _⟩ := Manager.of_poll hr
  obtain ⟨d, hd⟩ := hlooked.exists_directive
  obtain ⟨r', hr', rfl⟩ := Option.map_eq_some_iff.mp (poll_journaled.symm.trans hr)
  obtain ⟨q, accesses, counters, hq, hleads, _⟩ := Manager.acted_of_poll hr'
  cases hp.symm.trans hq
  have hj : r'.state.store.journal = accesses := hleads.journal
  rw [encounter_of_poll (h.live_of_party hp) hd hr', hj, List.flatMap_singleton]
  exact hleads.log

end State

end OnceCache.Execution
