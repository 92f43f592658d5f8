import OnceCache.Proofs.Manager.Journal

namespace OnceCache

-- What is counted when it is told.
def Counter.isTold : Counter → Bool
  | hit | miss | generationFailure | storeFailure => true
  | bypass | generation | eviction | expiration => false

-- Whether an event tells what a counter counts.
def Counter.isToldBy : Counter → Event → Bool
  | hit, .hit .. | miss, .miss .. | miss, .readFailed .. | generationFailure, .generationFailed ..
  | storeFailure, .writeFailed .. => true
  | _, _ => false

-- A read in vain is told as a miss, whatever the reason.
theorem Counter.isToldBy_unread {c : Counter} {key : Key} {e : Error} :
    c.isToldBy (.unread key e) = (.miss == c) := by
  unfold Event.unread
  split <;> cases c <;> rfl

namespace Event

variable {e : Event} {log : List Event} {c : Counter}

theorem isOfManager_of_isToldBy (h : c.isToldBy e) : e.isOfManager := by
  cases c <;> cases e <;> first | rfl | cases h

theorem countP_isToldBy :
    (log.filter (·.isOfManager)).countP c.isToldBy = log.countP c.isToldBy := by
  rw [List.countP_filter]
  refine List.countP_congr fun e _ => ?_
  rw [Bool.and_eq_true]
  exact and_iff_left_of_imp isOfManager_of_isToldBy

-- What tells of a counter is known by its words.
theorem mentions_eq {level : Level} {message : String}
    (h : ∀ e : Event, e.level = level ∧ e.message = message ↔ c.isToldBy e) :
    mentions log level message = log.countP c.isToldBy :=
  List.countP_congr fun e _ => decide_eq_true_iff.trans (h e)

theorem mentions_hit : mentions log .debug "Cache hit" = log.countP Counter.hit.isToldBy :=
  mentions_eq fun e => by cases e <;> simp [Counter.isToldBy, level, message]

theorem mentions_miss : mentions log .debug "Cache miss" +
    mentions log .warn "Byte store read failed, regenerating" =
      log.countP Counter.miss.isToldBy := by
  induction log
  case nil => rfl
  case cons e log hi =>
    simp only [mentions, List.countP_cons] at hi ⊢
    rw [← hi]
    cases e <;> simp [Counter.isToldBy, level, message] <;> omega

theorem mentions_generationFailed : mentions log .debug "Generation failed, nothing cached" =
    log.countP Counter.generationFailure.isToldBy :=
  mentions_eq fun e => by cases e <;> simp [Counter.isToldBy, level, message]

theorem mentions_writeFailed :
    mentions log .warn "Failed to store generated body, serving uncached" =
      log.countP Counter.storeFailure.isToldBy :=
  mentions_eq fun e => by cases e <;> simp [Counter.isToldBy, level, message]

end Event

-- A read that failed, or a write.
def Access.isTrouble : Access → Bool
  | read _ (.error e) => e.kind ≠ .notFound
  | write _ _ (.error _) => true
  | read _ (.ok _) | write _ _ (.ok _) => false

theorem Access.level_of_not_isTrouble {a : Access} (h : a.isTrouble = false) :
    ∀ event ∈ a.told, event.level = .debug := by
  rcases a with ⟨key, e | body⟩ | ⟨key, body, e | _⟩
  case read.error =>
    have hk : e.kind = .notFound := by simpa [isTrouble] using h
    simp [told, Event.unread, hk, Event.level]
  case write.error => cases h
  all_goals simp [told, Event.level]

theorem Poll.level_of_told {ε : Type} {key : Key} {describe : ε → String} {answer : Poll ε} :
    ∀ event ∈ answer.told key describe, event.level = .debug := by
  rcases answer with _ | ⟨e | _, _⟩ | _ <;> simp [told, Event.level]

namespace Manager

variable {σ ε : Type} [ByteStore σ] {now : Instant} {id : PartyId} {key : Key} {p : Party}
variable {status : Status} {directive : Directive} {describe : ε → String} {progress : Progress ε}
variable {generation : Generation ε} {answer : Poll ε} {accesses : List Access} {event : Event}
variable {counters : List Counter} {c : Counter} {m : Manager (JournaledStore σ)}

-- What is told is what is counted.
theorem Concluded.count_eq (h : Concluded key status progress answer accesses counters) :
    counters.count c = (told key describe accesses answer).countP c.isToldBy := by
  cases h <;> cases c <;> rfl

theorem Attended.count_eq (h : Attended key progress directive answer accesses counters)
    (hc : c.isTold) :
    counters.count c = (told key describe accesses answer).countP c.isToldBy := by
  have hg : Counter.generation ≠ c := by
    rintro rfl
    cases hc
  cases h
  case found => cases c <;> rfl
  case bypassed hd =>
    have hb : Counter.bypass ≠ c := by
      rintro rfl
      cases hc
    rw [List.count_cons_of_ne hb, List.count_cons_of_ne hg, hd.count_eq]
  case missed e accesses counters hd =>
    rw [told_cons, Access.told, List.singleton_append, List.countP_cons, Counter.isToldBy_unread,
      List.count_cons, List.count_cons_of_ne hg, hd.count_eq]

-- Whoever is spoken of is the request that was looked at.
theorem Concluded.key?_eq (h : Concluded key status progress answer accesses counters) :
    ∀ event ∈ told key describe accesses answer, event.key? = some key := by
  cases h <;> simp [told, Access.told, Poll.told, Event.key?]

theorem Attended.key?_eq (h : Attended key progress directive answer accesses counters) :
    ∀ event ∈ told key describe accesses answer, event.key? = some key := by
  cases h
  case found => simp [told, Access.told, Poll.told, Event.key?]
  case bypassed hd => exact hd.key?_eq
  case missed e accesses counters hd =>
    rw [told_cons]
    intro event he
    cases List.mem_append.mp he
    case inl he => exact List.mem_singleton.mp he ▸ Event.key?_unread
    case inr he => exact hd.key?_eq event he

variable [SincereStore σ]

-- The log of a look has nothing in it but the words of a manager and of its store.
theorem tells_of_poll {m : Manager σ} {r : Reply (Manager σ) (Poll ε)}
    (h : m.poll now id describe generation = some r) : ∃ told, Event.Tells r.log told := by
  let m' : Manager (JournaledStore σ) :=
    { coordinator := m.coordinator, store := { store := m.store }, stats := m.stats }
  have hm : m.poll now id describe generation = _ := poll_plain (m := m')
  obtain ⟨r', hr', rfl⟩ := Option.map_eq_some_iff.mp (hm.symm.trans h)
  obtain ⟨_, _, _, _, hl, _⟩ := acted_of_poll hr'
  exact ⟨_, hl.log⟩

end Manager

end OnceCache
