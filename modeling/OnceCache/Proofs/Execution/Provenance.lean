import OnceCache.Proofs.Execution.Visits
import OnceCache.Proofs.Execution.WorkingSet
import OnceCache.Proofs.Store.Unreliable
import OnceCache.Proofs.Trace

namespace OnceCache.Execution

-- What others do to a store whose bodies they leave alone: reads and writes begin or cease to fail,
-- and expired bodies are cleaned up.
inductive Disturbs : (Instant → UnreliableStore → UnreliableStore) → Prop
  | failures (readsFail writesFail : Bool) :
    Disturbs fun _ store => { store with readsFail, writesFail }
  | cleanUp : Disturbs fun now store => { store with memory := (store.memory.cleanUp now).state }

variable {σ ε : Type} [ByteStore σ]

-- The body that a request came to in a look at it and that the store accepted.
def Visit.taken? (v : Visit σ ε) : Option Body :=
  v.look.fresh?.filter fun body =>
    (ByteStore.write v.store v.look.time v.look.key body).answer.isOk

-- The last body for a key that the store accepted.
def LastTaken (visits : List (Visit σ ε)) (key : Key) (body : Body) : Prop :=
  ∃ before v after, visits = before ++ v :: after ∧ v.look.key = key ∧ v.taken? = some body ∧
    ∀ w ∈ after, w.look.key = key → w.taken? = none

-- Where the body comes from that is served in a look, and what becomes of it. A stored body is the
-- last one for its key that was accepted before. Any other is what the generation of the request
-- itself has come to.
structure Sourced (before : List (Visit σ ε)) (v : Visit σ ε) : Prop where
  hit   : ∀ {body generated}, v.look.answer = .finished (.ok ⟨body, .hit⟩) generated →
    generated = false ∧ LastTaken before v.look.key body
  own   : ∀ {body status generated}, v.look.answer = .finished (.ok ⟨body, status⟩) generated →
    status ≠ .hit → v.look.progress = .finished (.ok body) ∧ generated ∧
      status = v.look.directive.freshStatus
  taken : ∀ {body}, v.taken? = some body → v.look.progress = .finished (.ok body) ∧
    v.look.answer = .finished (.ok ⟨body, v.look.directive.freshStatus⟩) true

-- Where all bodies come from that are served and stored in a run. Each request is done once, so one
-- whose generation failed is not one whose body was accepted, and neither is one that was dropped.
-- Requests have their turns one after the other, so the body that was accepted last is that of the
-- last request in the order of the lock.
structure Provenance (describe : ε → String) (s : State UnreliableStore ε)
    (actions : List (Action UnreliableStore ε)) : Prop where
  sourced : Along Sourced (s.visits describe actions)
  stored  : ∀ {key body}, (s.run describe actions).store.memory.content? key = some body →
    LastTaken (s.visits describe actions) key body
  once    : (s.visits describe actions).Pairwise fun a b => a.id = b.id → a.look.answer.isPending
  dropped : ∀ {before id after}, actions = before ++ .cancel id :: after →
    (s.run describe before).Awaits id →
    ∀ v ∈ s.visits describe actions, v.id = id → v.look.answer.isPending
  ordered : ∀ {a b c}, [a, b, c].Sublist (s.visits describe actions) →
    a.look.key = b.look.key → a.look.answer.hasTurn → b.look.answer.hasTurn → a.id ≠ b.id →
    c.id ≠ a.id

variable {visits : List (Visit σ ε)} {key : Key} {body : Body} {v : Visit σ ε}

namespace LastTaken

theorem append (h : LastTaken visits key body) (hv : v.look.key = key → v.taken? = none) :
    LastTaken (visits ++ [v]) key body := by
  obtain ⟨before, w, after, rfl, hk, ht, ha⟩ := h
  refine ⟨before, w, after ++ [v], by simp, hk, ht, fun x hx => ?_⟩
  cases List.mem_append.mp hx
  case inl hx => exact ha x hx
  case inr hx => exact List.mem_singleton.mp hx ▸ hv

theorem of_taken (hk : v.look.key = key) (ht : v.taken? = some body) :
    LastTaken (visits ++ [v]) key body :=
  ⟨visits, v, [], rfl, hk, ht, nofun⟩

end LastTaken

-- What is stored was accepted last, and by a store that keeps bodies.
def Recalls (visits : List (Visit σ ε)) (m : MemoryStore) : Prop :=
  ∀ key b, m.bodies.find? key = some b → m.config.isEnabled ∧ LastTaken visits key b.body

namespace Recalls

variable {m m' : MemoryStore} {b : StoredBody} {now : Instant} {ttl : Option Duration}

theorem shrunk (h : Recalls visits m) (hs : m.Shrunk m') : Recalls visits m' :=
  fun _ _ hb => hs.config ▸ h _ _ (hs.bodies hb)

theorem touch (h : Recalls visits m) (hb : m.bodies.find? key = some b) :
    Recalls visits (m.touch now key b) := by
  intro k c hc
  rw [MemoryStore.find?_touch] at hc
  split at hc
  case isTrue hk =>
    cases hc
    have := h _ _ hb
    exact hk ▸ this
  case isFalse => exact h _ _ hc

-- A body that is not accepted changes nothing about what was accepted last.
theorem untaken (h : Recalls visits m) (hv : v.taken? = none) : Recalls (visits ++ [v]) m :=
  fun _ _ hb => ⟨(h _ _ hb).left, (h _ _ hb).right.append fun _ => hv⟩

theorem putIn (h : Recalls visits m) (he : m.config.isEnabled) (ht : v.taken? = some body) :
    Recalls (visits ++ [v]) (m.putIn v.look.key (.create body ttl now)) := by
  intro k c hc
  rw [MemoryStore.putIn_bodies, Table.find?_insert] at hc
  split at hc
  case isTrue hk =>
    cases hc
    exact ⟨he, .of_taken hk ht⟩
  case isFalse hk => exact ⟨he, (h _ _ hc).right.append fun he => absurd he hk⟩

end Recalls

section Look

variable {visits : List (Visit UnreliableStore ε)} {v : Visit UnreliableStore ε}
variable {store u w : UnreliableStore} {id : PartyId} {d : Directive} {now : Instant}
variable {progress : Progress ε} {answer : Poll ε}

theorem taken?_of_fresh?_eq_none (h : v.look.fresh? = none) : v.taken? = none := by
  rw [Visit.taken?, h]
  rfl

theorem taken?_of_fresh?_eq_some (h : v.look.fresh? = some body) :
    v.taken? = if v.store.accepts body then some body else none := by
  rw [Visit.taken?, h, Option.filter_some]
  change (if (v.store.write v.look.time v.look.key body).answer.isOk then _ else _) = _
  rw [UnreliableStore.write_isOk]

-- A look in which no body comes up.
theorem Sourced.of_nothing (hf : v.look.fresh? = none)
    (ha : ∀ served generated, v.look.answer ≠ .finished (.ok served) generated) :
    Sourced visits v where
  hit he     := absurd he (ha _ _)
  own he _   := absurd he (ha _ _)
  taken ht   := by simp [taken?_of_fresh?_eq_none hf] at ht

-- A look in which a stored body is served.
theorem Sourced.of_hit (ha : v.look.answer = .finished (.ok ⟨body, .hit⟩) false)
    (hb : LastTaken visits v.look.key body) : Sourced visits v where
  hit he := by
    cases ha.symm.trans he
    exact ⟨rfl, hb⟩
  own he hne := by
    cases ha.symm.trans he
    exact absurd rfl hne
  taken ht := by
    have hf : v.look.fresh? = none := by simp [Look.fresh?, ha, Poll.ran]
    simp [taken?_of_fresh?_eq_none hf] at ht

-- A look in which a generation has come to a body.
theorem Sourced.of_fresh (hf : v.look.fresh? = some body)
    (hp : v.look.progress = .finished (.ok body))
    (ha : v.look.answer = .finished (.ok ⟨body, v.look.directive.freshStatus⟩) true) :
    Sourced visits v where
  hit he := by
    simp only [ha, Poll.finished.injEq, Except.ok.injEq, Served.mk.injEq] at he
    exact absurd he.left.right Directive.freshStatus_ne_hit
  own he _ := by
    cases ha.symm.trans he
    exact ⟨hp, rfl, rfl⟩
  taken ht := by
    rw [taken?_of_fresh?_eq_some hf] at ht
    split at ht <;> cases ht
    exact ⟨hp, ha⟩

-- The write of the body that a generation has come to.
theorem Recalls.write (h : Recalls visits u.memory) (hf : v.look.fresh? = some body)
    (hs : u.accepts body = v.store.accepts body) :
    Recalls (visits ++ [v]) (u.write now v.look.key body).state.memory := by
  have ht := taken?_of_fresh?_eq_some hf
  have hok : (u.write now v.look.key body).answer.isOk = v.store.accepts body :=
    UnreliableStore.write_isOk.trans hs
  have hw : u.Writes now v.look.key body _ _ := u.writes now v.look.key body
  rw [← hok] at ht
  generalize (u.write now v.look.key body).answer = result,
    (u.write now v.look.key body).state = w at ht hw
  cases hw
  case refused => exact h.untaken ht
  case ignored he => exact fun _ _ hb => absurd (h _ _ hb).left (by simp [he])
  case stored m he hm =>
    have hm' : Recalls visits m := h.shrunk hm
    exact hm'.putIn (hm.config ▸ he) ht

-- A look at a generation. The store can have been read since the look began, but still accepts the
-- same bodies.
theorem sourced_of_conclude (h : Recalls visits u.memory)
    (hs : ∀ {body}, u.accepts body = store.accepts body)
    (hv : v = ⟨id, ⟨key, d, now, progress, answer⟩, store⟩)
    (hc : (answer, w) = Manager.conclude u now key d.freshStatus progress) :
    Sourced visits v ∧ Recalls (visits ++ [v]) w.memory := by
  cases hb : progress.body?
  case none =>
    have hf : v.look.fresh? = none := by simp [hv, Look.fresh?, hb]
    have hw : w = u := (congrArg (·.2) hc).trans (Manager.conclude_of_body?_eq_none hb)
    have ha served generated : answer ≠ .finished (.ok served) generated := by
      rintro rfl
      simp [Manager.body?_of_conclude (congrArg (·.1) hc).symm] at hb
    exact ⟨.of_nothing hf (by rwa [hv]), hw ▸ h.untaken (taken?_of_fresh?_eq_none hf)⟩
  case some body =>
    have hp : progress = .finished (.ok body) := by
      rcases progress with _ | (e | body) | _ <;> cases hb
      rfl
    rw [Manager.conclude_of_body?_eq_some hb] at hc
    obtain ⟨rfl, rfl⟩ := Prod.mk.inj hc
    have hf : v.look.fresh? = some body := by simp [hv, Look.fresh?, hb, Poll.ran]
    subst hv
    exact ⟨.of_fresh hf hp rfl, h.write hf hs⟩

-- Where the body of a look comes from, whatever the look is like.
theorem sourced_of_outcome {s : State UnreliableStore ε} {p : Party}
    (h : Recalls visits s.store.memory) (ho : s.Outcome id p d progress answer w)
    (hv : v = ⟨id, ⟨p.key, d, s.now, progress, answer⟩, s.store⟩) :
    Sourced visits v ∧ Recalls (visits ++ [v]) w.memory := by
  cases ho
  case waits ha hw =>
    have hf : v.look.fresh? = none := by simp [hv, ha, Look.fresh?, Poll.ran]
    refine ⟨.of_nothing hf fun served generated => by simp [hv, ha], ?_⟩
    exact hw ▸ h.untaken (taken?_of_fresh?_eq_none hf)
  case continues hc => exact sourced_of_conclude h rfl hv hc
  case turns hc =>
    cases d
    case noCache => exact sourced_of_conclude h rfl hv hc
    case standard =>
      have hr : s.store.Reads s.now p.key _ _ := s.store.reads s.now p.key
      generalize ha : (ByteStore.read s.store s.now p.key).answer = result,
        hu : (ByteStore.read s.store s.now p.key).state = u at hr
      cases hr
      case failed m hm =>
        rw [Manager.attend_of_error rfl ha, hu] at hc
        have hm' : Recalls visits m := h.shrunk hm
        refine sourced_of_conclude hm' ?_ hv hc
        simp [UnreliableStore.accepts, hm.config]
      case found b hb =>
        rw [Manager.attend_of_ok rfl ha, hu] at hc
        obtain ⟨rfl, rfl⟩ := Prod.mk.inj hc
        have hs : Sourced visits v := .of_hit (by rw [hv]) (by rw [hv]; exact (h _ _ hb).right)
        have hw : Recalls visits (s.store.memory.touch s.now p.key b) := h.touch hb
        exact ⟨hs, hw.untaken (taken?_of_fresh?_eq_none (by rw [hv]; rfl))⟩

end Look

namespace State

variable {s t : State UnreliableStore ε} {visits : List (Visit UnreliableStore ε)}
variable {describe : ε → String} {action : Action UnreliableStore ε}
variable {actions : List (Action UnreliableStore ε)} {config : Config} {start : Instant}

-- It is known where all bodies come from.
structure Traced (visits : List (Visit UnreliableStore ε)) (s : State UnreliableStore ε) : Prop
    extends s.Followed visits where
  sourced : Along Sourced visits
  stored  : Recalls visits s.store.memory

namespace Traced

theorem init : (init { memory := .create config } start : State UnreliableStore ε).Traced [] where
  toFollowed := .init
  sourced    := .nil
  stored _ _ h := by cases h

theorem step (h : s.Traced visits) (ht : ∀ {change}, action = .tend change → Disturbs change) :
    (s.step describe action).Traced (visits ++ s.looksTo (s.step describe action)) := by
  have hf : (s.step describe action).Followed _ := h.toFollowed.step
  have hs : s.Stepped action (s.step describe action) := h.faithful.stepped
  generalize s.step describe action = t at hf hs
  cases hs
  case quiet hq =>
    rw [looksTo_of_eq hq.looks, List.append_nil] at hf ⊢
    exact { hf with sourced := h.sourced, stored := hq.store ▸ h.stored }
  case tended change =>
    rw [looksTo_tend, List.append_nil] at hf ⊢
    refine { hf with sourced := h.sourced, stored := ?_ }
    cases ht rfl
    case failures => exact h.stored
    case cleanUp => exact h.stored.shrunk .cleanUp
  case looked r id generation p d stage answer _ hr hq hl =>
    rw [looksTo_of_append (hq.looks ▸ hl.looks), ← hq.store] at hf ⊢
    have ⟨hv, hw⟩ := sourced_of_outcome (hq.store ▸ h.stored) (hl.outcome hr) rfl
    exact { hf with sourced := h.sourced.append hv, stored := hw }

theorem run (h : s.Traced visits) (ht : ∀ {change}, .tend change ∈ actions → Disturbs change) :
    (s.run describe actions).Traced (visits ++ s.visits describe actions) := by
  induction actions generalizing s visits
  case nil => rwa [State.visits, List.append_nil]
  case cons action actions hi =>
    rw [State.visits, ← List.append_assoc]
    exact hi (h.step fun he => ht (he ▸ .head _)) fun hm => ht (.tail _ hm)

end Traced

end State

-- Whatever happens in which order, and whichever reads and writes fail, it is known where every
-- body comes from that is served or stored.
theorem provenance (describe : ε → String) (config : Config) (start : Instant)
    (actions : List (Action UnreliableStore ε))
    (h : ∀ {change}, .tend change ∈ actions → Disturbs change) :
    Provenance describe (.init { memory := .create config } start) actions := by
  have hi : (State.init { memory := .create config } start : State UnreliableStore ε).Traced [] :=
    .init
  have ht : (State.run describe _ actions).Traced _ := hi.run h
  rw [List.nil_append] at ht
  constructor
  case sourced => exact ht.sourced
  case stored =>
    intro key body hb
    obtain ⟨b, hb', rfl⟩ := Option.map_eq_some_iff.mp hb
    exact (ht.stored _ _ hb').right
  case once => exact ht.once
  case dropped =>
    rintro before id after rfl ha v hv he
    exact hi.toFollowed.pending_of_cancel ha hv he
  case ordered => exact ht.ordered

-- The store refuses the body of the first request and accepts that of the second one, which the
-- third one is served. The fourth one is dropped.
def disturbed : List (Action UnreliableStore String) := [
  .tend fun _ store => { store with readsFail := false, writesFail := true },
  .start ⟨"k"⟩ .standard fun _ => .pending,
  .start ⟨"k"⟩ .standard fun _ => .pending,
  .poll 0 fun _ => .finished (.ok ⟨#[1]⟩),
  .tend fun _ store => { store with readsFail := false, writesFail := false },
  .poll 1 fun _ => .finished (.ok ⟨#[2]⟩),
  .start ⟨"k"⟩ .standard fun _ => .pending,
  .start ⟨"k"⟩ .noCache fun _ => .pending,
  .cancel 3]

theorem provenance_disturbed :
    let s : State UnreliableStore String := .init { memory := .create .conservative } 0
    Provenance (·) s disturbed ∧
      (s.visits (·) disturbed).map (·.taken?) = [none, none, none, some ⟨#[2]⟩, none, none] ∧
      (s.run (·) disturbed).store.memory.content? ⟨"k"⟩ = some ⟨#[2]⟩ := by
  intro s
  refine ⟨provenance (·) .conservative 0 disturbed fun {change} h => ?_, by decide, by decide⟩
  simp only [disturbed, List.mem_cons, reduceCtorEq, Action.tend.injEq, false_or, or_false,
    List.not_mem_nil] at h
  obtain rfl | rfl := h
  case inl => exact .failures false true
  case inr => exact .failures false false

end OnceCache.Execution
