import OnceCache.Proofs.Execution.Memory
import OnceCache.Proofs.Store.Removal
import OnceCache.Proofs.Trace

namespace OnceCache

-- What a request is served.
def Poll.served? {ε : Type} : Poll ε → Option Served
  | .finished (.ok served) _ => some served
  | .finished (.error _) _ | .pending _ | .broken => none

namespace Execution

variable {ε : Type}

-- Whether a request for a key was served a body that its own generation came to.
def Look.Renews (look : Look ε) (key : Key) (body : Body) : Prop :=
  look.key = key ∧ ∃ status, status ≠ .hit ∧ look.answer.served? = some ⟨body, status⟩

-- After a request was served a fresh body that counts, whichever stored body is served for the key
-- was generated no earlier.
def NeverStale (counts : Look ε → Body → Prop) (looks : List (PartyId × Look ε)) : Prop :=
  ∀ older a newer v later fresh stored, looks = older ++ a :: newer ++ v :: later →
    a.2.Renews v.2.key fresh → counts a.2 fresh → v.2.answer.served? = some ⟨stored, .hit⟩ →
    ∃ w ∈ a :: newer, w.2.Renews v.2.key stored

-- Whether a fresh body leaves no older one in the store. There was none that could have been
-- served, or the body is not too long to take its place.
def Look.Replaces (config : Config) (look : Look ε) (fresh : Body) : Prop :=
  look.directive = .standard ∨ fresh.size ≤ config.bodyLimit.toNat

-- The last body for a key that left no older one in the store.
def LastReplacing (config : Config) (looks : List (PartyId × Look ε)) (key : Key)
    (body : Body) : Prop :=
  ∃ older w newer, looks = older ++ w :: newer ∧ w.2.Renews key body ∧
    ∀ x ∈ newer, ∀ fresh, x.2.Renews key fresh → ¬x.2.Replaces config fresh

-- Where stored bodies come from that are served.
structure Refreshes (config : Config) (looks : List (PartyId × Look ε)) : Prop where
  sourced    : Along (fun before v => ∀ stored, v.2.answer.served? = some ⟨stored, .hit⟩ →
    LastReplacing config before v.2.key stored) looks
  neverStale : NeverStale (Look.Replaces config) looks

variable {looks : List (PartyId × Look ε)} {x : PartyId × Look ε} {key k : Key} {body : Body}
variable {config : Config} {m t : MemoryStore} {b : StoredBody} {now : Instant} {d : Directive}
variable {answer : Poll ε} {progress : Progress ε}

namespace LastReplacing

theorem append (h : LastReplacing config looks key body)
    (hx : ∀ fresh, x.2.Renews key fresh → ¬x.2.Replaces config fresh) :
    LastReplacing config (looks ++ [x]) key body := by
  obtain ⟨older, w, newer, rfl, hw, hn⟩ := h
  refine ⟨older, w, newer ++ [x], by simp, hw, fun y hy => ?_⟩
  cases List.mem_append.mp hy
  case inl hy => exact hn y hy
  case inr hy => exact List.mem_singleton.mp hy ▸ hx

theorem of_renews (h : x.2.Renews key body) : LastReplacing config (looks ++ [x]) key body :=
  ⟨looks, x, [], rfl, h, nofun⟩

-- The last such body was generated no earlier than any other such body.
theorem mem_of_replaces {older newer : List (PartyId × Look ε)} {a : PartyId × Look ε}
    {fresh : Body} (h : LastReplacing config (older ++ a :: newer) key body)
    (ha : a.2.Renews key fresh) (hr : a.2.Replaces config fresh) :
    ∃ w ∈ a :: newer, w.2.Renews key body := by
  obtain ⟨older', w, newer', he, hw, hn⟩ := h
  obtain ⟨rest, rfl, ht⟩ | ⟨rest, rfl, ht⟩ := List.append_eq_append_iff.mp he
  case inl => exact ⟨w, ht ▸ by simp, hw⟩
  case inr =>
    cases rest
    case nil =>
      cases ht
      exact ⟨_, .head _, hw⟩
    case cons y rest =>
      cases ht
      exact absurd hr (hn a (by simp) fresh ha)

end LastReplacing

-- Every stored body is the last one for its key that left no older one, and the store keeps bodies.
def Keeps (config : Config) (looks : List (PartyId × Look ε)) (m : MemoryStore) : Prop :=
  ∀ key b, m.bodies.find? key = some b →
    config.isEnabled ∧ LastReplacing config looks key b.body

-- What a look comes to at a store in memory. Nobody is served, or a stored body is, or a fresh one,
-- which the store takes or not. A generation in place of a stored body goes on as long as there is
-- none.
inductive Serving (m : MemoryStore) (now : Instant) (key : Key) (d : Directive) :
    Poll ε → MemoryStore → Prop
  | nobody {answer : Poll ε} {t : MemoryStore} :
    answer.served? = none → m.Shrunk t →
    (answer.ran → d = .standard → t.bodies.find? key = none) → Serving m now key d answer t
  | stored {b : StoredBody} :
    m.bodies.find? key = some b →
    Serving m now key d (.finished (.ok ⟨b.body, .hit⟩) false) (m.touch now key b)
  | refused {body : Body} {t : MemoryStore} :
    m.config.isEnabled = false ∨ m.config.bodyLimit.toNat < body.size → m.Shrunk t →
    (d = .standard → t.bodies.find? key = none) →
    Serving m now key d (.finished (.ok ⟨body, d.freshStatus⟩) true) t
  | taken {b : StoredBody} {t : MemoryStore} :
    m.config.isEnabled → m.Shrunk t →
    Serving m now key d (.finished (.ok ⟨b.body, d.freshStatus⟩) true) (t.putIn key b)

namespace Serving

open Manager

-- A look at a generation, at a store that may have dropped bodies since the look began.
theorem of_conclude {u : MemoryStore} (hs : m.Shrunk u)
    (hn : d = .standard → u.bodies.find? key = none)
    (h : (answer, t) = conclude u now key d.freshStatus progress) :
    Serving m now key d answer t := by
  rcases progress with _ | (e | body) | _ <;> obtain ⟨rfl, rfl⟩ := Prod.mk.inj h
  case pending => exact .nobody rfl hs fun _ => hn
  case finished.error => exact .nobody rfl hs fun _ => hn
  case broken => exact .nobody rfl hs fun _ => hn
  case finished.ok =>
    have hw : u.Written now key body (ByteStore.write u now key body).state :=
      MemoryStore.written
    generalize (ByteStore.write u now key body).state = t at hw
    cases hw
    case refused hr => exact .refused (hs.config ▸ hr) hs hn
    case stored v he _ hv =>
      have hv : u.Shrunk v := hv ▸ .trans .remove .makeRoom
      exact .taken (b := .create body u.config.ttl now) (hs.config ▸ he) (hs.trans hv)

theorem of_outcome {s : State MemoryStore ε} {id : PartyId} {p : Party}
    (h : s.Outcome id p d progress answer t)
    (hn : p.stage.isOwner → d = .standard → s.store.bodies.find? p.key = none) :
    Serving s.store s.now p.key d answer t := by
  cases h
  case waits ha ht =>
    subst ha ht
    exact .nobody rfl .refl nofun
  case continues ho _ hc => exact .of_conclude .refl (hn ho) hc
  case turns hc =>
    cases d
    case noCache => exact .of_conclude .refl nofun hc
    case standard =>
      obtain ⟨b, hb, hg⟩ | ⟨e, he, hs, hk⟩ := s.store.get_cases s.now p.key
      case inl =>
        have hr : ByteStore.read s.store s.now p.key = _ := hg
        rw [attend_of_ok rfl (congrArg (·.answer) hr), hr] at hc
        obtain ⟨rfl, rfl⟩ := Prod.mk.inj hc
        exact .stored hb
      case inr =>
        rw [attend_of_error rfl he] at hc
        exact .of_conclude hs (fun _ => hk) hc

-- Where there is no body, none appears, unless a request is done that generated it.
theorem find?_eq_none (h : Serving m now key d answer t) (hk : m.bodies.find? k = none)
    (hne : answer.isFinished → key ≠ k) : t.bodies.find? k = none := by
  cases h
  case nobody hs _ => exact hs.find?_eq_none hk
  case stored => exact (Table.find?_insert_of_ne (hne rfl)).trans hk
  case refused hs _ => exact hs.find?_eq_none hk
  case taken hs =>
    rw [MemoryStore.putIn_bodies, Table.find?_insert_of_ne (hne rfl)]
    exact hs.find?_eq_none hk

theorem config_eq (h : Serving m now key d answer t) : t.config = m.config := by
  cases h
  case nobody hs _ => exact hs.config
  case stored => rfl
  case refused hs _ => exact hs.config
  case taken hs => exact hs.config

theorem of_hit (h : Serving m now key d answer t) (hs : answer.served? = some ⟨body, .hit⟩) :
    ∃ b, m.bodies.find? key = some b ∧ b.body = body := by
  cases h
  case nobody hn _ _ => cases hn.symm.trans hs
  case stored b hb =>
    cases hs
    exact ⟨b, hb, rfl⟩
  case refused =>
    simp only [Poll.served?, Option.some.injEq, Served.mk.injEq] at hs
    exact absurd hs.right Directive.freshStatus_ne_hit
  case taken =>
    simp only [Poll.served?, Option.some.injEq, Served.mk.injEq] at hs
    exact absurd hs.right Directive.freshStatus_ne_hit

theorem keeps {look : Look ε} {id : PartyId}
    (h : Serving m now look.key look.directive look.answer t) (hm : Keeps config looks m)
    (hc : m.config = config) : Keeps config (looks ++ [(id, look)]) t := by
  intro k c hk
  obtain ⟨key, d, since, progress, answer⟩ := look
  change Serving m now key d answer t at h
  cases h
  case nobody hn hs _ =>
    have ⟨he, hl⟩ := hm k c (hs.bodies hk)
    refine ⟨he, hl.append ?_⟩
    rintro fresh ⟨_, _, _, hf⟩
    cases hn.symm.trans hf
  case stored b hb =>
    have hl : config.isEnabled ∧ LastReplacing config looks k c.body := by
      rw [MemoryStore.find?_touch] at hk
      split at hk
      case isTrue hkey =>
        cases hk
        exact hkey ▸ hm key b hb
      case isFalse => exact hm k c hk
    refine ⟨hl.left, hl.right.append ?_⟩
    rintro fresh ⟨_, _, hne, hf⟩
    cases hf
    exact absurd rfl hne
  case refused body hr hs hn =>
    have ⟨he, hl⟩ := hm k c (hs.bodies hk)
    refine ⟨he, hl.append ?_⟩
    rintro fresh ⟨rfl, _, _, hf⟩ hp
    cases hf
    cases hp
    case inl hd => cases (hn hd).symm.trans hk
    case inr hl =>
      cases hr
      case inl hr => simp [hc, he] at hr
      case inr hr => exact Nat.not_lt_of_le hl (hc ▸ hr)
  case taken b u he hs =>
    rw [MemoryStore.putIn_bodies, Table.find?_insert] at hk
    split at hk
    case isTrue hkey =>
      cases hk
      exact ⟨hc ▸ he, .of_renews ⟨hkey, _, Directive.freshStatus_ne_hit, rfl⟩⟩
    case isFalse hkey =>
      have ⟨he, hl⟩ := hm k c (hs.bodies hk)
      exact ⟨he, hl.append fun _ hf => absurd hf.left hkey⟩

end Serving

namespace State

-- Stored bodies are the last ones that left no older ones, and a request that found no body can
-- rely on it until it is done.
structure Current (config : Config) (s : State MemoryStore ε) : Prop where
  faithful   : s.Faithful
  configured : s.store.config = config
  absent     : ∀ {id v}, s.live.find? id = some v → v.isOwner → v.directive = some .standard →
    s.store.bodies.find? v.key = none
  stored     : Keeps config s.looks s.store
  sourced    : Along (fun before v => ∀ stored, v.2.answer.served? = some ⟨stored, .hit⟩ →
    LastReplacing config before v.2.key stored) s.looks

namespace Current

variable {s t : State MemoryStore ε} {id : PartyId} {p : Party} {stage : Stage} {start : Instant}
variable {generation : Generation ε} {request? : Option (Key × Directive)}
variable {describe : ε → String} {action : Action MemoryStore ε}
variable {actions : List (Action MemoryStore ε)}

theorem blank : Current config (blank config start : State MemoryStore ε) where
  faithful     := .init
  configured   := rfl
  absent h     := by cases h
  stored _ _ h := by cases h
  sourced      := .nil

theorem quiet (h : Current config s) (ht : t.Faithful) (hq : s.Quiet request? t) :
    Current config t where
  faithful   := ht
  configured := hq.store ▸ h.configured
  absent hv ho hd := by
    rw [hq.store]
    cases hq.requests hv (by simp [hd])
    case inl hv => exact h.absent hv ho hd
    case inr hv =>
      obtain ⟨_, _, _, _, rfl⟩ := hv
      cases ho
  stored     := hq.looks ▸ hq.store ▸ h.stored
  sourced    := hq.looks ▸ h.sourced

-- Others may drop bodies.
theorem tended {change : Instant → MemoryStore → MemoryStore} (h : Current config s)
    (hs : s.store.Shrunk (change s.now s.store)) :
    Current config { s with manager := { s.manager with store := change s.now s.store } } where
  faithful       := h.faithful.of_eq rfl rfl
  configured     := hs.config.trans h.configured
  absent hv ho hd := hs.find?_eq_none (h.absent hv ho hd)
  stored k b hb  := h.stored k b (hs.bodies hb)
  sourced        := h.sourced

theorem serving (h : Current config s) (hl : s.Looking id generation t p d stage answer) :
    Serving s.store s.now p.key d answer t.store := by
  refine .of_outcome (hl.outcome h.faithful) fun ho hd => ?_
  exact h.absent (h.faithful.live_of_party hl.party) ho (hl.directive.trans (congrArg some hd))

theorem look (h : Current config s) (hl : s.Looking id generation t p d stage answer) :
    Current config t where
  faithful   := h.faithful.of_looking hl
  configured := (h.serving hl).config_eq.trans h.configured
  absent {j v} hv ho hd := by
    have hs := h.serving hl
    rw [hl.live] at hv
    split at hv
    case isTrue =>
      -- The request itself has a generation under way.
      cases answer <;> cases hv
      case pending generating =>
        cases ho
        cases hd
        cases hs
        case nobody hn => exact hn rfl rfl
    case isFalse hj =>
      refine hs.find?_eq_none (h.absent hv ho hd) fun hf => ?_
      have ha : answer.hasTurn := by cases answer <;> first | rfl | cases hf
      exact h.faithful.key_ne hl.party ((hl.hasTurn_iff h.faithful).mp ha) hv ho hj
  stored     := by
    rw [hl.looks]
    exact Serving.keeps (h.serving hl) h.stored h.configured
  sourced    := by
    rw [hl.looks]
    refine h.sourced.append fun stored hs => ?_
    obtain ⟨b, hb, rfl⟩ := (h.serving hl).of_hit hs
    exact (h.stored _ _ hb).right

theorem step (h : Current config s)
    (ht : ∀ {change}, action = .tend change → ∀ now m, MemoryStore.Shrunk m (change now m)) :
    Current config (s.step describe action) := by
  have hf : (s.step describe action).Faithful := h.faithful.step
  have hs : s.Stepped action (s.step describe action) := h.faithful.stepped
  generalize s.step describe action = t at hf hs
  cases hs
  case quiet hq => exact h.quiet hf hq
  case tended => exact h.tended (ht rfl _ _)
  case looked hr hq hl => exact (h.quiet hr hq).look hl

theorem run (h : Current config s)
    (ht : ∀ {change}, .tend change ∈ actions → ∀ now m, MemoryStore.Shrunk m (change now m)) :
    Current config (s.run describe actions) := by
  induction actions generalizing s
  case nil => exact h
  case cons action actions hi =>
    exact hi (h.step fun he => ht (he ▸ .head _)) fun hm => ht (.tail _ hm)

end Current

end State

-- No stored body is served that is older than a fresh one, unless the fresh one was too long for
-- the store and was generated for a request that skips the read.
theorem never_stale (describe : ε → String) (config : Config) (start : Instant)
    (actions : List (Action MemoryStore ε))
    (h : ∀ {change}, .tend change ∈ actions → ∀ now m, MemoryStore.Shrunk m (change now m)) :
    Refreshes config ((State.blank config start).run describe actions).looks := by
  have hb : State.Current config (State.blank config start : State MemoryStore ε) := .blank
  have hs : Along _ ((State.blank config start).run describe actions).looks :=
    (hb.run h).sourced
  refine ⟨hs, fun older a newer v later fresh stored he ha hr hv => ?_⟩
  exact (hs _ _ _ he stored hv).mem_of_replaces ha hr

-- The body of the second request takes the place of the one of the first. That of the third is too
-- long, and the fourth is served what the second generated.
def outgrown : List (Action MemoryStore String) := [
  .start ⟨"k"⟩ .standard fun _ => .finished (.ok ⟨#[1]⟩),
  .start ⟨"k"⟩ .noCache fun _ => .finished (.ok ⟨#[2]⟩),
  .start ⟨"k"⟩ .noCache fun _ => .finished (.ok ⟨#[3, 3]⟩),
  .start ⟨"k"⟩ .standard fun _ => .pending]

-- The store is cleaned up in the end. Nothing has expired, so the last request finds a body.
theorem never_stale_outgrown :
    let config : Config := { Config.conservative with maxEntryBytes := 1 }
    let actions : List (Action MemoryStore String) := outgrown ++ [
      .tend fun now store => (store.cleanUp now).state,
      .start ⟨"k"⟩ .standard fun _ => .pending]
    let s := (State.blank config 0).run (·) actions
    (∀ {change : Instant → MemoryStore → MemoryStore}, .tend change ∈ actions →
      ∀ now m, MemoryStore.Shrunk m (change now m)) ∧
      Refreshes config s.looks ∧
      s.looks.map (fun p => p.2.answer.served?.map fun served => (served.status, served.body)) =
        [some (.miss, ⟨#[1]⟩), some (.bypass, ⟨#[2]⟩), some (.bypass, ⟨#[3, 3]⟩),
          some (.hit, ⟨#[2]⟩), some (.hit, ⟨#[2]⟩)] := by
  intro config actions s
  have h {change : Instant → MemoryStore → MemoryStore} (hm : .tend change ∈ actions) (now m) :
      MemoryStore.Shrunk m (change now m) := by
    have hc : change = fun now store => (store.cleanUp now).state := by
      simpa [actions, outgrown] using hm
    exact hc ▸ .cleanUp
  exact ⟨h, never_stale (·) config 0 actions h, by decide⟩

-- What is served can be older than a fresh body that was served before.
theorem stale_outgrown : ¬NeverStale (fun _ _ => True)
    ((State.blank { Config.conservative with maxEntryBytes := 1 } 0).run (·) outgrown).looks := by
  generalize hl : State.looks _ = looks
  have hs : looks.map (fun p => (p.2.key, p.2.answer.served?.map fun v => (v.status, v.body))) =
      [(⟨"k"⟩, some (.miss, ⟨#[1]⟩)), (⟨"k"⟩, some (.bypass, ⟨#[2]⟩)),
        (⟨"k"⟩, some (.bypass, ⟨#[3, 3]⟩)), (⟨"k"⟩, some (.hit, ⟨#[2]⟩))] := by
    subst hl
    decide
  clear hl
  rcases looks with _ | ⟨a, _ | ⟨b, _ | ⟨c, _ | ⟨d, _ | _⟩⟩⟩⟩ <;>
    simp only [List.map_cons, List.map_nil, List.cons.injEq, Prod.mk.injEq, reduceCtorEq,
      and_true, and_false, Option.map_eq_some_iff] at hs
  obtain ⟨-, -, ⟨hc, ⟨_, _⟩, hcs, rfl, rfl⟩, hd, ⟨_, _⟩, hds, rfl, rfl⟩ := hs
  intro h
  have hf : c.2.Renews d.2.key ⟨#[3, 3]⟩ := ⟨hc.trans hd.symm, .bypass, nofun, hcs⟩
  obtain ⟨w, hw, _, _, _, hr⟩ := h [a, b] c [] d [] _ _ rfl hf trivial hds
  cases List.mem_singleton.mp hw
  cases hcs.symm.trans hr

end Execution

end OnceCache
