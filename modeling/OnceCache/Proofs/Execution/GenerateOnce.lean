import OnceCache.Proofs.Execution.Turn
import OnceCache.Proofs.Execution.WorkingSet

namespace OnceCache.Execution

-- The keys of the requests that come.
def requested {σ ε : Type} (actions : List (Action σ ε)) : Finset Key :=
  (actions.filterMap fun action => action.request?.map (·.1)).toFinset

variable {ε : Type}

-- The length of the longest body that was generated for a key.
def longest (looks : List (PartyId × Look ε)) (key : Key) : Nat :=
  ((looks.filter (·.2.key = key)).filterMap (·.2.fresh?)).foldr (max ·.size) 0

theorem le_longest {looks : List (PartyId × Look ε)} {id : PartyId} {look : Look ε} {body : Body}
    (hm : (id, look) ∈ looks) (hf : look.fresh? = some body) :
    body.size ≤ longest looks look.key := by
  have hb : body ∈ (looks.filter (·.2.key = look.key)).filterMap (·.2.fresh?) :=
    List.mem_filterMap.mpr ⟨_, List.mem_filter.mpr ⟨hm, by simp⟩, hf⟩
  unfold longest
  generalize (looks.filter _).filterMap _ = bodies at hb
  induction bodies
  case nil => cases hb
  case cons first bodies hi =>
    rw [List.foldr_cons]
    cases hb
    case head => exact Nat.le_max_left ..
    case tail hb => exact Nat.le_trans (hi hb) (Nat.le_max_right ..)

-- A run at a store that is big enough for all that is generated, and whose bodies outlast the run.
-- Requests accept stored bodies, and the store is cleaned up now and then.
structure Fits (config : Config) (start : Instant) (actions : List (Action MemoryStore ε))
    (s : State MemoryStore ε) : Prop where
  room     : config.HasRoomFor (requested actions) (longest s.looks)
  small    : ∀ p ∈ s.looks, ∀ body ∈ p.2.fresh?, body.size ≤ config.maxEntryBytes.toNat
  outlasts : config.Outlasts start s.now
  standard : ∀ action ∈ actions, ∀ request ∈ action.request?, request.2 = .standard
  cleanUps : ∀ {change}, .tend change ∈ actions →
    change = fun now store => (store.cleanUp now).state

namespace State

variable {s : State MemoryStore ε} {id : PartyId} {v : Sighting} {config : Config}
variable {start : Instant} {K : Finset Key} {describe : ε → String} {look : Look ε}
variable {generation : Generation ε}

-- What a working set that fits comes to. Each key has its body generated once and kept. A failed
-- or dropped generation stores nothing and changes nothing for anybody but the next in line, whose
-- turn it then is to generate.
structure OncePerKey (describe : ε → String) (s : State MemoryStore ε) : Prop
    extends s.GeneratedOnce where
  evictions : s.store.stats.evictions = 0
  kept      : ∀ {key body}, WasGenerated s.looks key body → s.store.content? key = some body
  turn      : ∀ {id v}, s.live.find? id = some v → v.directive.isSome → s.IsNext id v.key →
    (∀ body, ¬WasGenerated s.looks v.key body) → s.RunsNext describe id
  dropped   : ∀ {id v}, s.live.find? id = some v → v.directive.isSome → v.isOwner →
    s.Spares describe id v.key (s.step describe (.cancel id))
  failed    : ∀ {id generation look},
    (s.step describe (.poll id generation)).looks = s.looks ++ [(id, look)] → look.answer.ran →
    look.answer.isPending = false → look.fresh? = none →
    s.Spares describe id look.key (s.step describe (.poll id generation))

namespace Working

theorem find?_eq_none {key : Key} (h : s.Working config start K)
    (hg : ∀ body, ¬WasGenerated s.looks key body) : s.store.bodies.find? key = none := by
  cases hb : s.store.bodies.find? key
  case none => rfl
  case some b =>
    have : s.store.content? key = some b.body := by rw [MemoryStore.content?, hb]; rfl
    exact absurd (h.kept.mp this) (hg _)

theorem dropped (h : s.Working config start K) (hn : config.Outlasts start s.now)
    (hv : s.live.find? id = some v) (hd : v.directive.isSome) (ho : v.isOwner) :
    s.Spares describe id v.key (s.step describe (.cancel id)) := by
  obtain ⟨p, hp, rfl⟩ := h.faithful.party_of_live hv
  have hs := Stage.isRequest_of_directive? hd
  have ⟨d, hd⟩ := Option.isSome_iff_exists.mp hd
  have hk : s.store.bodies.find? p.key = none :=
    h.absent hv ho (hd.trans (congrArg some (h.asked hv hd).left))
  have ht : s.step describe (.cancel id) =
      s.update (s.coordinator.depart id) (s.onlooker.went id) := by
    rw [State.step, Manager.cancel_eq hp hs]
    rfl
  have hft : (s.step describe (.cancel id)).Faithful := h.faithful.step
  have hq : s.Quiet none (s.step describe (.cancel id)) := ht ▸ .depart
  have hsettled := h.toSettled.quiet hft hq
  rw [ht] at hsettled ⊢
  exact h.toSettled.spares hsettled hn hp rfl rfl rfl hk

theorem failed (h : s.Working config start K) (hn : config.Outlasts start s.now)
    (hl : (s.step describe (.poll id generation)).looks = s.looks ++ [(id, look)])
    (hr : look.answer.ran) (ha : look.answer.isPending = false) (hf : look.fresh? = none) :
    s.Spares describe id look.key (s.step describe (.poll id generation)) := by
  obtain he | ⟨p, d, stage, answer, hlook⟩ := h.faithful.look_cases describe id generation
  case inl =>
    change (s.look describe id generation).looks = _ at hl
    simp [he] at hl
  case inr =>
    change s.Looking id generation (s.step describe (.poll id generation)) p d stage answer at hlook
    generalize s.step describe (.poll id generation) = t at hl hlook
    cases List.append_cancel_left (hlook.looks.symm.trans hl)
    cases h.effect hn hlook
    case waits ha' _ =>
      rw [ha'] at hr
      cases hr
    case hits ha' _ =>
      rw [ha'] at hr
      cases hr
    case generates n _ hk _ hs =>
      have hbody : (generation (s.coordinator.since id s.now)).body? = none := by
        simpa [Look.fresh?, show answer.ran from hr] using hf
      rw [Manager.conclude_of_body?_eq_none hbody] at hs
      have hd := (h.asked_of_looking h.faithful hlook).left
      refine h.toSettled.spares (h.toSettled.look hn hlook) (hlook.now ▸ hn) hlook.party ?_ ?_ ?_
        (hk hd)
      · rw [hlook.coordinator, Coordinator.afterLook, if_neg (by simpa using ha)]
      · refine Table.ext_find? fun j => ?_
        rw [hlook.live, Table.find?_erase]
        split
        case isTrue => cases answer <;> first | rfl | cases ha
        case isFalse => rfl
      · rw [hs]
        rfl

end Working

end State

-- Whatever happens in which order, a working set that fits has one body generated for each key.
theorem generate_once (describe : ε → String) (config : Config) (start : Instant)
    (actions : List (Action MemoryStore ε))
    (h : Fits config start actions ((State.blank config start).run describe actions)) :
    ((State.blank config start).run describe actions).OncePerKey describe := by
  have hw : ((State.blank config start).run describe actions).Working config start
      (requested actions) := by
    refine State.Working.blank.run h.room ?_ h.cleanUps h.outlasts fun hm hf =>
      ⟨le_longest hm hf, h.small _ hm _ hf⟩
    intro action hm key d hr
    have hk : key ∈ requested actions :=
      List.mem_toFinset.mpr (List.mem_filterMap.mpr ⟨action, hm, by rw [hr]; rfl⟩)
    exact ⟨h.standard _ hm _ hr, hk⟩
  exact {
    toGeneratedOnce := hw.toGeneratedOnce
    evictions       := hw.evictions
    kept            := hw.kept.mpr
    turn            := fun hv hd hx hg =>
      hw.toSettled.runsNext h.outlasts hv hd hx (hw.find?_eq_none hg)
    dropped         := hw.dropped h.outlasts
    failed          := hw.failed h.outlasts }

-- Five requests for two keys. The first is dropped while it generates, so the second generates in
-- its place, and the last is served what the second generated. The third fails.
def shared : List (Action MemoryStore String) := [
  .start ⟨"a"⟩ .standard fun _ => .pending,
  .start ⟨"a"⟩ .standard fun _ => .pending,
  .start ⟨"b"⟩ .standard fun _ => .finished (.error "out of luck"),
  .start ⟨"b"⟩ .standard fun _ => .finished (.ok ⟨#[1, 2]⟩),
  .cancel 0,
  .poll 1 fun _ => .finished (.ok ⟨#[3]⟩),
  .wait 1000,
  .tend fun now store => (store.cleanUp now).state,
  .start ⟨"a"⟩ .standard fun _ => .pending]

theorem generate_once_shared :
    let config : Config := { Config.conservative with maxEntries := 2, maxMemoryBytes := 3 }
    let s := (State.blank config 0).run (·) shared
    Fits config 0 shared s ∧ s.OncePerKey (·) ∧ s.looks.length = 6 := by
  intro config s
  have h : Fits config 0 shared s := {
    room := ⟨by decide, by decide, by decide +kernel⟩
    small := by decide +kernel
    outlasts := .inr (by decide)
    standard := by decide
    cleanUps := by simp [shared] }
  exact ⟨h, generate_once (·) config 0 shared h, by decide⟩

end OnceCache.Execution
