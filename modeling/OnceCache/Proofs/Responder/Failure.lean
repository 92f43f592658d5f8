import OnceCache.Proofs.Json.Text
import OnceCache.Session.Request
import OnceCache.Store.Unreliable

namespace OnceCache

open Bytes (ofText)

namespace Failure

variable {f g : Failure}

-- Whether it is the request that is at fault.
def concernsClient : Failure → Bool
  | missingParameter _ | invalidParameter _ | limitExceeded _ | unsupportedQuery _ => true
  | timeout _ | internal _ | other .. => false

theorem isServerError_eq : f.isServerError = !f.concernsClient := by
  cases f <;> rfl

theorem publicText_of_client (h : f.concernsClient = true) : f.publicText = f.text := by
  simp [publicText, isServerError_eq, h]

theorem publicText_of_server (h : f.concernsClient = false) :
    f.publicText = "internal server error" := by
  simp [publicText, isServerError_eq, h]

theorem status_of_server (h : f.concernsClient = false) : f.status = 500 := by
  cases f
  case timeout | internal | other => rfl
  all_goals cases h

theorem status_of_client (h : f.concernsClient = true) : f.status ≠ 500 := by
  cases f
  case timeout | internal | other => cases h
  all_goals simp [status]

-- Each sort of fault of a request is told in a way that no other begins with.
theorem text_inj (hf : f.concernsClient = true) (hg : g.concernsClient = true) :
    f.text = g.text ↔ f = g := by
  refine ⟨fun h => ?_, congrArg text⟩
  have hh : f.text.toList.head? = g.text.toList.head? := by rw [h]
  cases f
  case timeout | internal | other => cases hf
  all_goals
    cases g
    case timeout | internal | other => cases hg
    all_goals
      change (_ ++ _ : String) = _ ++ _ at h
      change (_ ++ _ : String).toList.head? = (_ ++ _ : String).toList.head? at hh
      first
      | simpa using h
      | simp at hh

theorem readAll_body :
    Json.readAll Json.readTexts f.body.toUTF8.data.toList =
      .ok [(ofText "error", ofText f.publicText)] :=
  Json.readAll_readTexts "error" f.publicText

end Failure

-- A response that reports a failure: a document of its own sort, whatever the responder says of the
-- bodies that it serves, and in it the failure in full if it concerns the client.
structure Response.Reports (response : Response) (f : Failure) : Prop where
  status : response.status = f.status
  headers : response.headers = [⟨.contentType, .ofText "application/json"⟩]
  document : f.concernsClient = true →
    Json.readAll Json.readTexts response.body.data.toList = .ok [(ofText "error", ofText f.text)]

namespace Responder

variable {f g : Failure}

theorem failure_reports : (failure f).Reports f where
  status := rfl
  headers := rfl
  document h := by rw [← Failure.publicText_of_client h]; exact f.readAll_body

-- Faults of the server look the same, and all others tell what they are.
theorem failure_eq_iff :
    failure f = failure g ↔
      f = g ∨ f.concernsClient = false ∧ g.concernsClient = false := by
  constructor
  case mpr =>
    rintro (rfl | ⟨hf, hg⟩)
    · rfl
    · simp [failure, Failure.body, Failure.publicText_of_server, Failure.status_of_server, hf, hg]
  case mp =>
    intro h
    have hs : f.status = g.status := congrArg Response.status h
    cases hf : f.concernsClient <;> cases hg : g.concernsClient
    case false.false => exact .inr ⟨rfl, rfl⟩
    case false.true => exact absurd (hs ▸ Failure.status_of_server hf) (Failure.status_of_client hg)
    case true.false => exact absurd (hs ▸ Failure.status_of_server hg) (Failure.status_of_client hf)
    case true.true =>
      -- Equal bodies are read alike.
      have hr := (failure_reports (f := f)).document hf
      rw [h, failure_reports.document hg] at hr
      simp only [Except.ok.injEq, List.cons.injEq, Prod.mk.injEq, Bytes.ofText_inj] at hr
      exact .inl ((Failure.text_inj hf hg).mp hr.1.2.symm)

end Responder

namespace Session

-- The response to a client whose request is done.
def RequestAnswer.response? : RequestAnswer → Option Response
  | .response r _ => some r
  | _ => none

variable {σ τ : Type} [ByteStore σ] [ByteStore τ]

-- A request of a client fails when it is polled.
structure Fails (s : Session σ) (r : OpenRequest) (f : Failure) : Prop where
  call : ∃ responder target, r.call = .respond responder target
  poll : ∃ reply generated,
    s.manager.poll s.now r.party Failure.text (s.generationOf r) = some reply ∧
      reply.answer = .finished (.error f) generated

theorem Fails.response {s : Session σ} {r : OpenRequest} {f : Failure} (h : s.Fails r f) :
    (s.pollRequest r).answer.response? = some (Responder.failure f) := by
  obtain ⟨responder, target, hc⟩ := h.call
  obtain ⟨reply, generated, hp, ha⟩ := h.poll
  simp only [pollRequest, hp, ha, deliver, hc]
  rfl

-- Whatever the managers, the responders and the requests, responses to failed requests are told
-- apart by what concerns the client, and by nothing else.
theorem failed_responses_eq_iff {s : Session σ} {t : Session τ} {q r : OpenRequest} {f g : Failure}
    (hf : s.Fails q f) (hg : t.Fails r g) :
    ∃ a b, (s.pollRequest q).answer.response? = some a ∧
      (t.pollRequest r).answer.response? = some b ∧ a.Reports f ∧ b.Reports g ∧
      (a = b ↔ f = g ∨ f.concernsClient = false ∧ g.concernsClient = false) :=
  ⟨_, _, hf.response, hg.response, Responder.failure_reports, Responder.failure_reports,
    Responder.failure_eq_iff⟩

-- A request of a client whose generation fails.
def doomed (responder : Responder) (f : Failure) : OpenRequest where
  name := "r"
  party := 0
  call := .respond responder (.resource ⟨"/stats", none⟩)
  script := ⟨none, .outcome (.error f)⟩

-- A session in which a request has just been made.
def ofRequest (store : σ) (r : OpenRequest) : Session σ where
  manager := (Manager.request { store } ⟨"GET /stats"⟩ .standard).2
  requests := [r]

-- A password stays with the server whichever responder is asked, and a quoted name is given back.
theorem failed_responses_eq_iff_password :
    let leaky := Failure.internal "password=hunter2 rejected"
    let slow := Failure.timeout ⟨20000000, by decide⟩
    let quoted := Failure.missingParameter "a \"b\" \\ \n \u00e9"
    let q := doomed {} leaky
    let r := doomed { contentType := .ofText "text/csv", cacheStatusHeader := false } slow
    let p := doomed { contentType := .ofText "text/csv" } quoted
    let s := ofRequest (default : MemoryStore) q
    let t := ofRequest { memory := default, readsFail := true : UnreliableStore } r
    let u := ofRequest (default : MemoryStore) p
    ((s.Fails q leaky ∧ t.Fails r slow) ∧
      ∃ a b, (s.pollRequest q).answer.response? = some a ∧
        (t.pollRequest r).answer.response? = some b ∧ a.Reports leaky ∧ b.Reports slow ∧ a = b) ∧
    u.Fails p quoted ∧
      ∃ a b, (s.pollRequest q).answer.response? = some a ∧
        (u.pollRequest p).answer.response? = some b ∧ a.Reports leaky ∧ b.Reports quoted ∧
        a ≠ b := by
  intro leaky slow quoted q r p s t u
  have hs : s.Fails q leaky := ⟨⟨_, _, rfl⟩, _, _, rfl, rfl⟩
  have ht : t.Fails r slow := ⟨⟨_, _, rfl⟩, _, _, rfl, rfl⟩
  have hu : u.Fails p quoted := ⟨⟨_, _, rfl⟩, _, _, rfl, rfl⟩
  obtain ⟨a, b, ha, hb, hf, hg, he⟩ := failed_responses_eq_iff hs ht
  obtain ⟨a', b', ha', hb', hf', hg', he'⟩ := failed_responses_eq_iff hs hu
  refine ⟨⟨⟨hs, ht⟩, a, b, ha, hb, hf, hg, he.mpr (.inr ⟨rfl, rfl⟩)⟩,
    hu, a', b', ha', hb', hf', hg', fun h => ?_⟩
  have := he'.mp h
  simp [leaky, quoted, Failure.concernsClient] at this

end Session

end OnceCache
