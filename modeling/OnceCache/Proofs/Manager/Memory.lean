import OnceCache.Proofs.Manager.Request
import OnceCache.Proofs.Store.Memory

namespace OnceCache.Manager

open MemoryStore

variable {ε : Type} {s : MemoryStore} {now start : Instant} {key k : Key} {b : StoredBody}
variable {status : Status} {directive : Directive} {progress : Progress ε} {n : UInt64}

theorem attend_of_some (h : s.bodies.find? key = some b) (hb : b.isExpired now = false) :
    attend s now key .standard progress =
      (.finished (.ok ⟨b.body, .hit⟩) false, s.touch now key b) := by
  have hr : ByteStore.read s now key = _ := get_of_some h hb
  rw [attend, hr]
  rfl

theorem attend_of_none (h : s.bodies.find? key = none) :
    attend s now key .standard progress = conclude (s.record .miss) now key .miss progress := by
  have hr : ByteStore.read s now key = _ := get_of_none h
  rw [attend, hr]
  rfl

theorem conclude_withMisses :
    conclude (s.withMisses n) now key status progress =
      ((conclude s now key status progress).1,
        (conclude s now key status progress).2.withMisses n) := by
  cases h : progress.body?
  case none =>
    refine Prod.ext ?_ ?_
    · rcases progress with _ | (e | body) | _ <;> rfl
    · rw [conclude_of_body?_eq_none h, conclude_of_body?_eq_none h]
  case some body =>
    rw [conclude_of_body?_eq_some h, conclude_of_body?_eq_some h]
    exact Prod.ext rfl set_withMisses

-- A turn does not depend on the number of reads that found nothing.
theorem attend_withMisses (hl : s.Lasting start) (hn : s.config.Outlasts start now) :
    ∃ m, attend (s.withMisses n) now key directive progress =
      ((attend s now key directive progress).1,
        (attend s now key directive progress).2.withMisses m) := by
  cases directive
  case noCache => exact ⟨n, conclude_withMisses⟩
  case standard =>
    cases h : s.bodies.find? key
    case none =>
      have h' : (s.withMisses n).bodies.find? key = none := h
      rw [attend_of_none h, attend_of_none h']
      exact ⟨n + 1, conclude_withMisses (s := s.record .miss) (n := n + 1)⟩
    case some b =>
      have h' : (s.withMisses n).bodies.find? key = some b := h
      have hb := hl h hn
      rw [attend_of_some h hb, attend_of_some h' hb]
      exact ⟨n, rfl⟩

end OnceCache.Manager
