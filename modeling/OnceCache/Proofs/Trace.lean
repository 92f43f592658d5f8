namespace OnceCache

variable {α : Type} {allows : List α → α → Prop} {trace : List α} {e : α}

-- Every entry of a trace is as the entries before it allow.
def Along (allows : List α → α → Prop) (trace : List α) : Prop :=
  ∀ before e after, trace = before ++ e :: after → allows before e

namespace Along

theorem nil : Along allows [] := fun before e after h => by simp at h

theorem append (h : Along allows trace) (he : allows trace e) : Along allows (trace ++ [e]) := by
  intro before f after hf
  obtain ⟨rest, rfl, ha⟩ | ⟨rest, rfl, ha⟩ := List.append_eq_append_iff.mp hf
  case inl =>
    cases rest
    case nil =>
      cases ha
      rwa [List.append_nil]
    case cons => simp at ha
  case inr =>
    cases rest
    case nil =>
      cases ha
      rwa [List.append_nil] at he
    case cons g rest =>
      cases ha
      exact h _ _ _ rfl

end Along

end OnceCache
