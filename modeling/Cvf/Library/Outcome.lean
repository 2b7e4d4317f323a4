/-
# Cvf.Library.Outcome — computations that end alike.

Two computations end alike when both fail in the same way or both return and the results are related.  A
relation that the steps of two runs keep in this sense is kept by the runs; it may depend on what was
done so far.
-/
import Mathlib

namespace Cvf.Library

variable {ε σ τ ι : Type*}

inductive Outcome (R : σ → τ → Prop) : Except ε σ → Except ε τ → Prop where
  | error (failure : ε) : Outcome R (.error failure) (.error failure)
  | ok {left : σ} {right : τ} (h : R left right) : Outcome R (.ok left) (.ok right)

namespace Outcome

variable {R : σ → τ → Prop} {left : Except ε σ} {right : Except ε τ}

theorem and_left {P : σ → Prop} (h : Outcome R left right) (hleft : ∀ a, left = .ok a → P a) :
    Outcome (fun a b => P a ∧ R a b) left right := by
  cases h with
  | error failure => exact .error failure
  | ok h => exact .ok ⟨hleft _ rfl, h⟩

theorem map_eq {γ : Type*} {f : σ → γ} {g : τ → γ} (h : Outcome R left right)
    (hsame : ∀ a b, R a b → f a = g b) : left.map f = right.map g := by
  cases h with
  | error failure => rfl
  | ok h => exact congrArg Except.ok (hsame _ _ h)

end Outcome

/-- What the steps of two runs keep, the runs keep. -/
theorem foldlM_outcome {R : List ι → σ → τ → Prop} {f : σ → ι → Except ε σ} {g : τ → ι → Except ε τ}
    {start : σ} {start' : τ} {steps : List ι} (hstart : R [] start start')
    (hstep : ∀ earlier next, earlier ++ [next] <+: steps → ∀ s t, R earlier s t →
      Outcome (R (earlier ++ [next])) (f s next) (g t next)) :
    Outcome (R steps) (steps.foldlM f start) (steps.foldlM g start') := by
  induction steps using List.reverseRecOn with
  | nil => exact .ok hstart
  | append_singleton earlier last ih =>
    have hearlier := ih fun front next hwithin => hstep front next (hwithin.trans (List.prefix_append _ _))
    rw [List.foldlM_append, List.foldlM_append]
    generalize earlier.foldlM f start = left at hearlier ⊢
    generalize earlier.foldlM g start' = right at hearlier ⊢
    cases hearlier with
    | error failure => exact .error failure
    | ok h =>
      have hlast := hstep earlier last (List.prefix_refl _) _ _ h
      simp only [List.foldlM_cons, List.foldlM_nil, bind_pure]
      exact hlast

end Cvf.Library
