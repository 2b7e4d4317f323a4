/-
# Cvf.Library.Run — runs of a deterministic machine under a step condition.

A machine is a total step function; a run is a list of inputs folded over a start state.
`Admitted step admits s es` says that every input of the run meets the condition `admits` in the
state it is taken in.  The invariant rule turns a one-step preservation proof into a statement about
every run, and hence about every state a run reaches, since each prefix of an admitted run is
admitted.
-/
import Mathlib

namespace Cvf.Library

variable {σ ε : Type*}

/-- Every input of the run meets `admits` in the state it is taken in. -/
def Admitted (step : σ → ε → σ) (admits : σ → ε → Prop) : σ → List ε → Prop
  | _, [] => True
  | s, e :: es => admits s e ∧ Admitted step admits (step s e) es

instance {step : σ → ε → σ} {admits : σ → ε → Prop} [∀ s e, Decidable (admits s e)] :
    ∀ (s : σ) (es : List ε), Decidable (Admitted step admits s es)
  | _, [] => .isTrue trivial
  | s, e :: es =>
    match (inferInstance : Decidable (admits s e)),
        (instDecidableAdmitted (step s e) es : Decidable (Admitted step admits (step s e) es)) with
    | .isTrue h, .isTrue ht => .isTrue ⟨h, ht⟩
    | .isFalse h, _ => .isFalse fun hc => h hc.1
    | _, .isFalse h => .isFalse fun hc => h hc.2

theorem admitted_append {step : σ → ε → σ} {admits : σ → ε → Prop} {s : σ} {es fs : List ε} :
    Admitted step admits s (es ++ fs) ↔
      Admitted step admits s es ∧ Admitted step admits (es.foldl step s) fs := by
  induction es generalizing s with
  | nil => simp [Admitted]
  | cons e es ih => simp only [List.cons_append, Admitted, List.foldl_cons, ih, and_assoc]

/-- The invariant rule: what every admitted step preserves holds at the end of every admitted run. -/
theorem invariant_of_admitted {step : σ → ε → σ} {admits : σ → ε → Prop} {Inv : σ → Prop}
    (hstep : ∀ s e, Inv s → admits s e → Inv (step s e)) {s : σ} (hs : Inv s) {es : List ε}
    (hes : Admitted step admits s es) : Inv (es.foldl step s) := by
  induction es generalizing s with
  | nil => exact hs
  | cons e es ih => exact ih (hstep s e hs hes.1) hes.2

/-- A condition that does not look at the state is admitted along any run of inputs meeting it. -/
theorem admitted_of_forall {step : σ → ε → σ} {ok : ε → Prop} {s : σ} {es : List ε}
    (h : ∀ e ∈ es, ok e) : Admitted step (fun _ e => ok e) s es := by
  induction es generalizing s with
  | nil => trivial
  | cons e es ih => exact ⟨h e (by simp), ih fun e' he' => h e' (by simp [he'])⟩

/-- An admitted run meets every weaker condition. -/
theorem Admitted.imp {step : σ → ε → σ} {admits admits' : σ → ε → Prop}
    (himp : ∀ s e, admits s e → admits' s e) {s : σ} {es : List ε}
    (h : Admitted step admits s es) : Admitted step admits' s es := by
  induction es generalizing s with
  | nil => trivial
  | cons e es ih => exact ⟨himp s e h.1, ih h.2⟩

/-- Two conditions met along one run are met together. -/
theorem Admitted.and {step : σ → ε → σ} {admits admits' : σ → ε → Prop} {s : σ} {es : List ε}
    (h : Admitted step admits s es) (h' : Admitted step admits' s es) :
    Admitted step (fun s e => admits s e ∧ admits' s e) s es := by
  induction es generalizing s with
  | nil => trivial
  | cons e es ih => exact ⟨⟨h.1, h'.1⟩, ih h.2 h'.2⟩

/-- A run of steps that can fail does not fail, where no step fails that an invariant allows. -/
theorem exists_foldlM_ok {φ : Type*} {step : σ → ε → Except φ σ} {ok : ε → Prop} {Inv : σ → Prop}
    (hstep : ∀ s e, Inv s → ok e → ∃ s', step s e = .ok s' ∧ Inv s') {s : σ} (hs : Inv s)
    {es : List ε} (hes : ∀ e ∈ es, ok e) : ∃ s', es.foldlM step s = .ok s' ∧ Inv s' := by
  induction es generalizing s with
  | nil => exact ⟨s, rfl, hs⟩
  | cons e es ih =>
    obtain ⟨next, hnext, hinv⟩ := hstep s e hs (hes e List.mem_cons_self)
    obtain ⟨last, hlast, hend⟩ := ih hinv fun e' he' => hes e' (List.mem_cons_of_mem _ he')
    refine ⟨last, ?_, hend⟩
    rw [List.foldlM_cons, hnext]
    exact hlast

/-! ## Phases of a run -/

/-- No step lowers `count`, and a step that ends `live` with the count it had started `live`, under
the same `tag`. -/
structure KeepsPhase {τ : Type*} (step : σ → ε → σ) (live : σ → Prop) (count : σ → Nat)
    (tag : σ → τ) : Prop where
  count_le : ∀ s e, count s ≤ count (step s e)
  live : ∀ s e, live (step s e) → count (step s e) = count s → live s ∧ tag s = tag (step s e)

namespace KeepsPhase

variable {τ : Type*} {step : σ → ε → σ} {live : σ → Prop} {count : σ → Nat} {tag : σ → τ}

theorem count_le_run (h : KeepsPhase step live count tag) (s : σ) (es : List ε) :
    count s ≤ count (es.foldl step s) := by
  induction es generalizing s with
  | nil => exact le_rfl
  | cons e es ih => exact (h.count_le s e).trans (ih (step s e))

/-- A run that ends live with the count it started with was live from its start. -/
theorem live_start (h : KeepsPhase step live count tag) {s : σ} {es : List ε}
    (hlive : live (es.foldl step s)) (hcount : count (es.foldl step s) = count s) :
    live s ∧ tag s = tag (es.foldl step s) := by
  induction es generalizing s with
  | nil => exact ⟨hlive, rfl⟩
  | cons e es ih =>
    -- the first step raised no count, or the end would be above the start
    have hfirst := h.count_le s e
    have hrest := h.count_le_run (step s e) es
    rw [List.foldl_cons] at hlive hcount
    obtain ⟨hnext, htag⟩ := ih hlive (by omega)
    obtain ⟨hstart, hsame⟩ := h.live s e hnext (by omega)
    exact ⟨hstart, hsame.trans htag⟩

/-- Every state between two of one count, the later one live, is live under the later one's tag. -/
theorem live_between (h : KeepsPhase step live count tag) {s : σ} {first middle last : List ε}
    (hfirst : first <+: middle) (hlast : middle <+: last) (hlive : live (last.foldl step s))
    (hcount : count (last.foldl step s) = count (first.foldl step s)) :
    live (middle.foldl step s) ∧ tag (middle.foldl step s) = tag (last.foldl step s) := by
  obtain ⟨es, rfl⟩ := hfirst
  obtain ⟨fs, rfl⟩ := hlast
  have hbefore := h.count_le_run (first.foldl step s) es
  have hafter := h.count_le_run ((first ++ es).foldl step s) fs
  rw [← List.foldl_append] at hbefore hafter
  have hmiddle : count ((first ++ es ++ fs).foldl step s) = count ((first ++ es).foldl step s) := by
    omega
  have hsplit : (first ++ es ++ fs).foldl step s = fs.foldl step ((first ++ es).foldl step s) :=
    List.foldl_append
  rw [hsplit] at hlive hmiddle ⊢
  exact h.live_start hlive hmiddle

end KeepsPhase

end Cvf.Library
