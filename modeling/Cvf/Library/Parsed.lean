/-
# Cvf.Library.Parsed — lists read element by element by a function that may fail.

`xs.mapM f = .ok ys` says that `f` reads every element of `xs`.  The lemmas take such a reading apart
along the list, and turn a monadic fold that reads as it goes into a plain fold over what was read.
-/
import Mathlib

namespace Cvf.Library

universe u

variable {α β ε σ : Type*} {f : α → Except ε β}

/-- A computation in two parts succeeds when both parts do. -/
theorem bind_eq_ok_iff {γ δ : Type u} {x : Except ε γ} {g : γ → Except ε δ} {y : δ} :
    (x >>= g) = .ok y ↔ ∃ a, x = .ok a ∧ g a = .ok y := by
  cases x with
  | error e => simp [bind, Except.bind]
  | ok a => simp [bind, Except.bind]

theorem toOption_eq_some_iff {x : Except ε α} {a : α} : x.toOption = some a ↔ x = .ok a := by
  cases x with
  | error e => simp [Except.toOption]
  | ok b => simp [Except.toOption]

/-- The empty list reads as the empty list. -/
theorem mapM_nil_eq_ok {ys : List β} : ([] : List α).mapM f = .ok ys ↔ ys = [] := by
  simp [pure, Except.pure, eq_comm]

/-- A list reads when its head and its tail do. -/
theorem mapM_cons_eq_ok {x : α} {xs : List α} {ys : List β} :
    (x :: xs).mapM f = .ok ys ↔
      ∃ y ys', f x = .ok y ∧ xs.mapM f = .ok ys' ∧ ys = y :: ys' := by
  rw [List.mapM_cons]
  cases hx : f x with
  | error e => simp [bind, Except.bind]
  | ok y =>
      cases hxs : xs.mapM f with
      | error e => simp [bind, Except.bind]
      | ok ys' => simp [bind, Except.bind, pure, Except.pure, eq_comm]

/-- Two lists one after the other read when both do. -/
theorem mapM_append_eq_ok {xs xs' : List α} {ys : List β} :
    (xs ++ xs').mapM f = .ok ys ↔
      ∃ zs zs', xs.mapM f = .ok zs ∧ xs'.mapM f = .ok zs' ∧ ys = zs ++ zs' := by
  induction xs generalizing ys with
  | nil =>
    constructor
    · intro h
      exact ⟨[], ys, rfl, h, rfl⟩
    · rintro ⟨zs, zs', hzs, hzs', rfl⟩
      rw [mapM_nil_eq_ok.mp hzs]
      exact hzs'
  | cons x xs ih =>
    rw [List.cons_append, mapM_cons_eq_ok]
    constructor
    · rintro ⟨y, ys', hy, hys', rfl⟩
      obtain ⟨zs, zs', hzs, hzs', rfl⟩ := ih.mp hys'
      exact ⟨y :: zs, zs', mapM_cons_eq_ok.mpr ⟨y, zs, hy, hzs, rfl⟩, hzs', rfl⟩
    · rintro ⟨zs, zs', hzs, hzs', rfl⟩
      obtain ⟨y, ys', hy, hys', rfl⟩ := mapM_cons_eq_ok.mp hzs
      exact ⟨y, ys' ++ zs', hy, ih.mpr ⟨ys', zs', hys', hzs', rfl⟩, rfl⟩

/-- With one error at most, that is the error of the whole. -/
theorem mapM_eq_error_or_ok {e : ε} {xs : List α} (h : ∀ x ∈ xs, f x = .error e ∨ ∃ y, f x = .ok y) :
    xs.mapM f = .error e ∨ ∃ ys, xs.mapM f = .ok ys := by
  induction xs with
  | nil => exact .inr ⟨[], mapM_nil_eq_ok.mpr rfl⟩
  | cons x xs ih =>
      rw [List.mapM_cons]
      rcases h x List.mem_cons_self with hx | ⟨y, hy⟩
      · rw [hx]
        exact .inl rfl
      · rw [hy]
        rcases ih fun x' hx' => h x' (List.mem_cons_of_mem _ hx') with hxs | ⟨ys, hys⟩
        · rw [hxs]
          exact .inl rfl
        · rw [hys]
          exact .inr ⟨y :: ys, rfl⟩

/-- Reading what was written: each element of the image reads as its own value. -/
theorem mapM_map_eq_ok {γ : Type*} {g : γ → α} {h : γ → β} {xs : List γ}
    (hread : ∀ x ∈ xs, f (g x) = .ok (h x)) : (xs.map g).mapM f = .ok (xs.map h) := by
  induction xs with
  | nil => exact mapM_nil_eq_ok.mpr rfl
  | cons x xs ih =>
      have hxs := ih fun y hy => hread y (List.mem_cons_of_mem _ hy)
      exact mapM_cons_eq_ok.mpr ⟨_, _, hread x List.mem_cons_self, hxs, rfl⟩

theorem length_of_mapM_eq_ok {xs : List α} {ys : List β} (h : xs.mapM f = .ok ys) :
    ys.length = xs.length := by
  induction xs generalizing ys with
  | nil => simp [mapM_nil_eq_ok.mp h]
  | cons x xs ih =>
      obtain ⟨y, ys', -, hys', rfl⟩ := mapM_cons_eq_ok.mp h
      simp [ih hys']

/-- What is read is read from an element. -/
theorem exists_of_mem_mapM {xs : List α} {ys : List β} (h : xs.mapM f = .ok ys) {y : β} (hy : y ∈ ys) :
    ∃ x ∈ xs, f x = .ok y := by
  induction xs generalizing ys with
  | nil =>
    rw [mapM_nil_eq_ok.mp h] at hy
    exact absurd hy List.not_mem_nil
  | cons x xs ih =>
    obtain ⟨z, zs, hz, hzs, rfl⟩ := mapM_cons_eq_ok.mp h
    rcases List.mem_cons.mp hy with rfl | hy
    · exact ⟨x, List.mem_cons_self, hz⟩
    · obtain ⟨x', hx', heq⟩ := ih hzs hy
      exact ⟨x', List.mem_cons_of_mem _ hx', heq⟩

/-- Reading pairs every element with what is read from it. -/
theorem mapM_eq_ok_iff_forall₂ {xs : List α} {ys : List β} :
    xs.mapM f = .ok ys ↔ List.Forall₂ (fun x y => f x = .ok y) xs ys := by
  induction xs generalizing ys with
  | nil => rw [mapM_nil_eq_ok, List.forall₂_nil_left_iff]
  | cons x xs ih =>
    rw [mapM_cons_eq_ok, List.forall₂_cons_left_iff]
    constructor
    · rintro ⟨y, ys', hy, hys', rfl⟩
      exact ⟨y, ys', hy, ih.mp hys', rfl⟩
    · rintro ⟨y, ys', hy, hys', rfl⟩
      exact ⟨y, ys', hy, ih.mpr hys', rfl⟩

theorem exists_of_mem_forall₂_left {R : α → β → Prop} {xs : List α} {ys : List β}
    (h : List.Forall₂ R xs ys) {x : α} (hx : x ∈ xs) : ∃ y ∈ ys, R x y := by
  induction h with
  | nil => exact absurd hx List.not_mem_nil
  | cons hxy _ ih =>
    rcases List.mem_cons.mp hx with rfl | hx
    · exact ⟨_, List.mem_cons_self, hxy⟩
    · obtain ⟨y, hy, hxy⟩ := ih hx
      exact ⟨y, List.mem_cons_of_mem _ hy, hxy⟩

theorem exists_of_mem_forall₂_right {R : α → β → Prop} {xs : List α} {ys : List β}
    (h : List.Forall₂ R xs ys) {y : β} (hy : y ∈ ys) : ∃ x ∈ xs, R x y :=
  exists_of_mem_forall₂_left h.flip hy

/-- Lists in step have the same labels where related elements have. -/
theorem map_eq_map_of_forall₂ {γ : Type*} {R : α → β → Prop} {g : α → γ} {h : β → γ}
    (hlabel : ∀ x y, R x y → g x = h y) {xs : List α} {ys : List β} (hall : List.Forall₂ R xs ys) :
    xs.map g = ys.map h := by
  rw [← List.forall₂_eq_eq_eq]
  exact List.rel_map (fun x y hxy => hlabel x y hxy) hall

/-- A fold that reads each element before using it is the fold over what was read. -/
theorem foldlM_of_mapM_eq_ok {g : σ → β → σ} {step : σ → α → Except ε σ}
    (hstep : ∀ s x y, f x = .ok y → step s x = .ok (g s y)) {xs : List α} {ys : List β}
    (h : xs.mapM f = .ok ys) (s : σ) : xs.foldlM step s = .ok (ys.foldl g s) := by
  induction xs generalizing ys s with
  | nil =>
      rw [mapM_nil_eq_ok.mp h]
      rfl
  | cons x xs ih =>
      obtain ⟨y, ys', hy, hys', rfl⟩ := mapM_cons_eq_ok.mp h
      rw [List.foldlM_cons, hstep s x y hy]
      exact ih hys' (g s y)

end Cvf.Library
