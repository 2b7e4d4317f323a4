/-
# Cvf.Library.Timeline — weaving timed items into a grid of ticks.

A `TickGrid` names the ticks of every half-open interval `(a, b]`.  `weave` is the one timeline in
which each item comes after the ticks strictly before its time and before every later tick, so that a
tick at an item's own time follows the item.  The two facts a scheduler needs are proved here once:
a timeline may be built in pieces cut at any time (`weave_append`), and each tick splits the items
exactly at its own time (`weave_split`).
-/
import Mathlib

namespace Cvf.Library

/-- The ticks of every interval `(a, b]`, in order. -/
structure TickGrid (τ : Type*) where
  time : τ → Int
  between : Int → Int → List τ
  between_append : ∀ {a b c : Int}, a ≤ b → b ≤ c → between a b ++ between b c = between a c
  mem_between : ∀ {a b : Int} {t : τ}, t ∈ between a b → a < time t ∧ time t ≤ b

namespace TickGrid

variable {α τ : Type*} (grid : TickGrid τ) (time : α → Int)

theorem between_eq_nil {a b : Int} (h : b ≤ a) : grid.between a b = [] := by
  rw [List.eq_nil_iff_forall_not_mem]
  intro t ht
  have := grid.mem_between ht
  omega

/-- Items in list order, each preceded by the ticks after `start` and strictly before its time;
after the last item the ticks through `final`. -/
def weave (start : Int) : List α → Int → List (α ⊕ τ)
  | [], final => (grid.between start final).map Sum.inr
  | e :: es, final =>
    (grid.between start (time e - 1)).map Sum.inr ++
      Sum.inl e :: weave (max start (time e - 1)) es final

/-- The items of a timeline. -/
def items (timeline : List (α ⊕ τ)) : List α := timeline.filterMap Sum.getLeft?

@[simp] theorem items_append (l r : List (α ⊕ τ)) : items (l ++ r) = items l ++ items r := by
  simp [items]

@[simp] theorem items_map_inr (ts : List τ) : items (ts.map (Sum.inr : τ → α ⊕ τ)) = [] := by
  simp [items]

@[simp] theorem items_cons_inl (e : α) (l : List (α ⊕ τ)) :
    items (Sum.inl e :: l) = e :: items l := by
  simp [items]

@[simp] theorem items_cons_inr (t : τ) (l : List (α ⊕ τ)) : items (Sum.inr t :: l) = items l :=
  rfl

variable {time}

theorem items_weave (start : Int) (es : List α) (final : Int) :
    items (grid.weave time start es final) = es := by
  induction es generalizing start with
  | nil => simp [weave]
  | cons e es ih => simp [weave, ih]

/-- A timeline may be cut at any time that separates the items; an item just after the cut may
still belong to the first piece, since the ticks at its own time come later. -/
theorem weave_append {start mid final : Int} (hstart : start ≤ mid) (hmid : mid ≤ final)
    {es fs : List α} (hes : ∀ e ∈ es, time e ≤ mid + 1) (hfs : ∀ f ∈ fs, mid < time f) :
    grid.weave time start (es ++ fs) final =
      grid.weave time start es mid ++ grid.weave time mid fs final := by
  induction es generalizing start with
  | nil =>
      cases fs with
      | nil => simp [weave, ← grid.between_append hstart hmid]
      | cons f fs =>
          have hf := hfs f (by simp)
          have hcut := grid.between_append hstart (show mid ≤ time f - 1 by omega)
          simp only [List.nil_append, weave, ← hcut, List.map_append, List.append_assoc,
            max_eq_right (show start ≤ time f - 1 by omega),
            max_eq_right (show mid ≤ time f - 1 by omega)]
  | cons e es ih =>
      have he := hes e (by simp)
      have hstep := @ih (max start (time e - 1)) (by omega) fun e' he' => hes e' (by simp [he'])
      simp only [List.cons_append, weave, hstep, List.append_assoc]

/-- Items that all share the next instant are woven without a tick between them. -/
theorem weave_group {t : Int} {es : List α} (hes : ∀ e ∈ es, time e = t) {start : Int}
    (hstart : t - 1 ≤ start) : grid.weave time start es start = es.map Sum.inl := by
  induction es with
  | nil => simp [weave, grid.between_eq_nil le_rfl]
  | cons e es ih =>
      have he := hes e (by simp)
      have hnone := grid.between_eq_nil (show time e - 1 ≤ start by omega)
      simp only [weave, hnone, List.map_nil, List.nil_append, List.map_cons,
        max_eq_left (show time e - 1 ≤ start by omega)]
      rw [ih fun e' he' => hes e' (by simp [he'])]

theorem lt_time_of_mem_weave {start : Int} {es : List α} {final : Int} {t : τ}
    (h : Sum.inr t ∈ grid.weave time start es final) : start < grid.time t := by
  induction es generalizing start with
  | nil =>
      obtain ⟨t', ht', heq⟩ := List.mem_map.mp h
      rw [← Sum.inr.inj heq]
      exact (grid.mem_between ht').1
  | cons e es ih =>
      rcases List.mem_append.mp h with h | h
      · obtain ⟨t', ht', heq⟩ := List.mem_map.mp h
        rw [← Sum.inr.inj heq]
        exact (grid.mem_between ht').1
      · rcases List.mem_cons.mp h with h | h
        · cases h
        · have := ih h
          omega

/-- **Barrier.**  On a time-ordered list, a tick comes after exactly the items at or before its own
time. -/
theorem weave_split {start : Int} {es : List α} (hes : es.Pairwise (time · ≤ time ·)) {final : Int}
    {before after : List (α ⊕ τ)} {t : τ}
    (h : grid.weave time start es final = before ++ Sum.inr t :: after) :
    items before = es.filter (fun e => time e ≤ grid.time t) ∧
      items after = es.filter (fun e => grid.time t < time e) := by
  induction es generalizing start before with
  | nil =>
      have hitems := congrArg items h
      simp only [items_weave, items_append, items_cons_inr] at hitems
      obtain ⟨hbefore, hafter⟩ := List.append_eq_nil_iff.mp hitems.symm
      simp [hbefore, hafter]
  | cons e es ih =>
      rw [List.pairwise_cons] at hes
      simp only [weave] at h
      rcases List.append_eq_append_iff.mp h with ⟨mid, hbefore, htail⟩ | ⟨mid, hblock, htail⟩
      · -- the tick stands after the first item
        cases mid with
        | nil => simp at htail
        | cons m mid =>
            rw [List.cons_append, List.cons.injEq] at htail
            obtain ⟨rfl, htail⟩ := htail
            obtain ⟨hitems, hafter⟩ := ih hes.2 htail
            have hmem : Sum.inr t ∈ grid.weave time (max start (time e - 1)) es final := by
              rw [htail]
              simp
            have hlt := grid.lt_time_of_mem_weave hmem
            have he : time e ≤ grid.time t := by omega
            refine ⟨?_, ?_⟩
            · simp [hbefore, hitems, he]
            · simpa [List.filter_cons, he] using hafter
      · -- the tick is one of those before the first item
        have htick : Sum.inr t ∈ (grid.between start (time e - 1)).map (Sum.inr : τ → α ⊕ τ) := by
          rw [hblock]
          cases mid with
          | nil => simp at htail
          | cons m mid =>
              rw [List.cons_append, List.cons.injEq] at htail
              simp [htail.1]
        obtain ⟨t', ht', heq⟩ := List.mem_map.mp htick
        obtain rfl := Sum.inr.inj heq
        have hlt : ∀ e' ∈ e :: es, grid.time t' < time e' := by
          intro e' he'
          have hbound := (grid.mem_between ht').2
          rcases List.mem_cons.mp he' with rfl | he'
          · omega
          · have := hes.1 e' he'
            omega
        have hnone : items before = [] := by
          have hitems := congrArg (fun timeline => items timeline) hblock
          simp only [items_map_inr, items_append] at hitems
          exact (List.append_eq_nil_iff.mp hitems.symm).1
        have hall := congrArg items h
        simp only [items_append, items_map_inr, items_cons_inl, items_weave, items_cons_inr, hnone,
          List.nil_append] at hall
        refine ⟨?_, ?_⟩
        · rw [hnone, eq_comm, List.filter_eq_nil_iff]
          intro e' he'
          have := hlt e' he'
          simpa using this
        · rw [← hall, eq_comm, List.filter_eq_self]
          intro e' he'
          simpa using hlt e' he'

/-- The ticks of a timeline. -/
def ticks (timeline : List (α ⊕ τ)) : List τ := timeline.filterMap Sum.getRight?

@[simp] theorem ticks_append (l r : List (α ⊕ τ)) : ticks (l ++ r) = ticks l ++ ticks r := by
  simp [ticks]

@[simp] theorem ticks_map_inr (ts : List τ) : ticks (ts.map (Sum.inr : τ → α ⊕ τ)) = ts := by
  simp [ticks, List.filterMap_map, Function.comp_def]

@[simp] theorem ticks_cons_inl (e : α) (l : List (α ⊕ τ)) : ticks (Sum.inl e :: l) = ticks l := rfl

@[simp] theorem ticks_cons_inr (t : τ) (l : List (α ⊕ τ)) : ticks (Sum.inr t :: l) = t :: ticks l := by
  simp [ticks]

theorem mem_ticks {timeline : List (α ⊕ τ)} {t : τ} : t ∈ ticks timeline ↔ Sum.inr t ∈ timeline := by
  simp [ticks]

/-- The ticks of a timeline are in order when those of every interval are. -/
theorem pairwise_ticks_weave {R : τ → τ → Prop} (hbetween : ∀ a b, (grid.between a b).Pairwise R)
    (hlater : ∀ s t, grid.time s < grid.time t → R s t) (start : Int) (es : List α) (final : Int) :
    (ticks (grid.weave time start es final)).Pairwise R := by
  induction es generalizing start with
  | nil => simpa [weave] using hbetween start final
  | cons e es ih =>
      simp only [weave, ticks_append, ticks_map_inr, ticks_cons_inl]
      refine List.pairwise_append.mpr ⟨hbetween _ _, ih _, fun s hs t ht => hlater s t ?_⟩
      have hbefore := (grid.mem_between hs).2
      have hafter := grid.lt_time_of_mem_weave (mem_ticks.mp ht)
      omega

/-- A tick of a timeline is one of the grid. -/
theorem exists_between_of_mem_weave {start : Int} {es : List α} {final : Int} {t : τ}
    (h : Sum.inr t ∈ grid.weave time start es final) : ∃ a b, t ∈ grid.between a b := by
  induction es generalizing start with
  | nil =>
      obtain ⟨t', ht', heq⟩ := List.mem_map.mp h
      exact ⟨start, final, Sum.inr.inj heq ▸ ht'⟩
  | cons e es ih =>
      rcases List.mem_append.mp h with h | h
      · obtain ⟨t', ht', heq⟩ := List.mem_map.mp h
        exact ⟨start, time e - 1, Sum.inr.inj heq ▸ ht'⟩
      · rcases List.mem_cons.mp h with h | h
        · cases h
        · exact ih h

/-- Timelines of lists that agree in time, item by item, agree item by item and tick by tick. -/
theorem weave_forall₂ {rel : α → α → Prop} (hrel : ∀ e f, rel e f → time e = time f) {start : Int}
    {es fs : List α} (h : List.Forall₂ rel es fs) (final : Int) :
    List.Forall₂ (Sum.LiftRel rel Eq) (grid.weave time start es final)
      (grid.weave time start fs final) := by
  have hticks : ∀ ts : List τ, List.Forall₂ (Sum.LiftRel rel Eq)
      (ts.map Sum.inr) (ts.map Sum.inr) := fun ts =>
    List.forall₂_map_left_iff.mpr (List.forall₂_map_right_iff.mpr
      (List.forall₂_same.mpr fun t _ => Sum.LiftRel.inr rfl))
  induction h generalizing start with
  | nil => exact hticks _
  | cons hef _ ih =>
      simp only [weave, hrel _ _ hef]
      exact List.rel_append (hticks _) (List.Forall₂.cons (Sum.LiftRel.inl hef) ih)

end TickGrid

end Cvf.Library
