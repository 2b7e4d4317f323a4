/-
# Cvf.Okx.FeatureBook — the feature book fed with normalized OKX entries.

The feature book keeps base quantities where the local book keeps raw contract levels; `Copies` says
that the one is the other converted.  What one event of a higher sequence id does to the feature book
is stated here without reference to the local book's state machine.
-/
import Cvf.Library.Parsed
import Cvf.Okx.Connector
import Cvf.Features.Book

namespace Cvf

open Cvf.Library

/-! ## Levels -/

/-- The base quantities of a raw side. -/
def Copies (specification : ContractSpecification) (raw : RawSide) (side : BookSide) : Prop :=
  ∀ p, side.lookup p = (raw.lookup p).map fun l => specification.contractsToBase l.quantityContracts

/-- The normalized level of a raw level. -/
def RawLevel.normalized (specification : ContractSpecification) (l : RawLevel) : OrderBookLevel :=
  ⟨l.price, specification.contractsToBase l.quantityContracts⟩

theorem copies_empty (specification : ContractSpecification) : Copies specification ∅ ∅ := by
  intro p
  simp

theorem Copies.put {specification : ContractSpecification} {raw : RawSide} {side : BookSide}
    (h : Copies specification raw side) (l : RawLevel) :
    Copies specification (raw.put l)
      (side.put l.price (specification.contractsToBase l.quantityContracts)) := by
  intro p
  rw [RawSide.lookup_put, BookSide.lookup_put, h p]
  by_cases hp : p = l.price
  · by_cases hq : l.quantityContracts = 0
    · simp [hp, hq, specification.contractsToBase_eq_zero]
    · simp [hp, hq, specification.contractsToBase_eq_zero]
  · simp [hp]

theorem Copies.insert {specification : ContractSpecification} {raw : RawSide} {side : BookSide}
    (h : Copies specification raw side) (l : RawLevel) :
    Copies specification (raw.insert l.price l)
      (side.insert l.price (specification.contractsToBase l.quantityContracts)) := by
  intro p
  by_cases hp : p = l.price
  · subst hp
    simp
  · rw [Finmap.lookup_insert_of_ne _ hp, Finmap.lookup_insert_of_ne _ hp, h p]

theorem levels_of_parsed {specification : ContractSpecification} {texts : List OkxBookLevelText}
    {parsed : List RawLevel} (h : texts.mapM OkxBookLevelText.parse = .ok parsed) :
    OkxNormalizer.levels specification texts =
      .ok (parsed.map (RawLevel.normalized specification)) := by
  simp only [OkxNormalizer.levels, h]
  rfl

theorem applyRawSide_of_parsed {texts : List OkxBookLevelText} {parsed : List RawLevel}
    (h : texts.mapM OkxBookLevelText.parse = .ok parsed) (raw : RawSide) :
    (applyRawSide raw texts).1 = parsed.foldl RawSide.put raw := by
  induction texts generalizing parsed raw with
  | nil =>
      rw [mapM_nil_eq_ok.mp h]
      rfl
  | cons text rest ih =>
      obtain ⟨l, ls, hl, hls, rfl⟩ := mapM_cons_eq_ok.mp h
      simp only [applyRawSide, hl]
      exact ih hls _

/-- An update's levels keep the feature side a copy of the local side. -/
theorem copies_applySide {specification : ContractSpecification} {texts : List OkxBookLevelText}
    {parsed : List RawLevel} (hparsed : texts.mapM OkxBookLevelText.parse = .ok parsed)
    {raw : RawSide} {side : BookSide} (h : Copies specification raw side) :
    Copies specification (applyRawSide raw texts).1
      (FeatureOrderBookState.applySide side (parsed.map (RawLevel.normalized specification))) := by
  rw [applyRawSide_of_parsed hparsed, FeatureOrderBookState.applySide, List.foldl_map]
  clear hparsed
  induction parsed generalizing raw side with
  | nil => exact h
  | cons l parsed ih => exact ih (h.put l)

theorem rawSide_of_parsed {texts : List OkxBookLevelText} {parsed : List RawLevel}
    (h : texts.mapM OkxBookLevelText.parse = .ok parsed) :
    rawSide texts = .ok (parsed.foldl
      (fun side l => if 0 < l.quantityContracts then side.insert l.price l else side) ∅) :=
  foldlM_of_mapM_eq_ok (fun s x l hl => by simp only [hl]; rfl) h ∅

/-- A snapshot's levels, all of them positive, build a copy of the local side. -/
theorem copies_snapshotSide {specification : ContractSpecification}
    {texts : List OkxBookLevelText} {parsed : List RawLevel}
    (hparsed : texts.mapM OkxBookLevelText.parse = .ok parsed)
    (hpositive : ∀ l ∈ parsed, 0 < l.quantityContracts) {raw : RawSide}
    (hraw : rawSide texts = .ok raw) :
    Copies specification raw
      (FeatureOrderBookState.snapshotSide (parsed.map (RawLevel.normalized specification))) := by
  obtain rfl := Except.ok.inj ((rawSide_of_parsed hparsed).symm.trans hraw)
  rw [FeatureOrderBookState.snapshotSide, List.foldl_map]
  have hempty := copies_empty specification
  revert hempty
  generalize (∅ : RawSide) = start
  generalize (∅ : BookSide) = side
  intro hstart
  clear hraw hparsed
  induction parsed generalizing start side with
  | nil => exact hstart
  | cons l parsed ih =>
      rw [List.foldl_cons, List.foldl_cons, if_pos (hpositive l (by simp))]
      exact ih (fun l' hl' => hpositive l' (by simp [hl'])) _ _ (hstart.insert l)

/-! ## The feature book on events that move forward -/

namespace FeatureOrderBookState

variable (digest : SourceDigest)

/-- Updates at or behind the book's sequence id do not change it. -/
theorem replayPending_behind {book : FeatureOrderBookState} {n : Int}
    (hbook : book.sequenceId = some n) {us : List OrderBookUpdate}
    (hus : ∀ u ∈ us, ∃ s, u.sequenceId = some (.int s) ∧ s ≤ n) :
    (book.replayPending us).1 = book := by
  induction us with
  | nil => rfl
  | cons u us ih =>
      obtain ⟨s, hs, hle⟩ := hus u (by simp)
      have hone : book.replayOne u = (book, true) := by
        simp [replayOne, hs, hbook, sequenceNumber, hle]
      simp only [replayPending, hone]
      exact ih fun v hv => hus v (by simp [hv])

/-- A snapshot ahead of the book, and of all that waits for it, replaces the book. -/
theorem applySnapshot_forward {book : FeatureOrderBookState} {e : OrderBookSnapshot} {s : Int}
    (hseq : e.sequenceId = some (.int s)) (hgen : book.generation ≤ e.generation)
    (hfresh : e.generation = book.generation → book.synchronized = true →
      ∃ n, book.sequenceId = some n ∧ n < s)
    (hpending : e.generation = book.generation →
      ∀ u ∈ book.pending, ∃ n, u.sequenceId = some (.int n) ∧ n ≤ s) :
    (book.applySnapshot digest e).1.generation = e.generation ∧
      (book.applySnapshot digest e).1.pending = [] ∧
      ((book.applySnapshot digest e).1.synchronized = true →
        (book.applySnapshot digest e).1.sequenceId = some s ∧
          (book.applySnapshot digest e).1.bids = snapshotSide e.bids ∧
          (book.applySnapshot digest e).1.asks = snapshotSide e.asks) := by
  have hstale : book.isStale e = false := by
    by_cases hsame : e.generation = book.generation
    · by_cases hsync : book.synchronized = true
      · obtain ⟨n, hn, hlt⟩ := hfresh hsame hsync
        have : ¬ s ≤ n := by omega
        simp [isStale, hseq, hn, sequenceNumber, this]
      · simp [isStale, hsync]
    · simp [isStale, hsame]
  have hinstalledGeneration : (book.installed digest e).generation = e.generation := by
    simp only [installed]
    split <;> rfl
  have hinstalledPending : (book.installed digest e).pending = [] := by
    simp only [installed]
    split <;> rfl
  have hinstalledSequence : (book.installed digest e).sequenceId = some s := by
    simp [installed, hseq, sequenceNumber]
  simp only [applySnapshot, if_neg (not_lt.mpr hgen), hstale, Bool.false_eq_true, if_false]
  split
  · exact ⟨hinstalledGeneration, hinstalledPending, fun h => by simp [desynchronize] at h⟩
  · rw [replayPending_behind hinstalledSequence]
    · exact ⟨hinstalledGeneration, hinstalledPending, fun _ => ⟨hinstalledSequence, rfl, rfl⟩⟩
    · intro u hu
      rw [List.mem_insertionSort] at hu
      split at hu
      · rename_i hsame
        exact hpending hsame u hu
      · simp at hu

/-- An update of the book's generation that continues it, if it is synchronized: it is applied,
kept for a snapshot, or ends the synchronization. -/
theorem applyUpdate_forward {book : FeatureOrderBookState} {u : OrderBookUpdate} {s n : Int}
    (hseq : u.sequenceId = some (.int s)) (hprevious : u.previousSequenceId = some (.int n))
    (hgen : u.generation = book.generation) (hpos : 0 < s) (hlt : n < s)
    (hbook : book.synchronized = true → book.sequenceId = some n) :
    (book.applyUpdate digest u).1.generation = book.generation ∧
      (∀ v ∈ (book.applyUpdate digest u).1.pending, v = u ∨ v ∈ book.pending) ∧
      ((book.applyUpdate digest u).1.synchronized = true →
        book.synchronized = true ∧ (book.applyUpdate digest u).1.sequenceId = some s ∧
          (book.applyUpdate digest u).1.bids = applySide book.bids u.bids ∧
          (book.applyUpdate digest u).1.asks = applySide book.asks u.asks) := by
  by_cases hsync : book.synchronized = true
  · have hnew : ¬ s ≤ n := by omega
    simp only [applyUpdate, hgen, lt_irrefl, if_false, hsync, Bool.not_true, Bool.false_eq_true,
      hseq, hprevious, hbook hsync, sequenceNumber, if_neg hnew, Option.any_some, ne_eq,
      not_true_eq_false, decide_false, applyNext, applyLevels]
    split
    · rename_i h
      split at h
      · cases h
        exact ⟨rfl, fun v hv => Or.inr hv, fun h => by simp [desynchronize] at h⟩
      · split at h
        · cases h
          exact ⟨rfl, fun v hv => Or.inr hv, fun h => by simp [desynchronize] at h⟩
        · cases h
    · rename_i h
      split at h
      · cases h
      · split at h
        · cases h
        · cases h
          refine ⟨rfl, fun v hv => Or.inr hv, fun _ => ⟨trivial, ?_, rfl, rfl⟩⟩
          simp [orDefault, hpos.ne']
  · have hwaiting : book.synchronized = false := by simpa using hsync
    simp only [applyUpdate, hgen, lt_irrefl, if_false, hwaiting, Bool.not_false, if_true, buffer]
    split
    · exact ⟨rfl, fun v hv => by simp [recordLineage, reset] at hv,
        fun h => by simp [recordLineage, reset] at h⟩
    · refine ⟨rfl, fun v hv => ?_, fun h => by simp [recordLineage] at h⟩
      simpa [recordLineage, or_comm] using hv

end FeatureOrderBookState

end Cvf
