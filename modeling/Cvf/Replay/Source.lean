/-
# Cvf.Replay.Source — which tree a replay reads, and how.

Any sign of a journal, of a manifest or of a compaction under way asks for a clean collection; without
one the tree is read as raw rows.
-/
import Cvf.Storage.CollectionManifest

namespace Cvf

open Cvf.Library

inductive ReplaySourceMode where
  | auto
  | raw
  | journal
  deriving DecidableEq, Repr

structure ReplaySourceResolution where
  mode : ReplaySourceMode
  cleanCollection : Option CleanCollectionValidation

variable (codecs : CollectionCodecs)

def resolveReplaySource (tree : CollectionTree) (requestedMode : ReplaySourceMode) :
    Except String ReplaySourceResolution :=
  let evidence := inspectCollectionEvidence tree
  if requestedMode = .raw then .ok { mode := .raw, cleanCollection := none }
  else if requestedMode = .auto ∧ evidence.any = false then .ok { mode := .raw, cleanCollection := none }
  else
    match validateCleanCollection codecs tree none with
    | .error e => .error e
    | .ok cleanCollection => .ok { mode := .journal, cleanCollection := some cleanCollection }

variable {codecs}

/-- What a validated tree has passed. -/
structure Validated (codecs : CollectionCodecs) (tree : CollectionTree) (audit : Option RawAudit)
    (clean : CleanCollectionValidation) : Prop where
  finished : tree.rglob ".tmp" = []
  manifest : readCollectionManifest codecs.manifests tree = .ok clean.manifest
  terminal : clean.manifest.terminal = .cleanEnd
  audited : audit.elim (auditTree codecs tree) .ok = .ok clean.rawAudit
  logical : clean.manifest.rawAudit = some (.fromRawAudit clean.rawAudit)
  journal : ∃ marker, auditNormalizedJournal codecs tree true =
      .ok { normalizedEventCount := clean.normalizedEventCount
            terminalMarkerCount := clean.terminalMarkerCount
            terminalMarkerAt := marker } ∧
    clean.manifest.normalizedEventCount = some clean.normalizedEventCount ∧
    clean.manifest.featureTimelineEndAt = some marker

theorem validateCleanCollection_eq_ok_iff {tree : CollectionTree} {audit : Option RawAudit}
    {clean : CleanCollectionValidation} :
    validateCleanCollection codecs tree audit = .ok clean ↔ Validated codecs tree audit clean := by
  have hsorted : sortByKey id (tree.rglob ".tmp") = [] ↔ tree.rglob ".tmp" = [] := by
    rw [← List.length_eq_zero_iff, (sortByKey_perm ..).length_eq, List.length_eq_zero_iff]
  unfold validateCleanCollection
  constructor
  · intro h
    split at h
    · cases h
    rename_i hfinished
    obtain ⟨manifest, hmanifest, h⟩ := bind_eq_ok_iff.mp h
    split_ifs at h with hterminal
    obtain ⟨audited, haudited, h⟩ := bind_eq_ok_iff.mp h
    split_ifs at h with hlogical
    obtain ⟨journal, hjournal, h⟩ := bind_eq_ok_iff.mp h
    split_ifs at h with hcount hmarker
    obtain rfl := Except.ok.inj h
    exact
      { finished := hsorted.mp hfinished
        manifest := hmanifest
        terminal := not_not.mp hterminal
        audited := haudited
        logical := not_not.mp hlogical
        journal := ⟨journal.terminalMarkerAt, hjournal, not_not.mp hcount, not_not.mp hmarker⟩ }
  · rintro ⟨hfinished, hmanifest, hterminal, haudited, hlogical, marker, hjournal, hcount, hmarker⟩
    rw [hsorted.mpr hfinished]
    simp only [hmanifest, haudited, hjournal, bind, Except.bind, pure, Except.pure]
    rw [if_neg (not_not.mpr hterminal), if_neg (not_not.mpr hlogical), if_neg (not_not.mpr hcount),
      if_neg (not_not.mpr hmarker)]

/-- While a compaction is under way, its output is no source. -/
theorem resolve_error_of_sentinel {tree : CollectionTree} (hpresent : tree.present = true)
    (hsentinel : tree.contains [compactionInProgressFilename] = true) :
    ∀ resolution, resolveReplaySource codecs tree .auto ≠ .ok resolution := by
  have hevidence : (inspectCollectionEvidence tree).any = true := by
    unfold inspectCollectionEvidence CollectionEvidence.any
    rw [hpresent, hsentinel]
    simp
  intro resolution hresolve
  unfold resolveReplaySource at hresolve
  dsimp only at hresolve
  rw [if_neg (by decide), if_neg (by simp [hevidence])] at hresolve
  cases hvalidate : validateCleanCollection codecs tree none with
  | error e =>
    rw [hvalidate] at hresolve
    cases hresolve
  | ok clean =>
    have hmanifest := (validateCleanCollection_eq_ok_iff.mp hvalidate).manifest
    unfold readCollectionManifest at hmanifest
    dsimp only at hmanifest
    rw [if_pos hsentinel] at hmanifest
    cases hmanifest

/-- Nor is a tree whose manifest is not the one of a clean end. -/
theorem resolve_error_of_manifest {tree : CollectionTree} {text : String} (hpresent : tree.present = true)
    (hlookup : tree.lookup [collectionManifestFilename] = some (.text text))
    (hunclean : ∀ manifest, codecs.manifests.validateJson text = .ok manifest →
      manifest.terminal ≠ .cleanEnd) :
    ∀ resolution, resolveReplaySource codecs tree .auto ≠ .ok resolution := by
  have hevidence : (inspectCollectionEvidence tree).any = true := by
    unfold inspectCollectionEvidence CollectionEvidence.any FileTree.contains
    rw [hpresent, hlookup]
    simp
  intro resolution hresolve
  unfold resolveReplaySource at hresolve
  dsimp only at hresolve
  rw [if_neg (by decide), if_neg (by simp [hevidence])] at hresolve
  cases hvalidate : validateCleanCollection codecs tree none with
  | error e =>
    rw [hvalidate] at hresolve
    cases hresolve
  | ok clean =>
    have hvalid := validateCleanCollection_eq_ok_iff.mp hvalidate
    have hmanifest := hvalid.manifest
    unfold readCollectionManifest at hmanifest
    dsimp only at hmanifest
    split at hmanifest
    · cases hmanifest
    · rw [hlookup] at hmanifest
      dsimp only at hmanifest
      cases hread : codecs.manifests.validateJson text with
      | error e =>
        rw [hread] at hmanifest
        cases hmanifest
      | ok manifest =>
        rw [hread] at hmanifest
        obtain rfl := Except.ok.inj hmanifest
        exact hunclean _ hread hvalid.terminal

end Cvf
