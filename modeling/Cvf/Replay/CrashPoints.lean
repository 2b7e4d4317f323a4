/-
# Cvf.Replay.CrashPoints — where a collection or a compaction may stop.

Both work on an empty directory and leave a sign in it before their first Parquet file: a collection its
`IN_PROGRESS` manifest, a compaction its sentinel.  Parquet files appear under their name at once.  The
sign goes only when the files are complete, by a rename or by the removal of the sentinel, so that a
directory left behind anywhere on the way is refused, is empty or is complete
(`crash_leaves_no_partial_source`).
-/
import Cvf.Replay.Source

namespace Cvf

open Cvf.Library

/-! ## The steps -/

/-- `_write_partition_file` and `_write_rows`: a file of Parquet rows, renamed into place. -/
def writeFileSteps (file : RawFile) : List (FileStep FileContent) :=
  .mkdir file.directory ::
    FileTree.replaceSteps (file.directory ++ [s!".{file.name}.tmp"]) file.path (.text "")
      (.parquet true file.rows)

variable (codecs : CollectionCodecs)

/-- `begin_collection_manifest`: the constructor's checks come before the claim. -/
def beginCollectionManifest (tree : CollectionTree) (inProgress : CollectionManifest) :
    List (FileStep FileContent) × Except String Unit :=
  match inProgress.validate with
  | .error e => ([], .error e)
  | .ok () => claimCollectionManifest codecs.manifests tree inProgress

/-- The end of `MarketDataCollector.run`: both audits, and the manifest of the clean end. -/
def finishCollection (tree : CollectionTree) (runId : Uuid) (finishedAt featureTimelineEndAt : Int)
    (normalizedEventCount : Nat) : Except String CollectionManifest := do
  let rawAudit ← auditTree codecs tree
  let journalAudit ← auditNormalizedJournal codecs tree false
  if journalAudit.normalizedEventCount ≠ normalizedEventCount ∨
      journalAudit.terminalMarkerAt ≠ featureTimelineEndAt then
    .error "normalized journal did not reconcile collection completion"
  else
    completedManifest codecs.manifests tree runId finishedAt featureTimelineEndAt normalizedEventCount
      rawAudit

/-- What a collection is given: what identifies it, the files its writer flushes, what it counted, and
the name of its temporary manifest. -/
structure CollectionRun where
  runId : Uuid
  startedAt : Int
  codeVersion : String
  codeSha256 : String
  strategyVersion : String
  settingsSha256 : String
  files : List RawFile
  finishedAt : Int
  featureTimelineEndAt : Int
  normalizedEventCount : Nat
  manifestHex : String

/-- The manifest that `begin_collection_manifest` makes. -/
def CollectionRun.inProgress (run : CollectionRun) : CollectionManifest :=
  { runId := run.runId
    startedAt := run.startedAt
    terminal := .inProgress
    codeVersion := run.codeVersion
    codeSha256 := run.codeSha256
    strategyVersion := run.strategyVersion
    settingsSha256 := run.settingsSha256 }

/-- The steps before the last manifest. -/
def CollectionRun.written (run : CollectionRun) : List (FileStep FileContent) :=
  -- `AsyncPartitionedParquetWriter.start` creates the root again
  .mkdir [] :: run.files.flatMap writeFileSteps

/-- A collection into a directory: its steps, and how it ends. -/
def collect (tree : CollectionTree) (run : CollectionRun) :
    List (FileStep FileContent) × Except String CollectionManifest :=
  match beginCollectionManifest codecs tree run.inProgress with
  | (claimed, .error e) => (claimed, .error e)
  | (claimed, .ok ()) =>
    let steps := claimed ++ run.written
    match finishCollection codecs (tree.run steps) run.runId run.finishedAt run.featureTimelineEndAt
      run.normalizedEventCount with
    | .error e => (steps, .error e)
    | .ok clean => (steps ++ atomicWriteManifest codecs.manifests run.manifestHex clean, .ok clean)

/-- The audit of a source, validated where there is evidence of a collection. -/
def auditSource (source : CollectionTree) :
    Except String (Option CleanCollectionValidation × RawAudit) :=
  if (inspectCollectionEvidence source).any then do
    let clean ← validateCleanCollection codecs source none
    return (some clean, clean.rawAudit)
  else do
    let before ← auditTree codecs source
    return (none, before)

/-- The sentinel of a compaction. -/
def sentinelSteps (source : CollectionTree) : List (FileStep FileContent) :=
  newTextFile compactionInProgressFilename s!"source={source.root}\n"

/-- `compact_raw_tree` from one directory into another: its steps, and how it ends.  The trees are
disjoint. -/
def compactDirectory (uuidHex : Nat → String) (manifestHex : String) (source output : CollectionTree)
    (targetRows : Nat) : List (FileStep FileContent) × Except String CompactionReport :=
  if targetRows < 1 then ([], .error "target_rows must be positive")
  else if !source.present then ([], .error s!"raw input directory does not exist: {source.root}")
  else if output.directories ≠ [] ∨ output.files.map Prod.fst ≠ [] then
    ([], .error "compaction output directory must be empty")
  else
    match auditSource codecs source, source.rawTree with
    | .error e, _ => ([], .error e)
    | .ok _, .error e => (sentinelSteps source, .error e)
    | .ok (clean, before), .ok raw =>
      let tree := compactedTree codecs.batches uuidHex raw output.root targetRows
      let steps := sentinelSteps source ++ tree.files.flatMap writeFileSteps
      match auditTree codecs (output.run steps) with
      | .error e => (steps, .error e)
      | .ok after =>
        let report := { inputPath := source.root, outputPath := output.root, before, after }
        let unlink := [.unlink [compactionInProgressFilename]]
        if ¬ auditMatches before after then (steps, .error "raw compaction audit mismatch")
        else
          match clean with
          | none => (steps ++ unlink, .ok report)
          | some clean =>
            match preservedManifest clean.manifest after with
            | .error e => (steps, .error e)
            | .ok manifest =>
              let steps := steps ++ (atomicWriteManifest codecs.manifests manifestHex manifest ++ unlink)
              match validateCleanCollection codecs (output.run steps) (some after) with
              | .error e => (steps, .error e)
              | .ok _ => (steps, .ok report)

/-! ## Names -/

theorem nameEndsWith_append (suffix : String) (directory : List String) (name : String) :
    nameEndsWith suffix (directory ++ [name]) = suffix.toList.isSuffixOf name.toList := by
  unfold nameEndsWith
  rw [List.getLast?_concat]
  rfl

/-- No name ends in both. -/
theorem not_tmp_of_parquet {path : List String} (h : nameEndsWith ".parquet" path = true) :
    nameEndsWith ".tmp" path = false := by
  unfold nameEndsWith at h ⊢
  cases hlast : path.getLast? with
  | none => rfl
  | some name =>
    rw [hlast] at h
    have hparquet := List.isSuffixOf_iff_suffix.mp (show ".parquet".toList.isSuffixOf name.toList = true from h)
    cases htmp : ".tmp".toList.isSuffixOf name.toList with
    | false => exact htmp
    | true =>
      -- their last characters differ
      have hsuffix := List.isSuffixOf_iff_suffix.mp htmp
      have hshorter := List.suffix_of_suffix_length_le hsuffix hparquet (by decide)
      exact absurd hshorter (by decide)

theorem temporary_not_parquet (directory : List String) (name : String) :
    nameEndsWith ".parquet" (directory ++ [s!".{name}.tmp"]) = false := by
  have htmp : nameEndsWith ".tmp" (directory ++ [s!".{name}.tmp"]) = true := by
    rw [nameEndsWith_append]
    apply List.isSuffixOf_iff_suffix.mpr
    refine ⟨(s!".{name}").toList, ?_⟩
    rw [← String.toList_append]
    rfl
  cases hparquet : nameEndsWith ".parquet" (directory ++ [s!".{name}.tmp"]) with
  | false => rfl
  | true =>
    rw [not_tmp_of_parquet hparquet] at htmp
    cases htmp

/-! ## What the files add -/

/-- Files below a partition, under names of their own. -/
structure PartFiles (files : List RawFile) : Prop where
  nested : ∀ file ∈ files, file.directory ≠ []
  named : ∀ file ∈ files, nameEndsWith ".parquet" file.path = true
  distinct : (files.map RawFile.path).Nodup

/-- The file as it is written. -/
def writtenFile (file : RawFile) : List String × FileContent := (file.path, .parquet true file.rows)

section

variable {tree : CollectionTree}

theorem selected_writeFile {file : RawFile} (hnamed : nameEndsWith ".parquet" file.path = true)
    (hnew : ∀ other ∈ tree.selected (nameEndsWith ".parquet"), other.1 ≠ file.path) :
    (tree.run (writeFileSteps file)).selected (nameEndsWith ".parquet") =
      tree.selected (nameEndsWith ".parquet") ++ [writtenFile file] :=
  FileTree.selected_replace (tree.apply (.mkdir file.directory)) (.text "") (.parquet true file.rows)
    (temporary_not_parquet file.directory file.name) hnamed hnew

/-- The files written are new, and come behind those before. -/
theorem selected_writeFiles {files : List RawFile} (hfiles : PartFiles files)
    (hnew : ∀ file ∈ files, ∀ other ∈ tree.selected (nameEndsWith ".parquet"), other.1 ≠ file.path) :
    (tree.run (files.flatMap writeFileSteps)).selected (nameEndsWith ".parquet") =
      tree.selected (nameEndsWith ".parquet") ++ files.map writtenFile := by
  induction files generalizing tree with
  | nil => simp [FileTree.run]
  | cons file files ih =>
    obtain ⟨hnested, hnamed, hdistinct⟩ := hfiles
    rw [List.map_cons, List.nodup_cons] at hdistinct
    have hfirst := selected_writeFile (hnamed file List.mem_cons_self) (hnew file List.mem_cons_self)
    have hrest : PartFiles files :=
      { nested := fun f hf => hnested f (List.mem_cons_of_mem _ hf)
        named := fun f hf => hnamed f (List.mem_cons_of_mem _ hf)
        distinct := hdistinct.2 }
    rw [List.flatMap_cons, FileTree.run_append, ih hrest, hfirst, List.append_assoc]
    · rfl
    · intro f hf other hother
      rw [hfirst] at hother
      rcases List.mem_append.mp hother with hother | hother
      · exact hnew f (List.mem_cons_of_mem _ hf) other hother
      · rw [List.mem_singleton.mp hother]
        intro heq
        have hmem : f.path ∈ files.map RawFile.path := List.mem_map_of_mem hf
        rw [← heq] at hmem
        exact hdistinct.1 hmem

/-- A step that touches no name of a Parquet file changes no rows. -/
theorem rows_of_selected {after : CollectionTree}
    (h : after.selected (nameEndsWith ".parquet") = tree.selected (nameEndsWith ".parquet")) :
    after.rows = tree.rows := by
  unfold CollectionTree.rows
  rw [h]

theorem rows_writeFiles {files : List RawFile} (hfiles : PartFiles files)
    (hempty : tree.selected (nameEndsWith ".parquet") = []) :
    CollectionTree.rows (tree.run (files.flatMap writeFileSteps)) = files.flatMap RawFile.rows := by
  have hnew : ∀ file ∈ files, ∀ other ∈ tree.selected (nameEndsWith ".parquet"), other.1 ≠ file.path := by
    intro file _ other hother
    rw [hempty] at hother
    cases hother
  unfold CollectionTree.rows
  rw [selected_writeFiles hfiles hnew, hempty, List.nil_append, List.flatMap_map]
  rfl

/-- A name at the root is neither that of a part file nor that of its temporary. -/
theorem avoids_writeFile {file : RawFile} (hnested : file.directory ≠ []) (name : String) :
    ∀ step ∈ writeFileSteps file, FileTree.Avoids [name] step := by
  have hne : ∀ other : String, file.directory ++ [other] ≠ [name] := by
    intro other heq
    have hlength := congrArg List.length heq
    rw [List.length_append, List.length_singleton, List.length_singleton] at hlength
    exact hnested (List.length_eq_zero_iff.mp (by omega))
  intro step hstep
  rcases List.mem_cons.mp hstep with rfl | hstep
  · trivial
  · simp only [FileTree.replaceSteps, List.mem_cons, List.not_mem_nil, or_false] at hstep
    rcases hstep with rfl | rfl | rfl | rfl
    · exact hne _
    · exact hne _
    · exact ⟨hne _, hne _⟩
    · exact hne _

theorem avoids_writeFiles {files : List RawFile} (hfiles : PartFiles files) (name : String) :
    ∀ step ∈ files.flatMap writeFileSteps, FileTree.Avoids [name] step := by
  intro step hstep
  obtain ⟨file, hfile, hstep⟩ := List.mem_flatMap.mp hstep
  exact avoids_writeFile (hfiles.nested file hfile) name step hstep

end

/-! ## At every crash point -/

/-- Replay refuses the tree, or finds no rows in it, or finds all of them. -/
def ReadsAllOrNothing (tree : CollectionTree) (rows : List RawRow) : Prop :=
  ∀ resolution, resolveReplaySource codecs tree .auto = .ok resolution →
    tree.rows = [] ∨ tree.rows.Perm rows

/-- A directory without files. -/
def Blank (tree : CollectionTree) : Prop := tree.directories = [] ∧ tree.files = []

section

variable {codecs} {tree : CollectionTree}

theorem Blank.selected (h : Blank tree) : tree.selected (nameEndsWith ".parquet") = [] := by
  unfold FileTree.selected
  rw [h.2]
  rfl

theorem rows_of_none (h : tree.selected (nameEndsWith ".parquet") = []) : tree.rows = [] := by
  unfold CollectionTree.rows
  rw [h]
  rfl

theorem spares_newTextFile {p : List String → Bool} {name : String} (text : String)
    (hname : p [name] = false) : ∀ step ∈ newTextFile name text, FileTree.Spares p step := by
  intro step hstep
  simp only [newTextFile, List.mem_cons, List.not_mem_nil, or_false] at hstep
  rcases hstep with rfl | rfl | rfl
  · trivial
  · exact hname
  · exact hname

theorem lookup_newTextFile (tree : CollectionTree) (name text : String) :
    (tree.run (newTextFile name text)).lookup [name] = some (.text text) :=
  FileTree.lookup_put_self _ _ _

theorem present_newTextFile (tree : CollectionTree) (name text : String) :
    (tree.run (newTextFile name text)).present = true := by
  have hmade : (tree.apply (.mkdir [])).present = true := rfl
  exact FileTree.present_run hmade _

theorem manifest_not_parquet : nameEndsWith ".parquet" [collectionManifestFilename] = false := by
  decide +kernel

theorem sentinel_not_parquet : nameEndsWith ".parquet" [compactionInProgressFilename] = false := by
  decide +kernel

/-- A collection that has not replaced its first manifest is refused. -/
theorem refused_of_inProgress {run : CollectionRun}
    (hread : codecs.manifests.validateJson (codecs.manifests.payload run.inProgress) =
      .ok run.inProgress) {rest : List (FileStep FileContent)}
    (havoids : ∀ step ∈ rest, FileTree.Avoids [collectionManifestFilename] step) (rows : List RawRow) :
    ReadsAllOrNothing codecs
      (tree.run (newTextFile collectionManifestFilename (codecs.manifests.payload run.inProgress) ++ rest))
      rows := by
  intro resolution hresolve
  rw [FileTree.run_append] at hresolve
  refine absurd hresolve (resolve_error_of_manifest (FileTree.present_run (present_newTextFile ..) _)
    ((FileTree.lookup_run_of_avoids _ havoids).trans (lookup_newTextFile ..)) ?_ resolution)
  intro manifest hmanifest
  rw [hread] at hmanifest
  obtain rfl := Except.ok.inj hmanifest
  show CollectionTerminal.inProgress ≠ .cleanEnd
  decide

theorem avoids_written {run : CollectionRun} (hfiles : PartFiles run.files) (name : String) :
    ∀ step ∈ run.written, FileTree.Avoids [name] step := by
  intro step hstep
  rcases List.mem_cons.mp hstep with rfl | hstep
  · trivial
  · exact avoids_writeFiles hfiles name step hstep

/-- Before and behind the files only names at the root are touched. -/
theorem rows_of_written (hblank : Blank tree) {files : List RawFile} (hfiles : PartFiles files)
    {claimed rest : List (FileStep FileContent)}
    (hclaimed : ∀ step ∈ claimed, FileTree.Spares (nameEndsWith ".parquet") step)
    (hrest : ∀ step ∈ rest, FileTree.Spares (nameEndsWith ".parquet") step) :
    CollectionTree.rows (tree.run (claimed ++ files.flatMap writeFileSteps ++ rest)) =
      files.flatMap RawFile.rows := by
  have hempty : (tree.run claimed).selected (nameEndsWith ".parquet") = [] := by
    rw [FileTree.selected_run_of_spares tree hclaimed, hblank.selected]
  rw [FileTree.run_append, rows_of_selected (FileTree.selected_run_of_spares _ hrest),
    FileTree.run_append]
  exact rows_writeFiles hfiles hempty

theorem rows_of_spared (hblank : Blank tree) {steps : List (FileStep FileContent)}
    (hsteps : ∀ step ∈ steps, FileTree.Spares (nameEndsWith ".parquet") step) :
    CollectionTree.rows (tree.run steps) = [] := by
  apply rows_of_none
  rw [FileTree.selected_run_of_spares tree hsteps, hblank.selected]

theorem temporaryManifest_not_parquet (uuidHex : String) :
    nameEndsWith ".parquet" [s!".{collectionManifestFilename}.{uuidHex}.tmp"] = false := by
  have htemporary := temporary_not_parquet [] s!"{collectionManifestFilename}.{uuidHex}"
  rw [List.nil_append] at htemporary
  rw [← htemporary]
  congr 2

theorem spares_atomicWriteManifest (codec : ManifestCodec) (uuidHex : String)
    (manifest : CollectionManifest) :
    ∀ step ∈ atomicWriteManifest codec uuidHex manifest,
      FileTree.Spares (nameEndsWith ".parquet") step := by
  have htemporary := temporaryManifest_not_parquet uuidHex
  intro step hstep
  simp only [atomicWriteManifest, FileTree.replaceSteps, List.mem_cons, List.not_mem_nil,
    or_false] at hstep
  rcases hstep with rfl | rfl | rfl | rfl | rfl
  · trivial
  · exact htemporary
  · exact htemporary
  · exact ⟨htemporary, manifest_not_parquet⟩
  · exact htemporary

/-- A collection, stopped anywhere, leaves nothing, nothing to read, or everything. -/
theorem collect_safe (hblank : Blank tree) {run : CollectionRun} (hfiles : PartFiles run.files)
    (hread : codecs.manifests.validateJson (codecs.manifests.payload run.inProgress) =
      .ok run.inProgress) :
    ∀ done, done <+: (collect codecs tree run).1 →
      ReadsAllOrNothing codecs (tree.run done) (run.files.flatMap RawFile.rows) := by
  have hclaimed := spares_newTextFile (codecs.manifests.payload run.inProgress) manifest_not_parquet
  -- until the files are written the first manifest stands
  have hstarted : ∀ done, done <+: newTextFile collectionManifestFilename
      (codecs.manifests.payload run.inProgress) ++ run.written →
        ReadsAllOrNothing codecs (tree.run done) (run.files.flatMap RawFile.rows) := by
    intro done hdone
    rcases prefix_append_cases hdone with hdone | ⟨rest, hrest, rfl⟩
    · exact fun _ _ => .inl (rows_of_spared hblank fun step hstep => hclaimed step (hdone.subset hstep))
    · exact refused_of_inProgress hread
        (fun step hstep => avoids_written hfiles _ step (hrest.subset hstep)) _
  intro done hdone
  unfold collect beginCollectionManifest claimCollectionManifest at hdone
  cases hvalidate : run.inProgress.validate with
  | error e =>
    rw [hvalidate] at hdone
    obtain rfl := List.prefix_nil.mp hdone
    exact fun _ _ => .inl (rows_of_none hblank.selected)
  | ok _ =>
    rw [hvalidate] at hdone
    dsimp only at hdone
    rw [if_neg (by simp [hblank.1, hblank.2])] at hdone
    dsimp only at hdone
    split at hdone
    · exact hstarted done hdone
    · rename_i clean _
      rcases prefix_append_cases hdone with hdone | ⟨rest, hrest, rfl⟩
      · exact hstarted done hdone
      · -- the files are all there
        have hspares : ∀ step ∈ rest, FileTree.Spares (nameEndsWith ".parquet") step :=
          fun step hstep => spares_atomicWriteManifest _ _ _ step (hrest.subset hstep)
        have hbefore : ∀ step ∈ newTextFile collectionManifestFilename
            (codecs.manifests.payload run.inProgress) ++ [.mkdir []],
            FileTree.Spares (nameEndsWith ".parquet") step := by
          intro step hstep
          rcases List.mem_append.mp hstep with hstep | hstep
          · exact hclaimed step hstep
          · obtain rfl := List.mem_singleton.mp hstep
            trivial
        intro _ _
        unfold CollectionRun.written
        rw [List.append_cons, rows_of_written hblank hfiles hbefore hspares]
        exact .inr (List.Perm.refl _)

/-! ### Compaction -/

theorem partFiles_compactedTree {uuidHex : Nat → String} (hnames : Function.Injective uuidHex)
    (reader : BatchReader) (source : RawTree) (output : String) (targetRows : Nat) :
    PartFiles (compactedTree reader uuidHex source output targetRows).files := by
  refine ⟨?_, ?_, ?_⟩
  · intro file hfile
    obtain ⟨n, hn, rfl⟩ := List.mem_mapIdx.mp hfile
    exact List.cons_ne_nil _ _
  · intro file hfile
    obtain ⟨n, hn, rfl⟩ := List.mem_mapIdx.mp hfile
    unfold RawFile.path
    rw [nameEndsWith_append]
    apply List.isSuffixOf_iff_suffix.mpr
    refine ⟨(s!"part-compact-{uuidHex n}").toList, ?_⟩
    rw [← String.toList_append]
    rfl
  · unfold compactedTree
    dsimp only
    rw [List.nodup_iff_pairwise_ne, List.pairwise_map, List.pairwise_iff_getElem]
    intro i j hi hj hlt hpath
    rw [List.getElem_mapIdx, List.getElem_mapIdx] at hpath
    have hlast := congrArg List.getLast? hpath
    unfold RawFile.path at hlast
    rw [List.getLast?_concat, List.getLast?_concat] at hlast
    have hname := Option.some.inj hlast
    unfold writeRows at hname
    have huuid : uuidHex i = uuidHex j :=
      (String.append_right_inj _).mp ((String.append_left_inj _).mp hname)
    have hsame := hnames huuid
    omega

/-- What is read of a tree is its rows. -/
theorem rows_of_rawTree {raw : RawTree} (hraw : tree.rawTree = .ok raw) : raw.rows = tree.rows := by
  have hopen : ∀ (files : List (List String × FileContent)) (opened : List RawFile),
      files.mapM tree.openParquet = .ok opened →
        opened.flatMap RawFile.rows = files.flatMap fun file => file.2.rows := by
    intro files
    induction files with
    | nil =>
      intro opened hopened
      rw [mapM_nil_eq_ok.mp hopened]
      rfl
    | cons file files ih =>
      intro opened hopened
      obtain ⟨first, rest, hfirst, hrest, rfl⟩ := mapM_cons_eq_ok.mp hopened
      rw [List.flatMap_cons, List.flatMap_cons, ih rest hrest]
      unfold CollectionTree.openParquet at hfirst
      split at hfirst
      · cases hfirst
      · rename_i schemaMatches rows hcontent
        rw [← Except.ok.inj hfirst, hcontent]
        rfl
  unfold CollectionTree.rawTree at hraw
  split at hraw
  · cases hraw
  · obtain ⟨files, hfiles, hraw⟩ := bind_eq_ok_iff.mp hraw
    rw [← Except.ok.inj hraw]
    exact hopen _ files hfiles

/-- A compaction whose sentinel is there is refused. -/
theorem refused_of_sentinel {source : CollectionTree} {rest : List (FileStep FileContent)}
    (havoids : ∀ step ∈ rest, FileTree.Avoids [compactionInProgressFilename] step) (rows : List RawRow) :
    ReadsAllOrNothing codecs (tree.run (sentinelSteps source ++ rest)) rows := by
  have hpresent : (tree.run (sentinelSteps source)).present = true := present_newTextFile ..
  have hlookup : (tree.run (sentinelSteps source)).lookup [compactionInProgressFilename] =
      some (.text s!"source={source.root}\n") := lookup_newTextFile ..
  have hsentinel : FileTree.contains ((tree.run (sentinelSteps source)).run rest)
      [compactionInProgressFilename] = true := by
    unfold FileTree.contains
    rw [FileTree.lookup_run_of_avoids _ havoids, hlookup]
    rfl
  intro resolution hresolve
  rw [FileTree.run_append] at hresolve
  exact absurd hresolve
    (resolve_error_of_sentinel (FileTree.present_run hpresent rest) hsentinel resolution)

/-- A compaction, stopped anywhere, leaves nothing, nothing to read, or everything. -/
theorem compact_safe {output : CollectionTree} (hblank : Blank output) {uuidHex : Nat → String}
    (hnames : Function.Injective uuidHex) (manifestHex : String) (source : CollectionTree)
    (targetRows : Nat) :
    ∀ done, done <+: (compactDirectory codecs uuidHex manifestHex source output targetRows).1 →
      ReadsAllOrNothing codecs (output.run done) source.rows := by
  have hsentinel : ∀ step ∈ sentinelSteps source, FileTree.Spares (nameEndsWith ".parquet") step :=
    spares_newTextFile _ sentinel_not_parquet
  intro done hdone
  unfold compactDirectory at hdone
  split_ifs at hdone with htarget hpresent hempty
  · obtain rfl := List.prefix_nil.mp hdone
    exact fun _ _ => .inl (rows_of_none hblank.selected)
  · obtain rfl := List.prefix_nil.mp hdone
    exact fun _ _ => .inl (rows_of_none hblank.selected)
  · obtain rfl := List.prefix_nil.mp hdone
    exact fun _ _ => .inl (rows_of_none hblank.selected)
  split at hdone
  · obtain rfl := List.prefix_nil.mp hdone
    exact fun _ _ => .inl (rows_of_none hblank.selected)
  · exact fun _ _ => .inl (rows_of_spared hblank fun step hstep => hsentinel step (hdone.subset hstep))
  rename_i clean before raw _ hraw
  have hparts := partFiles_compactedTree hnames codecs.batches raw output.root targetRows
  have hrows : ((compactedTree codecs.batches uuidHex raw output.root targetRows).files.flatMap
      RawFile.rows).Perm source.rows := by
    rw [← rows_of_rawTree hraw]
    show (compactedTree codecs.batches uuidHex raw output.root targetRows).rows.Perm _
    rw [compactedTree_rows (Nat.one_le_iff_ne_zero.mpr (by omega))]
    exact raw.rows_sortedFiles
  dsimp only at hdone
  generalize (compactedTree codecs.batches uuidHex raw output.root targetRows).files = files at *
  -- while the sentinel is there the output is refused
  have hstarted : ∀ done, done <+: sentinelSteps source ++ files.flatMap writeFileSteps →
      ReadsAllOrNothing codecs (output.run done) source.rows := by
    intro done hdone
    rcases prefix_append_cases hdone with hdone | ⟨rest, hrest, rfl⟩
    · exact fun _ _ => .inl
        (rows_of_spared hblank fun step hstep => hsentinel step (hdone.subset hstep))
    · exact refused_of_sentinel (fun step hstep =>
        avoids_writeFiles hparts compactionInProgressFilename step (hrest.subset hstep)) _
  -- behind it all files are there
  have hfinished : ∀ rest : List (FileStep FileContent),
      (∀ step ∈ rest, FileTree.Spares (nameEndsWith ".parquet") step) → ∀ done,
        done <+: sentinelSteps source ++ files.flatMap writeFileSteps ++ rest →
          ReadsAllOrNothing codecs (output.run done) source.rows := by
    intro rest hspares done hdone
    rcases prefix_append_cases hdone with hdone | ⟨last, hlast, rfl⟩
    · exact hstarted done hdone
    · intro _ _
      rw [rows_of_written hblank hparts hsentinel fun step hstep => hspares step (hlast.subset hstep)]
      exact .inr hrows
  have hunlink : ∀ step ∈ [(.unlink [compactionInProgressFilename] : FileStep FileContent)],
      FileTree.Spares (nameEndsWith ".parquet") step := by
    intro step hstep
    obtain rfl := List.mem_singleton.mp hstep
    exact sentinel_not_parquet
  have hlast : ∀ manifest, ∀ step ∈ atomicWriteManifest codecs.manifests manifestHex manifest ++
      [.unlink [compactionInProgressFilename]], FileTree.Spares (nameEndsWith ".parquet") step := by
    intro manifest step hstep
    rcases List.mem_append.mp hstep with hstep | hstep
    · exact spares_atomicWriteManifest _ _ _ step hstep
    · exact hunlink step hstep
  split at hdone
  · exact hstarted done hdone
  split_ifs at hdone with hmatches
  · split at hdone
    · exact hfinished _ hunlink done hdone
    split at hdone
    · exact hstarted done hdone
    rename_i manifest _
    split at hdone
    · exact hfinished _ (hlast manifest) done hdone
    · exact hfinished _ (hlast manifest) done hdone
  · exact hstarted done hdone

end

/-- In an empty directory, whatever a collection or a compaction has done when it stops: replay refuses
the directory, or reads no rows, or reads all rows of the collection or of the compacted source. -/
theorem crash_leaves_no_partial_source {tree : CollectionTree} (hblank : Blank tree) :
    (∀ run : CollectionRun, PartFiles run.files →
      codecs.manifests.validateJson (codecs.manifests.payload run.inProgress) = .ok run.inProgress →
        ∀ done, done <+: (collect codecs tree run).1 →
          ReadsAllOrNothing codecs (tree.run done) (run.files.flatMap RawFile.rows)) ∧
    ∀ uuidHex : Nat → String, Function.Injective uuidHex → ∀ manifestHex source targetRows,
      ∀ done, done <+: (compactDirectory codecs uuidHex manifestHex source tree targetRows).1 →
        ReadsAllOrNothing codecs (tree.run done) source.rows := by
  constructor
  · intro run hfiles hread
    exact collect_safe hblank hfiles hread
  · intro uuidHex hnames manifestHex source targetRows
    exact compact_safe hblank hnames manifestHex source targetRows

/-! ### A collection of two files -/

/-- The hash of the empty text. -/
def exampleSha256 : String := "e3b0c44298fc1c149afbf4c8996fb92427ae41e4649b934ca495991b7852b855"

def exampleRun : CollectionRun :=
  { runId := firstRecordId
    startedAt := 0
    codeVersion := "0.1.0"
    codeSha256 := exampleSha256
    strategyVersion := "1"
    settingsSha256 := exampleSha256
    files := exampleTradesReader.tree.files
    finishedAt := 9
    featureTimelineEndAt := 5
    normalizedEventCount := 0
    manifestHex := "00" }

/-- The first microseconds of the epoch. -/
def exampleInstant (timestamp : Int) : String :=
  if timestamp = 0 then "\"1970-01-01T00:00:00Z\""
  else "\"1970-01-01T00:00:00.00000" ++ toString timestamp ++ "Z\""

def exampleAuditJson (audit : RawLogicalAudit) : String :=
  "\x7b\"content_digest\":\"" ++ audit.contentDigest ++
    "\",\"partitions\":" ++ toString audit.partitions ++
    ",\"payload_bytes\":" ++ toString audit.payloadBytes ++
    ",\"rows\":" ++ toString audit.rows ++
    ",\"unique_record_ids\":" ++ toString audit.uniqueRecordIds ++ "\x7d"

/-- The JSON of a manifest, as `canonical_json` writes it. -/
def exampleManifestJson (manifest : CollectionManifest) : String :=
  "\x7b\"claim_scope\":\"Audited clean-run completeness after producer join and writer closure; " ++
    "not a per-raw 0/1/N normalization outcome ledger or crash-safe WAL.\"" ++
    ",\"code_sha256\":\"" ++ manifest.codeSha256 ++
    "\",\"code_version\":\"" ++ manifest.codeVersion ++
    "\",\"feature_timeline_end_at\":" ++ manifest.featureTimelineEndAt.elim "null" exampleInstant ++
    ",\"normalized_event_count\":" ++ manifest.normalizedEventCount.elim "null" toString ++
    ",\"raw_audit\":" ++ manifest.rawAudit.elim "null" exampleAuditJson ++
    ",\"run_id\":\"" ++ manifest.runId.str ++
    "\",\"schema_version\":1,\"settings_sha256\":\"" ++ manifest.settingsSha256 ++
    "\",\"started_at\":" ++ exampleInstant manifest.startedAt ++
    ",\"strategy_version\":\"" ++ manifest.strategyVersion ++
    "\",\"terminal\":\"" ++ (if manifest.terminal = .inProgress then "IN_PROGRESS" else "CLEAN_END") ++
    "\",\"terminal_at\":" ++ manifest.terminalAt.elim "null" exampleInstant ++ "\x7d"

/-- Of the manifests, the first of a run is read back. -/
def exampleManifests (inProgress : CollectionManifest) : ManifestCodec :=
  { payloadJson := exampleManifestJson
    validateJson := fun text =>
      if text = exampleManifestJson inProgress ++ "\n" then .ok inProgress else .error "Invalid JSON" }

theorem exampleManifests_reads (inProgress : CollectionManifest) :
    (exampleManifests inProgress).validateJson ((exampleManifests inProgress).payload inProgress) =
      .ok inProgress := by
  unfold exampleManifests ManifestCodec.payload
  dsimp only
  rw [if_pos rfl]

def exampleCodecs : CollectionCodecs :=
  { events := indexPriceCodec
    manifests := exampleManifests exampleRun.inProgress
    venue := fun _ => .ok []
    rowHash := fun row => row.recordId.length
    batches := .oneGroup }

/-- The files of the run, in a directory of their own. -/
def exampleSource : CollectionTree :=
  FileTree.run { root := "raw" } (exampleRun.files.flatMap writeFileSteps)

theorem exampleRun_partFiles : PartFiles exampleRun.files := by
  refine ⟨?_, ?_, by decide +kernel⟩
  · intro file hfile
    rcases List.mem_pair.mp hfile with rfl | rfl <;> exact List.cons_ne_nil _ _
  · intro file hfile
    rcases List.mem_pair.mp hfile with rfl | rfl <;> rfl

/-- A collection of two files, and its compaction into two: a crash between the files leaves a partial
tree that no reader takes. -/
theorem crash_leaves_no_partial_source_two_files :
    (∀ done, done <+: (collect exampleCodecs { root := "raw" } exampleRun).1 →
      ReadsAllOrNothing exampleCodecs (FileTree.run { root := "raw" } done)
        [row laterTrade, row numberedTrade]) ∧
    ∀ done, done <+: (compactDirectory exampleCodecs exampleHex "00" exampleSource { root := "raw" } 1).1 →
      ReadsAllOrNothing exampleCodecs (FileTree.run { root := "raw" } done)
        [row laterTrade, row numberedTrade] := by
  have hblank : Blank { root := "raw" } := ⟨rfl, rfl⟩
  obtain ⟨hcollect, hcompact⟩ := crash_leaves_no_partial_source exampleCodecs hblank
  refine ⟨hcollect exampleRun exampleRun_partFiles (exampleManifests_reads _), ?_⟩
  have hrows : exampleSource.rows = [row laterTrade, row numberedTrade] := by decide +kernel
  rw [← hrows]
  exact hcompact exampleHex exampleHex_injective "00" exampleSource 1

end Cvf
