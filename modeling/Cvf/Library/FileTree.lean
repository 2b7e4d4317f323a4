/-
# Cvf.Library.FileTree — a directory tree, changed step by step.

Paths are lists of names below a root.  A step creates a directory or a file, writes a file, renames one
over another or removes one; a program that may stop anywhere leaves the tree after a prefix of its
steps.  What a step does not name it does not change (`lookup_apply_of_avoids`), and a file that is
written under a temporary name and renamed appears at once (`selected_replace`).
-/
import Mathlib

namespace Cvf.Library

/-- The files and directories below a root, which itself may not exist yet. -/
structure FileTree (κ : Type*) where
  root : String
  present : Bool := false
  directories : List (List String) := []
  files : List (List String × κ) := []

inductive FileStep (κ : Type*) where
  /-- `mkdir(parents=True, exist_ok=True)` -/
  | mkdir (path : List String)
  /-- An empty new file. -/
  | create (path : List String) (blank : κ)
  | write (path : List String) (content : κ)
  /-- `os.replace` -/
  | rename (source destination : List String)
  /-- `unlink(missing_ok=True)` -/
  | unlink (path : List String)

namespace FileTree

variable {κ : Type*}

def pathText (tree : FileTree κ) (path : List String) : String := "/".intercalate (tree.root :: path)

def lookup (tree : FileTree κ) (path : List String) : Option κ :=
  (tree.files.find? fun file => file.1 = path).map Prod.snd

/-- `exists` of a file or a directory. -/
def contains (tree : FileTree κ) (path : List String) : Bool :=
  (tree.lookup path).isSome || decide (path ∈ tree.directories)

def erase (tree : FileTree κ) (path : List String) : FileTree κ :=
  { tree with files := tree.files.filter fun file => file.1 ≠ path }

def put (tree : FileTree κ) (path : List String) (content : κ) : FileTree κ :=
  { tree with files := (tree.erase path).files ++ [(path, content)] }

/-- The tree after one step that succeeds. -/
def apply (tree : FileTree κ) : FileStep κ → FileTree κ
  | .mkdir path =>
    { tree with
      present := true
      directories := tree.directories ++ path.inits.tail.filter (· ∉ tree.directories) }
  | .create path blank => tree.put path blank
  | .write path content => tree.put path content
  | .rename source destination =>
    match tree.lookup source with
    | none => tree
    | some content => (tree.erase source).put destination content
  | .unlink path => tree.erase path

def run (tree : FileTree κ) (steps : List (FileStep κ)) : FileTree κ := steps.foldl apply tree

/-- The step names no file under the path. -/
def Avoids (path : List String) : FileStep κ → Prop
  | .mkdir _ => True
  | .create path' _ => path' ≠ path
  | .write path' _ => path' ≠ path
  | .rename source destination => source ≠ path ∧ destination ≠ path
  | .unlink path' => path' ≠ path

theorem lookup_erase_of_ne (tree : FileTree κ) {path path' : List String} (h : path' ≠ path) :
    (tree.erase path').lookup path = tree.lookup path := by
  unfold lookup erase
  rw [List.find?_filter]
  congr 2
  funext file
  by_cases hfile : file.1 = path
  · simp [hfile, h.symm]
  · simp [hfile]

theorem lookup_erase_self (tree : FileTree κ) (path : List String) :
    (tree.erase path).lookup path = none := by
  unfold lookup erase
  rw [Option.map_eq_none_iff, List.find?_eq_none]
  intro file hfile
  have hne := (List.mem_filter.mp hfile).2
  simpa using hne

theorem lookup_put_self (tree : FileTree κ) (path : List String) (content : κ) :
    (tree.put path content).lookup path = some content := by
  have herased := tree.lookup_erase_self path
  unfold lookup at herased ⊢
  rw [Option.map_eq_none_iff] at herased
  show Option.map _ (List.find? _ ((tree.erase path).files ++ [(path, content)])) = _
  rw [List.find?_append, herased]
  simp

theorem lookup_put_of_ne (tree : FileTree κ) {path path' : List String} (content : κ) (h : path' ≠ path) :
    (tree.put path' content).lookup path = tree.lookup path := by
  rw [← tree.lookup_erase_of_ne h]
  unfold lookup
  show Option.map _ (List.find? _ ((tree.erase path').files ++ [(path', content)])) = _
  rw [List.find?_append, List.find?_singleton, if_neg (by simpa using h), Option.or_none]

/-- What a step does not name it does not change. -/
theorem lookup_apply_of_avoids (tree : FileTree κ) {path : List String} {step : FileStep κ}
    (h : Avoids path step) : (tree.apply step).lookup path = tree.lookup path := by
  cases step with
  | mkdir path' => rfl
  | create path' blank => exact tree.lookup_put_of_ne blank h
  | write path' content => exact tree.lookup_put_of_ne content h
  | rename source destination =>
    unfold apply
    dsimp only
    cases hsource : tree.lookup source with
    | none => rfl
    | some content =>
      dsimp only
      rw [lookup_put_of_ne _ content h.2, tree.lookup_erase_of_ne h.1]
  | unlink path' => exact tree.lookup_erase_of_ne h

theorem lookup_run_of_avoids (tree : FileTree κ) {path : List String} {steps : List (FileStep κ)}
    (h : ∀ step ∈ steps, Avoids path step) : (tree.run steps).lookup path = tree.lookup path := by
  induction steps generalizing tree with
  | nil => rfl
  | cons step steps ih =>
    have hrest := ih (tree.apply step) fun step' hstep' => h step' (List.mem_cons_of_mem _ hstep')
    exact hrest.trans (tree.lookup_apply_of_avoids (h step List.mem_cons_self))

theorem run_append (tree : FileTree κ) (steps steps' : List (FileStep κ)) :
    tree.run (steps ++ steps') = (tree.run steps).run steps' := List.foldl_append

theorem root_run (tree : FileTree κ) (steps : List (FileStep κ)) : (tree.run steps).root = tree.root := by
  induction steps generalizing tree with
  | nil => rfl
  | cons step steps ih =>
    refine (ih (tree.apply step)).trans ?_
    cases step with
    | rename source destination =>
      unfold apply
      dsimp only
      split
      · rfl
      · rfl
    | _ => rfl

theorem present_apply {tree : FileTree κ} (h : tree.present = true) (step : FileStep κ) :
    (tree.apply step).present = true := by
  cases step with
  | mkdir path => rfl
  | create path blank => exact h
  | write path content => exact h
  | rename source destination =>
    unfold apply
    dsimp only
    split
    · exact h
    · exact h
  | unlink path => exact h

theorem present_run {tree : FileTree κ} (h : tree.present = true) (steps : List (FileStep κ)) :
    (tree.run steps).present = true := by
  induction steps generalizing tree with
  | nil => exact h
  | cons step steps ih => exact ih (present_apply h step)

/-- A directory was there before, or was made on the way to one that a step makes. -/
theorem mem_directories_run {tree : FileTree κ} {steps : List (FileStep κ)} {directory : List String}
    (h : directory ∈ (tree.run steps).directories) :
    directory ∈ tree.directories ∨
      ∃ path, FileStep.mkdir path ∈ steps ∧ directory <+: path ∧ directory ≠ [] := by
  induction steps generalizing tree with
  | nil => exact .inl h
  | cons step steps ih =>
    rcases @ih (tree.apply step) h with hbefore | ⟨path, hstep, hprefix⟩
    · cases step with
      | mkdir path =>
        rcases List.mem_append.mp hbefore with hbefore | hmade
        · exact .inl hbefore
        · refine .inr ⟨path, List.mem_cons_self, ?_⟩
          have htail := List.mem_of_mem_filter hmade
          refine ⟨(List.mem_inits _ _).mp (List.mem_of_mem_tail htail), ?_⟩
          cases path with
          | nil => cases htail
          | cons name names =>
            rw [List.inits_cons, List.tail_cons, List.mem_map] at htail
            obtain ⟨rest, -, rfl⟩ := htail
            exact List.cons_ne_nil _ _
      | rename source destination =>
        unfold apply at hbefore
        dsimp only at hbefore
        split at hbefore
        · exact .inl hbefore
        · exact .inl hbefore
      | create path blank => exact .inl hbefore
      | write path content => exact .inl hbefore
      | unlink path => exact .inl hbefore
    · exact .inr ⟨path, List.mem_cons_of_mem _ hstep, hprefix⟩

/-! ## The files of some names -/

/-- The files whose path meets a condition. -/
def selected (p : List String → Bool) (tree : FileTree κ) : List (List String × κ) :=
  tree.files.filter fun file => p file.1

section

variable {p : List String → Bool} {tree : FileTree κ} {path : List String}

theorem selected_erase_of_not (h : p path = false) : (tree.erase path).selected p = tree.selected p := by
  unfold selected erase
  rw [List.filter_filter]
  apply List.filter_congr
  intro file _
  by_cases hfile : file.1 = path
  · simp [hfile, h]
  · simp [hfile]

theorem selected_put_of_not (content : κ) (h : p path = false) :
    (tree.put path content).selected p = tree.selected p := by
  have herased : (tree.erase path).selected p = tree.selected p := selected_erase_of_not h
  rw [← herased]
  show List.filter _ ((tree.erase path).files ++ [(path, content)]) = _
  rw [List.filter_append, List.filter_cons_of_neg (by simp [h]), List.filter_nil, List.append_nil]
  rfl

theorem selected_erase_of_absent (h : ∀ file ∈ tree.selected p, file.1 ≠ path) :
    (tree.erase path).selected p = tree.selected p := by
  unfold selected erase
  rw [List.filter_filter]
  apply List.filter_congr
  intro file hfile
  cases hp : p file.1 with
  | false => rfl
  | true => simpa using h file (List.mem_filter.mpr ⟨hfile, hp⟩)

theorem selected_put_of_absent (content : κ) (hp : p path = true)
    (h : ∀ file ∈ tree.selected p, file.1 ≠ path) :
    (tree.put path content).selected p = tree.selected p ++ [(path, content)] := by
  show List.filter _ ((tree.erase path).files ++ [(path, content)]) = _
  rw [List.filter_append, List.filter_cons_of_pos (by simpa using hp), List.filter_nil]
  exact congrArg (· ++ _) (selected_erase_of_absent h)

end

/-- The step names no selected path. -/
def Spares (p : List String → Bool) : FileStep κ → Prop
  | .mkdir _ => True
  | .create path _ => p path = false
  | .write path _ => p path = false
  | .rename source destination => p source = false ∧ p destination = false
  | .unlink path => p path = false

theorem selected_apply_of_spares {p : List String → Bool} (tree : FileTree κ) {step : FileStep κ}
    (h : Spares p step) : (tree.apply step).selected p = tree.selected p := by
  cases step with
  | mkdir path => rfl
  | create path blank => exact selected_put_of_not blank h
  | write path content => exact selected_put_of_not content h
  | rename source destination =>
    unfold apply
    dsimp only
    cases tree.lookup source with
    | none => rfl
    | some content => exact (selected_put_of_not content h.2).trans (selected_erase_of_not h.1)
  | unlink path => exact selected_erase_of_not h

theorem selected_run_of_spares {p : List String → Bool} (tree : FileTree κ) {steps : List (FileStep κ)}
    (h : ∀ step ∈ steps, Spares p step) : (tree.run steps).selected p = tree.selected p := by
  induction steps generalizing tree with
  | nil => rfl
  | cons step steps ih =>
    have hrest := ih (tree.apply step) fun step' hstep' => h step' (List.mem_cons_of_mem _ hstep')
    exact hrest.trans (tree.selected_apply_of_spares (h step List.mem_cons_self))

/-! ## Replacing a file -/

/-- The steps that write a file under a temporary name and rename it. -/
def replaceSteps (temporary destination : List String) (blank content : κ) : List (FileStep κ) :=
  [.create temporary blank, .write temporary content, .rename temporary destination, .unlink temporary]

section

variable {p : List String → Bool} (tree : FileTree κ) {temporary destination : List String}
  (blank content : κ)

theorem run_replaceSteps : tree.run (replaceSteps temporary destination blank content) =
    ((((tree.put temporary blank).put temporary content).erase temporary).put destination
      content).erase temporary := by
  show (((tree.put temporary blank).put temporary content).apply
    (.rename temporary destination)).erase temporary = _
  unfold apply
  dsimp only
  rw [lookup_put_self]

/-- Replacing changes no directory. -/
theorem directories_replace :
    (tree.run (replaceSteps temporary destination blank content)).directories = tree.directories := by
  rw [run_replaceSteps]
  rfl

/-- The file that was replaced has the new content. -/
theorem lookup_replace (hne : temporary ≠ destination) :
    (tree.run (replaceSteps temporary destination blank content)).lookup destination =
      some content := by
  rw [run_replaceSteps, lookup_erase_of_ne _ hne, lookup_put_self]

/-- A new file under a selected name comes last. -/
theorem selected_replace (htemporary : p temporary = false) (hdestination : p destination = true)
    (hnew : ∀ file ∈ tree.selected p, file.1 ≠ destination) :
    (tree.run (replaceSteps temporary destination blank content)).selected p =
      tree.selected p ++ [(destination, content)] := by
  have hbefore : ((((tree.put temporary blank).put temporary content).erase temporary)).selected p =
      tree.selected p := by
    rw [selected_erase_of_not htemporary, selected_put_of_not content htemporary,
      selected_put_of_not blank htemporary]
  rw [run_replaceSteps, selected_erase_of_not htemporary, selected_put_of_absent content hdestination,
    hbefore]
  rw [hbefore]
  exact hnew

/-- No temporary file stays behind. -/
theorem selected_replace_temporary (hdestination : p destination = false) (hnone : tree.selected p = []) :
    (tree.run (replaceSteps temporary destination blank content)).selected p = [] := by
  cases htemporary : p temporary with
  | false =>
    rw [selected_run_of_spares, hnone]
    intro step hstep
    simp only [replaceSteps, List.mem_cons, List.not_mem_nil, or_false] at hstep
    rcases hstep with rfl | rfl | rfl | rfl
    · exact htemporary
    · exact htemporary
    · exact ⟨htemporary, hdestination⟩
    · exact htemporary
  | true =>
    rw [run_replaceSteps]
    apply List.eq_nil_iff_forall_not_mem.mpr
    intro file hfile
    obtain ⟨hin, hp⟩ := List.mem_filter.mp hfile
    obtain ⟨hin, hne⟩ := List.mem_filter.mp hin
    have hother : file.1 ≠ temporary := by simpa using hne
    -- every other file was there before, or is the destination
    have hsource : file ∈ tree.files ∨ file.1 = destination := by
      rcases List.mem_append.mp hin with hin | hin
      · have hin := List.mem_of_mem_filter (List.mem_of_mem_filter hin)
        rcases List.mem_append.mp hin with hin | hin
        · have hin := List.mem_of_mem_filter hin
          rcases List.mem_append.mp hin with hin | hin
          · exact .inl (List.mem_of_mem_filter hin)
          · rw [List.mem_singleton.mp hin] at hother
            exact absurd rfl hother
        · rw [List.mem_singleton.mp hin] at hother
          exact absurd rfl hother
      · rw [List.mem_singleton.mp hin]
        exact .inr rfl
    rcases hsource with hin | heq
    · have hselected : file ∈ tree.selected p := List.mem_filter.mpr ⟨hin, hp⟩
      rw [hnone] at hselected
      cases hselected
    · rw [heq, hdestination] at hp
      cases hp

end

end FileTree

/-- A prefix of a concatenation ends in its first part, or in its second. -/
theorem prefix_append_cases {α : Type*} {done first second : List α} (h : done <+: first ++ second) :
    done <+: first ∨ ∃ rest, rest <+: second ∧ done = first ++ rest := by
  rcases le_total done.length first.length with hle | hle
  · exact .inl (List.prefix_of_prefix_length_le h (List.prefix_append _ _) hle)
  · obtain ⟨rest, rfl⟩ := List.prefix_of_prefix_length_le (List.prefix_append first second) h hle
    exact .inr ⟨rest, (List.prefix_append_right_inj first).mp h, rfl⟩

end Cvf.Library
