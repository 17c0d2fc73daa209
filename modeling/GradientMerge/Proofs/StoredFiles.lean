import GradientMerge.Store.Files
import Mathlib.Data.List.Basic

/-!
Contract: a file that was stored is read as it was stored.

A path leads to the same place after a file was put there, because nothing on the way to that place
was a file before.

Owns: the reading of a file behind its writing.

Does not own: what is in a file.
-/

namespace GradientMerge

namespace Files

variable {files : Files}

theorem node?_put_of_ne
    {place other : List String}
    (different : other ≠ place)
    (node : FileNode) :
    (files.put place node).node? other = files.node? other := by
  have kept (entries : List (List String × FileNode)) :
      (entries.filter fun entry => entry.1 != place).lookup other = entries.lookup other := by
    induction entries with
    | nil => rfl
    | cons entry entries inductionHypothesis =>
      obtain ⟨key, value⟩ := entry
      by_cases isPlace : key = place
      · subst isPlace
        have notKey : (other == key) = false := by simpa using different
        simp [List.lookup_cons, notKey, inductionHypothesis]
      · simp [isPlace, List.lookup_cons, inductionHypothesis]
  have notPlace : (other == place) = false := by simpa using different
  simp only [node?, put, List.lookup_cons, notPlace, kept]

/-- Directories that stay lead on as before. -/
theorem foldlM_enter?_of_directories
    {later : Files}
    (stay : ∀ place, files.node? place = some .directory → later.node? place = some .directory)
    {parts : List String}
    {start place : List String}
    (located : parts.foldlM files.enter? start = some place) :
    parts.foldlM later.enter? start = some place := by
  induction parts generalizing start with
  | nil => exact located
  | cons part parts inductionHypothesis =>
    rw [List.foldlM_cons] at located ⊢
    obtain ⟨next, entered, behind⟩ := Option.bind_eq_some_iff.1 located
    have isDirectory : files.node? start = some .directory := by
      by_contra notDirectory
      rw [enter?, if_pos notDirectory] at entered
      cases entered
    have same : later.enter? start part = files.enter? start part := by
      simp only [enter?, isDirectory, stay start isDirectory]
    rw [same, entered]
    exact inductionHypothesis behind

theorem locate?_put
    {path : String}
    {place : List String}
    {content : List UInt8}
    (located : files.locate? path = some place)
    (notDirectory : files.node? place ≠ some .directory) :
    (files.put place (.file content)).locate? path = some place := by
  have stay (other : List String) (isDirectory : files.node? other = some .directory) :
      (files.put place (.file content)).node? other = some .directory := by
    rw [node?_put_of_ne, isDirectory]
    rintro rfl
    exact notDirectory isDirectory
  unfold locate? at located ⊢
  split at located
  · cases located
  · rename_i usable
    rw [if_neg usable]
    exact foldlM_enter?_of_directories stay located

/-- What is written at a path is read at it. -/
theorem read_of_write
    {later : Files}
    {path : String}
    {content : List UInt8}
    (written : files.write path content = .ok later) :
    later.read path = .ok content := by
  unfold write at written
  cases located : files.locate? path with
  | none =>
    rw [located] at written
    cases written
  | some place =>
    simp only [located] at written
    split at written
    · cases written
    · rename_i notDirectory
      cases written
      have known : (isAround place || place == root) = false := by
        by_contra isKnown
        rw [Bool.not_eq_false] at isKnown
        exact notDirectory (if_pos isKnown)
      unfold read
      rw [locate?_put located notDirectory, Option.bind_some, node?_put_self files known]

/-- What is stored at a path is read at it. -/
theorem read_of_store
    {later : Files}
    {path : String}
    {content : List UInt8}
    (stored : files.store path content = (.ok (), later)) :
    later.read path = .ok content := by
  unfold store at stored
  cases made : files.makeParents path with
  | mk result between =>
    rw [made] at stored
    cases result with
    | error cause => cases stored
    | ok done =>
      cases written : between.write path content with
      | error cause =>
        simp only [written] at stored
        cases stored
      | ok last =>
        simp only [written] at stored
        cases stored
        exact read_of_write written

end Files

end GradientMerge
