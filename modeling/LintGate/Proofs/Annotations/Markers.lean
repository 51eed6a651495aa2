import LintGate.Proofs.Annotations.Format
import LintGate.Proofs.Path

/-!
# Markers name their files

A marker shows the way from the root directory to its file. The root directory and the file are
given as texts, in any spelling, and what they mean lexically is the normal form of the text
(`Path.normalText`). So there are two things to be seen. Whoever follows the name in a marker from
the root directory gets to the file; and two files have the same marker exactly when they are the
same file. Both come from the steps of a path: the way from a directory to a path leads along them
and depends on nothing else.
-/

namespace LintGate

open LintGate.Path (normalText placed)

/-- The marker and the name in it determine each other. -/
theorem fileMarker_eq_iff {root : Path} {file other : String} :
    fileMarker root other = fileMarker root file ↔ shownName root other = shownName root file := by
  rw [fileMarker_eq_joined, fileMarker_eq_joined, Text.joined_right_inj, Text.joined_left_inj]

/-- The name is read as the way from the root directory. -/
theorem ofString_shownName (root : Path) (file : String) :
    Path.ofString (shownName root file) = (root.join (.ofString file)).relativeTo root :=
  Path.ofString_toString _

section Rooted

variable {root : Path} {file : String}

/-- What does not begin with two slashes stands at the root directory. -/
theorem anchor_join_of_root (hroot : root.anchor = .root)
    (hfile : (Path.ofString file).anchor ≠ .doubleRoot) :
    (root.join (.ofString file)).anchor = .root := by
  cases habs : (Path.ofString file).isAbsolute with
  | false => rw [Path.anchor_join_of_relative habs, hroot]
  | true =>
    rw [Path.join_of_isAbsolute habs]
    cases hanchor : (Path.ofString file).anchor with
    | here => simp [Path.isAbsolute, hanchor] at habs
    | root => rfl
    | doubleRoot => exact absurd hanchor hfile

/-- The normal form of a file's text, placed in the root directory, is that of its path. -/
theorem normalText_placed (hroot : root.anchor = .root)
    (hfile : (Path.ofString file).anchor ≠ .doubleRoot) :
    normalText (placed root.toString file) = (root.join (.ofString file)).resolved.toString := by
  have hread : (Path.ofString root.toString).anchor = .root := by
    rw [Path.ofString_toString, hroot]
  have hplaced : Path.ofString (placed root.toString file) = root.join (.ofString file) := by
    rw [Path.ofString_placed hread, Path.ofString_toString]
  rw [Path.normalText_eq (by rw [hplaced, anchor_join_of_root hroot hfile]), hplaced]

/-- **Whoever follows the name in a marker gets to the file.** -/
theorem normalText_shownName (hroot : root.anchor = .root)
    (hfile : (Path.ofString file).anchor ≠ .doubleRoot) :
    normalText (placed root.toString (shownName root file))
      = normalText (placed root.toString file) := by
  have hname := ofString_shownName root file
  have hrelative : (Path.ofString (shownName root file)).anchor ≠ .doubleRoot := by
    rw [hname]
    exact Anchor.noConfusion
  rw [normalText_placed hroot hrelative, normalText_placed hroot hfile, hname,
    Path.toString_eq_iff, Path.resolved_eq_iff, Path.steps_join_relativeTo]

/-- **Markers name the right files.** The name in the marker of a file, placed in the root directory,
has the normal form of the file; and files with the same marker are those with the same normal
form. -/
theorem fileMarker_names_file (hroot : root.anchor = .root)
    (hfile : (Path.ofString file).anchor ≠ .doubleRoot) :
    (∃ name, fileMarker root file = "<file name=\"" ++ name ++ "\">" ∧
      normalText (placed root.toString name) = normalText (placed root.toString file)) ∧
    ∀ other, (Path.ofString other).anchor ≠ .doubleRoot →
      (fileMarker root other = fileMarker root file ↔
        normalText (placed root.toString other) = normalText (placed root.toString file)) := by
  refine ⟨⟨shownName root file, rfl, normalText_shownName hroot hfile⟩, ?_⟩
  intro other hother
  rw [fileMarker_eq_iff, normalText_placed hroot hother, normalText_placed hroot hfile]
  calc shownName root other = shownName root file
      ↔ (root.join (.ofString other)).relativeTo root
          = (root.join (.ofString file)).relativeTo root := Path.toString_eq_iff
    _ ↔ (root.join (.ofString other)).steps = (root.join (.ofString file)).steps :=
        Path.relativeTo_eq_iff
    _ ↔ (root.join (.ofString other)).resolved.toString
          = (root.join (.ofString file)).resolved.toString := by
        rw [Path.toString_eq_iff, Path.resolved_eq_iff]

end Rooted

/-- A file that is reached by going up further than to the root directory of the host, and another
spelling of it. -/
theorem fileMarker_names_file_above :
    (Path.ofString "/srv//repo/.").anchor = .root ∧
    (Path.ofString "../../../lib/./a.php").anchor ≠ .doubleRoot ∧
    (Path.ofString "/lib/x/..//a.php/").anchor ≠ .doubleRoot ∧
    fileMarker (.ofString "/srv//repo/.") "../../../lib/./a.php"
      = "<file name=\"../../lib/a.php\">" ∧
    fileMarker (.ofString "/srv//repo/.") "/lib/x/..//a.php/"
      = fileMarker (.ofString "/srv//repo/.") "../../../lib/./a.php" := by
  have hroot : (Path.ofString "/srv//repo/.").anchor = .root := by decide +kernel
  have hfile : (Path.ofString "../../../lib/./a.php").anchor ≠ .doubleRoot := by decide +kernel
  have hother : (Path.ofString "/lib/x/..//a.php/").anchor ≠ .doubleRoot := by decide +kernel
  exact ⟨hroot, hfile, hother, by decide +kernel,
    ((fileMarker_names_file hroot hfile).2 _ hother).2 (by decide +kernel)⟩

end LintGate
