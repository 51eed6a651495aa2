import LintGate.Annotations

/-!
# The format of annotation lines

Whatever a marker or the line of a finding tells stands between quotation marks. `joined` puts two
texts together with one between them, and in terms of it either format is told once
(`fileMarker_eq_joined`, `errorLine_eq_joined`). What a line forges, how many physical lines it takes
and what can be read off it then depends on its parts alone.
-/

namespace LintGate

namespace Text

/-- **Two texts with a quotation mark between them.** -/
def joined (a b : String) : String := a ++ "\"" ++ b

section Joined

variable {a b r s : String}

theorem toList_joined (a b : String) : (joined a b).toList = a.toList ++ '"' :: b.toList := by
  simp [joined]

theorem joined_assoc (a b r : String) : joined (joined a b) r = joined a (joined b r) := by
  simp only [joined, String.append_assoc]

theorem joined_left_inj : joined a r = joined b r ↔ a = b := by
  rw [joined, joined, String.append_left_inj, String.append_left_inj]

theorem joined_right_inj : joined a r = joined a s ↔ r = s := String.append_right_inj _

end Joined

end Text

open Text (joined)

/-- The name that the marker of a file shows. -/
def shownName (root : Path) (file : String) : String :=
  ((root.join (.ofString file)).relativeTo root).toString

/-- The name stands between quotation marks. -/
theorem fileMarker_eq_joined (root : Path) (file : String) :
    fileMarker root file = joined "<file name=" (joined (shownName root file) ">") := by
  have hopen : "<file name=\"" = "<file name=" ++ "\"" := by decide
  have hclose : "\">" = "\"" ++ ">" := by decide
  unfold fileMarker shownName joined
  rw [hopen, hclose]
  simp only [String.append_assoc, -String.reduceAppend]

/-- The line of a finding up to its message. -/
def errorLineHead (f : Finding) : String :=
  "<error line=\"" ++ toString f.line ++ "\" column=\"" ++ toString f.column ++
    "\" severity=\"" ++ f.severity.name ++ "\" message="

/-- The two numbers and the severity stand between quotation marks. -/
theorem errorLineHead_eq_joined (f : Finding) :
    errorLineHead f
      = joined "<error line=" (joined (toString f.line)
          (joined " column=" (joined (toString f.column)
            (joined " severity=" (joined f.severity.name " message="))))) := by
  have hline : "<error line=\"" = "<error line=" ++ "\"" := by decide
  have hcolumn : "\" column=\"" = "\"" ++ " column=" ++ "\"" := by decide
  have hseverity : "\" severity=\"" = "\"" ++ " severity=" ++ "\"" := by decide
  have hmessage : "\" message=" = "\"" ++ " message=" := by decide
  unfold errorLineHead joined
  rw [hline, hcolumn, hseverity, hmessage]
  simp only [String.append_assoc, -String.reduceAppend]

/-- **The texts of a finding stand between quotation marks**, behind the head of its line. -/
theorem errorLine_eq_joined (f : Finding) :
    errorLine f
      = joined (errorLineHead f) (joined f.message (joined " source=" (joined f.source "/>"))) := by
  have hmessage : "\" message=\"" = "\" message=" ++ "\"" := by decide
  have hsource : "\" source=\"" = "\"" ++ " source=" ++ "\"" := by decide
  have hclose : "\"/>" = "\"" ++ "/>" := by decide
  unfold errorLine errorLineHead joined
  rw [hmessage, hsource, hclose]
  simp only [String.append_assoc, -String.reduceAppend]

end LintGate
