import LintGate.Text.Ansi
import LintGate.Text.Lines
import LintGate.Text.Upper

/-!
# Workflow commands

A program that runs as a step of a workflow talks to it in two ways. It is given its inputs in
environment variables, whose names are made from the names of the inputs. And it writes *commands*:
lines that begin with `::`, a word and `::` again, and go on with data. Line ends must not stand in
the data, so they are written as percent escapes, and the percent sign with them.

Whatever is written is no terminal's, so control sequences are taken out of every line.
-/

namespace LintGate.Workflow

/-- The environment variable that holds the path of the event. -/
def eventVariable : String := "GITHUB_EVENT_PATH"

/-- **The environment variable of an input.** -/
def inputVariable (name : String) : String :=
  "INPUT_" ++ Text.upper (String.ofList (name.toList.map fun c => if c = ' ' then '_' else c))

/-- One character of a command's data. -/
def escapeChar (c : Char) : List Char :=
  if c = '%' then ['%', '2', '5']
  else if c = '\r' then ['%', '0', 'D']
  else if c = '\n' then ['%', '0', 'A']
  else [c]

/-- **A text as the data of a command.** -/
def escapeData (s : String) : String := String.ofList (s.toList.flatMap escapeChar)

/-- **A line as it is written**: without control sequences, and ended by a line feed. -/
def written (line : String) : String :=
  String.ofList (Text.withoutSequences line.toList) ++ "\n"

/-- **The command that logs one line.** -/
def debugCommand (line : String) : String := "::debug::" ++ escapeData line

/-- **A message logged**: a command for each of its lines, one at least. -/
def debugText (message : String) : String :=
  let lines := match Text.lines message with
    | [] => [""]
    | ls => ls
  String.join (lines.map fun line => written (debugCommand line))

/-- **A message announced as an error**, in one command. -/
def errorText (message : String) : String := written ("::error::" ++ escapeData message)

/-- No line end is left in the data of a command. -/
theorem not_mem_escapeData (s : String) :
    '\n' ∉ (escapeData s).toList ∧ '\r' ∉ (escapeData s).toList := by
  have key : ∀ c, '\n' ∉ escapeChar c ∧ '\r' ∉ escapeChar c := by
    intro c
    unfold escapeChar
    split
    · decide
    · split
      · decide
      · split
        · decide
        · rename_i h₁ h₂ h₃
          simp [Ne.symm h₂, Ne.symm h₃]
  simp only [escapeData, String.toList_ofList, List.mem_flatMap, not_exists, not_and]
  exact ⟨fun c _ => (key c).1, fun c _ => (key c).2⟩

end LintGate.Workflow
