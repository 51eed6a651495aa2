/-!
# Paths

A path is an anchor and the names that lead from there to a file. Reading a path from text
collapses repeated slashes, drops `.` and a slash at the end, and keeps `..`, since what it means
depends on where one stands. Exactly two slashes in front are an anchor of their own.

Two paths are compared *lexically*: `steps` follows the names from the root directory, which is
also the directory in which relative paths are read, and lets every `..` take back the step before
it; at the root there is none to take back. `relativeTo` is the way from one directory to a path in
terms of steps: up to what both share, then down.
-/

namespace LintGate

/-- Where a path starts. -/
inductive Anchor
  /-- In the current directory. -/
  | here
  /-- At the root directory. -/
  | root
  /-- At the root directory, written with two slashes. -/
  | doubleRoot
  deriving DecidableEq, Repr

/-- An anchor as it is written. -/
def Anchor.text : Anchor → String
  | here => ""
  | root => "/"
  | doubleRoot => "//"

/-- The name of the directory above. -/
def up : String := ".."

/-- **A name on a path**: neither empty nor a lone dot, and without a slash. -/
def IsName (s : String) : Prop := s ≠ "" ∧ s ≠ "." ∧ '/' ∉ s.toList

instance (s : String) : Decidable (IsName s) := inferInstanceAs (Decidable (_ ∧ _ ∧ _))

/-- **A path.** -/
structure Path where
  /-- Where it starts. -/
  anchor : Anchor
  /-- The names on it. -/
  parts : List String
  /-- They are names. -/
  isName_of_mem : ∀ p ∈ parts, IsName p := by simp
  deriving DecidableEq, Repr

namespace Path

/-! ## Text -/

/-- The pieces of a text between its slashes. -/
def splitSlashes : List Char → List (List Char)
  | [] => [[]]
  | c :: r =>
    if c = '/' then [] :: splitSlashes r
    else match splitSlashes r with
      | [] => [[c]]
      | p :: ps => (c :: p) :: ps

/-- No slash is left in the pieces. -/
theorem slash_not_mem_of_mem_splitSlashes {s p : List Char} (h : p ∈ splitSlashes s) :
    '/' ∉ p := by
  induction s generalizing p with
  | nil => simp_all [splitSlashes]
  | cons c r ih =>
    by_cases hc : c = '/'
    · simp only [splitSlashes, hc, if_true, List.mem_cons] at h
      rcases h with rfl | h
      · simp
      · exact ih h
    · simp only [splitSlashes, hc, if_false] at h
      cases hs : splitSlashes r with
      | nil => simp_all [Ne.symm]
      | cons q qs =>
        rw [hs] at h
        rcases List.mem_cons.1 h with rfl | h
        · simp [Ne.symm hc, ih (hs ▸ List.mem_cons_self)]
        · exact ih (hs ▸ List.mem_cons_of_mem q h)

/-- The anchor that a text begins with. -/
def anchorOf : List Char → Anchor
  | '/' :: '/' :: '/' :: _ => .root
  | '/' :: '/' :: _ => .doubleRoot
  | '/' :: _ => .root
  | _ => .here

/-- The names in a text. -/
def namesOf (s : List Char) : List String :=
  ((splitSlashes s).filter fun p => p ≠ [] ∧ p ≠ ['.']).map String.ofList

/-- What is read from a text are names. -/
theorem isName_of_mem_namesOf {s : List Char} {n : String} (h : n ∈ namesOf s) : IsName n := by
  simp only [namesOf, List.mem_map, List.mem_filter, decide_eq_true_eq] at h
  obtain ⟨p, ⟨hp, hne, hdot⟩, rfl⟩ := h
  refine ⟨?_, ?_, ?_⟩
  · intro e
    exact hne (by simpa using congrArg String.toList e)
  · intro e
    exact hdot (by simpa using congrArg String.toList e)
  · simpa using slash_not_mem_of_mem_splitSlashes hp

/-- **The path a text names.** -/
def ofString (s : String) : Path where
  anchor := anchorOf s.toList
  parts := namesOf s.toList
  isName_of_mem _ := isName_of_mem_namesOf

/-- **A path as it is written**; a path without anchor and names is a dot. -/
def toString (p : Path) : String :=
  match p.anchor, p.parts with
  | .here, [] => "."
  | a, ps => a.text ++ "/".intercalate ps

instance : ToString Path := ⟨toString⟩

/-! ## Parts of paths -/

/-- The current directory. -/
def current : Path where
  anchor := .here
  parts := []

/-- The root directory. -/
def root : Path where
  anchor := .root
  parts := []

/-- The path does not depend on the current directory. -/
def isAbsolute (p : Path) : Bool := p.anchor != .here

/-- **A bare name** says where nothing lies: it is at most one name, without an anchor. -/
def isBare (p : Path) : Bool := !p.isAbsolute && p.parts.length ≤ 1

/-- The last name; empty if there is none. -/
def name (p : Path) : String := p.parts.getLastD ""

/-- **A path read in a directory**; an absolute path stays as it is. -/
def join (folder p : Path) : Path :=
  if p.isAbsolute then p
  else
    { anchor := folder.anchor
      parts := folder.parts ++ p.parts
      isName_of_mem := fun n h => by
        rcases List.mem_append.1 h with h | h
        · exact folder.isName_of_mem n h
        · exact p.isName_of_mem n h }

theorem join_of_isAbsolute {folder p : Path} (h : p.isAbsolute = true) : folder.join p = p := by
  simp [join, h]

theorem parts_join_of_relative {folder p : Path} (h : p.isAbsolute = false) :
    (folder.join p).parts = folder.parts ++ p.parts := by
  simp [join, h]

/-! ## Lexical comparison -/

/-- The steps after one more name: `..` takes the last step back. -/
def step (done : List String) (name : String) : List String :=
  if name = up then done.dropLast else done ++ [name]

/-- **The steps from the root directory to a path.** -/
def steps (p : Path) : List String := p.parts.foldl step []

/-- Steps are names. -/
theorem isName_of_mem_foldl_step {ns done : List String} (hn : ∀ n ∈ ns, IsName n)
    (hd : ∀ n ∈ done, IsName n) : ∀ n ∈ ns.foldl step done, IsName n := by
  induction ns generalizing done with
  | nil => simpa using hd
  | cons m ns ih =>
    refine ih (fun n h => hn n (List.mem_cons_of_mem m h)) fun n h => ?_
    by_cases hm : m = up
    · rw [step, if_pos hm] at h
      exact hd n (List.dropLast_subset done h)
    · rw [step, if_neg hm] at h
      rcases List.mem_append.1 h with h | h
      · exact hd n h
      · exact hn n (by simp_all)

theorem isName_of_mem_steps {p : Path} : ∀ n ∈ p.steps, IsName n :=
  isName_of_mem_foldl_step p.isName_of_mem (by simp)

/-- The steps of a joined path go on from those of the directory. -/
theorem steps_join_of_relative {folder p : Path} (h : p.isAbsolute = false) :
    (folder.join p).steps = p.parts.foldl step folder.steps := by
  simp [steps, parts_join_of_relative h]

/-- How many steps two ways share at their beginning. -/
def shared : List String → List String → Nat
  | a :: as, b :: bs => if a = b then shared as bs + 1 else 0
  | _, _ => 0

/-- **The path from a directory**: up to what both share, then down. -/
def relativeTo (p folder : Path) : Path :=
  let n := shared folder.steps p.steps
  { anchor := .here
    parts := List.replicate (folder.steps.length - n) up ++ p.steps.drop n
    isName_of_mem := fun m h => by
      rcases List.mem_append.1 h with h | h
      · rw [(List.mem_replicate.1 h).2]
        exact ⟨by decide, by decide, by decide⟩
      · exact isName_of_mem_steps m (List.mem_of_mem_drop h) }

/-- **The absolute path without `..`** that a path denotes. -/
def resolved (p : Path) : Path where
  anchor := .root
  parts := p.steps
  isName_of_mem := isName_of_mem_steps

end Path

end LintGate
