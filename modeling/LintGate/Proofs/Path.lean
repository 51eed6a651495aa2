import LintGate.Path

/-!
# Paths and their texts

Reading and writing paths are inverse in one direction: a path is read back from its text
(`ofString_toString`), while a text loses the spellings that mean nothing. So what is known of a
path that was written and read again is what was known before.

What a path means lexically can be told from its text alone. `normalText` follows the pieces of an
absolute text one after the other; that is a second way to the steps of a path, in which nothing
has been read as a path (`normalText_eq`). The way from a directory to a path leads there: followed
from the directory, it has the steps of the path (`steps_join_relativeTo`), and so two paths have
the same way exactly when they have the same steps (`relativeTo_eq_iff`).
-/

namespace LintGate.Path

/-! ## Pieces and names -/

theorem splitSlashes_ne_nil (s : List Char) : splitSlashes s ≠ [] := by
  cases s with
  | nil => simp [splitSlashes]
  | cons c r =>
    simp only [splitSlashes]
    split
    · exact List.cons_ne_nil _ _
    · split <;> exact List.cons_ne_nil _ _

/-- A slash ends a piece and begins another. -/
theorem splitSlashes_append_slash (s t : List Char) :
    splitSlashes (s ++ '/' :: t) = splitSlashes s ++ splitSlashes t := by
  induction s with
  | nil => simp [splitSlashes]
  | cons c r ih =>
    by_cases hc : c = '/'
    · simp [splitSlashes, hc, ih]
    · obtain ⟨p, ps, hr⟩ := List.exists_cons_of_ne_nil (splitSlashes_ne_nil r)
      simp [splitSlashes, hc, ih, hr]

/-- A text without a slash is one piece. -/
theorem splitSlashes_of_slash_not_mem {s : List Char} (h : '/' ∉ s) : splitSlashes s = [s] := by
  induction s with
  | nil => rfl
  | cons c r ih =>
    rw [List.mem_cons, not_or] at h
    simp [splitSlashes, Ne.symm h.1, ih h.2]

/-- The names behind a slash follow those in front of it. -/
theorem namesOf_append_slash (s t : List Char) :
    namesOf (s ++ '/' :: t) = namesOf s ++ namesOf t := by
  simp [namesOf, splitSlashes_append_slash]

@[simp] theorem namesOf_nil : namesOf [] = [] := rfl

/-- A name is the one name in its text. -/
theorem namesOf_toList {n : String} (h : IsName n) : namesOf n.toList = [n] := by
  obtain ⟨hne, hdot, hslash⟩ := h
  have hnil : n.toList ≠ [] := fun e => hne (String.toList_inj.1 (e.trans rfl))
  have hlone : n.toList ≠ ['.'] := fun e => hdot (String.toList_inj.1 (e.trans rfl))
  simp [namesOf, splitSlashes_of_slash_not_mem hslash, hnil, hlone]

/-- Of several names the first is set apart by a slash. -/
theorem toList_intercalate_cons (n m : String) (ns : List String) :
    ("/".intercalate (n :: m :: ns)).toList
      = n.toList ++ '/' :: ("/".intercalate (m :: ns)).toList := by
  simp [String.toList_intercalate]

/-- **Names set apart by slashes are read back.** -/
theorem namesOf_intercalate {ns : List String} (h : ∀ n ∈ ns, IsName n) :
    namesOf ("/".intercalate ns).toList = ns := by
  induction ns with
  | nil => rfl
  | cons n ns ih =>
    have hn : IsName n := h n List.mem_cons_self
    cases ns with
    | nil => simpa [String.toList_intercalate] using namesOf_toList hn
    | cons m ns =>
      rw [toList_intercalate_cons, namesOf_append_slash, namesOf_toList hn,
        ih fun m hm => h m (List.mem_cons_of_mem n hm), List.singleton_append]

/-- Names set apart by slashes do not begin with one. -/
theorem head?_intercalate_ne {ns : List String} (h : ∀ n ∈ ns, IsName n) :
    ("/".intercalate ns).toList.head? ≠ some '/' := by
  cases ns with
  | nil => simp
  | cons n ns =>
    obtain ⟨hne, -, hslash⟩ := h n List.mem_cons_self
    have hnil : n.toList ≠ [] := fun e => hne (String.toList_inj.1 (e.trans rfl))
    obtain ⟨c, r, hc⟩ := List.exists_cons_of_ne_nil hnil
    have hfirst : c ≠ '/' := by
      rintro rfl
      exact hslash (hc ▸ List.mem_cons_self)
    rw [String.toList_intercalate]
    cases ns <;> simp [hc, hfirst]

/-! ## Reading back -/

/-- An anchor is read back in front of what does not begin with a slash. -/
theorem anchorOf_append {a : Anchor} {s : List Char} (h : s.head? ≠ some '/') :
    anchorOf (a.text.toList ++ s) = a := by
  cases s with
  | nil => cases a <;> rfl
  | cons c r =>
    have hc : c ≠ '/' := by simpa using h
    cases a <;> simp [Anchor.text, anchorOf, hc]

/-- The names in a text behind an anchor. -/
theorem namesOf_anchor (a : Anchor) (s : List Char) : namesOf (a.text.toList ++ s) = namesOf s := by
  have hslash : ∀ t, namesOf ('/' :: t) = namesOf t := namesOf_append_slash []
  cases a with
  | here => rfl
  | root => exact hslash s
  | doubleRoot => exact (hslash _).trans (hslash s)

/-- The text of a path is that of its anchor and its names, unless it has neither. -/
theorem toString_eq {p : Path} (h : p.anchor ≠ .here ∨ p.parts ≠ []) :
    p.toString = p.anchor.text ++ "/".intercalate p.parts := by
  unfold toString
  split
  · next hanchor hparts => simp [hanchor, hparts] at h
  · rfl

/-- A path is its anchor and its names. -/
@[ext]
theorem ext {p q : Path} (anchor : p.anchor = q.anchor) (parts : p.parts = q.parts) : p = q := by
  cases p
  cases q
  congr

/-- **A path is read back from its text.** -/
theorem ofString_toString (p : Path) : ofString p.toString = p := by
  by_cases h : p.anchor = .here ∧ p.parts = []
  · have hcurrent : p = current := Path.ext h.1 h.2
    rw [hcurrent]
    rfl
  · have htext : p.toString.toList = p.anchor.text.toList ++ ("/".intercalate p.parts).toList := by
      rw [toString_eq (by grind), String.toList_append]
    ext1
    · show anchorOf p.toString.toList = p.anchor
      rw [htext, anchorOf_append (head?_intercalate_ne p.isName_of_mem)]
    · show namesOf p.toString.toList = p.parts
      rw [htext, namesOf_anchor, namesOf_intercalate p.isName_of_mem]

/-- Paths are compared by their texts. -/
theorem toString_eq_iff {p q : Path} : p.toString = q.toString ↔ p = q := by
  refine ⟨fun h => ?_, congrArg toString⟩
  rw [← ofString_toString p, h, ofString_toString]

theorem anchor_join_of_relative {folder p : Path} (h : p.isAbsolute = false) :
    (folder.join p).anchor = folder.anchor := by
  simp [join, h]

/-- A text is that of an absolute path when it begins with a slash. -/
theorem isAbsolute_ofString_iff {s : String} :
    (ofString s).isAbsolute = true ↔ s.toList.head? = some '/' := by
  show (anchorOf s.toList != .here) = true ↔ _
  cases s.toList with
  | nil => decide
  | cons c r =>
    by_cases hc : c = '/'
    · subst hc
      unfold anchorOf
      split <;> simp_all
    · simp [anchorOf, hc]

/-! ## Bare names -/

theorem isAbsolute_eq_false_iff {p : Path} : p.isAbsolute = false ↔ p.anchor = .here := by
  simp [isAbsolute]

/-- A text without a slash is relative. -/
theorem isAbsolute_of_slash_not_mem {s : String} (h : '/' ∉ s.toList) :
    (ofString s).isAbsolute = false := by
  rw [← Bool.not_eq_true, isAbsolute_ofString_iff]
  exact fun hhead => h (List.mem_of_head? hhead)

/-- A text without a slash is a bare name. -/
theorem isBare_of_slash_not_mem {s : String} (h : '/' ∉ s.toList) : (ofString s).isBare = true := by
  have hlength : (ofString s).parts.length ≤ 1 := by
    show (namesOf s.toList).length ≤ 1
    rw [namesOf, splitSlashes_of_slash_not_mem h, List.length_map]
    exact List.length_filter_le _ [s.toList]
  simp [isBare, isAbsolute_of_slash_not_mem h, hlength]

/-- A text without a slash is read and written as it is, unless it is empty. -/
theorem toString_ofString_of_slash_not_mem {s : String} (h : '/' ∉ s.toList) (hne : s ≠ "") :
    (ofString s).toString = s := by
  by_cases hdot : s = "."
  · subst hdot
    rfl
  · have hanchor : (ofString s).anchor = .here :=
      isAbsolute_eq_false_iff.1 (isAbsolute_of_slash_not_mem h)
    have hparts : (ofString s).parts = [s] := namesOf_toList ⟨hne, hdot, h⟩
    rw [toString_eq (.inr (hparts ▸ List.cons_ne_nil _ _)), hanchor, hparts]
    simp [Anchor.text]

/-- What is not bare is written with a slash. -/
theorem slash_mem_toString {p : Path} (h : p.isBare = false) : '/' ∈ p.toString.toList := by
  by_cases hanchor : p.anchor = .here
  · -- there are two names at least, which a slash sets apart
    have hlength : 1 < p.parts.length := by
      simpa [isBare, isAbsolute_eq_false_iff.2 hanchor] using h
    obtain ⟨n, m, ns, hparts⟩ : ∃ n m ns, p.parts = n :: m :: ns := by
      match p.parts, hlength with
      | n :: m :: ns, _ => exact ⟨n, m, ns, rfl⟩
    rw [toString_eq (.inr (hparts ▸ List.cons_ne_nil _ _)), hparts, String.toList_append,
      toList_intercalate_cons]
    simp
  · have htext : '/' ∈ p.anchor.text.toList := by
      cases ha : p.anchor with
      | here => exact absurd ha hanchor
      | root => simp [Anchor.text]
      | doubleRoot => simp [Anchor.text]
    rw [toString_eq (.inl hanchor), String.toList_append]
    exact List.mem_append_left _ htext

/-! ## Steps -/

/-- Steps lead on and never back. -/
theorem up_not_mem_foldl_step {ns done : List String} (h : up ∉ done) :
    up ∉ ns.foldl step done := by
  induction ns generalizing done with
  | nil => exact h
  | cons n ns ih =>
    refine ih ?_
    unfold step
    split
    · exact fun hup => h (List.dropLast_subset done hup)
    · next hn => simpa [h] using Ne.symm hn

theorem up_not_mem_steps (p : Path) : up ∉ p.steps :=
  up_not_mem_foldl_step List.not_mem_nil

/-- Names that do not lead back are steps. -/
theorem foldl_step_of_up_not_mem {ns : List String} (h : up ∉ ns) (done : List String) :
    ns.foldl step done = done ++ ns := by
  induction ns generalizing done with
  | nil => simp
  | cons n ns ih =>
    rw [List.mem_cons, not_or] at h
    rw [List.foldl_cons, ih h.2, step, if_neg (Ne.symm h.1), List.append_assoc,
      List.singleton_append]

/-- Going back takes that many steps from the end. -/
theorem foldl_step_replicate_up (n : Nat) (done : List String) :
    (List.replicate n up).foldl step done = done.take (done.length - n) := by
  induction n generalizing done with
  | zero => simp
  | succ n ih =>
    rw [List.replicate_succ, List.foldl_cons, ih, step, if_pos rfl, List.dropLast_eq_take,
      List.take_take, List.length_take]
    congr 1
    omega

theorem shared_le_length (as bs : List String) : shared as bs ≤ as.length := by
  fun_induction shared as bs with
  | case1 => simpa
  | case2 => exact Nat.zero_le _
  | case3 => exact Nat.zero_le _

/-- What two ways share is the beginning of both. -/
theorem take_shared (as bs : List String) :
    as.take (shared as bs) = bs.take (shared as bs) := by
  fun_induction shared as bs with
  | case1 a as bs ih => simpa
  | case2 => rfl
  | case3 => rfl

/-- **The way from a directory to a path leads there.** -/
theorem steps_join_relativeTo (p folder : Path) :
    (folder.join (p.relativeTo folder)).steps = p.steps := by
  have hshared := shared_le_length folder.steps p.steps
  have hdrop : up ∉ p.steps.drop (shared folder.steps p.steps) :=
    fun h => up_not_mem_steps p (List.mem_of_mem_drop h)
  rw [steps_join_of_relative rfl]
  simp only [relativeTo]
  rw [List.foldl_append, foldl_step_replicate_up, foldl_step_of_up_not_mem hdrop,
    Nat.sub_sub_self hshared, take_shared, List.take_append_drop]

/-- **Two paths have the same way from a directory exactly when they have the same steps.** -/
theorem relativeTo_eq_iff {p q folder : Path} :
    p.relativeTo folder = q.relativeTo folder ↔ p.steps = q.steps := by
  constructor
  · intro h
    rw [← steps_join_relativeTo p folder, h, steps_join_relativeTo]
  · intro h
    ext1
    · rfl
    · simp only [relativeTo, h]

/-- Resolved paths are compared by their steps. -/
theorem resolved_eq_iff {p q : Path} : p.resolved = q.resolved ↔ p.steps = q.steps := by
  refine ⟨fun h => congrArg parts h, fun h => ?_⟩
  ext1
  · rfl
  · exact h

/-! ## Texts that are followed -/

/-- **One piece of a text followed**: an empty piece and a dot lead nowhere, two dots lead one step
back, and every other piece leads one step on. -/
def follow (done : List String) (piece : List Char) : List String :=
  if piece = [] ∨ piece = ['.'] then done
  else if piece = ['.', '.'] then done.dropLast
  else done ++ [String.ofList piece]

/-- **The normal form of an absolute text**: its anchor and where its pieces lead, set apart by
single slashes. -/
def normalText (s : String) : String :=
  (anchorOf s.toList).text ++ "/".intercalate ((splitSlashes s.toList).foldl follow [])

/-- **A text placed in a directory**: behind the directory's text and a slash, unless it begins
with a slash itself. -/
def placed (folder text : String) : String :=
  if text.toList.head? = some '/' then text
  else if folder.toList.getLast? = some '/' then folder ++ text
  else folder ++ "/" ++ text

/-- Pieces are followed as the names in them. -/
theorem foldl_follow (ps : List (List Char)) (done : List String) :
    ps.foldl follow done
      = ((ps.filter fun p => p ≠ [] ∧ p ≠ ['.']).map String.ofList).foldl step done := by
  induction ps generalizing done with
  | nil => rfl
  | cons p ps ih =>
    rw [List.foldl_cons, ih]
    by_cases hp : p = [] ∨ p = ['.']
    · rw [follow, if_pos hp, List.filter_cons_of_neg (by grind)]
    · have hup : String.ofList p = up ↔ p = ['.', '.'] := by
        rw [← String.toList_inj, String.toList_ofList]
        rfl
      rw [follow, if_neg hp, List.filter_cons_of_pos (by grind), List.map_cons, List.foldl_cons,
        step]
      simp only [hup]

/-- **The normal form of a text is the text of its path, resolved.** -/
theorem normalText_eq {s : String} (h : (ofString s).anchor = .root) :
    normalText s = (ofString s).resolved.toString := by
  have hanchor : anchorOf s.toList = .root := h
  rw [toString_eq (.inl Anchor.noConfusion), normalText, hanchor, foldl_follow]
  rfl

/-- What stands behind a text of the root directory leaves its anchor alone, unless a slash comes
to stand beside the only one. -/
theorem anchorOf_append_of_root {s t : List Char} (hs : anchorOf s = .root)
    (ht : t.head? ≠ some '/' ∨ s.getLast? ≠ some '/') : anchorOf (s ++ t) = .root := by
  unfold anchorOf at hs
  split at hs
  · rfl
  · cases hs
  · next r _ hone =>
    cases r with
    | nil =>
      have hhead : t.head? ≠ some '/' := ht.resolve_right (by simp)
      exact anchorOf_append (a := .root) hhead
    | cons d r =>
      have hd : d ≠ '/' := by
        rintro rfl
        exact hone r rfl
      simp [anchorOf, hd]
  · cases hs

/-- **A text placed in a directory is read as its path there.** -/
theorem ofString_placed {folder text : String} (h : (ofString folder).anchor = .root) :
    ofString (placed folder text) = (ofString folder).join (ofString text) := by
  unfold placed
  split
  next habs => rw [join_of_isAbsolute (isAbsolute_ofString_iff.2 habs)]
  next hhead =>
    have hrelative : (ofString text).isAbsolute = false := by
      rwa [← Bool.not_eq_true, isAbsolute_ofString_iff]
    -- In both cases there is one slash between the names of the directory and those of the text.
    ext1
    · rw [anchor_join_of_relative hrelative]
      split
      next =>
        show anchorOf (folder ++ text).toList = anchorOf folder.toList
        rw [String.toList_append, anchorOf_append_of_root h (.inl hhead)]
        exact h.symm
      next hlast =>
        show anchorOf (folder ++ "/" ++ text).toList = anchorOf folder.toList
        rw [String.toList_append, String.toList_append, List.append_assoc,
          anchorOf_append_of_root h (.inr hlast)]
        exact h.symm
    · rw [parts_join_of_relative hrelative]
      split
      next hlast =>
        obtain ⟨s, hs⟩ := List.getLast?_eq_some_iff.1 hlast
        show namesOf (folder ++ text).toList = namesOf folder.toList ++ namesOf text.toList
        rw [String.toList_append, hs, List.append_assoc, List.singleton_append,
          namesOf_append_slash, namesOf_append_slash, namesOf_nil, List.append_nil]
      next =>
        show namesOf (folder ++ "/" ++ text).toList = namesOf folder.toList ++ namesOf text.toList
        rw [String.toList_append, String.toList_append, List.append_assoc]
        exact namesOf_append_slash folder.toList text.toList

end LintGate.Path
