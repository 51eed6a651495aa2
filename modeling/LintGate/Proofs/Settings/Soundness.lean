import LintGate.Proofs.Event
import LintGate.Proofs.Settings
import LintGate.Provenance

/-!
# Settings that can be relied on

A base revision that were empty would begin every revision, so no finding would ever be new and
every change would pass. Nothing in the classification guards against that, nor against a range of
revisions without a beginning. It is the settings that have to be sound: whatever the inputs are and
wherever the base is taken from, once settings are made, the base is not empty and has no blank at
its ends, there is at least one job, and a coding standard that is passed on is not blank (`Sound`).

The base has two origins. The input wins, and then nothing that the host holds makes a difference;
without it, the base is what the event's document tells.
-/

namespace LintGate.Settings

variable {h : Host} {i : Inputs} {s : Settings}

/-- **Sound settings** for some inputs on a host. -/
structure Sound (h : Host) (i : Inputs) (s : Settings) : Prop where
  /-- There is a base, without blanks at its ends. -/
  base : s.base ≠ "" ∧ Text.IsTrimmed s.base
  /-- It is the one that is given, if that is not blank, and then any host and any event make the
  same settings. -/
  given {raw : String} (input : i.base = some raw) (left : Text.trim raw ≠ "") :
    s.base = Text.trim raw ∧
      ∀ (host : Host) (event : Option Path), load host { i with event } = .ok s
  /-- Otherwise it is the one that the event tells. -/
  told (blank : ∀ raw, i.base = some raw → Text.trim raw = "") : Event.Told h i.event s.base
  /-- There is at least one job. -/
  jobs : 1 ≤ s.jobs
  /-- A standard is not empty, and has no blanks at its ends. -/
  standard {name : String} (named : s.standard = some name) : name ≠ "" ∧ Text.IsTrimmed name
  /-- So no option of the linter is blank. -/
  options (option : String × String) (passed : option ∈ s.lintOptions) :
    option.1 = "standard" ∧ option.2 ≠ "" ∧ Text.IsTrimmed option.2
  /-- Two words make warnings harmless, and nothing else does. -/
  lenient : s.strict = false ↔ i.strictness = some "false" ∨ i.strictness = some "off"
  /-- A finding is new if the revision of its line begins otherwise than the base. -/
  new (p : Provenance) (f : Finding) {revision : String} (known : p.get? f.line = some revision)
    (apart : revision.toList.head? ≠ s.base.toList.head?) : p.origin s.base f = .introduced
  /-- The range of revisions begins somewhere. -/
  range : s.range ≠ ".."

/-! ## Origins of the base -/

/-- An input is left out exactly when nothing of it is left. -/
theorem given?_eq_none_iff {input : Option String} :
    given? input = none ↔ ∀ raw, input = some raw → Text.trim raw = "" := by
  cases input with
  | none => simp [given?]
  | some raw =>
    rw [given?, Option.bind_some, Option.eq_none_iff_forall_ne_some]
    simp [Text.trimmed?_eq_some_iff]

/-- **A base is what is given, or what the event tells.** -/
theorem baseOf_eq_ok_cases {base : String} (hbase : baseOf h i = .ok base) :
    given? i.base = some base ∨ given? i.base = none ∧ Event.Told h i.event base := by
  unfold baseOf at hbase
  cases hgiven : given? i.base with
  | some given =>
    rw [hgiven] at hbase
    exact .inl (congrArg some (Except.ok.inj hbase))
  | none =>
    rw [hgiven] at hbase
    exact .inr ⟨rfl, Event.told_of_loadBase hbase⟩

/-- An input that is not left out has no blanks at its ends. -/
theorem isTrimmed_of_given? {input : Option String} {text : String}
    (hgiven : given? input = some text) : text ≠ "" ∧ Text.IsTrimmed text := by
  obtain ⟨raw, -, htext⟩ := Option.bind_eq_some_iff.1 hgiven
  exact Text.isTrimmed_of_trimmed? htext

/-- **A base has no blanks at its ends**, wherever it comes from. -/
theorem isTrimmed_of_baseOf {base : String} (hbase : baseOf h i = .ok base) :
    base ≠ "" ∧ Text.IsTrimmed base := by
  rcases baseOf_eq_ok_cases hbase with hgiven | ⟨-, htold⟩
  · exact isTrimmed_of_given? hgiven
  · exact htold.isTrimmed

/-- A base that is given is taken on every host, with any event. -/
theorem load_of_given {base : String} (hgiven : given? i.base = some base)
    (hload : load h i = .ok s) (host : Host) (event : Option Path) :
    load host { i with event } = .ok s := by
  have hbase : baseOf h i = baseOf host { i with event } := by simp only [baseOf, hgiven]
  rw [load_eq_ok_iff] at hload ⊢
  rwa [← hbase]

/-! ## What follows -/

/-- There is at least one job. -/
theorem one_le_of_jobCount {j : Json} {n : Nat} (hjobs : jobCount j = .ok n) : 1 ≤ n := by
  unfold jobCount Schema.natural at hjobs
  split at hjobs
  · split at hjobs
    · cases hjobs
      omega
    · cases hjobs
  · cases hjobs

/-- **What does not begin as the boundary is new.** -/
theorem origin_of_head?_ne {p : Provenance} {f : Finding} {boundary revision : String}
    (hne : boundary ≠ "") (known : p.get? f.line = some revision)
    (apart : revision.toList.head? ≠ boundary.toList.head?) :
    p.origin boundary f = .introduced := by
  by_contra hinherited
  have hinherited : p.origin boundary f = .inherited := by
    cases ho : p.origin boundary f
    · exact absurd ho hinherited
    · rfl
  obtain ⟨revision', hknown, rest, hrest⟩ := Provenance.origin_eq_inherited_iff.1 hinherited
  obtain rfl : revision = revision' := Option.some.inj (known.symm.trans hknown)
  obtain ⟨c, cs, hboundary⟩ := List.exists_cons_of_ne_nil (fun hnil =>
    hne (String.toList_inj.1 hnil))
  rw [← hrest, hboundary] at apart
  exact apart rfl

/-- Only two words are lenient. -/
theorem strictOf_eq_false_iff {word : Option String} :
    strictOf word = false ↔ word = some "false" ∨ word = some "off" := by
  cases word <;> simp [strictOf, lenientWords, or_iff_not_imp_left]

/-- The only option is a standard that is not empty. -/
theorem eq_of_mem_lintOptions {option : String × String} (hoption : option ∈ s.lintOptions) :
    ∃ name, s.standard = some name ∧ option = ("standard", name) := by
  unfold lintOptions at hoption
  split at hoption
  · cases hoption
  · next name hstandard =>
    split at hoption
    · cases hoption
    · exact ⟨name, hstandard, List.mem_singleton.1 hoption⟩

/-- A range of revisions begins with its base. -/
theorem range_ne (hbase : s.base ≠ "") : s.range ≠ ".." := by
  intro hrange
  have hlist := congrArg String.toList hrange
  rw [range, String.toList_append, List.append_left_eq_self] at hlist
  exact hbase (String.toList_inj.1 hlist)

/-- **Settings that are made are sound.** -/
theorem sound_of_load (hload : load h i = .ok s) : Sound h i s := by
  obtain ⟨linter, base, jobs, hlinter, hbase, -, hjobs, rfl⟩ := load_eq_ok_iff.1 hload
  have htrimmed := isTrimmed_of_baseOf hbase
  have hstandard : ∀ name, given? i.standard = some name → name ≠ "" ∧ Text.IsTrimmed name :=
    fun name => isTrimmed_of_given?
  refine ⟨htrimmed, fun {raw} input left => ?_, fun blank => ?_, one_le_of_jobCount hjobs,
    hstandard _, ?_, strictOf_eq_false_iff,
    fun p f revision known apart => origin_of_head?_ne htrimmed.1 known apart, ?_⟩
  · have hgiven : given? i.base = some (Text.trim raw) := by
      rw [input]
      exact Text.trimmed?_eq_some_iff.2 ⟨rfl, left⟩
    refine ⟨?_, load_of_given hgiven hload⟩
    rcases baseOf_eq_ok_cases hbase with hsame | ⟨hnone, -⟩
    · exact Option.some.inj (hsame.symm.trans hgiven)
    · rw [hgiven] at hnone
      cases hnone
  · rcases baseOf_eq_ok_cases hbase with hgiven | ⟨-, htold⟩
    · rw [given?_eq_none_iff.2 blank] at hgiven
      cases hgiven
    · exact htold
  · intro option passed
    obtain ⟨name, hname, rfl⟩ := eq_of_mem_lintOptions passed
    exact ⟨rfl, hstandard name hname⟩
  · exact range_ne htrimmed.1

/-- Inputs of which the base is a blank that is not ASCII and the standard is a tab, -/
def blankInputs : Inputs where
  linter := some " phpcs"
  standard := some "\t"
  strictness := some "False"
  base := some "\u2003"
  event := some Event.eventPath
  jobs := .str "2"

/-- and the settings that they make. -/
def proposedSettings : Settings := ⟨.ofString "phpcs", none, true, "abc", 2, .root⟩

/-- The base is the one that the event tells, and a line of another revision is new. -/
theorem sound_of_load_blank :
    load Event.proposing blankInputs = .ok proposedSettings ∧
    Event.Told Event.proposing (some Event.eventPath) "abc" ∧
    Provenance.origin [(3, "bcd")] "abc" ⟨"a.php", 3, 1, .error, "new", "S"⟩ = .introduced := by
  have hload : load Event.proposing blankInputs = .ok proposedSettings := by decide +kernel
  have hsound := sound_of_load hload
  have hblank : ∀ raw, blankInputs.base = some raw → Text.trim raw = "" := by
    rintro raw ⟨⟩
    decide +kernel
  exact ⟨hload, hsound.told hblank, hsound.new [(3, "bcd")] _ rfl (by decide +kernel)⟩

end LintGate.Settings
