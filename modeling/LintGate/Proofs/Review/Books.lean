import LintGate.Proofs.Review.Verdict

/-!
# The books of a decision

Totals, findings, files and faults are entered into a decision in any order and any number, and
each reason to fail is announced as it is entered. Whatever was entered, the books balance
(`Books`): the verdict, the reasons, the announcements, the short circuit and its notice agree with
one another, and each of them can be told from the entries alone. And nothing is ever taken back:
later entries only extend what the earlier ones have left (`Extends`).

Both are said of one entry (`Books.enter`), for any books that balance, and then of any number of
them (`Books.entries`).
-/

namespace LintGate

/-- **An entry gives a reason to fail**: a new finding that is an error, or a warning where warnings
count, gives its message, and a fault gives its own text or else the name of its kind. -/
inductive Entry.Gives (strict : Bool) : Entry → String → Prop
  | error {f : Finding} (severity : f.severity = .error) :
      Gives strict (.finding ⟨f, .introduced⟩) f.message
  | warning {f : Finding} (severity : f.severity = .warning) (counted : strict = true) :
      Gives strict (.finding ⟨f, .introduced⟩) f.message
  | fault (f : Fault) : Gives strict (.fault f) f.reason

/-- The reason of an entry is the one that it gives. -/
theorem Entry.reason?_eq_some_iff {strict : Bool} {e : Entry} {reason : String} :
    e.reason? strict = some reason ↔ e.Gives strict reason := by
  constructor
  · intro h
    cases e with
    | totals t => cases h
    | blamed => cases h
    | fault f =>
      cases h
      exact .fault f
    | finding j =>
      obtain ⟨f, o⟩ := j
      rw [Entry.reason?, Judged.counts_eq] at h
      cases o with
      | inherited => cases h
      | introduced =>
        cases hs : f.severity with
        | error =>
          obtain rfl : f.message = reason := by simpa [Judged.isNew, Finding.matters, hs] using h
          exact .error hs
        | warning =>
          obtain ⟨hstrict, rfl⟩ : strict = true ∧ f.message = reason := by
            simpa [Judged.isNew, Finding.matters, hs] using h
          exact .warning hs hstrict
  · rintro (⟨hs⟩ | ⟨hs, rfl⟩ | ⟨f⟩)
    · simp [Entry.reason?, Judged.counts, Judged.isNew, hs]
    · simp [Entry.reason?, Judged.counts, Judged.isNew]
    · rfl

/-- The reasons that entries give are told in one way. -/
theorem Entry.eq_reason?_of_gives {strict : Bool} {given : Entry → Option String}
    (h : ∀ e reason, given e = some reason ↔ e.Gives strict reason) :
    given = Entry.reason? strict := by
  funext e
  refine Option.ext fun reason => ?_
  rw [h, Entry.reason?_eq_some_iff]

/-- Only totals settle a run. -/
theorem Entry.settles_iff {strict : Bool} {e : Entry} :
    e.settles strict = true ↔ ∃ t, e = .totals t ∧ (t.notice? strict).isSome = true := by
  cases e <;> simp [Entry.settles]

namespace Review

variable {strict : Bool} {sinks : Sinks} {es : List Entry} {t : Trace}

/-! ## Balance -/

/-- **The books balance** after some entries. -/
structure Books (strict : Bool) (es : List Entry) (t : Trace) : Prop where
  /-- The run failed exactly if there are reasons. -/
  failed : t.decision.outcome.failed = true ↔ t.decision.outcome.reasons ≠ []
  /-- The reasons were announced, each once and in their order. -/
  announced : reasonsIn t.lines = t.decision.outcome.reasons
  /-- They are the reasons that the entries give, in the order of the entries. -/
  reasons : ∃ given : Entry → Option String,
    (∀ e reason, given e = some reason ↔ e.Gives strict reason) ∧
      t.decision.outcome.reasons = es.filterMap given
  /-- A fault that was entered is among them, and not without a text. -/
  faults (f : Fault) (entered : .fault f ∈ es) :
    f.reason ∈ t.decision.outcome.reasons ∧ f.reason ≠ ""
  /-- Each entry of a file was counted. -/
  files : t.decision.outcome.filesBlamed = es.count .blamed
  /-- A short circuit has its notice, and a notice its short circuit. -/
  shortCircuited : t.decision.outcome.shortCircuited = true ↔ t.decision.notice.isSome = true
  /-- There is a notice exactly if some totals have settled the run. -/
  notice : t.decision.notice.isSome = true ↔
    ∃ totals, .totals totals ∈ es ∧ (totals.notice? strict).isSome = true

/-- **Later books extend earlier ones.** -/
structure Extends (t t' : Trace) : Prop where
  /-- No reason is removed or changed, -/
  reasons : t.decision.outcome.reasons <+: t'.decision.outcome.reasons
  /-- no announcement is taken back, -/
  lines : t.lines <+: t'.lines
  /-- a run that failed has failed, -/
  failed : t.decision.outcome.failed = true → t'.decision.outcome.failed = true
  /-- and no file is uncounted. -/
  files : t.decision.outcome.filesBlamed ≤ t'.decision.outcome.filesBlamed

theorem Extends.refl (t : Trace) : Extends t t :=
  ⟨List.prefix_refl _, List.prefix_refl _, id, Nat.le_refl _⟩

theorem Extends.trans {t t' t'' : Trace} (h : Extends t t') (h' : Extends t' t'') :
    Extends t t'' where
  reasons := h.reasons.trans h'.reasons
  lines := h.lines.trans h'.lines
  failed := h'.failed ∘ h.failed
  files := Nat.le_trans h.files h'.files

/-- The books balance before the first entry. -/
theorem books_nil (strict : Bool) : Books strict [] {} where
  failed := by simp
  announced := rfl
  reasons := ⟨_, fun _ _ => Entry.reason?_eq_some_iff, rfl⟩
  faults f entered := nomatch entered
  files := rfl
  shortCircuited := by simp
  notice := by simp

/-! ## Entries -/

/-- A trace with one more entry, whose reason was announced. -/
def Trace.entered (strict : Bool) (t : Trace) (e : Entry) : Trace :=
  { t with
    lines := t.lines ++ (e.reason? strict).toList.map fun reason => (.failure, reason)
    decision := t.decision.enter strict e }

/-- **An entry is made**, where announcements are taken. -/
theorem perform_enter (taken : ∀ n, sinks .failure n = none) (t : Trace) (e : Entry) :
    (Deed.enter e).perform sinks strict t = (t.entered strict e, none) := by
  cases hr : e.reason? strict <;> simp [Deed.perform, Trace.entered, Trace.offer, taken, hr]

/-- An entry extends the books. -/
theorem extends_entered (strict : Bool) (t : Trace) (e : Entry) :
    Extends t (t.entered strict e) where
  reasons := by
    rw [Trace.entered, Decision.reasons_enter]
    exact List.prefix_append _ _
  lines := List.prefix_append _ _
  failed h := by simp [Trace.entered, Decision.failed_enter, h]
  files := by
    rw [Trace.entered, Decision.filesBlamed_enter]
    exact Nat.le_add_right _ _

/-- The reason of an entry comes behind the others. -/
theorem reasons_entered (strict : Bool) (t : Trace) (e : Entry) :
    (t.entered strict e).decision.outcome.reasons
      = t.decision.outcome.reasons ++ (e.reason? strict).toList :=
  Decision.reasons_enter strict t.decision e

/-- Books that balance tell one verdict. -/
theorem Books.coherent (h : Books strict es t) : Coherent t :=
  ⟨h.announced, h.failed, Bool.eq_iff_iff.2 h.shortCircuited⟩

/-- The verdict is one verdict behind an entry, too. -/
theorem Books.coherent_entered (h : Books strict es t) (e : Entry) :
    Coherent (t.entered strict e) := by
  have hperform : Coherent ((Deed.enter e).perform .open strict t).1 := h.coherent.perform nofun
  rwa [perform_enter fun n => rfl] at hperform

/-- **An entry keeps the books in balance.** -/
theorem Books.enter (h : Books strict es t) (e : Entry) :
    Books strict (es ++ [e]) (t.entered strict e) where
  failed := (h.coherent_entered e).failed
  announced := (h.coherent_entered e).reasons
  shortCircuited := Bool.eq_iff_iff.1 (h.coherent_entered e).shortCircuited
  reasons := by
    obtain ⟨given, hgives, hgiven⟩ := h.reasons
    obtain rfl := Entry.eq_reason?_of_gives hgives
    refine ⟨_, hgives, ?_⟩
    rw [reasons_entered, hgiven, List.filterMap_append]
    cases hr : e.reason? strict <;> simp [hr]
  faults f entered := by
    refine ⟨?_, f.reason_ne_empty⟩
    rw [reasons_entered, List.mem_append]
    rcases List.mem_append.1 entered with hold | hnew
    · exact .inl (h.faults f hold).1
    · obtain rfl : Entry.fault f = e := by simpa using hnew
      exact .inr (by simp [Entry.reason?])
  files := by
    show (Decision.enter strict t.decision e).outcome.filesBlamed = _
    rw [Decision.filesBlamed_enter, h.files, List.count_append, List.count_singleton]
    simp only [beq_iff_eq]
  notice := by
    show (Decision.enter strict t.decision e).notice.isSome = true ↔ _
    rw [Decision.isSome_notice_enter, Bool.or_eq_true, h.notice, Entry.settles_iff]
    simp only [List.mem_append, List.mem_singleton, or_and_right, exists_or,
      eq_comm (a := e)]

/-- **Any entries keep the books in balance** and extend them. -/
theorem Books.entries (taken : ∀ n, sinks .failure n = none) (h : Books strict es t)
    (more : List Entry) :
    ∃ t', perform sinks strict t (more.map .enter) = (t', none) ∧
      Books strict (es ++ more) t' ∧ Extends t t' := by
  induction more generalizing t es with
  | nil => exact ⟨t, rfl, by simpa using h, .refl t⟩
  | cons e more ih =>
    obtain ⟨t', hperform, hbooks, hextends⟩ := ih (h.enter e)
    refine ⟨t', ?_, by simpa using hbooks, (extends_entered strict t e).trans hextends⟩
    rw [List.map_cons, perform, perform_enter taken]
    exact hperform

/-- **The books balance and are only extended**, whatever is entered in whatever order, as long as
announcements are taken. -/
theorem books_of_entries (taken : ∀ n, sinks .failure n = none) (es : List Entry) :
    ∃ t, perform sinks strict {} (es.map .enter) = (t, none) ∧ Books strict es t ∧
      ∀ more, ∃ t', perform sinks strict {} ((es ++ more).map .enter) = (t', none) ∧
        Extends t t' := by
  obtain ⟨t, hperform, hbooks, -⟩ := (books_nil strict).entries taken es
  refine ⟨t, hperform, hbooks, fun more => ?_⟩
  obtain ⟨t', hmore, -, hextends⟩ := hbooks.entries taken more
  refine ⟨t', ?_, hextends⟩
  rw [List.map_append, perform_append, hperform]
  exact hmore

/-- Channels of which only the one for reasons takes lines. -/
def reasonsOnly : Sinks := fun c _ =>
  if c = .failure then none else some (.reported ⟨.runtime, none⟩)

/-- A finding on one line, of this severity. -/
def found (severity : Severity) (message : String) (origin : Origin) : Entry :=
  .finding ⟨⟨"a.php", 1, 1, severity, message, "S"⟩, origin⟩

/-- Entries of every kind: totals that settle nothing stand behind totals that do, and a fault
without a text between findings. -/
def mixed : List Entry := [
  .totals {}, found .warning "new" .introduced, .fault (.reported ⟨.key, none⟩),
  found .error "old" .inherited, .blamed, .totals { errors := 1 }, found .error "newer" .introduced]

/-- Where warnings count, two of the findings and the fault give the reasons. -/
theorem books_of_entries_mixed :
    (∀ n, reasonsOnly .failure n = none) ∧
    ∃ t, perform reasonsOnly true {} (mixed.map .enter) = (t, none) ∧ Books true mixed t ∧
      t.decision.outcome = ⟨true, ["new", "KeyError", "newer"], 1, true⟩ := by
  have htaken : ∀ n, reasonsOnly .failure n = none := fun n => rfl
  obtain ⟨t, hperform, hbooks, -⟩ :
      ∃ t, perform reasonsOnly true {} (mixed.map .enter) = (t, none) ∧ Books true mixed t ∧ _ :=
    books_of_entries htaken mixed
  have houtcome : (perform reasonsOnly true {} (mixed.map .enter)).1.decision.outcome
      = ⟨true, ["new", "KeyError", "newer"], 1, true⟩ := by decide +kernel
  rw [hperform] at houtcome
  exact ⟨htaken, t, hperform, hbooks, houtcome⟩

end Review

end LintGate
