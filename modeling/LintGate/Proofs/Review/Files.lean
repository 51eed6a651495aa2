import LintGate.Proofs.Review.Deeds

/-!
# The files of a review

What a review does for a file is a mixture of lines and entries, and the mixture depends on whether
the file's marker was written. Here it is taken apart once: which entries the deeds of a file make
(`entries_fileDeeds`), which of its lines are announced and which are logged
(`announced_fileDeeds`, `logged_fileDeeds`), and what kinds of deeds there are at all
(`mem_fileDeeds`).

Both readings are stated by two conditions on a finding that do not mention how a review goes
about it: whether the change brought the finding in (`Provenance.brings`), and whether a finding
that it brought in makes the run fail (`Finding.matters`). The marker is the only thing that one
finding leaves to the next; `headed` says what it adds, and it is what the induction over the
findings carries along.
-/

namespace LintGate

/-! ## The two conditions -/

/-- **The change brought a finding in**: nothing is known of its line, or the revision that last
touched the line does not begin with the boundary. -/
def Provenance.brings (p : Provenance) (boundary : String) (f : Finding) : Bool :=
  match p.get? f.line with
  | none => true
  | some revision => !boundary.toList.isPrefixOf revision.toList

/-- **The severity policy**: an error makes a run fail, a warning does where warnings count. -/
def Finding.matters (f : Finding) (strict : Bool) : Bool :=
  match f.severity with
  | .error => true
  | .warning => strict

/-- The findings that are judged new are those that the change brought in. -/
theorem Judged.isNew_judged (p : Provenance) (boundary : String) (f : Finding) :
    Judged.isNew ⟨f, p.origin boundary f⟩ = p.brings boundary f := by
  unfold Judged.isNew Provenance.origin Provenance.isSettled Provenance.brings
  cases p.get? f.line with
  | none => rfl
  | some revision =>
    show decide ((if boundary.toList.isPrefixOf revision.toList then Origin.inherited
      else Origin.introduced) = .introduced) = !boundary.toList.isPrefixOf revision.toList
    cases boundary.toList.isPrefixOf revision.toList <;> rfl

/-- A judged finding counts when it is new and the severity policy says so. -/
theorem Judged.counts_eq (j : Judged) (strict : Bool) :
    j.counts strict = (j.isNew && j.finding.matters strict) := by
  unfold Judged.counts Finding.matters
  cases j.finding.severity <;> rfl

/-- Sorting judged findings by a condition is sorting the findings. -/
theorem Provenance.map_finding_filter_judge (p : Provenance) (boundary : String)
    (fs : List Finding) (q : Judged → Bool) :
    ((p.judge boundary fs).filter q).map Judged.finding
      = fs.filter fun f => q ⟨f, p.origin boundary f⟩ := by
  unfold Provenance.judge
  rw [List.filter_map, List.map_map]
  exact List.map_id' _

/-- **The reasons that the findings of a file give**: the messages of those that the change brought
in and that matter. -/
theorem Provenance.reasons_judge (p : Provenance) (boundary : String) (strict : Bool)
    (fs : List Finding) :
    ((p.judge boundary fs).map Entry.finding).filterMap (Entry.reason? strict)
      = (fs.filter fun f => p.brings boundary f && f.matters strict).map Finding.message := by
  induction fs with
  | nil => rfl
  | cons f fs ih =>
    unfold Provenance.judge at ih ⊢
    have hc : Judged.counts ⟨f, p.origin boundary f⟩ strict
        = (p.brings boundary f && f.matters strict) := by
      rw [Judged.counts_eq, Judged.isNew_judged]
    rw [List.map_cons, List.map_cons, List.filterMap_cons, ih]
    cases hm : (p.brings boundary f && f.matters strict) <;>
      simp [Entry.reason?, hc, hm]

namespace Review

/-! ## Announced and logged lines -/

/-- **The lines that are announced**: annotations, and reasons for a failure. -/
def announced (ls : List Written) : List Written := ls.filter fun w => w.1 != .log

/-- The lines that are logged. -/
def logged (ls : List Written) : List Written := ls.filter fun w => w.1 == .log

@[simp] theorem announced_append (ls ms : List Written) :
    announced (ls ++ ms) = announced ls ++ announced ms := List.filter_append ..

@[simp] theorem logged_append (ls ms : List Written) :
    logged (ls ++ ms) = logged ls ++ logged ms := List.filter_append ..

theorem announced_flatMap {α : Type} (xs : List α) (g : α → List Written) :
    announced (xs.flatMap g) = xs.flatMap fun x => announced (g x) := List.filter_flatMap ..

theorem logged_flatMap {α : Type} (xs : List α) (g : α → List Written) :
    logged (xs.flatMap g) = xs.flatMap fun x => logged (g x) := List.filter_flatMap ..

/-- **What a finding that the change brought in announces**: its line, and right behind it its
message as a reason, if it matters. -/
def announcement (strict : Bool) (f : Finding) : List Written :=
  (.primary, errorLine f) :: if f.matters strict then [(.failure, f.message)] else []

/-- Announcements with the marker before them, if it is still to come and there are any. -/
def headed (a : Annotations) (ls : List Written) : List Written :=
  if a.opened || ls.isEmpty then ls else (.primary, a.marker) :: ls

/-- **What findings announce**: those that the change brought in, one after the other, under the
marker of their file. -/
theorem announced_findingDeeds (strict : Bool) (a : Annotations) (js : List Judged) :
    announced ((findingDeeds a js).flatMap (Deed.lines strict))
      = headed a (((js.filter Judged.isNew).map Judged.finding).flatMap
          (announcement strict)) := by
  -- whether the marker was written is all that a finding leaves to the next, so it is arbitrary
  induction js generalizing a with
  | nil => simp [findingDeeds, announced, headed]
  | cons j js ih =>
    obtain ⟨f, o⟩ := j
    have hc := Judged.counts_eq ⟨f, o⟩ strict
    cases o with
    | inherited =>
      have hn : Judged.isNew ⟨f, .inherited⟩ = false := rfl
      have ha : a.after ⟨f, .inherited⟩ = a := by simp [Annotations.after, hn]
      rw [List.filter_cons_of_neg (by simp [hn]), ← ih a]
      simp [findingDeeds, Annotations.lines, Deed.lines, Entry.reason?, hc, hn, ha, announced]
    | introduced =>
      have hn : Judged.isNew ⟨f, .introduced⟩ = true := rfl
      have ha : (a.after ⟨f, .introduced⟩).opened = true := by simp [Annotations.after, hn]
      -- behind a new finding the marker is there, and the rest comes without one
      have hrest := ih (a.after ⟨f, .introduced⟩)
      rw [headed, ha, Bool.true_or, if_pos rfl] at hrest
      rw [List.filter_cons_of_pos hn, List.map_cons, List.flatMap_cons, ← hrest]
      cases ho : a.opened <;> cases hm : f.matters strict <;>
        simp [findingDeeds, Annotations.lines, Deed.lines, Entry.reason?, hc, hn, ho, hm,
          announced, headed, announcement]

/-- The log of a finding that the change did not bring in: the marker of its file, and its line. -/
def inheritedLog (marker : String) (f : Finding) : List Written :=
  [(.log, marker), (.log, errorLine f)]

/-- **What findings log**: those that the change did not bring in, each with the marker. -/
theorem logged_findingDeeds (strict : Bool) (a : Annotations) (js : List Judged) :
    logged ((findingDeeds a js).flatMap (Deed.lines strict))
      = ((js.filter fun j => !j.isNew).map Judged.finding).flatMap (inheritedLog a.marker) := by
  induction js generalizing a with
  | nil => rfl
  | cons j js ih =>
    obtain ⟨f, o⟩ := j
    have hc := Judged.counts_eq ⟨f, o⟩ strict
    have hrest := ih (a.after ⟨f, o⟩)
    rw [Annotations.marker_after] at hrest
    cases o with
    | inherited =>
      have hn : Judged.isNew ⟨f, .inherited⟩ = false := rfl
      rw [List.filter_cons_of_pos (by simp [hn]), List.map_cons, List.flatMap_cons, ← hrest]
      simp [findingDeeds, Annotations.lines, Deed.lines, Entry.reason?, hc, hn, logged,
        inheritedLog]
    | introduced =>
      have hn : Judged.isNew ⟨f, .introduced⟩ = true := rfl
      rw [List.filter_cons_of_neg (by simp [hn]), ← hrest]
      cases ho : a.opened <;> cases hm : f.matters strict <;>
        simp [findingDeeds, Annotations.lines, Deed.lines, Entry.reason?, hc, hn, ho, hm, logged]

/-! ## Kinds of deeds -/

/-- A finding's lines are annotations or log. -/
theorem channel_lines {a : Annotations} {j : Judged} {w : Written} (h : w ∈ a.lines j) :
    w.1 ≠ .failure := by
  obtain ⟨f, o⟩ := j
  cases o <;> cases ho : a.opened <;> simp [Annotations.lines, ho] at h
  all_goals rcases h with rfl | rfl <;> simp

/-- The deeds for findings write lines that are no reasons, and enter the findings. -/
theorem mem_findingDeeds {a : Annotations} {js : List Judged} {d : Deed}
    (h : d ∈ findingDeeds a js) :
    (∃ w, d = .write w ∧ w.1 ≠ .failure) ∨ ∃ j ∈ js, d = .enter (.finding j) := by
  induction js generalizing a with
  | nil => cases h
  | cons j js ih =>
    rw [findingDeeds, List.mem_append, List.mem_cons] at h
    rcases h with hw | rfl | hr
    · obtain ⟨w, hmem, rfl⟩ := List.mem_map.mp hw
      exact .inl ⟨w, rfl, channel_lines hmem⟩
    · exact .inr ⟨j, List.mem_cons_self, rfl⟩
    · refine (ih hr).imp id ?_
      rintro ⟨k, hk, rfl⟩
      exact ⟨k, List.mem_cons_of_mem _ hk, rfl⟩

/-- **The deeds for a file** write lines that are no reasons, count the file, and enter its
findings. -/
theorem mem_fileDeeds {s : Settings} {file : String} {fs : List Finding} {p : Provenance}
    {d : Deed} (h : d ∈ fileDeeds s file fs p) :
    (∃ w, d = .write w ∧ w.1 ≠ .failure) ∨ d = .enter .blamed ∨
      ∃ j ∈ p.judge s.base fs, d = .enter (.finding j) := by
  rw [fileDeeds, List.mem_cons, List.mem_cons] at h
  rcases h with rfl | rfl | h
  · exact .inr (.inl rfl)
  · exact .inl ⟨_, rfl, by simp⟩
  · exact (mem_findingDeeds h).imp id .inr

/-- The findings are entered in their order. -/
theorem entries_findingDeeds (a : Annotations) (js : List Judged) :
    (findingDeeds a js).filterMap Deed.entry? = js.map Entry.finding := by
  induction js generalizing a with
  | nil => rfl
  | cons j js ih =>
    have hw : ((a.lines j).map Deed.write).filterMap Deed.entry? = [] := by
      simp [List.filterMap_map, Function.comp_def, Deed.entry?]
    rw [findingDeeds, List.filterMap_append, hw, List.nil_append, List.filterMap_cons, ih]
    rfl

/-! ## A file -/

variable (s : Settings) (file : String) (fs : List Finding) (p : Provenance)

/-- **The entries for a file**: it is counted, and its findings follow in their order. -/
theorem entries_fileDeeds :
    (fileDeeds s file fs p).filterMap Deed.entry?
      = .blamed :: (p.judge s.base fs).map Entry.finding := by
  rw [fileDeeds, List.filterMap_cons, List.filterMap_cons, entries_findingDeeds]
  rfl

/-- **The announcements of a file**: nothing, unless the change brought a finding in; the marker
once, and then the findings that it brought in, in the order of the report. -/
def announcements : List Written :=
  match fs.filter (p.brings s.base) with
  | [] => []
  | news => (.primary, fileMarker s.root file) :: news.flatMap (announcement s.strict)

/-- **The log of a file**: its provenance, and then each finding that the change did not bring in,
with the marker before it. -/
def fileLog : List Written :=
  (.log, p.toJson.write Json.spaced) ::
    (fs.filter fun f => !p.brings s.base f).flatMap (inheritedLog (fileMarker s.root file))

/-- What the deeds of a file announce. -/
theorem announced_fileDeeds :
    announced ((fileDeeds s file fs p).flatMap (Deed.lines s.strict))
      = announcements s file fs p := by
  have h := announced_findingDeeds s.strict (.start s.root file) (p.judge s.base fs)
  simp only [Provenance.map_finding_filter_judge, Judged.isNew_judged] at h
  rw [fileDeeds, List.flatMap_cons, List.flatMap_cons, announced_append, announced_append, h]
  show headed (.start s.root file) _ = _
  unfold headed announcements
  cases fs.filter (p.brings s.base) with
  | nil => rfl
  | cons f news => simp [Annotations.start, announcement]

/-- What the deeds of a file log. -/
theorem logged_fileDeeds :
    logged ((fileDeeds s file fs p).flatMap (Deed.lines s.strict)) = fileLog s file fs p := by
  have h := logged_findingDeeds s.strict (.start s.root file) (p.judge s.base fs)
  simp only [Provenance.map_finding_filter_judge, Judged.isNew_judged] at h
  rw [fileDeeds, List.flatMap_cons, List.flatMap_cons, logged_append, logged_append, h]
  rfl

/-! ## All files -/

/-- **The entries for some files.** -/
def fileEntries (s : Settings) (maps : String → Provenance)
    (files : Table String (List Finding)) : List Entry :=
  files.flatMap fun e => .blamed :: ((maps e.1).judge s.base e.2).map Entry.finding

/-- The lines for some files, in the order in which they are written. -/
def fileLines (s : Settings) (maps : String → Provenance)
    (files : Table String (List Finding)) : List Written :=
  files.flatMap fun e => (fileDeeds s e.1 e.2 (maps e.1)).flatMap (Deed.lines s.strict)

/-- **The reasons that some files give**: the messages of all findings that the change brought in
and that matter, in the order of the report. -/
theorem reasons_fileEntries (s : Settings) (maps : String → Provenance)
    (files : Table String (List Finding)) :
    (fileEntries s maps files).filterMap (Entry.reason? s.strict)
      = files.flatMap fun e =>
          (e.2.filter fun f => (maps e.1).brings s.base f && f.matters s.strict).map
            Finding.message := by
  unfold fileEntries
  rw [List.filterMap_flatMap]
  refine congrArg (List.flatMap · files) (funext fun e => ?_)
  rw [List.filterMap_cons, Provenance.reasons_judge]
  rfl

/-- Every file is counted once. -/
theorem count_blamed_fileEntries (s : Settings) (maps : String → Provenance)
    (files : Table String (List Finding)) :
    (fileEntries s maps files).count .blamed = files.length := by
  induction files with
  | nil => rfl
  | cons e files ih =>
    have hj : (((maps e.1).judge s.base e.2).map Entry.finding).count .blamed = 0 := by
      rw [List.count_eq_zero]
      simp
    unfold fileEntries at ih ⊢
    rw [List.flatMap_cons, List.count_append, List.count_cons_self, hj, ih, List.length_cons]
    omega

/-- No totals are entered for a file. -/
theorem totals_not_mem_fileEntries (s : Settings) (maps : String → Provenance)
    (files : Table String (List Finding)) (t : Totals) :
    Entry.totals t ∉ fileEntries s maps files := by
  simp [fileEntries]

end Review

end LintGate
