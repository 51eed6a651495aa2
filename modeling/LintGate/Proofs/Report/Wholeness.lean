import LintGate.Fault
import LintGate.Proofs.Json.Nesting
import LintGate.Proofs.Report.Contents

/-!
# A report is read whole or not at all

A document that is refused is refused as the linter's failure, for whatever reason it has: it is no
JSON document, it does not have the shape of a report, a label names no severity, a place is none.
The one exception is a document that is nested too deeply to be read, and whether it is can be
counted in its text. A document that is not refused yields its report (`Report.Yields`), so no
message is left out of it: a single message that no finding can be made of (`Unusable`), wherever
it stands, leaves no report at all.
-/

namespace LintGate.Report

open Json (Spelling)

/-! ## Refusals -/

theorem finding_ne_text (file : String) (m : Message) (f : Json.ReadFault) :
    m.finding file ≠ .error (.text f) := by
  unfold Message.finding
  split
  · simp
  · split <;> simp

/-- Once the text is read, nothing is wrong with it any more. -/
theorem ofDocument_ne_text (j : Json) (f : Json.ReadFault) : ofDocument j ≠ .error (.text f) := by
  intro h
  unfold ofDocument at h
  split at h
  next => cases h
  next d hd =>
    split at h
    next why hfindings =>
      cases h
      obtain ⟨e, -, he⟩ := Schema.exists_of_mapM_eq_error hfindings
      cases hms : e.2.mapM (Message.finding e.1) with
      | error why =>
        have hwhy : why = .text f := by simpa [hms, bind, Except.bind] using he
        obtain ⟨m, -, hm⟩ := Schema.exists_of_mapM_eq_error hms
        exact finding_ne_text e.1 m f (hwhy ▸ hm)
      | ok fs => simp [hms, bind, Except.bind, pure, Except.pure] at he
    next => cases h

/-- **A refusal is the linter's failure**, unless the document is nested too deeply. -/
theorem kind_ofUnreadable {s : String} {why : Unreadable} (h : parse s = .error why)
    (hdepth : Json.bracketDepth s ≤ Json.deepest) : (Fault.ofUnreadable why).kind = .tool := by
  cases why with
  | shape i => rfl
  | severity label => rfl
  | text f =>
    cases f with
    | flawed f place => rfl
    | digits count => rfl
    | nesting b =>
      have hread : Json.read s = .error (.nesting b) := by
        unfold parse at h
        split at h
        next f hf =>
          cases h
          exact hf
        next j hj => exact absurd h (ofDocument_ne_text j _)
      exact absurd (Json.deepest_lt_of_nesting hread) (Nat.not_lt.2 hdepth)

/-! ## Messages -/

/-- **A message stands in a document**: under the entry of a file that counts. -/
def HasMessage (sp m : Spelling) : Prop :=
  ∃ list file entry messages ms, sp.member? "files" = some list ∧
    list.member? file = some entry ∧ entry.member? "messages" = some messages ∧
    messages.items? = some ms ∧ m ∈ ms

/-- **A message that no finding can be made of.** -/
inductive Unusable (m : Spelling) : Prop
  /-- A member that every message needs is absent. -/
  | absent (key : String) (needed : key ∈ ["message", "type", "line", "column"])
    (none : m.member? key = none)
  /-- The label names no severity. -/
  | label (label : String) (isLabel : HasText m "type" label)
    (unknown : ∀ s, ¬Severity.Names label s)
  /-- The line or the column is less than one. -/
  | place (key : String) (isPlace : key ∈ ["line", "column"]) (i : Int)
    (isInteger : HasInteger m key i) (small : i < 1)

/-- A member is one text and no other. -/
theorem HasText.unique {sp : Spelling} {key s t : String} (hs : HasText sp key s)
    (ht : HasText sp key t) : s = t := by
  obtain ⟨v, hv, hs⟩ := hs
  obtain ⟨w, hw, ht⟩ := ht
  obtain rfl : v = w := Option.some.inj (hv.symm.trans hw)
  exact Json.str.inj (hs.symm.trans ht)

/-- A member means one integer and no other. -/
theorem HasInteger.unique {sp : Spelling} {key : String} {i j : Int} (hi : HasInteger sp key i)
    (hj : HasInteger sp key j) : i = j := by
  obtain ⟨v, hv, hi⟩ := hi
  obtain ⟨w, hw, hj⟩ := hj
  obtain rfl : v = w := Option.some.inj (hv.symm.trans hw)
  exact Except.ok.inj (hi.symm.trans hj)

/-- No finding says what such a message says. -/
theorem Unusable.not_conveys {m : Spelling} (h : Unusable m) (file : String) (f : Finding) :
    ¬Conveys file m f := by
  intro hconveys
  cases h with
  | absent key needed none =>
    have hpresent : ∃ v, m.member? key = some v := by
      obtain ⟨label, ⟨vt, htype, -⟩, -⟩ := hconveys.severity
      obtain ⟨vm, hmessage, -⟩ := hconveys.message
      obtain ⟨vl, hline, -⟩ := hconveys.line
      obtain ⟨vc, hcolumn, -⟩ := hconveys.column
      simp only [List.mem_cons, List.not_mem_nil, or_false] at needed
      rcases needed with rfl | rfl | rfl | rfl
      · exact ⟨vm, hmessage⟩
      · exact ⟨vt, htype⟩
      · exact ⟨vl, hline⟩
      · exact ⟨vc, hcolumn⟩
    obtain ⟨v, hv⟩ := hpresent
    rw [none] at hv
    cases hv
  | label label isLabel unknown =>
    obtain ⟨label', hlabel', hnames⟩ := hconveys.severity
    obtain rfl := isLabel.unique hlabel'
    exact unknown _ hnames
  | place key isPlace i isInteger small =>
    have hline := hconveys.one_le_line
    have hcolumn := hconveys.one_le_column
    simp only [List.mem_cons, List.not_mem_nil, or_false] at isPlace
    rcases isPlace with rfl | rfl
    · have hi := isInteger.unique hconveys.line
      omega
    · have hi := isInteger.unique hconveys.column
      omega

/-- **Every message of a document makes a finding** of the report that the document yields. -/
theorem Yields.exists_conveys {sp m : Spelling} {r : Report} (hr : Yields sp r)
    (hm : HasMessage sp m) : ∃ file f, Conveys file m f := by
  obtain ⟨list, file, entry, messages, ms, hlist, hentry, hmessages, hitems, hmem⟩ := hm
  rcases hr.files with ⟨hnone, -⟩ | ⟨list', hlist', hlists⟩
  · rw [hnone] at hlist
    cases hlist
  obtain rfl : list = list' := Option.some.inj (hlist.symm.trans hlist')
  obtain ⟨es, hes, hkeys⟩ := hlists.keys
  have hfile : file ∈ r.files.keys := by
    rw [hkeys, List.mem_eraseDups]
    exact Json.Spelling.mem_keys_of_member? hes hentry
  obtain ⟨f, hf, rfl⟩ := List.mem_map.1 hfile
  obtain ⟨entry', hentry', hfound⟩ := hlists.found f hf
  obtain rfl : entry = entry' := Option.some.inj (hentry.symm.trans hentry')
  rcases hfound.messages with ⟨hnone, -⟩ | ⟨messages', ms', hmessages', hitems', hconveys⟩
  · rw [hnone] at hmessages
    cases hmessages
  obtain rfl : messages = messages' := Option.some.inj (hmessages.symm.trans hmessages')
  obtain rfl : ms = ms' := Option.some.inj (hitems.symm.trans hitems')
  obtain ⟨i, hi, rfl⟩ := List.mem_iff_get.1 hmem
  exact ⟨f.1, _, hconveys.get i.isLt (hconveys.length_eq ▸ i.isLt)⟩

/-! ## The result -/

/-- **A document is read whole or refused.** -/
theorem parse_whole {s : String} (hdepth : Json.bracketDepth s ≤ Json.deepest) :
    ((∃ why, parse s = .error why ∧ (Fault.ofUnreadable why).kind = .tool) ∨
      ∃ (sp : Spelling) (r : Report), sp.Spells s ∧ Yields sp r ∧ parse s = .ok r) ∧
    ∀ sp m : Spelling, sp.Spells s → HasMessage sp m → Unusable m →
      ∃ why, parse s = .error why ∧ (Fault.ofUnreadable why).kind = .tool := by
  cases hparse : parse s with
  | error why =>
    have htool := kind_ofUnreadable hparse hdepth
    exact ⟨.inl ⟨why, rfl, htool⟩, fun _ _ _ _ _ => ⟨why, rfl, htool⟩⟩
  | ok r =>
    obtain ⟨sp, hs, -, hyields⟩ := parse_eq_ok_iff.1 hparse
    refine ⟨.inr ⟨sp, r, hs, hyields, rfl⟩, fun sp' m hs' hm hunusable => ?_⟩
    -- any other spelling of the text has the same value, so it yields the report too
    have hnesting : sp'.nesting ≤ Json.deepest := Json.bracketDepth_of_spells hs' ▸ hdepth
    rw [parse_of_spells hs' hnesting, ofDocument_eq_ok_iff] at hparse
    obtain ⟨file, f, hconveys⟩ := hparse.exists_conveys hm
    exact absurd hconveys (hunusable.not_conveys file f)

/-- A document that enters one file twice, the first time with a message that has no members. -/
def doubled : String :=
  "\x7b\"totals\": \x7b\x7d, \"files\": \x7b\"b.php\": \x7b\"messages\": [\x7b\x7d]\x7d, " ++
    "\"a.php\": \x7b\x7d, \"b.php\": \x7b\"messages\": [\x7b\"message\": \"m\", " ++
    "\"type\": \" Error\", \"line\": \"2\", " ++
    "\"column\": 1.0\x7d]\x7d\x7d\x7d"

/-- Of two entries for one file the last one counts, and it stands in the place of the first. -/
theorem parse_whole_doubled :
    Json.bracketDepth doubled ≤ Json.deepest ∧
      parse doubled = .ok ⟨{}, [("b.php", [⟨"b.php", 2, 1, .error, "m", ""⟩]), ("a.php", [])]⟩ ∧
      ∃ (sp : Spelling) (r : Report), sp.Spells doubled ∧ Yields sp r ∧ parse doubled = .ok r := by
  have hdepth : Json.bracketDepth doubled ≤ Json.deepest := by decide +kernel
  have hparse : parse doubled =
      .ok ⟨{}, [("b.php", [⟨"b.php", 2, 1, .error, "m", ""⟩]), ("a.php", [])]⟩ := by
    decide +kernel
  refine ⟨hdepth, hparse, (parse_whole hdepth).1.resolve_left ?_⟩
  rintro ⟨why, herror, -⟩
  rw [hparse] at herror
  cases herror

end LintGate.Report
