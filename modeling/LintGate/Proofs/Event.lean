import LintGate.Proofs.Json.Overlong
import LintGate.Proofs.Json.Parts
import LintGate.Proofs.Schema
import LintGate.Proofs.Text.Trimming
import LintGate.Proofs.Text.Utf8
import LintGate.Settings.Load

/-!
# The base revision of an event

The base revision is what the event's document tells (`Told`), without the blanks around it. When
there is none, the program is not set up, and that is the fault to report: the file cannot be read,
its text is no document, the document is not that of a proposed change.

Two kinds of files get past this. A file's bytes may be no text, and its text may have an integer
that is too long in the reader's way, of which the reader does not say that it is a flaw. Both end
in faults of their own, which nothing between the reader and the settings takes for a fault of the
setup (`loadBase_settled`).
-/

namespace LintGate.Event

open Json (Spelling)
open Schema

/-! ## What a document tells -/

/-- **A document tells a base revision**: the `sha` of the `base` of its `pull_request` is a text,
and the revision is this text without the blanks around it. -/
def Tells (sp : Spelling) (base : String) : Prop :=
  ∃ request start sha given, sp.member? "pull_request" = some request ∧
    request.member? "base" = some start ∧ start.member? "sha" = some sha ∧
    sha.value = .str given ∧ Text.trim given = base ∧ base ≠ ""

/-- **A record with one member** is read when the member is written and is read. -/
theorem record_required_eq_ok_iff {α : Type} {sp : Spelling} {key : String}
    {reader : Json → Checked α} {a : α} :
    record (fun ms => required ms key reader) sp.value = .ok a ↔
      ∃ v, sp.member? key = some v ∧ reader v.value = .ok a := by
  simp only [record_eq_ok_iff, required_eq_ok_iff]
  constructor
  · rintro ⟨t, ht, v, hv, hread⟩
    rw [Spelling.get?_of_value_eq_obj ht] at hv
    obtain ⟨part, hpart, rfl⟩ := Option.map_eq_some_iff.1 hv
    exact ⟨part, hpart, hread⟩
  · rintro ⟨part, hpart, hread⟩
    obtain ⟨es, hes⟩ := Spelling.exists_entries_of_member? hpart
    have ht := Spelling.value_eq_obj_iff.2 ⟨es, hes, rfl⟩
    exact ⟨_, ht, part.value, by rw [Spelling.get?_of_value_eq_obj ht, hpart]; rfl, hread⟩

theorem revision_eq_ok_iff {j : Json} {base : String} :
    revision j = .ok base ↔ ∃ given, j = .str given ∧ Text.trim given = base ∧ base ≠ "" := by
  simp only [← Text.trimmed?_eq_some_iff]
  unfold revision
  cases j with
  | str s => cases hs : Text.trimmed? s <;> simp [text, hs, Checked.fail]
  | _ => simp [text, Checked.fail]

/-- **The base is read exactly when the document tells it.** -/
theorem base_eq_ok_iff {sp : Spelling} {revision : String} :
    Event.base sp.value = .ok revision ↔ Tells sp revision := by
  have hchecked : Event.base sp.value = .ok revision ↔ checkedBase sp.value = .ok revision := by
    unfold Event.base
    cases checkedBase sp.value <;> simp [Checked.named, Except.mapError]
  rw [hchecked, checkedBase, record_required_eq_ok_iff]
  simp only [record_required_eq_ok_iff, revision_eq_ok_iff]
  constructor
  · rintro ⟨request, hrequest, start, hstart, sha, hsha, given, hgiven, htrim, hne⟩
    exact ⟨request, start, sha, given, hrequest, hstart, hsha, hgiven, htrim, hne⟩
  · rintro ⟨request, start, sha, given, hrequest, hstart, hsha, hgiven, htrim, hne⟩
    exact ⟨request, hrequest, start, hstart, sha, hsha, given, hgiven, htrim, hne⟩

/-! ## What a file holds -/

variable {h : Host} {path : Option Path}

/-- The file at the path holds these bytes. -/
def HoldsBytes (h : Host) (path : Option Path) (bs : List UInt8) : Prop :=
  ∃ p, path = some p ∧ h.content? p = some (.bytes bs)

/-- **The file at the path holds this text**, whose line ends are unified. -/
def HoldsText (h : Host) (path : Option Path) (text : String) : Prop :=
  ∃ s : List Char, HoldsBytes h path (s.flatMap String.utf8EncodeChar) ∧
    text = String.ofList (Text.unifyLineEnds s)

/-- **The base revision is told** by the document in the file at the path. -/
def Told (h : Host) (path : Option Path) (base : String) : Prop :=
  ∃ text sp, HoldsText h path text ∧ sp.Spells text ∧ Tells sp base

/-- **The file at the path breaks the reader**: its bytes are no text, or its text has an integer
that is too long in the way. -/
def Breaks (h : Host) (path : Option Path) : Prop :=
  (∃ bs, HoldsBytes h path bs ∧ ∀ s : List Char, bs ≠ s.flatMap String.utf8EncodeChar) ∨
    ∃ text n, HoldsText h path text ∧ Json.IsOverlong text n

/-- **The file at the path is shallow**: the brackets of its text are not nested too deeply for the
reader. -/
def IsShallow (h : Host) (path : Option Path) : Prop :=
  ∀ text, HoldsText h path text → Json.bracketDepth text ≤ Json.deepest

theorem readBytes_eq_ok_iff {p : Path} {bs : List UInt8} :
    h.readBytes p = .ok bs ↔ h.content? p = some (.bytes bs) := by
  unfold Host.readBytes
  rcases h.content? p with _ | _ | _ | _ <;> simp

theorem HoldsBytes.unique {bs bs' : List UInt8} (hbs : HoldsBytes h path bs)
    (hbs' : HoldsBytes h path bs') : bs = bs' := by
  obtain ⟨p, rfl, hp⟩ := hbs
  obtain ⟨p', hpath, hp'⟩ := hbs'
  cases hpath
  rw [hp] at hp'
  cases hp'
  rfl

theorem HoldsText.unique {text text' : String} (ht : HoldsText h path text)
    (ht' : HoldsText h path text') : text = text' := by
  obtain ⟨s, hs, rfl⟩ := ht
  obtain ⟨s', hs', rfl⟩ := ht'
  have hbytes := hs.unique hs'
  have hdecode := Text.decode_utf8_eq_ok_iff.2 hbytes
  rw [Text.decode_utf8_eq_ok_iff.2 rfl] at hdecode
  cases hdecode
  rfl

/-- A file that holds a text breaks the reader only by what stands in the text. -/
theorem breaks_iff_of_holdsText {text : String} (ht : HoldsText h path text) :
    Breaks h path ↔ ∃ n, Json.IsOverlong text n := by
  constructor
  · rintro (⟨bs, hbs, hno⟩ | ⟨text', n, ht', hlong⟩)
    · obtain ⟨s, hs, -⟩ := ht
      exact absurd (hbs.unique hs) (hno s)
    · obtain rfl := ht.unique ht'
      exact ⟨n, hlong⟩
  · rintro ⟨n, hlong⟩
    exact .inr ⟨text, n, ht, hlong⟩

/-! ## Loading -/

/-- **What becomes of a text**: the base that its document tells, or the fault it ends in. -/
def ofText (path : Path) (text : String) : Except Fault String :=
  match document path text with
  | .ok j => (Event.base j).mapError .setup
  | .error f => .error f

section Steps

variable {p : Path} {bs : List UInt8}

theorem loadBase_of_access {why : FileFault} (hbytes : h.readBytes p = .error why) :
    loadBase h (some p) = .error (.setup (.eventAccess p why)) := by
  simp [loadBase, hbytes, bind, Except.bind, Except.mapError]

theorem loadBase_of_undecodable {f : Text.DecodeFault} (hbytes : h.readBytes p = .ok bs)
    (htext : Text.decode .utf8 .refuse bs = .error f) :
    loadBase h (some p) = .error (.undecodable f) := by
  simp [loadBase, hbytes, Host.textOf, htext, bind, Except.bind, Except.mapError, Except.map]

theorem loadBase_of_text {s : List Char} (hbytes : h.readBytes p = .ok bs)
    (htext : Text.decode .utf8 .refuse bs = .ok s) :
    loadBase h (some p) = ofText p (String.ofList (Text.unifyLineEnds s)) := by
  simp only [loadBase, hbytes, Host.textOf, htext, bind, Except.bind, Except.mapError, Except.map,
    ofText]
  cases document p (String.ofList (Text.unifyLineEnds s)) <;> rfl

end Steps

/-- **How loading goes**: the file cannot be read, its bytes are no text, or its text is read. -/
theorem loadBase_cases (h : Host) (path : Option Path) :
    (∃ f, loadBase h path = .error (.setup f) ∧ ∀ bs, ¬HoldsBytes h path bs) ∨
    (∃ bs f, loadBase h path = .error (.undecodable f) ∧ HoldsBytes h path bs ∧
      ∀ s : List Char, bs ≠ s.flatMap String.utf8EncodeChar) ∨
    ∃ p text, loadBase h path = ofText p text ∧ HoldsText h path text := by
  cases path with
  | none => exact .inl ⟨.noEvent, rfl, fun bs ⟨p, hp, _⟩ => by cases hp⟩
  | some p =>
    cases hbytes : h.readBytes p with
    | error why =>
      refine .inl ⟨.eventAccess p why, loadBase_of_access hbytes, ?_⟩
      rintro bs ⟨p', hpath, hp⟩
      cases hpath
      rw [readBytes_eq_ok_iff.2 hp] at hbytes
      cases hbytes
    | ok bs =>
      have hholds : HoldsBytes h (some p) bs := ⟨p, rfl, readBytes_eq_ok_iff.1 hbytes⟩
      cases hs : Text.decode .utf8 .refuse bs with
      | error f =>
        refine .inr (.inl ⟨bs, f, loadBase_of_undecodable hbytes hs, hholds, fun s hbs => ?_⟩)
        rw [Text.decode_utf8_eq_ok_iff.2 hbs] at hs
        cases hs
      | ok s =>
        rw [Text.decode_utf8_eq_ok_iff.1 hs] at hholds
        exact .inr (.inr ⟨p, _, loadBase_of_text hbytes hs, s, hholds, rfl⟩)

/-- **A base that is loaded is told.** -/
theorem told_of_loadBase {base : String} (hload : loadBase h path = .ok base) :
    Told h path base := by
  rcases loadBase_cases h path with ⟨f, herror, -⟩ | ⟨bs, f, herror, -⟩ | ⟨p, text, htext, hholds⟩
  · rw [hload] at herror
    cases herror
  · rw [hload] at herror
    cases herror
  · rw [htext, ofText, document] at hload
    cases hread : Json.read text with
    | error f => cases f <;> simp [hread] at hload
    | ok j =>
      obtain ⟨sp, hspells, rfl, -⟩ := Json.read_eq_ok_iff.1 hread
      cases hbase : Event.base sp.value with
      | error f => simp [hread, hbase, Except.mapError] at hload
      | ok base' =>
        obtain rfl : base' = base := by simpa [hread, hbase, Except.mapError] using hload
        exact ⟨text, sp, hholds, hspells, base_eq_ok_iff.1 hbase⟩

/-- A base that is told is not empty, and no blank is at its ends. -/
theorem Told.isTrimmed {base : String} (htold : Told h path base) :
    base ≠ "" ∧ Text.IsTrimmed base := by
  obtain ⟨-, -, -, -, -, -, -, given, -, -, -, -, htrim⟩ := htold
  exact Text.isTrimmed_of_trimmed? (Text.trimmed?_eq_some_iff.2 htrim)

/-- **The base is settled**: it is told and has no blanks at its ends, or the program is reported
as not set up. -/
def Settled (h : Host) (path : Option Path) : Prop :=
  (∃ base, loadBase h path = .ok base ∧ base ≠ "" ∧ Text.IsTrimmed base ∧ Told h path base) ∨
    ∃ f, loadBase h path = .error f ∧ f.kind = .configuration

/-- A base that is not loaded is settled by the kind of the fault. -/
theorem settled_iff_of_error {f : Fault} (hload : loadBase h path = .error f) :
    Settled h path ↔ f.kind = .configuration := by
  refine ⟨?_, fun hkind => .inr ⟨f, hload, hkind⟩⟩
  rintro (⟨base, hok, -⟩ | ⟨f', herror, hkind⟩)
  · rw [hload] at hok
    cases hok
  · rw [hload] at herror
    cases herror
    exact hkind

/-- How the reading of a text ends, by what the text is. -/
theorem ofText_cases {text : String} (hdepth : Json.bracketDepth text ≤ Json.deepest)
    (p : Path) :
    ((∃ base sp, ofText p text = .ok base ∧ sp.Spells text ∧ Tells sp base) ∨
        ∃ f, ofText p text = .error (.setup f)) ∧ (∀ n, ¬Json.IsOverlong text n) ∨
      ∃ n, ofText p text = .error (.numeral n) ∧ Json.IsOverlong text n := by
  have hlong : ∀ n, Json.IsOverlong text n ↔ Json.read text = .error (.digits n) :=
    fun n => (Json.read_eq_digits_iff hdepth).symm
  simp only [hlong]
  unfold ofText document
  cases hread : Json.read text with
  | ok j =>
    refine .inl ⟨?_, by simp⟩
    obtain ⟨sp, hspells, rfl, -⟩ := Json.read_eq_ok_iff.1 hread
    cases hbase : Event.base sp.value with
    | ok base =>
      exact .inl ⟨base, sp, by simp [hbase, Except.mapError], hspells, base_eq_ok_iff.1 hbase⟩
    | error f => exact .inr ⟨f, by simp [hbase, Except.mapError]⟩
  | error f =>
    cases f with
    | flawed flaw place => exact .inl ⟨.inr ⟨_, rfl⟩, by simp⟩
    | digits n => exact .inr ⟨n, rfl, rfl⟩
    | nesting b => exact absurd (Json.deepest_lt_of_nesting hread) (Nat.not_lt.2 hdepth)

/-- The file of an event breaks the reader only by bytes that it holds. -/
theorem not_breaks_of_not_holdsBytes (hno : ∀ bs, ¬HoldsBytes h path bs) : ¬Breaks h path := by
  rintro (⟨bs, hbs, -⟩ | ⟨text, n, ⟨s, hs, -⟩, -⟩)
  · exact hno bs hbs
  · exact hno _ hs

/-- **The base is settled, or the file breaks the reader** and loading ends in a fault that is no
fault of the setup. -/
theorem settled_or_breaks (hshallow : IsShallow h path) :
    Settled h path ∧ ¬Breaks h path ∨
      Breaks h path ∧ ∃ f, loadBase h path = .error f ∧ f.kind ∈ [.undecodable, .value] := by
  rcases loadBase_cases h path with ⟨f, hload, hno⟩ | ⟨bs, f, hload, hbs, hno⟩ |
    ⟨p, text, hload, htext⟩
  · exact .inl ⟨.inr ⟨_, hload, rfl⟩, not_breaks_of_not_holdsBytes hno⟩
  · exact .inr ⟨.inl ⟨bs, hbs, hno⟩, _, hload, by simp [Fault.kind]⟩
  · rw [breaks_iff_of_holdsText htext]
    rcases ofText_cases (hshallow text htext) p with ⟨⟨base, sp, hok, hspells, htells⟩ |
      ⟨f, herror⟩, hshort⟩ | ⟨n, herror, hlong⟩
    · have htold : Told h path base := ⟨text, sp, htext, hspells, htells⟩
      obtain ⟨hne, htrimmed⟩ := htold.isTrimmed
      exact .inl ⟨.inl ⟨base, hload.trans hok, hne, htrimmed, htold⟩, fun ⟨n, hn⟩ => hshort n hn⟩
    · exact .inl ⟨.inr ⟨_, hload.trans herror, rfl⟩, fun ⟨n, hn⟩ => hshort n hn⟩
    · exact .inr ⟨⟨n, hlong⟩, _, hload.trans herror, by simp [Fault.kind]⟩

/-- **A base that is told is loaded.** -/
theorem loadBase_of_told (hshallow : IsShallow h path) {base : String}
    (htold : Told h path base) : loadBase h path = .ok base := by
  obtain ⟨text, sp, htext, hspells, htells⟩ := htold
  have hnesting : sp.nesting ≤ Json.deepest :=
    Json.bracketDepth_of_spells hspells ▸ hshallow text htext
  have hread := Json.read_eq_ok_iff.2 ⟨sp, hspells, rfl, hnesting⟩
  rcases loadBase_cases h path with ⟨f, -, hno⟩ | ⟨bs, f, -, hbs, hno⟩ | ⟨p, text', hload, htext'⟩
  · obtain ⟨s, hs, -⟩ := htext
    exact absurd hs (hno _)
  · obtain ⟨s, hs, -⟩ := htext
    exact absurd (hbs.unique hs) (hno s)
  · obtain rfl := htext.unique htext'
    rw [hload, ofText, document, hread]
    simp [base_eq_ok_iff.2 htells, Except.mapError]

/-! ## Settings -/

/-- **Of settings, only the base may go wrong in another way** than by not being set up. -/
theorem kind_of_load {i : Settings.Inputs} {f : Fault} (hload : Settings.load h i = .error f) :
    f.kind = .configuration ∨ Event.loadBase h i.event = .error f := by
  unfold Settings.load at hload
  split at hload
  next =>
    cases hload
    exact .inl rfl
  next linter hlinter =>
    split at hload
    next f' hbase =>
      cases hload
      unfold Settings.baseOf at hbase
      split at hbase
      next => cases hbase
      next => exact .inr hbase
    next base hbase =>
      refine .inl ?_
      cases hchecked : Settings.checked (.ofString linter) (Settings.given? i.standard)
          (Settings.strictOf i.strictness) base i.jobs (i.root.getD .root) with
      | ok s =>
        rw [hchecked] at hload
        cases hload
      | error why =>
        rw [hchecked] at hload
        cases hload
        rfl

/-- The fault of an event that has to tell the base is the fault of the settings. -/
theorem load_of_loadBase {f : Fault} (hload : Event.loadBase h path = .error f) :
    Settings.load h { linter := some "phpcs", event := path } = .error f := by
  have hgiven : Settings.given? (some "phpcs") = some "phpcs" := by decide +kernel
  have hbase : Settings.baseOf h { linter := some "phpcs", event := path } = .error f := hload
  simp only [Settings.load, hgiven, hbase]

/-- **The base is settled exactly when the file does not break the reader**, and then, and only
then, whatever is wrong with settings is reported as such. What the document tells is what is
loaded. -/
theorem loadBase_settled (hshallow : IsShallow h path) :
    (Settled h path ↔ ¬Breaks h path) ∧
    ((∀ (i : Settings.Inputs) (f : Fault), i.event = path → Settings.load h i = .error f →
        f.kind = .configuration) ↔ ¬Breaks h path) ∧
    (∀ base, Told h path base → loadBase h path = .ok base) ∧
    (Breaks h path → ∃ f, loadBase h path = .error f ∧ f.kind ∈ [.undecodable, .value]) := by
  have htold : ∀ base, Told h path base → loadBase h path = .ok base :=
    fun base => loadBase_of_told hshallow
  rcases settled_or_breaks hshallow with ⟨hsettled, hwhole⟩ | ⟨hbreaks, f, hload, hkind⟩
  · refine ⟨iff_of_true hsettled hwhole, iff_of_true (fun i f hevent hf => ?_) hwhole, htold,
      fun hbreaks => absurd hbreaks hwhole⟩
    subst hevent
    rcases kind_of_load hf with hkind | hbase
    · exact hkind
    · exact (settled_iff_of_error hbase).1 hsettled
  · have hother : f.kind ≠ .configuration := by
      rintro hconfiguration
      rw [hconfiguration] at hkind
      simp at hkind
    refine ⟨iff_of_false (fun hsettled => ?_) (not_not_intro hbreaks),
      iff_of_false (fun hall => ?_) (not_not_intro hbreaks), htold, fun _ => ⟨f, hload, hkind⟩⟩
    · exact hother ((settled_iff_of_error hload).1 hsettled)
    · exact hother (hall _ f rfl (load_of_loadBase hload))

/-- A path, -/
def eventPath : Path := .ofString "event.json"

/-- a host with these bytes there -/
def hostWith (bs : List UInt8) : Host := { files := [("event.json", .bytes bs)] }

/-- and the document of an event, whose revision has a blank in front. -/
def proposed : String := "\x7b\"pull_request\": \x7b\"base\": \x7b\"sha\": \" abc\"\x7d\x7d\x7d"

/-- The host whose event is this one. -/
def proposing : Host := hostWith (proposed.toList.flatMap String.utf8EncodeChar)

/-- The blank is not part of the base. -/
theorem loadBase_settled_proposed :
    IsShallow proposing (some eventPath) ∧ loadBase proposing (some eventPath) = .ok "abc" ∧
      Settled proposing (some eventPath) := by
  have hload : loadBase proposing (some eventPath) = .ok "abc" := by decide +kernel
  have htext : HoldsText proposing (some eventPath) proposed :=
    ⟨proposed.toList, ⟨eventPath, rfl, by decide +kernel⟩, by decide +kernel⟩
  have hshallow : IsShallow proposing (some eventPath) := by
    intro text ht
    obtain rfl := htext.unique ht
    decide +kernel
  obtain ⟨hsettled, -, -, hbreaks⟩ := loadBase_settled hshallow
  refine ⟨hshallow, hload, hsettled.2 fun hbreak => ?_⟩
  obtain ⟨f, hf, -⟩ := hbreaks hbreak
  rw [hload] at hf
  cases hf

/-- A byte that begins no sequence is not reported as a fault of the setup. -/
theorem loadBase_escapes :
    loadBase (hostWith [0xff]) (some eventPath) =
      .error (.undecodable ⟨.utf8, 0, [0xff], .start⟩) ∧
    ¬Settled (hostWith [0xff]) (some eventPath) := by
  have hload : loadBase (hostWith [0xff]) (some eventPath) =
      .error (.undecodable ⟨.utf8, 0, [0xff], .start⟩) := by decide +kernel
  refine ⟨hload, fun hsettled => ?_⟩
  cases (settled_iff_of_error hload).1 hsettled

end LintGate.Event
