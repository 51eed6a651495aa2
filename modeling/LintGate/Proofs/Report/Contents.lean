import LintGate.Proofs.Json.Parts
import LintGate.Proofs.Json.Reading
import LintGate.Proofs.Schema
import LintGate.Report.Document

/-!
# What a report document says

`Yields sp r` says that the report `r` is what is written in the document `sp`: its totals are the
written ones, its files are the keys that are written under `files`, each where it first stands,
and the findings of a file are what the messages under the last entry of that key say, one for one.
Nothing of it refers to the order in which the reader works, or to its two rounds.

A document is read as a report exactly when it yields the report (`parse_eq_ok_iff`), so a report is
never a part of what a document holds.
-/

namespace LintGate

open Schema

/-- **A label names a severity**: without blanks at its ends and in small letters it is the name. -/
def Severity.Names (label : String) (s : Severity) : Prop :=
  String.ofList ((Text.trim label).toList.map Char.toLower) = s.name

theorem Severity.ofLabel?_eq_some_iff {label : String} {s : Severity} :
    ofLabel? label = some s ↔ Names label s := by
  unfold ofLabel? Names
  generalize String.ofList ((Text.trim label).toList.map Char.toLower) = n
  constructor
  · intro h
    by_cases herror : n = "error"
    · subst herror
      cases h
      rfl
    · by_cases hwarning : n = "warning"
      · subst hwarning
        cases h
        rfl
      · simp [names, List.lookup_cons, beq_false_of_ne herror, beq_false_of_ne hwarning] at h
  · rintro rfl
    exact lookup_name s

namespace Report

open Json (Spelling lastMember?)

/-! ## Parts of what is spelled -/

/-- **A required member** is written and is read. -/
theorem required_iff_member? {α : Type} {sp : Spelling} {t : Table String Json}
    (h : sp.value = .obj t) {key : String} {reader : Json → Checked α} {a : α} :
    required t key reader = .ok a ↔ ∃ v, sp.member? key = some v ∧ reader v.value = .ok a := by
  simp [required_eq_ok_iff, Json.Spelling.get?_of_value_eq_obj h]

/-- **An optional member** is not written, or it is written and is read. -/
theorem optional_iff_member? {α : Type} {sp : Spelling} {t : Table String Json}
    (h : sp.value = .obj t) {key : String} {fallback : α} {reader : Json → Checked α} {a : α} :
    optional t key fallback reader = .ok a ↔
      sp.member? key = none ∧ a = fallback ∨
        ∃ v, sp.member? key = some v ∧ reader v.value = .ok a := by
  simp [optional_eq_ok_iff, Json.Spelling.get?_of_value_eq_obj h]

/-- **A list** has its items written, and every one of them is read. -/
theorem listOf_iff_items? {α : Type} {sp : Spelling} {wrong : Defect} {item : Json → Checked α}
    {as : List α} :
    listOf wrong item sp.value = .ok as ↔
      ∃ vs, sp.items? = some vs ∧ List.Forall₂ (fun v a => item v.value = .ok a) vs as := by
  simp only [listOf_eq_ok_iff_forall₂, Json.Spelling.value_eq_arr_iff]
  constructor
  · rintro ⟨_, ⟨vs, hvs, rfl⟩, h⟩
    exact ⟨vs, hvs, List.forall₂_map_left_iff.1 h⟩
  · rintro ⟨vs, hvs, h⟩
    exact ⟨_, ⟨vs, hvs, rfl⟩, List.forall₂_map_left_iff.2 h⟩

/-! ## Messages -/

/-- A member of an object is this text. -/
def HasText (sp : Spelling) (key : String) (s : String) : Prop :=
  ∃ v, sp.member? key = some v ∧ v.value = .str s

/-- A member of an object means this integer. -/
def HasInteger (sp : Spelling) (key : String) (i : Int) : Prop :=
  ∃ v, sp.member? key = some v ∧ integer v.value = .ok i

/-- **A finding is what a message says.** -/
structure Conveys (file : String) (sp : Spelling) (f : Finding) : Prop where
  /-- It belongs to the file whose entry holds the message. -/
  file_eq : f.file = file
  /-- Its text is the one that is written. -/
  message : HasText sp "message" f.message
  /-- Its rule is the one that is written, if any. -/
  source : sp.member? "source" = none ∧ f.source = "" ∨ HasText sp "source" f.source
  /-- Its severity is the one that the label names. -/
  severity : ∃ label, HasText sp "type" label ∧ Severity.Names label f.severity
  /-- Its line is the one that is written, -/
  line : HasInteger sp "line" f.line
  /-- and so is its column. -/
  column : HasInteger sp "column" f.column
  /-- Lines are counted from one, -/
  one_le_line : 1 ≤ f.line
  /-- and so are columns. -/
  one_le_column : 1 ≤ f.column

theorem required_text_iff {sp : Spelling} {t : Table String Json} (h : sp.value = .obj t)
    {key s : String} : required t key text = .ok s ↔ HasText sp key s := by
  simp [required_iff_member? h, text_eq_ok_iff, HasText]

theorem required_integer_iff {sp : Spelling} {t : Table String Json} (h : sp.value = .obj t)
    {key : String} {i : Int} : required t key integer = .ok i ↔ HasInteger sp key i :=
  required_iff_member? h

theorem optional_text_iff {sp : Spelling} {t : Table String Json} (h : sp.value = .obj t)
    {key s : String} :
    optional t key "" text = .ok s ↔ sp.member? key = none ∧ s = "" ∨ HasText sp key s := by
  simp [optional_iff_member? h, text_eq_ok_iff, HasText]

/-- **A message is read when its members are**, and its parts are the written ones. -/
theorem message_ofJson_eq_ok_iff {sp : Spelling} {m : Message} :
    Message.ofJson sp.value = .ok m ↔
      HasText sp "message" m.message ∧
        (sp.member? "source" = none ∧ m.source = "" ∨ HasText sp "source" m.source) ∧
        HasText sp "type" m.label ∧ HasInteger sp "line" m.line ∧
        HasInteger sp "column" m.column := by
  unfold Message.ofJson
  rw [record_eq_ok_iff]
  constructor
  · rintro ⟨t, ht, h⟩
    simp only [Checked.and_eq_ok_iff, Checked.make, required_text_iff ht, optional_text_iff ht,
      required_integer_iff ht] at h
    obtain ⟨_, column, ⟨_, line, ⟨_, label, ⟨_, source, ⟨_, message, hmake, hmessage, rfl⟩,
      hsource, rfl⟩, hlabel, rfl⟩, hline, rfl⟩, hcolumn, hm⟩ := h
    cases hmake
    cases hm
    exact ⟨hmessage, hsource, hlabel, hline, hcolumn⟩
  · rintro ⟨hmessage, hsource, hlabel, hline, hcolumn⟩
    obtain ⟨v, hv, -⟩ := id hmessage
    obtain ⟨es, hes⟩ := Json.Spelling.exists_entries_of_member? hv
    have ht := Json.Spelling.value_eq_obj_iff.2 ⟨es, hes, rfl⟩
    refine ⟨_, ht, ?_⟩
    simp only [Checked.and_eq_ok_iff, Checked.make, required_text_iff ht, optional_text_iff ht,
      required_integer_iff ht]
    exact ⟨_, m.column, ⟨_, m.line, ⟨_, m.label, ⟨_, m.source, ⟨_, m.message, rfl, hmessage, rfl⟩,
      hsource, rfl⟩, hlabel, rfl⟩, hline, rfl⟩, hcolumn, rfl⟩

theorem position_eq_ok_iff {i : Int} {n : Nat} :
    position (.int i) = .ok n ↔ (n : Int) = i ∧ 1 ≤ n := by
  rw [position, natural_eq_ok_iff, integer, Except.ok.injEq, eq_comm]

/-- Where the label names a severity, a finding is made when its fields are accepted. -/
theorem finding_eq_ok_iff_checked {file : String} {m : Message} {f : Finding} {s : Severity}
    (hs : Severity.ofLabel? m.label = some s) :
    m.finding file = .ok f ↔
      Finding.checked file m.line m.column s m.message m.source = .ok f := by
  unfold Message.finding
  rw [hs]
  dsimp only
  cases Finding.checked file m.line m.column s m.message m.source <;> simp [Checked.named]

/-- **A finding is made of a message** whose label names its severity and whose place is one. -/
theorem finding_eq_ok_iff {file : String} {m : Message} {f : Finding} :
    m.finding file = .ok f ↔
      f.file = file ∧ f.message = m.message ∧ f.source = m.source ∧
        Severity.Names m.label f.severity ∧ ((f.line : Int) = m.line ∧ 1 ≤ f.line) ∧
        (f.column : Int) = m.column ∧ 1 ≤ f.column := by
  rw [← Severity.ofLabel?_eq_some_iff]
  cases hs : Severity.ofLabel? m.label with
  | none => simp [Message.finding, hs]
  | some severity =>
    rw [finding_eq_ok_iff_checked hs]
    simp only [Finding.checked, Checked.and_eq_ok_iff, Checked.make, Checked.under_eq_ok_iff,
      position_eq_ok_iff]
    constructor
    · rintro ⟨_, column, ⟨_, line, hmake, hline, rfl⟩, hcolumn, hf⟩
      cases hmake
      cases hf
      exact ⟨rfl, rfl, rfl, rfl, hline, hcolumn⟩
    · rintro ⟨rfl, hmessage, hsource, hseverity, hline, hcolumn⟩
      refine ⟨_, f.column, ⟨_, f.line, rfl, hline, rfl⟩, hcolumn, ?_⟩
      cases hseverity
      rw [← hmessage, ← hsource]

/-- **The two rounds of reading a message** come to what it says. -/
theorem exists_message_iff_conveys {file : String} {sp : Spelling} {f : Finding} :
    (∃ m, Message.ofJson sp.value = .ok m ∧ m.finding file = .ok f) ↔ Conveys file sp f := by
  simp only [message_ofJson_eq_ok_iff, finding_eq_ok_iff]
  constructor
  · rintro ⟨m, ⟨hmessage, hsource, hlabel, hline, hcolumn⟩, hfile, hm, hs, hnames, hl, hc⟩
    exact {
      file_eq := hfile
      message := hm ▸ hmessage
      source := hs ▸ hsource
      severity := ⟨m.label, hlabel, hnames⟩
      line := hl.1 ▸ hline
      column := hc.1 ▸ hcolumn
      one_le_line := hl.2
      one_le_column := hc.2 }
  · intro h
    obtain ⟨label, hlabel, hnames⟩ := h.severity
    exact ⟨⟨f.message, f.source, label, f.line, f.column⟩,
      ⟨h.message, h.source, hlabel, h.line, h.column⟩, h.file_eq, rfl, rfl, hnames,
      ⟨rfl, h.one_le_line⟩, rfl, h.one_le_column⟩

/-! ## Files -/

/-- **The findings of a file are what its entry says**: one for each message, in order, or none
where there is no list of messages. -/
structure Found (file : String) (entry : Spelling) (findings : List Finding) : Prop where
  /-- The entry is an object. -/
  isObject : ∃ es, entry.entries? = some es
  /-- The findings are those of the messages. -/
  messages : entry.member? "messages" = none ∧ findings = [] ∨
    ∃ list ms, entry.member? "messages" = some list ∧ list.items? = some ms ∧
      List.Forall₂ (Conveys file) ms findings

/-- **The files of a report are the keys of an object**, each where it is first written, and their
findings are what the last entry of the key says. -/
structure Lists (list : Spelling) (files : Table String (List Finding)) : Prop where
  /-- The files are the keys. -/
  keys : ∃ es, list.entries? = some es ∧ files.keys = (es.map Prod.fst).eraseDups
  /-- Each has the findings of the entry that counts. -/
  found : ∀ f ∈ files, ∃ entry, list.member? f.1 = some entry ∧ Found f.1 entry f.2

/-- The two rounds of reading the entry of a file. -/
def Makes (file : String) (entry : Json) (findings : List Finding) : Prop :=
  ∃ ms, messagesOfJson entry = .ok ms ∧
    List.Forall₂ (fun m f => Message.finding file m = .ok f) ms findings

/-- **The entry of a file is read message by message.** -/
theorem makes_iff_found {file : String} {entry : Spelling} {findings : List Finding} :
    Makes file entry.value findings ↔ Found file entry findings := by
  simp only [Makes, messagesOfJson, record_eq_ok_iff]
  constructor
  · rintro ⟨ms, ⟨t, ht, h⟩, hfindings⟩
    obtain ⟨es, hes, -⟩ := Json.Spelling.value_eq_obj_iff.1 ht
    refine ⟨⟨es, hes⟩, ?_⟩
    rcases (optional_iff_member? ht).1 h with ⟨hnone, rfl⟩ | ⟨list, hmember, hlist⟩
    · exact .inl ⟨hnone, List.forall₂_nil_left_iff.1 hfindings⟩
    · obtain ⟨sps, hitems, hmessages⟩ := listOf_iff_items?.1 hlist
      have hconveys := exists_forall₂_forall₂_iff.1 ⟨ms, hmessages, hfindings⟩
      exact .inr ⟨list, sps, hmember, hitems, hconveys.imp fun _ _ => exists_message_iff_conveys.1⟩
  · rintro ⟨⟨es, hes⟩, hmessages⟩
    have ht := Json.Spelling.value_eq_obj_iff.2 ⟨es, hes, rfl⟩
    rcases hmessages with ⟨hnone, rfl⟩ | ⟨list, sps, hmember, hitems, hconveys⟩
    · exact ⟨[], ⟨_, ht, (optional_iff_member? ht).2 (.inl ⟨hnone, rfl⟩)⟩, .nil⟩
    · obtain ⟨ms, hread, hfindings⟩ := exists_forall₂_forall₂_iff.2
        (hconveys.imp fun _ _ => exists_message_iff_conveys.2)
      refine ⟨ms, ⟨_, ht, (optional_iff_member? ht).2 (.inr ⟨list, hmember, ?_⟩)⟩, hfindings⟩
      exact listOf_iff_items?.2 ⟨sps, hitems, hread⟩

/-- The findings of a document are made file by file. -/
theorem findings_eq_ok_iff {d : Document} {files : Table String (List Finding)} :
    d.findings = .ok files ↔
      List.Forall₂ (fun e f => f.1 = e.1 ∧
        List.Forall₂ (fun m f => Message.finding e.1 m = .ok f) e.2 f.2) d.files files := by
  have hentry : ∀ (e : String × List Message) (f : String × List Finding),
      (do return (e.1, ← e.2.mapM (Message.finding e.1)) : Except Unreadable _) = .ok f ↔
        f.1 = e.1 ∧ List.Forall₂ (fun m f => Message.finding e.1 m = .ok f) e.2 f.2 := by
    rintro ⟨file, ms⟩ ⟨file', fs⟩
    rw [← mapM_eq_ok_iff_forall₂]
    cases ms.mapM (Message.finding file) <;> simp [bind, Except.bind, pure, Except.pure, eq_comm]
  unfold Document.findings
  rw [mapM_eq_ok_iff_forall₂]
  simp only [hentry]

/-- **The files are read entry by entry.** -/
theorem exists_table_iff_lists {totals : Totals} {list : Spelling}
    {files : Table String (List Finding)} :
    (∃ t, tableOf (fun _ => messagesOfJson) list.value = .ok t ∧
        (Document.mk totals t).findings = .ok files) ↔ Lists list files := by
  have hentries : ∀ ms : Table String Json,
      (∃ t, List.Forall₂ (fun m e => e.1 = m.1 ∧ messagesOfJson m.2 = .ok e.2) ms t ∧
        (Document.mk totals t).findings = .ok files) ↔
      List.Forall₂ (fun m f => f.1 = m.1 ∧ Makes m.1 m.2 f.2) ms files := by
    intro ms
    simp only [findings_eq_ok_iff, exists_forall₂_forall₂_iff]
    constructor <;> intro h <;> refine h.imp fun m f => ?_
    · rintro ⟨e, ⟨hkey, hread⟩, hfile, hfindings⟩
      exact ⟨hfile.trans hkey, e.2, hread, hkey ▸ hfindings⟩
    · rintro ⟨hfile, ms, hread, hfindings⟩
      exact ⟨(m.1, ms), ⟨rfl, hread⟩, hfile, hfindings⟩
  constructor
  · rintro ⟨t, ht, hfindings⟩
    obtain ⟨ms, hobj, hread⟩ := tableOf_eq_ok_iff_forall₂.1 ht
    obtain ⟨es, hes, hms⟩ := Json.Spelling.value_eq_obj_iff.1 hobj
    have hall := (hentries ms).1 ⟨t, hread, hfindings⟩
    -- entry by entry of the table is key by key of what is written
    rw [Table.forall₂_iff_get? (hms ▸ Table.nodup_keys_ofEntries _)] at hall
    refine ⟨⟨es, hes, hall.1.trans (Json.Spelling.keys_of_value_eq_obj hobj hes)⟩, fun f hf => ?_⟩
    obtain ⟨v, hv, hmakes⟩ := hall.2 f hf
    rw [Json.Spelling.get?_of_value_eq_obj hobj] at hv
    obtain ⟨entry, hmember, rfl⟩ := Option.map_eq_some_iff.1 hv
    exact ⟨entry, hmember, makes_iff_found.1 hmakes⟩
  · rintro ⟨⟨es, hes, hkeys⟩, hfound⟩
    have hobj := Json.Spelling.value_eq_obj_iff.2 ⟨es, hes, rfl⟩
    have hall : List.Forall₂ (fun m f => f.1 = m.1 ∧ Makes m.1 m.2 f.2)
        (Table.ofEntries (es.map fun e => (e.1, e.2.value))) files := by
      rw [Table.forall₂_iff_get? (Table.nodup_keys_ofEntries _)]
      refine ⟨hkeys.trans (Json.Spelling.keys_of_value_eq_obj hobj hes).symm, fun f hf => ?_⟩
      obtain ⟨entry, hmember, hentry⟩ := hfound f hf
      refine ⟨entry.value, ?_, makes_iff_found.2 hentry⟩
      rw [Json.Spelling.get?_of_value_eq_obj hobj, hmember]
      rfl
    obtain ⟨t, hread, hfindings⟩ := (hentries _).2 hall
    exact ⟨t, tableOf_eq_ok_iff_forall₂.2 ⟨_, hobj, hread⟩, hfindings⟩

/-! ## Documents -/

/-- A count is the integer that is written, or zero where none is. -/
def HasCount (sp : Spelling) (key : String) (n : Nat) : Prop :=
  sp.member? key = none ∧ n = 0 ∨ HasInteger sp key n

/-- **The totals of a report are the written ones.** -/
structure Counts (sp : Spelling) (t : Totals) : Prop where
  /-- They are given in an object. -/
  isObject : ∃ es, sp.entries? = some es
  /-- Findings that are errors. -/
  errors : HasCount sp "errors" t.errors
  /-- Findings that are warnings. -/
  warnings : HasCount sp "warnings" t.warnings
  /-- Findings the linter could mend. -/
  fixable : HasCount sp "fixable" t.fixable

/-- **A document yields a report** that says what is written in it. -/
structure Yields (sp : Spelling) (r : Report) : Prop where
  /-- It is an object. -/
  isObject : ∃ es, sp.entries? = some es
  /-- The totals are the written ones. -/
  totals : ∃ t, sp.member? "totals" = some t ∧ Counts t r.totals
  /-- The files are the written ones, or there are none. -/
  files : sp.member? "files" = none ∧ r.files = [] ∨
    ∃ list, sp.member? "files" = some list ∧ Lists list r.files

theorem totals_ofJson_eq_ok_iff {sp : Spelling} {t : Totals} :
    Totals.ofJson sp.value = .ok t ↔ Counts sp t := by
  have hcount : ∀ {ms : Table String Json} {key : String} {n : Nat}, sp.value = .obj ms →
      (optional ms key 0 count = .ok n ↔ HasCount sp key n) := by
    intro ms key n h
    simp [optional_iff_member? h, count, natural_eq_ok_iff, HasCount, HasInteger]
  unfold Totals.ofJson
  rw [record_eq_ok_iff]
  constructor
  · rintro ⟨ms, hms, h⟩
    obtain ⟨es, hes, -⟩ := Json.Spelling.value_eq_obj_iff.1 hms
    simp only [Checked.and_eq_ok_iff, Checked.make, hcount hms] at h
    obtain ⟨_, fixable, ⟨_, warnings, ⟨_, errors, hmake, herrors, rfl⟩, hwarnings, rfl⟩, hfixable,
      ht⟩ := h
    cases hmake
    cases ht
    exact ⟨⟨es, hes⟩, herrors, hwarnings, hfixable⟩
  · rintro ⟨⟨es, hes⟩, herrors, hwarnings, hfixable⟩
    have hms := Json.Spelling.value_eq_obj_iff.2 ⟨es, hes, rfl⟩
    refine ⟨_, hms, ?_⟩
    simp only [Checked.and_eq_ok_iff, Checked.make, hcount hms]
    exact ⟨_, t.fixable, ⟨_, t.warnings, ⟨_, t.errors, rfl, herrors, rfl⟩, hwarnings, rfl⟩,
      hfixable, rfl⟩

/-- The two rounds of reading a document. -/
theorem ofDocument_eq_ok_iff_rounds {j : Json} {r : Report} :
    ofDocument j = .ok r ↔
      ∃ d, Document.ofJson j = .ok d ∧ d.findings = .ok r.files ∧ d.totals = r.totals := by
  unfold ofDocument
  cases Document.ofJson j with
  | error ps => simp [Checked.named]
  | ok d =>
    cases hd : d.findings with
    | error why => simp [Checked.named, hd]
    | ok files =>
      obtain ⟨totals, files'⟩ := r
      simp [Checked.named, hd, and_comm]

/-- **A document's value is read as the report that the document yields.** -/
theorem ofDocument_eq_ok_iff {sp : Spelling} {r : Report} :
    ofDocument sp.value = .ok r ↔ Yields sp r := by
  rw [ofDocument_eq_ok_iff_rounds]
  unfold Document.ofJson
  simp only [record_eq_ok_iff, Checked.and_eq_ok_iff, Checked.make]
  constructor
  · rintro ⟨_, ⟨t, ht, _, table, ⟨_, totals, hmake, htotals, rfl⟩, hfiles, rfl⟩, hfindings,
      htotals'⟩
    cases hmake
    obtain ⟨counts, hcounts, hread⟩ := (required_iff_member? ht).1 htotals
    obtain ⟨es, hes, -⟩ := Json.Spelling.value_eq_obj_iff.1 ht
    refine ⟨⟨es, hes⟩, ⟨counts, hcounts, ?_⟩, ?_⟩
    · rw [← htotals']
      exact totals_ofJson_eq_ok_iff.1 hread
    · rcases (optional_iff_member? ht).1 hfiles with ⟨hnone, rfl⟩ | ⟨list, hlist, htable⟩
      · exact .inl ⟨hnone, (Except.ok.inj hfindings).symm⟩
      · exact .inr ⟨list, hlist, exists_table_iff_lists.1 ⟨table, htable, hfindings⟩⟩
  · rintro ⟨⟨es, hes⟩, ⟨counts, hcounts, hread⟩, hfiles⟩
    obtain ⟨t, ht⟩ : ∃ t, sp.value = .obj t :=
      ⟨_, Json.Spelling.value_eq_obj_iff.2 ⟨es, hes, rfl⟩⟩
    have htotals : required t "totals" Totals.ofJson = .ok r.totals :=
      (required_iff_member? ht).2 ⟨counts, hcounts, totals_ofJson_eq_ok_iff.2 hread⟩
    obtain ⟨table, hoptional, hfindings⟩ : ∃ table,
        optional t "files" [] (tableOf fun _ => messagesOfJson) = .ok table ∧
          (Document.mk r.totals table).findings = .ok r.files := by
      rcases hfiles with ⟨hnone, hempty⟩ | ⟨list, hlist, hlists⟩
      · exact ⟨[], (optional_iff_member? ht).2 (.inl ⟨hnone, rfl⟩), by rw [hempty]; rfl⟩
      · obtain ⟨table, htable, hfindings⟩ := exists_table_iff_lists.2 hlists
        exact ⟨table, (optional_iff_member? ht).2 (.inr ⟨list, hlist, htable⟩), hfindings⟩
    exact ⟨⟨r.totals, table⟩, ⟨t, ht, _, table, ⟨_, r.totals, rfl, htotals, rfl⟩, hoptional, rfl⟩,
      hfindings, rfl⟩

/-- **A text is read as a report exactly when it spells a document that yields the report**, and
its brackets are not nested too deeply. -/
theorem parse_eq_ok_iff {s : String} {r : Report} :
    parse s = .ok r ↔
      ∃ sp : Spelling, sp.Spells s ∧ sp.nesting ≤ Json.deepest ∧ Yields sp r := by
  unfold parse
  constructor
  · intro h
    cases hread : Json.read s with
    | error f => rw [hread] at h; cases h
    | ok j =>
      rw [hread] at h
      obtain ⟨sp, hs, rfl, hnesting⟩ := Json.read_eq_ok_iff.1 hread
      exact ⟨sp, hs, hnesting, ofDocument_eq_ok_iff.1 h⟩
  · rintro ⟨sp, hs, hnesting, hyields⟩
    rw [Json.read_eq_ok_iff.2 ⟨sp, hs, rfl, hnesting⟩]
    exact ofDocument_eq_ok_iff.2 hyields

/-- **A report that was read names every file once.** -/
theorem nodup_names_of_parse {s : String} {r : Report} (h : parse s = .ok r) : r.names.Nodup := by
  obtain ⟨sp, -, -, hyields⟩ := parse_eq_ok_iff.1 h
  rcases hyields.files with ⟨-, hempty⟩ | ⟨list, -, hlists⟩
  · rw [names, hempty]
    exact List.nodup_nil
  · obtain ⟨es, -, hkeys⟩ := hlists.keys
    rw [names, hkeys, ← Table.keys_ofEntries]
    exact Table.nodup_keys_ofEntries es

/-- The reading of a text that spells a document is that of the document's value. -/
theorem parse_of_spells {s : String} {sp : Spelling} (hs : sp.Spells s)
    (hnesting : sp.nesting ≤ Json.deepest) : parse s = ofDocument sp.value := by
  rw [parse, Json.read_eq_ok_iff.2 ⟨sp, hs, rfl, hnesting⟩]

end Report

end LintGate
