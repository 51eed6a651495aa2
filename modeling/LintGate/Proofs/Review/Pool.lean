import LintGate.Proofs.Review.Deeds
import Mathlib.Data.List.Nodup
import Mathlib.Logic.Relation

/-!
# Fetching provenances in a pool

With several jobs the provenances of a report's files are fetched by workers, while the review uses
them in the order of the files. When a fetch begins and when its answer comes in is up to the
workers, so a review with several jobs is a relation between states and not a function: a worker
takes any file that is waiting, as long as there is a job free, and any fetch that is running may be
answered next. The review itself goes on deed by deed in between. It needs the answer for the next
file only once it has dealt with the file before, and by then answers to later files may have come
in, refusals among them. A fault closes the pool, and what is still waiting is given up. Nothing is
said about when: the fault may be recorded while the pool is still being emptied.

`Pool.outcome` is what makes the order of the workers harmless: what has been done so far, and what
is left to do if every provenance were at hand. No step changes it, so every run ends as the review
with one job does (`pool_unobservable`). Runs do end, since every step makes `Pool.weight` smaller,
and none is stuck before its end.
-/

namespace LintGate.Review

/-- **How far a review has come.** -/
inductive Stage
  /-- Some deeds are to be done, and then some files are left. -/
  | working (todo : List Deed) (left : Table String (List Finding))
  /-- The pool is being closed, because of a fault or because all files were dealt with. -/
  | closing (f : Option Fault)
  /-- The review has ended. -/
  | ended (f : Option Fault)

/-- **A review together with its pool.** -/
structure Pool where
  stage : Stage
  /-- What the review has done; no fetch is counted among its commands. -/
  trace : Trace := {}
  /-- Fetches have been asked for. -/
  opened : Bool := false
  /-- Files that no worker has taken. -/
  waiting : List String := []
  /-- Files that are being fetched. -/
  running : List String := []
  /-- The answers that have come in. -/
  answered : List (String × Except Fault Provenance) := []
  /-- All files that a fetch was begun for, in that order. -/
  fetched : List String := []

namespace Pool

/-- A review that has not begun. -/
def start (s : Settings) (sources : Sources) : Pool where
  stage := .working (openingDeeds sources) (judgedFiles s sources)

/-- **A step of a review with a pool**, by the review or by a worker. -/
inductive Step (s : Settings) (sources : Sources) (sinks : Sinks) : Pool → Pool → Prop
  /-- The review does a deed. -/
  | act {p : Pool} {d : Deed} {todo : List Deed} {left : Table String (List Finding)} {t : Trace}
      (stage : p.stage = .working (d :: todo) left)
      (done : d.perform sinks s.strict p.trace = (t, none)) :
      Step s sources sinks p { p with stage := .working todo left, trace := t }
  /-- A deed of the review ends in a fault. -/
  | break {p : Pool} {d : Deed} {todo : List Deed} {left : Table String (List Finding)}
      {t : Trace} {f : Fault}
      (stage : p.stage = .working (d :: todo) left)
      (failed : d.perform sinks s.strict p.trace = (t, some f)) :
      Step s sources sinks p { p with stage := .closing (some f), trace := t }
  /-- The review asks for all provenances. -/
  | ask {p : Pool} {left : Table String (List Finding)}
      (stage : p.stage = .working [] left) (unopened : p.opened = false)
      (several : 1 < left.length) :
      Step s sources sinks p { p with opened := true, waiting := left.keys }
  /-- The review fetches the provenance of an only file by itself. -/
  | alone {p : Pool} {left : Table String (List Finding)}
      (stage : p.stage = .working [] left) (unopened : p.opened = false)
      (single : left.length ≤ 1) :
      Step s sources sinks p
        { p with
          opened := true
          stage := .working (filesDeeds s sources.fetched left) []
          fetched := left.keys }
  /-- A worker takes a file. -/
  | take {p : Pool} {file : String} {before behind : List String}
      (free : p.running.length < s.jobs) (found : p.waiting = before ++ file :: behind) :
      Step s sources sinks p
        { p with
          waiting := before ++ behind
          running := p.running ++ [file]
          fetched := p.fetched ++ [file] }
  /-- A worker is answered. -/
  | answer {p : Pool} {file : String} {before behind : List String}
      (found : p.running = before ++ file :: behind) :
      Step s sources sinks p
        { p with
          running := before ++ behind
          answered := p.answered ++ [(file, (sources.blame file).result)] }
  /-- The review uses the answer for its next file. -/
  | use {p : Pool} {e : String × List Finding} {left : Table String (List Finding)}
      {result : Except Fault Provenance}
      (stage : p.stage = .working [] (e :: left)) (opened : p.opened = true)
      (answered : (e.1, result) ∈ p.answered) :
      Step s sources sinks p
        { p with
          stage := .working (attempted (Attempt.ofResult result).passedOn (fileDeeds s e.1 e.2))
            left }
  /-- All files were dealt with. -/
  | finish {p : Pool} (stage : p.stage = .working [] []) (opened : p.opened = true) :
      Step s sources sinks p { p with stage := .closing none }
  /-- What is still waiting is given up. -/
  | cancel {p : Pool} {f : Option Fault} (stage : p.stage = .closing f ∨ p.stage = .ended f)
      (rest : p.waiting ≠ []) : Step s sources sinks p { p with waiting := [] }
  /-- The review ends; a fault is recorded. -/
  | conclude {p : Pool} {f : Option Fault} (stage : p.stage = .closing f) :
      Step s sources sinks p
        { p with
          stage := .ended (Review.conclude sinks s.strict (p.trace, f)).2
          trace := (Review.conclude sinks s.strict (p.trace, f)).1 }

/-- **The states that a review with a pool can come to.** -/
abbrev Reaches (s : Settings) (sources : Sources) (sinks : Sinks) : Pool → Prop :=
  Relation.ReflTransGen (Step s sources sinks) (start s sources)

variable {s : Settings} {sources : Sources} {sinks : Sinks} {p q : Pool}

/-! ## What a review comes to -/

/-- With its provenance at hand, a file's deeds follow from the answer alone. -/
theorem filesDeeds_fetched_cons (s : Settings) (sources : Sources) (e : String × List Finding)
    (files : Table String (List Finding)) :
    filesDeeds s sources.fetched (e :: files)
      = attempted (Attempt.ofResult (sources.blame e.1).result).passedOn (fileDeeds s e.1 e.2)
          ++ filesDeeds s sources.fetched files := rfl

/-- **What a review comes to** from here on, if every provenance were at hand. -/
def outcome (s : Settings) (sources : Sources) (sinks : Sinks) (p : Pool) : Trace × Option Fault :=
  match p.stage with
  | .working todo left =>
    Review.conclude sinks s.strict
      (perform sinks s.strict p.trace (todo ++ filesDeeds s sources.fetched left))
  | .closing f => Review.conclude sinks s.strict (p.trace, f)
  | .ended f => (p.trace, f)

/-- The file is in the pool: it is waiting, being fetched, or answered. -/
def Keeps (p : Pool) (file : String) : Prop :=
  file ∈ p.waiting ∨ file ∈ p.running ∨ ∃ result, (file, result) ∈ p.answered

/-- **What holds in every state.** The answers are those of the sources, whoever asks and when. A
file that is left is in the pool somewhere. No more fetches were begun than the report has files,
counting those that may still be begun. -/
structure Inv (s : Settings) (sources : Sources) (p : Pool) : Prop where
  answers : ∀ file result, (file, result) ∈ p.answered → result = (sources.blame file).result
  asked : p.opened = true → ∀ todo left, p.stage = .working todo left →
    ∀ e ∈ left, p.Keeps e.1
  unasked : p.opened = false → p.waiting = [] ∧ p.fetched = [] ∧
    ∀ todo left, p.stage = .working todo left → left = judgedFiles s sources
  once : ∀ file, (p.fetched ++ p.waiting).count file ≤ (judgedFiles s sources).keys.count file

theorem inv_start (s : Settings) (sources : Sources) : Inv s sources (start s sources) where
  answers := by simp [start]
  asked := by simp [start]
  unasked := by
    intro _
    refine ⟨rfl, rfl, ?_⟩
    rintro todo left h
    cases h
    rfl
  once := by simp [start]

/-- A file that a worker takes stays in the pool, and so do the others. -/
theorem Keeps.take {file other : String} {before behind fetched : List String}
    (found : p.waiting = before ++ file :: behind) (h : p.Keeps other) :
    Keeps { p with
      waiting := before ++ behind, running := p.running ++ [file], fetched := fetched } other := by
  rcases h with hw | hr | ha
  · rw [found, List.perm_middle.mem_iff] at hw
    rcases List.mem_cons.mp hw with rfl | hw
    · exact .inr (.inl (List.mem_append_right _ List.mem_cons_self))
    · exact .inl hw
  · exact .inr (.inl (List.mem_append_left _ hr))
  · exact .inr (.inr ha)

/-- A file whose answer comes in stays in the pool, and so do the others. -/
theorem Keeps.answer {file other : String} {before behind : List String}
    {result : Except Fault Provenance} (found : p.running = before ++ file :: behind)
    (h : p.Keeps other) :
    Keeps { p with
      running := before ++ behind, answered := p.answered ++ [(file, result)] } other := by
  rcases h with hw | hr | ⟨known, ha⟩
  · exact .inl hw
  · rw [found, List.perm_middle.mem_iff] at hr
    rcases List.mem_cons.mp hr with rfl | hr
    · exact .inr (.inr ⟨_, List.mem_append_right _ List.mem_cons_self⟩)
    · exact .inr (.inl hr)
  · exact .inr (.inr ⟨known, List.mem_append_left _ ha⟩)

/-- A review that stops working leaves the pool as it is. -/
theorem Inv.settle (hp : Inv s sources p) {g : Stage} (hg : ∀ todo left, g ≠ .working todo left)
    (t : Trace) : Inv s sources { p with stage := g, trace := t } where
  answers := hp.answers
  asked _ todo left hstage := absurd hstage (hg todo left)
  unasked ho :=
    ⟨(hp.unasked ho).1, (hp.unasked ho).2.1, fun todo left hstage => absurd hstage (hg todo left)⟩
  once := hp.once

/-- **A step keeps what holds in every state.** -/
theorem Inv.step (hp : Inv s sources p) (h : Step s sources sinks p q) : Inv s sources q := by
  -- only `ask`, `take` and `answer` move files about in the pool
  cases h with
  | act stage done =>
    refine ⟨hp.answers, ?_, ?_, hp.once⟩
    · rintro ho todo left ⟨⟩
      exact hp.asked ho _ _ stage
    · intro ho
      refine ⟨(hp.unasked ho).1, (hp.unasked ho).2.1, ?_⟩
      rintro todo left ⟨⟩
      exact (hp.unasked ho).2.2 _ _ stage
  | «break» stage failed => exact hp.settle (by simp) _
  | ask stage unopened several =>
    obtain ⟨-, hf, hl⟩ := hp.unasked unopened
    obtain rfl := hl _ _ stage
    refine ⟨hp.answers, ?_, ?_, ?_⟩
    · intro _ todo left hstage e he
      obtain ⟨-, rfl⟩ := Stage.working.inj (stage.symm.trans hstage)
      exact .inl (List.mem_map_of_mem he)
    · rintro ⟨⟩
    · intro file
      show (p.fetched ++ _).count file ≤ _
      exact Nat.le_of_eq (by rw [hf, List.nil_append])
  | alone stage unopened single =>
    obtain ⟨hw, -, hl⟩ := hp.unasked unopened
    obtain rfl := hl _ _ stage
    refine ⟨hp.answers, ?_, ?_, ?_⟩
    · rintro - todo left ⟨⟩ e he
      cases he
    · rintro ⟨⟩
    · intro file
      show (_ ++ p.waiting).count file ≤ _
      exact Nat.le_of_eq (by rw [hw, List.append_nil])
  | @take file before behind free found =>
    refine ⟨hp.answers, ?_, ?_, ?_⟩
    · intro ho todo left hstage e he
      exact (hp.asked ho todo left hstage e he).take found
    · intro ho
      exact absurd (hp.unasked ho).1 (by simp [found])
    · intro file
      have h := hp.once file
      rw [found] at h
      simp only [List.count_append, List.count_cons, List.count_nil] at h ⊢
      omega
  | @answer file before behind found =>
    refine ⟨?_, ?_, hp.unasked, hp.once⟩
    · intro other result ha
      rcases List.mem_append.mp ha with ha | ha
      · exact hp.answers other result ha
      · cases List.mem_singleton.mp ha
        rfl
    · intro ho todo left hstage e he
      exact (hp.asked ho todo left hstage e he).answer found
  | use stage opened answered =>
    refine ⟨hp.answers, ?_, ?_, hp.once⟩
    · rintro ho todo left ⟨⟩ e he
      exact hp.asked ho _ _ stage e (List.mem_cons_of_mem _ he)
    · intro ho
      exact absurd (opened.symm.trans ho) (by simp)
  | finish stage opened => exact hp.settle (by simp) p.trace
  | cancel stage rest =>
    refine ⟨hp.answers, ?_, ?_, ?_⟩
    · intro _ todo left hstage
      rcases stage with stage | stage
      · exact absurd (stage.symm.trans hstage) (by simp)
      · exact absurd (stage.symm.trans hstage) (by simp)
    · intro ho
      exact absurd (hp.unasked ho).1 rest
    · intro file
      have h := hp.once file
      simp only [List.count_append, List.count_nil] at h ⊢
      omega
  | conclude stage => exact hp.settle (by simp) _

/-- **No step changes what a review comes to.** -/
theorem outcome_step (hp : Inv s sources p) (h : Step s sources sinks p q) :
    q.outcome s sources sinks = p.outcome s sources sinks := by
  cases h with
  | act stage done =>
    simp only [outcome, stage, List.cons_append, perform, done]
  | «break» stage failed =>
    simp only [outcome, stage, List.cons_append, perform, failed]
  | ask stage unopened several => rfl
  | alone stage unopened single =>
    simp only [outcome, stage, List.nil_append]
    rw [show filesDeeds s sources.fetched [] = [] from rfl, List.append_nil]
  | take free found => rfl
  | answer found => rfl
  | use stage opened answered =>
    -- whenever the answer came in, it is the one that the source gives
    obtain rfl := hp.answers _ _ answered
    simp only [outcome, stage, List.nil_append, filesDeeds_fetched_cons]
  | finish stage opened => simp only [outcome, stage]; rfl
  | cancel stage rest => rfl
  | conclude stage => simp only [outcome, stage]

/-- What holds in every state holds in every state that is reached. -/
theorem inv_of_reaches (h : Reaches s sources sinks p) :
    Inv s sources p
      ∧ p.outcome s sources sinks = (start s sources).outcome s sources sinks := by
  induction h with
  | refl => exact ⟨inv_start s sources, rfl⟩
  | tail _ hstep ih => exact ⟨ih.1.step hstep, (outcome_step ih.1 hstep).trans ih.2⟩

/-- What a review with a pool comes to is what is seen of the review with one job. -/
theorem seen_outcome_start (s : Settings) (sources : Sources) (sinks : Sinks) (jobs : Nat) :
    seen ((start s sources).outcome s sources sinks)
      = seen (run { s with jobs := jobs } sources sinks) :=
  (seen_run { s with jobs := jobs } sources sinks).symm

/-! ## Runs end -/

/-- **What is left to do**: more than any number of steps that can still be made. -/
def weight (s : Settings) (sources : Sources) (p : Pool) : Nat :=
  2 * p.waiting.length + p.running.length +
    match p.stage with
    | .working todo left =>
      todo.length + (filesDeeds s sources.fetched left).length + left.length + 3 +
        if p.opened then 0 else 2 * left.length + 1
    | .closing _ => 1
    | .ended _ => 0

/-- **Every step leaves less to do.** -/
theorem weight_step (hp : Inv s sources p) (h : Step s sources sinks p q) :
    q.weight s sources < p.weight s sources := by
  cases h with
  | act stage done =>
    simp only [weight, stage, List.length_cons]
    omega
  | «break» stage failed =>
    simp only [weight, stage, List.length_cons]
    omega
  | ask stage unopened several =>
    simp only [weight, stage, (hp.unasked unopened).1, unopened, Table.keys, List.length_map,
      List.length_nil, Bool.false_eq_true, if_false, if_true]
    omega
  | alone stage unopened single =>
    simp only [weight, stage, unopened, List.length_nil, Bool.false_eq_true, if_false, if_true]
    rw [show filesDeeds s sources.fetched [] = [] from rfl, List.length_nil]
    omega
  | take free found =>
    simp only [weight, found, List.length_append, List.length_cons, List.length_nil]
    omega
  | answer found =>
    simp only [weight, found, List.length_append, List.length_cons]
    omega
  | use stage opened answered =>
    obtain rfl := hp.answers _ _ answered
    simp only [weight, stage, filesDeeds_fetched_cons, List.length_append, List.length_cons,
      List.length_nil, opened, if_true]
    omega
  | finish stage opened =>
    simp only [weight, stage]
    omega
  | cancel stage rest =>
    have hlen : 0 < p.waiting.length := List.length_pos_of_ne_nil rest
    simp only [weight, List.length_nil]
    omega
  | conclude stage =>
    simp only [weight, stage]
    omega

/-- **No review is stuck** before its end. -/
theorem exists_step (hjobs : 0 < s.jobs) (hp : Inv s sources p) :
    (∃ f, p.stage = .ended f) ∨ ∃ q, Step s sources sinks p q := by
  -- a fetch that is running can always be answered, so only quiet pools need a look
  cases hrun : p.running with
  | cons file rest => exact .inr ⟨_, .answer (show _ = [] ++ file :: rest from hrun)⟩
  | nil =>
    cases hstage : p.stage with
    | ended f => exact .inl ⟨f, rfl⟩
    | closing f => exact .inr ⟨_, .conclude hstage⟩
    | working todo left =>
      right
      cases todo with
      | cons d todo =>
        cases hd : d.perform sinks s.strict p.trace with
        | mk t f =>
          cases f with
          | none => exact ⟨_, .act hstage hd⟩
          | some f => exact ⟨_, .break hstage hd⟩
      | nil =>
        cases ho : p.opened with
        | false =>
          by_cases hl : 1 < left.length
          · exact ⟨_, .ask hstage ho hl⟩
          · exact ⟨_, .alone hstage ho (Nat.le_of_not_lt hl)⟩
        | true =>
          cases left with
          | nil => exact ⟨_, .finish hstage ho⟩
          | cons e left =>
            rcases hp.asked ho _ _ hstage e List.mem_cons_self with hw | hr | ⟨result, ha⟩
            · obtain ⟨before, behind, hb⟩ := List.append_of_mem hw
              exact ⟨_, .take (by rw [hrun]; exact hjobs) hb⟩
            · rw [hrun] at hr
              cases hr
            · exact ⟨_, .use hstage ho ha⟩

/-- A file that the report names once is fetched once at most. -/
theorem Inv.nodup_fetched (hp : Inv s sources p) (h : (judgedFiles s sources).keys.Nodup) :
    p.fetched.Nodup := by
  rw [List.nodup_iff_count_le_one] at h ⊢
  intro file
  have honce := hp.once file
  have hfile := h file
  rw [List.count_append] at honce
  omega

/-- **A pool is not seen.** With several jobs, whatever the sources answer, whatever the channels
do, and in whatever order the workers begin and end their fetches: a review that has ended shows the
same lines, the same decision and the same fault as the review with one job. No review is stuck
before its end and none goes on for ever. No file is fetched twice. The run that asks for every
provenance ahead is no exception. -/
theorem pool_unobservable (s : Settings) (sources : Sources) (sinks : Sinks)
    (hjobs : 1 < s.jobs) :
    (∀ p, Reaches s sources sinks p →
      (∀ f, p.stage = .ended f →
        seen (p.trace, f) = seen (run { s with jobs := 1 } sources sinks)) ∧
      ((∃ f, p.stage = .ended f) ∨ ∃ q, Step s sources sinks p q) ∧
      ((∀ r, sources.lint.result = .ok r → r.names.Nodup) → p.fetched.Nodup)) ∧
    (¬ ∃ ps : Nat → Pool, ps 0 = start s sources ∧
      ∀ n, Step s sources sinks (ps n) (ps (n + 1))) ∧
    seen (run s sources sinks) = seen (run { s with jobs := 1 } sources sinks) := by
  have hstart := seen_outcome_start s sources sinks
  refine ⟨?_, ?_, (hstart s.jobs).symm.trans (hstart 1)⟩
  · intro p hp
    obtain ⟨hinv, hout⟩ := inv_of_reaches hp
    refine ⟨?_, exists_step (Nat.lt_of_succ_lt hjobs) hinv, ?_⟩
    · intro f hf
      rw [outcome, hf] at hout
      exact (congrArg seen hout).trans (hstart 1)
    · intro hr
      refine hinv.nodup_fetched ?_
      unfold judgedFiles
      cases hl : sources.lint.result with
      | error f => exact List.nodup_nil
      | ok r =>
        dsimp only
        split
        · exact List.nodup_nil
        · exact hr r hl
  · -- the weights of the states of such a run would fall for ever
    rintro ⟨ps, h0, hstep⟩
    have hreach : ∀ n, Reaches s sources sinks (ps n) := by
      intro n
      induction n with
      | zero => rw [h0]
      | succ n ih => exact ih.tail (hstep n)
    have hfall : ∀ n, (ps n).weight s sources + n ≤ (ps 0).weight s sources := by
      intro n
      induction n with
      | zero => exact Nat.le_refl _
      | succ n ih =>
        have hlt := weight_step (inv_of_reaches (hreach n)).1 (hstep n)
        omega
    have hend := hfall ((ps 0).weight s sources + 1)
    omega

/-- Two jobs. -/
def twoJobs : Settings where
  linter := .ofString "phpcs"
  standard := none
  strict := true
  base := "abc"
  jobs := 2
  root := .root

/-- Two files with an error in each. -/
def twoFiles : Table String (List Finding) := [
  ("a.php", [⟨"a.php", 1, 1, .error, "one", "Generic.One"⟩]),
  ("b.php", [⟨"b.php", 1, 1, .error, "two", "Generic.Two"⟩])]

/-- The provenance of a file is refused. -/
def refusal (file : String) : Fault := .reported ⟨.runtime, some ("no " ++ file)⟩

/-- Sources that report on the two files and refuse every provenance. -/
def refusing : Sources where
  lint := .done { totals := { errors := 2 }, files := twoFiles }
  blame file := .fail (refusal file)

/-- The pool of the two files while the review waits for the first of them. -/
def refusingPool (t : Trace) (waiting running answered fetched : List String) : Pool where
  stage := .working [] twoFiles
  trace := t
  opened := true
  waiting := waiting
  running := running
  answered := answered.map fun file => (file, .error (refusal file))
  fetched := fetched

/-- Both files are refused, the second one first: the review ends with the refusal of the first. -/
theorem pool_unobservable_refused :
    1 < twoJobs.jobs ∧
      ∃ p, Reaches twoJobs refusing .open p ∧ p.stage = .ended none ∧
        p.answered.map Prod.fst = ["b.php", "a.php"] ∧
        p.trace.decision.outcome.reasons = ["no a.php"] ∧
        p.fetched.Nodup ∧
        seen (p.trace, none) = seen (run { twoJobs with jobs := 1 } refusing .open) := by
  have hjobs : 1 < twoJobs.jobs := by decide
  have hopened : ∃ t : Trace, t.decision = {} ∧
      Reaches twoJobs refusing .open { stage := .working [] twoFiles, trace := t } :=
    ⟨_, rfl, ((Relation.ReflTransGen.refl.tail (.act rfl rfl)).tail (.act rfl rfl)).tail
      (.act rfl rfl)⟩
  obtain ⟨t, ht, hopened⟩ := hopened
  have hasked : Reaches twoJobs refusing .open (refusingPool t ["a.php", "b.php"] [] [] []) :=
    hopened.tail (.ask rfl rfl (show 1 < twoFiles.length by decide))
  have htakeA : Step twoJobs refusing .open (refusingPool t ["a.php", "b.php"] [] [] [])
      (refusingPool t ["b.php"] ["a.php"] [] ["a.php"]) :=
    .take (by show 0 < 2; decide) (show _ = [] ++ "a.php" :: ["b.php"] from rfl)
  have htakeB : Step twoJobs refusing .open (refusingPool t ["b.php"] ["a.php"] [] ["a.php"])
      (refusingPool t [] ["a.php", "b.php"] [] ["a.php", "b.php"]) :=
    .take (by show 1 < 2; decide) (show _ = [] ++ "b.php" :: [] from rfl)
  have hanswerB : Step twoJobs refusing .open
      (refusingPool t [] ["a.php", "b.php"] [] ["a.php", "b.php"])
      (refusingPool t [] ["a.php"] ["b.php"] ["a.php", "b.php"]) :=
    .answer (show _ = ["a.php"] ++ "b.php" :: [] from rfl)
  have hanswerA : Step twoJobs refusing .open
      (refusingPool t [] ["a.php"] ["b.php"] ["a.php", "b.php"])
      (refusingPool t [] [] ["b.php", "a.php"] ["a.php", "b.php"]) :=
    .answer (show _ = [] ++ "a.php" :: [] from rfl)
  have hanswered := (((hasked.tail htakeA).tail htakeB).tail hanswerB).tail hanswerA
  have hused : Reaches twoJobs refusing .open
      { refusingPool t [] [] ["b.php", "a.php"] ["a.php", "b.php"] with
        stage := .closing (some (refusal "a.php")) } :=
    (hanswered.tail (.use (e := ("a.php", _)) rfl rfl
      (List.mem_append_right [_] List.mem_cons_self))).tail (.break rfl rfl)
  have hend := hused.tail (.conclude rfl)
  obtain ⟨hseen, -, honce⟩ := (pool_unobservable twoJobs refusing .open hjobs).1 _ hend
  refine ⟨hjobs, _, hend, rfl, rfl, ?_, honce ?_, hseen none rfl⟩
  · show (Decision.enter true t.decision (.fault (refusal "a.php"))).outcome.reasons = _
    rw [ht]
    rfl
  · rintro r ⟨⟩
    decide

end Pool

end LintGate.Review
