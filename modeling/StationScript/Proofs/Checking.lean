import StationScript.Proofs.Calls
import StationScript.Proofs.Causes

namespace StationScript

-- Only one error says that a command is unknown.
theorem Event.eq_unknownCommand {e : Event} {name : String} (he : e.isError)
    (hmessage : e.message = "Unknown command: " ++ name) : e = .unknownCommand name := by
  have hchars := congrArg String.toList hmessage
  unfold message at hchars
  clear hmessage
  cases e <;> try exact absurd he Bool.false_ne_true
  case unknownCommand name' =>
    simp only [String.toList_append] at hchars
    rw [String.toList_inj.1 (List.append_cancel_left hchars)]
  all_goals simp at hchars

-- The message of an error, on whichever thread it is reported.
def Effect.errorMessage? : Effect → Option String
  | report _ e => if e.isError then some e.message else none
  | _ => none

namespace Trace

variable {t u : Trace} {name : String}

-- The messages of the errors that are reported.
def errorMessages (t : Trace) : List String :=
  t.filterMap Effect.errorMessage?

theorem errorMessages_append : errorMessages (t ++ u) = t.errorMessages ++ u.errorMessages :=
  List.filterMap_append

theorem exists_report_of_unknown (h : "Unknown command: " ++ name ∈ t.errorMessages) :
    ∃ thread, .report thread (.unknownCommand name) ∈ t := by
  have ⟨effect, hm, heq⟩ := List.mem_filterMap.1 h
  cases effect
  case report thread e =>
    simp only [Effect.errorMessage?, Option.ite_none_right_eq_some] at heq
    have ⟨he, hmessage⟩ := heq
    exact ⟨thread, Event.eq_unknownCommand he (Option.some.inj hmessage) ▸ hm⟩
  all_goals cases heq

end Trace

-- The name of the command on a line, if the vocabulary does not know it.
def Line.unknown? (line : Line) : Option String := do
  let c ← line.command?
  if (Verb.ofName? c.name).isSome then none else some c.name

theorem Line.unknown?_eq_some_iff {line : Line} {name : String} :
    line.unknown? = some name ↔ ∃ c, line = .command c ∧ Verb.ofName? c.name = none ∧ c.name = name := by
  cases line
  case command c => cases hv : Verb.ofName? c.name <;> simp [unknown?, command?, hv]
  all_goals simp [unknown?, command?]

namespace Interpreter

variable {i : Interpreter} {b : Bench} {line name : String} {token : Token} {trigger : Trigger} {o : Outcome}

theorem execute_of_unknown (hl : ¬b.isCancelled token) (h : (Line.ofString line).unknown? = some name)
    (i : Interpreter) (trigger : Trigger) :
    ∃ x, x.success = false ∧ i.execute b line token trigger = some (b.reportOnly x [.unknownCommand name]) := by
  obtain ⟨c, hc, hv, rfl⟩ := Line.unknown?_eq_some_iff.1 h
  exact ⟨⟨false, some c⟩, rfl, by simp [execute, hl, hc, hv]⟩

-- Nothing else reports that a command is unknown.
theorem unknown_of_report (ho : i.execute b line token trigger = some o) {thread : Thread}
    (h : .report thread (.unknownCommand name) ∈ o.trace) : (Line.ofString line).unknown? = some name := by
  by_cases hl : b.isCancelled token
  case pos =>
    rw [execute_of_isCancelled hl] at ho
    cases ho
    cases List.mem_singleton.1 h
  case neg =>
    rcases outcome_cases hl ho with ⟨_, rfl⟩ | ⟨c, hc, hv, rfl⟩ | ⟨c, v, p, hc, hv, hp, rfl⟩
    · obtain ⟨e, he, heq⟩ := List.mem_map.1 h
      cases heq
      cases hline : Line.ofString line <;> simp [hline, Line.warnings] at he
    · obtain ⟨e, he, heq⟩ := List.mem_map.1 h
      cases heq
      cases List.mem_singleton.1 he
      exact Line.unknown?_eq_some_iff.2 ⟨c, hc, hv, rfl⟩
    · simp only [outcome, List.mem_append] at h
      rcases h with (h | h) | h
      · cases List.mem_singleton.1 h
      · obtain ⟨_, _, hplan⟩ := mem_plan hc hv (Timeline.follow_subset hp _ h)
        have hplanned := Station.plan_planned _ hplan
        cases thread <;> exact hplanned.elim
      · obtain ⟨e, he, heq⟩ := List.mem_map.1 h
        cases heq
        cases hending : Ending.ofVerdict p.finished (i.plan b.input c v).verdict <;>
          simp [hending, Ending.events] at he

-- Why a command that was carried out fails, with the event that says so.
inductive Fails (i : Interpreter) (input : List Typed) (c : Command) (v : Verb) : Event → Prop
  -- A parameter is missing or says the wrong thing.
  | parameter {e : CommandError} (h : c.instruction v = .error e) : Fails i input c v (.commandFailed c.text e.message)
  -- A device refuses what it is told.
  | device {instruction : Instruction} {e : CommandError} (hsaid : c.instruction v = .ok instruction)
      (hdevice : ∀ kind title message, instruction ≠ .dialog kind title message)
      (h : (i.station.plan i.settleDelay input instruction).verdict = .failed e) :
      Fails i input c v (.commandFailed c.text e.message)
  -- A dialog ends without an answer that means anything.
  | dialog {kind : DialogKind} {title message : String} {e : CommandError}
      (hsaid : c.instruction v = .ok (.dialog kind title message))
      (h : (i.station.plan i.settleDelay input (.dialog kind title message)).verdict = .failed e) :
      Fails i input c v (.commandFailed c.text e.message)
  | panic {instruction : Instruction} (hsaid : c.instruction v = .ok instruction)
      (h : (i.station.plan i.settleDelay input instruction).verdict = .panicked) :
      Fails i input c v (.handlerPanicked c.text)

theorem fails_of_verdict {input : List Typed} {c : Command} {v : Verb} {e : CommandError}
    (h : (i.plan input c v).verdict = .failed e) : i.Fails input c v (.commandFailed c.text e.message) := by
  unfold plan at h
  cases hsaid : c.instruction v
  case error =>
    rw [hsaid] at h
    cases h
    exact .parameter hsaid
  case ok instruction =>
    rw [hsaid] at h
    cases instruction
    case dialog => exact .dialog hsaid h
    all_goals exact .device hsaid nofun h

theorem fails_of_panic {input : List Typed} {c : Command} {v : Verb} (h : (i.plan input c v).verdict = .panicked) :
    i.Fails input c v (.handlerPanicked c.text) := by
  unfold plan at h
  cases hsaid : c.instruction v
  case error => rw [hsaid] at h; cases h
  case ok    => exact .panic hsaid (by rwa [hsaid] at h)

-- A command that was carried out fails for one of these reasons, unless it was cancelled.
theorem fails_of_outcome {c : Command} {v : Verb} {p : Progress} (ht : trigger.flag ∈ token.flags)
    (hp : b.timeline.follow token (i.plan b.input c v).effects = some p)
    (hfails : (i.outcome b c v trigger p).execution.success = false)
    (hlive : ¬(i.outcome b c v trigger p).bench.isCancelled token) :
    ∃ e, i.Fails b.input c v e ∧ .report .main e ∈ (i.outcome b c v trigger p).trace := by
  let ending := Ending.ofVerdict p.finished (i.plan b.input c v).verdict
  have hmem {e : Event} (h : e ∈ ending.events c.text) : .report .main e ∈ (i.outcome b c v trigger p).trace :=
    List.mem_append_right _ (List.mem_map_of_mem h)
  replace hfails : ending.success = false := hfails
  replace hlive : ¬(ending.signal trigger p.timeline).isCancelled token := hlive
  cases hfinished : p.finished
  case false =>
    have hending : ending = .cancelled := Ending.ofVerdict_eq_cancelled_iff.2 hfinished
    rw [hending] at hlive
    exact absurd (Timeline.isCancelled_of_follow_cut hp hfinished) hlive
  case true =>
    have hending : ending = .ofVerdict true (i.plan b.input c v).verdict := congrArg (Ending.ofVerdict · _) hfinished
    rw [hending] at hmem hfails hlive
    cases hverdict : (i.plan b.input c v).verdict <;> rw [hverdict] at hmem hfails hlive
    case done     => cases hfails
    case declined => exact absurd (Timeline.isCancelled_fire.2 (.inl ht)) hlive
    case failed   => exact ⟨_, fails_of_verdict hverdict, hmem (List.mem_singleton_self _)⟩
    case panicked => exact ⟨_, fails_of_panic hverdict, hmem (List.mem_singleton_self _)⟩

-- A line fails without being cancelled if its command is unknown, or for one of these reasons.
theorem fails_of_execute (ht : trigger.flag ∈ token.flags) (ho : i.execute b line token trigger = some o)
    (hfails : o.execution.success = false) (hlive : ¬o.bench.isCancelled token) :
    (∃ name, (Line.ofString line).unknown? = some name) ∨
      ∃ c v e, Line.ofString line = .command c ∧ Verb.ofName? c.name = some v ∧ i.Fails b.input c v e ∧
        .report .main e ∈ o.trace := by
  by_cases hl : b.isCancelled token
  case pos =>
    rw [execute_of_isCancelled hl] at ho
    cases ho
    exact absurd hl hlive
  case neg =>
    rcases outcome_cases hl ho with ⟨_, rfl⟩ | ⟨c, hc, hv, rfl⟩ | ⟨c, v, p, hc, hv, hp, rfl⟩
    · cases hfails
    · exact .inl ⟨c.name, Line.unknown?_eq_some_iff.2 ⟨c, hc, hv, rfl⟩⟩
    · have ⟨e, he, hm⟩ := fails_of_outcome ht hp hfails hlive
      exact .inr ⟨c, v, e, hc, hv, he, hm⟩

end Interpreter

namespace Runner

variable {r : Runner} {b : Bench} {lines : List String} {selection : List Nat} {name : String}

-- A row that is executed in a run, which may come to an end or not.
structure Turn (r : Runner) (b : Bench) (lines : List String) (selection : List Nat) where
  earlier : List Row
  row : Row
  later : List Row
  before : List RowOutcome
  outcome : RowOutcome
  rows : Row.select lines selection = earlier ++ row :: later
  course : r.runCourse b earlier = some before
  goesOn : ∀ o ∈ before, ¬r.stopsAt o.status
  taken : r.row (lastBench (r.enter b).1 before) (r.enter b).2.1 (r.enter b).2.2 row = some outcome

namespace Turn

-- The bench and the scope under which the line of the row is executed.
def scope (turn : r.Turn b lines selection) : Bench × Trigger × Token :=
  r.lineScope (lastBench (r.enter b).1 turn.before) (r.enter b).2.1 (r.enter b).2.2

-- The token under which the line is executed is live.
def IsLive (turn : r.Turn b lines selection) : Prop :=
  ¬turn.scope.1.isCancelled turn.scope.2.2

def trace (turn : r.Turn b lines selection) : Trace :=
  r.rowTrace turn.outcome

-- The row fails, and the one error that is reported says that the command is unknown.
structure FailsAsUnknown (turn : r.Turn b lines selection) (name : String) : Prop where
  success : turn.outcome.record.success = false
  status  : turn.outcome.status = .failed
  errors  : turn.trace.errorMessages = ["Unknown command: " ++ name]

variable {turn : r.Turn b lines selection}

theorem line (turn : r.Turn b lines selection) : lines[turn.row.index]? = some turn.row.text := by
  have hmem : turn.row ∈ Row.select lines selection := turn.rows ▸ by simp
  exact (Row.mem_select.1 hmem).left

-- Beyond what its line reports, the row reports no error.
theorem exists_execute (turn : r.Turn b lines selection) :
    ∃ x rest, r.interpreter.execute turn.scope.1 turn.row.text turn.scope.2.2 turn.scope.2.1 = some x ∧
      turn.outcome = r.rowOutcome turn.scope.1 turn.scope.2.2 turn.row x ∧
      turn.trace = x.trace ++ rest ∧ rest.errorMessages = [] := by
  have ⟨x, hx, houtcome⟩ := exists_execute_of_row turn.taken
  have htrace : turn.trace = x.trace ++ (r.publishLine turn.outcome.record ++
      if r.stopsAt turn.outcome.status then [.report .main (.stopping turn.outcome.record.number)] else []) := by
    rw [← List.append_assoc, trace, rowTrace, houtcome]
    rfl
  refine ⟨x, _, hx, houtcome, htrace, ?_⟩
  have hpublished : (r.publishLine turn.outcome.record).errorMessages = [] := by
    unfold publishLine
    split <;> rfl
  rw [Trace.errorMessages_append, hpublished]
  split <;> rfl

-- The row of an unknown command fails as such.
theorem failsAsUnknown (hl : turn.IsLive) (h : (Line.ofString turn.row.text).unknown? = some name) :
    turn.FailsAsUnknown name := by
  have ⟨x, rest, hx, houtcome, htrace, hrest⟩ := turn.exists_execute
  have ⟨y, hfails, hy⟩ := Interpreter.execute_of_unknown hl h r.interpreter turn.scope.2.1
  cases hx.symm.trans hy
  refine ⟨by rw [houtcome]; exact hfails, ?status, ?errors⟩
  case status =>
    have hlive : turn.scope.1.isCancelled turn.scope.2.2 = false := Bool.eq_false_iff.2 hl
    simp only [houtcome, rowOutcome, Bench.reportOnly, hfails, hlive, RowStatus.of]
    rfl
  case errors =>
    rw [htrace, Trace.errorMessages_append, hrest]
    rfl

-- A row of which an error says so has an unknown command.
theorem unknown_of_error (h : "Unknown command: " ++ name ∈ turn.trace.errorMessages) :
    (Line.ofString turn.row.text).unknown? = some name := by
  have ⟨x, rest, hx, _, htrace, hrest⟩ := turn.exists_execute
  rw [htrace, Trace.errorMessages_append, hrest, List.append_nil] at h
  have ⟨_, hm⟩ := Trace.exists_report_of_unknown h
  exact Interpreter.unknown_of_report hx hm

-- A row that fails has an unknown command, or fails for another reason, or is cancelled.
theorem fails_of_failure (h : turn.outcome.record.success = false) :
    turn.outcome.status = .cancelled ∨ turn.outcome.status = .failed ∧
      ((∃ name, (Line.ofString turn.row.text).unknown? = some name) ∨
        ∃ c v e, Line.ofString turn.row.text = .command c ∧ Verb.ofName? c.name = some v ∧
          r.interpreter.Fails turn.scope.1.input c v e ∧ .report .main e ∈ turn.trace) := by
  have ⟨x, rest, hx, houtcome, htrace, _⟩ := turn.exists_execute
  have hfails : x.execution.success = false := by rw [← h, houtcome]; rfl
  have hstatus : turn.outcome.status = .of false (x.bench.isCancelled turn.scope.2.2) := by
    rw [houtcome, ← hfails]
    rfl
  cases hlive : x.bench.isCancelled turn.scope.2.2
  case true  => exact .inl (by rw [hstatus, hlive]; rfl)
  case false =>
    refine .inr ⟨by rw [hstatus, hlive]; rfl, ?_⟩
    have ht : turn.scope.2.1.flag ∈ turn.scope.2.2.flags := lineScope_trigger_mem r _ (List.mem_cons_self ..)
    refine (Interpreter.fails_of_execute ht hx hfails (by simp [hlive])).imp_right ?_
    rintro ⟨c, v, e, hc, hv, hfails, he⟩
    exact ⟨c, v, e, hc, hv, hfails, htrace ▸ List.mem_append_left _ he⟩

end Turn

-- Every line gets a turn under a live token: by a runner that is given this line alone, and that nothing has cancelled.
theorem exists_live_turn (hr : r.interpreter.station.AlwaysReplies) (hb : b.timeline.signals.raised = []) {index : Nat}
    (h : index < lines.length) : ∃ turn : r.Turn b lines [index], turn.row.index = index ∧ turn.IsLive := by
  have hindexes : (Row.select lines [index]).map (·.index) = [index] := by
    rw [Row.map_index_select (List.cons_ne_nil _ _)]
    simp [Row.positions, h, inOrder]
  have hone : (Row.select lines [index]).length = 1 := by simpa using congrArg List.length hindexes
  obtain ⟨row, hrow⟩ := List.length_eq_one_iff.1 hone
  obtain ⟨o, ho⟩ := exists_row hr (r.enter b).1 (r.enter b).2.1 (r.enter b).2.2 row
  have hnone : ∀ p ∈ ([] : List RowOutcome), ¬r.stopsAt p.status := fun _ hp => absurd hp List.not_mem_nil
  refine ⟨⟨[], row, [], [], o, hrow, rfl, hnone, ho⟩, by simpa [hrow] using hindexes, fun hcancelled => ?_⟩
  obtain ⟨g, _, hg⟩ := Signals.isCancelled_iff.1 hcancelled
  have hraised : (r.lineScope (r.enter b).1 (r.enter b).2.1 (r.enter b).2.2).1.timeline.signals.raised = [] := by
    unfold lineScope
    split <;> exact hb
  exact List.not_mem_nil (hraised ▸ hg)

end Runner

variable {lines : List String} {index : Nat} {name : String}

theorem checkEvents_eq : checkEvents lines = lines.zipIdx.flatMap fun (text, index) =>
    match (Line.ofString text).unknown? with
    | some name => [.unknownInLine (index + 1) name]
    | none => (Line.ofString text).warnings := by
  refine List.flatMap_congr fun (text, index) _ => ?_
  cases hline : Line.ofString text
  case command c => cases hv : Verb.ofName? c.name <;> simp [Line.unknown?, Line.command?, hv, hline, Line.warnings]
  all_goals simp [Line.unknown?, Line.command?, hline]

theorem Line.unknownInLine_not_mem_warnings {line : Line} {number : Nat} :
    .unknownInLine number name ∉ line.warnings := by
  cases line <;> simp [Line.warnings]

theorem mem_checkEvents {number : Nat} : .unknownInLine number name ∈ checkEvents lines ↔
    ∃ index text, number = index + 1 ∧ lines[index]? = some text ∧ (Line.ofString text).unknown? = some name := by
  rw [checkEvents_eq, List.mem_flatMap]
  constructor
  · intro ⟨(text, index), hline, he⟩
    refine ⟨index, text, ?_⟩
    cases hunknown : (Line.ofString text).unknown?
    case none =>
      simp only [hunknown] at he
      exact absurd he Line.unknownInLine_not_mem_warnings
    case some name' =>
      simp only [hunknown, List.mem_singleton, Event.unknownInLine.injEq] at he
      exact ⟨he.left, List.mem_zipIdx_iff_getElem?.1 hline, by rw [he.right]⟩
  · rintro ⟨index, text, rfl, hline, hunknown⟩
    exact ⟨(text, index), List.mem_zipIdx_iff_getElem?.2 hline, by simp [hunknown]⟩

-- A check reports a row with a name.
def Report.Reports (r : Report) (index : Nat) (name : String) : Prop :=
  .notice (.unknownInLine (index + 1) name) ∈ r.output

instance (r : Report) (index : Nat) (name : String) : Decidable (r.Reports index name) :=
  inferInstanceAs (Decidable (_ ∈ _))

theorem checkReport_reports : (checkReport lines).Reports index name ↔
    ∃ text, lines[index]? = some text ∧ (Line.ofString text).unknown? = some name := by
  have hevents : .notice (.unknownInLine (index + 1) name) ∈ Output.notices (checkEvents lines) ↔
      ∃ text, lines[index]? = some text ∧ (Line.ofString text).unknown? = some name := by
    rw [Output.notices, List.mem_map]
    simp only [Output.notice, Output.effect.injEq, Effect.report.injEq, true_and, exists_eq_right, mem_checkEvents]
    grind
  rw [← hevents, Report.Reports, checkReport]
  split <;> simp [Report.after, Output.notice, Failure.report]

-- Loading reports no row.
theorem Report.Extends.reports_iff {whole part : Report} (h : whole.Extends part) :
    whole.Reports index name ↔ part.Reports index name := by
  have ⟨preface, hpreface, houtput⟩ := h.output
  rw [Report.Reports, houtput, List.mem_append, Report.Reports]
  exact or_iff_right fun hm => hpreface _ hm

-- A check fails if it reports a row, and only then.
theorem checkReport_status : (checkReport lines).status = 0 ∧ (∀ index name, ¬(checkReport lines).Reports index name) ∨
    (checkReport lines).status = 1 ∧ ∃ index name, (checkReport lines).Reports index name := by
  simp only [checkReport_reports]
  by_cases hnone : ((checkEvents lines).filter (·.isUnknown)).length = 0
  case pos =>
    refine .inl ⟨by simp [checkReport, hnone, Report.after], ?_⟩
    rintro index name ⟨text, hline, hunknown⟩
    have hmem := mem_checkEvents.2 ⟨index, text, rfl, hline, hunknown⟩
    rw [List.length_eq_zero_iff, List.filter_eq_nil_iff] at hnone
    exact hnone _ hmem rfl
  case neg =>
    refine .inr ⟨by simp [checkReport, hnone, Report.after, Failure.report], ?_⟩
    have ⟨e, he⟩ := List.exists_mem_of_length_pos (Nat.pos_of_ne_zero hnone)
    have ⟨hmem, hunknown⟩ := List.mem_filter.1 he
    cases e <;> try exact absurd hunknown Bool.false_ne_true
    case unknownInLine number name =>
      have ⟨index, text, _, hline, hunknown⟩ := mem_checkEvents.1 hmem
      exact ⟨index, name, text, hline, hunknown⟩

-- A runner for the station that the settings describe, whoever answers its dialogs and on whichever thread.
def Settings.Drives (s : Settings) (r : Runner) : Prop :=
  ∃ dialog surface, r.interpreter =
    ⟨(Station.ofSettings { s.simulation with dialog }).withSurface surface, s.interpreter.settleDelay⟩

namespace Invocation

variable {v : Invocation} {a : Arguments} {settings : Settings} {source : String} {script : Loaded}

theorem exists_check (ha : Arguments.ofList v.arguments = .ok a) (htask : a.task = .check source)
    (hsettings : Settings.loadOrDefault v.files (v.settingsPath a) = .ok settings)
    (hscript : v.load source = .ok script) :
    ∃ report, v.report = some report ∧ report.Extends (checkReport script.lines) := by
  have hperform : v.perform settings a.task =
      some ((checkReport script.lines).after (Output.notices script.events)) := by
    simp only [htask, perform, orFailure, hscript]
  obtain ⟨report, hreport, hextends⟩ := exists_report ha hsettings hperform
  exact ⟨report, hreport, hextends.trans (Report.extends_after (load_events hscript))⟩

-- A check reports exactly the rows that fail because their command is unknown, in every run in which they get their
-- turn under a live token. It succeeds if it reports none; what fails in a run then fails for a parameter, at a device
-- or in a dialog, by a panic, or because it is cancelled.
theorem check_foretells_unknown (ha : Arguments.ofList v.arguments = .ok a) (htask : a.task = .check source)
    (hsettings : Settings.loadOrDefault v.files (v.settingsPath a) = .ok settings)
    (hscript : v.load source = .ok script) :
    ∃ report, v.report = some report ∧
      (∀ index name, report.Reports index name ↔
        index < script.lines.length ∧
        ∀ r b selection, settings.Drives r → ∀ turn : r.Turn b script.lines selection,
          turn.row.index = index → turn.IsLive → turn.FailsAsUnknown name) ∧
      (∀ (r : Runner) (b : Bench) (selection : List Nat) (turn : r.Turn b script.lines selection) (name : String),
        "Unknown command: " ++ name ∈ turn.trace.errorMessages → report.Reports turn.row.index name) ∧
      (report.status = 0 ∧ (∀ index name, ¬report.Reports index name) ∨
        report.status = 1 ∧ ∃ index name, report.Reports index name) ∧
      (report.status = 0 → ∀ (r : Runner) (b : Bench) (selection : List Nat) (turn : r.Turn b script.lines selection),
        turn.outcome.record.success = false →
          turn.outcome.status = .cancelled ∨ turn.outcome.status = .failed ∧
            ∃ c verb e, Line.ofString turn.row.text = .command c ∧ Verb.ofName? c.name = some verb ∧
              r.interpreter.Fails turn.scope.1.input c verb e ∧ .report .main e ∈ turn.trace) := by
  have ⟨report, hreport, hextends⟩ := exists_check ha htask hsettings hscript
  have hreports (index name) : report.Reports index name ↔
      ∃ text, script.lines[index]? = some text ∧ (Line.ofString text).unknown? = some name :=
    hextends.reports_iff.trans checkReport_reports
  have hturn {r : Runner} {b : Bench} {selection : List Nat} (turn : r.Turn b script.lines selection) (name) :
      report.Reports turn.row.index name ↔ (Line.ofString turn.row.text).unknown? = some name := by
    rw [hreports, turn.line]
    simp
  have hstatus : report.status = 0 ∧ (∀ index name, ¬report.Reports index name) ∨
      report.status = 1 ∧ ∃ index name, report.Reports index name := by
    simp only [hextends.status, hextends.reports_iff]
    exact checkReport_status
  refine ⟨report, hreport, fun index name => ⟨?fails, ?reported⟩, fun r b selection turn name herror => ?never, hstatus,
    fun hzero r b selection turn hfailure => ?causes⟩
  case fails =>
    intro h
    have ⟨text, hline, _⟩ := (hreports index name).1 h
    have ⟨hlt, _⟩ := List.getElem?_eq_some_iff.1 hline
    refine ⟨hlt, fun r b selection _ turn hindex hl => turn.failsAsUnknown hl ?_⟩
    exact (hturn turn name).1 (hindex ▸ h)
  case reported =>
    intro ⟨hlt, hfails⟩
    let i : Interpreter := ⟨(Station.ofSettings { settings.simulation with dialog := .yes }).withSurface none,
      settings.interpreter.settleDelay⟩
    let opened := Runner.open i {} .accepting ⟨0⟩ {}
    have hreplies : i.station.AlwaysReplies :=
      Station.withSurface_alwaysReplies (Station.ofSettings_alwaysReplies _) none
    have ⟨turn, hindex, hl⟩ := Runner.exists_live_turn (r := opened.1) (b := opened.2) hreplies rfl hlt
    have hunknown := hfails opened.1 opened.2 [index] ⟨.yes, none, rfl⟩ turn hindex hl
    rw [← hindex, hturn turn name]
    exact turn.unknown_of_error (hunknown.errors ▸ List.mem_singleton_self _)
  case never => exact (hturn turn name).2 (turn.unknown_of_error herror)
  case causes =>
    refine (turn.fails_of_failure hfailure).imp_right fun ⟨hfailed, hcases⟩ => ⟨hfailed, hcases.resolve_left ?_⟩
    rintro ⟨name, hunknown⟩
    rcases hstatus with ⟨_, hnone⟩ | ⟨hone, _⟩
    · exact hnone _ name ((hturn turn name).2 hunknown)
    · rw [hzero] at hone
      cases hone

-- A name in the wrong case, a line that is no command, and a comment.
theorem check_foretells_unknown_of_wrong_case :
    let input := "SET_OUTPUT ^ UV_PLC1\nwait ^ T ^ 7 // ms\nLONELY\n// NONE ^ X\n"
    let v : Invocation := ⟨["check", "-"], [], ⟨fun _ => .error .notFound, fun _ => false⟩, Typed.lines input, ⟨0⟩⟩
    ∃ report, v.report = some report ∧ report.status = 1 ∧ report.Reports 1 "wait" ∧
      ∀ r b selection, Settings.Drives {} r → ∀ turn : r.Turn b (Text.lines input) selection,
        turn.row.index = 1 → turn.IsLive → turn.FailsAsUnknown "wait" := by
  intro input v
  have harguments : Arguments.ofList v.arguments = .ok { task := .check "-" } := by rfl
  have hsettings : Settings.loadOrDefault v.files (v.settingsPath { task := .check "-" }) = .ok {} := by rfl
  have hscript : v.load "-" = .ok { lines := Text.lines input } := load_input rfl
  have ⟨report, hreport, hreports, _, hstatus, _⟩ := check_foretells_unknown harguments rfl hsettings hscript
  have hsaid : v.report.map (fun report => decide (report.Reports 1 "wait")) = some true := by decide +kernel
  rw [hreport] at hsaid
  have hwait : report.Reports 1 "wait" := of_decide_eq_true (Option.some.inj hsaid)
  have ⟨hone, _⟩ := hstatus.resolve_left fun ⟨_, hnone⟩ => hnone 1 "wait" hwait
  exact ⟨report, hreport, hone, hwait, ((hreports 1 "wait").1 hwait).right⟩

end Invocation

end StationScript
