import StationScript.Proofs.Lines
import StationScript.Proofs.Lists
import StationScript.Run

namespace StationScript

-- The bench with another number of scopes opened so far.
def Bench.withOpened (b : Bench) (opened : Nat) : Bench :=
  { b with timeline := { b.timeline with signals := { b.timeline.signals with opened } } }

theorem Bench.isCancelled_of_mem {b : Bench} {s t : Token} (h : ∀ f ∈ s.flags, f ∈ t.flags)
    (hc : b.isCancelled s) : b.isCancelled t := by
  have ⟨f, hf, hr⟩ := Signals.isCancelled_iff.1 hc
  exact Signals.isCancelled_iff.2 ⟨f, h f hf, hr⟩

-- The counts of a series of rows.
def RunSummary.tally (statuses : List RowStatus) : RunSummary :=
  statuses.foldl count {}

-- A row that was cut short by a cancellation, or skipped because of one.
structure RowOutcome.CutShort (row : Row) (o : RowOutcome) : Prop where
  number    : o.record.number = row.number
  text      : o.record.commandText = Text.trimmed row.text
  failed    : o.record.success = false
  output    : o.record.output = Execution.failureText
  cancelled : o.status = .cancelled

-- A row that was cut short does not end its run.
theorem RowOutcome.CutShort.not_stopsAt {r : Runner} {row : Row} {o : RowOutcome} (h : o.CutShort row) :
    r.stopsAt o.status = false := by
  simp [Runner.stopsAt, h.cancelled]

-- How many milliseconds a run took that started on a bench.
def RunOutcome.duration (b : Bench) (q : RunOutcome) : Nat :=
  q.bench.timeline.now - b.timeline.now

namespace Runner

variable {r : Runner} {b : Bench} {trigger : Trigger} {token : Token} {summary : RunSummary} {row : Row}
  {rows : List Row} {os : List RowOutcome}

-- The outcomes of the rows that are taken. Each row starts from the bench that the one before it left.
def course (r : Runner) (trigger : Trigger) (token : Token) (b : Bench) : List Row → Option (List RowOutcome)
  | [] => some []
  | row :: rest => do
    let o ← r.row b trigger token row
    if r.stopsAt o.status then some [o]
    else
      let later ← r.course trigger token o.bench rest
      some (o :: later)

-- The bench after the last of some rows.
def lastBench (b : Bench) (os : List RowOutcome) : Bench :=
  os.foldl (fun _ o => o.bench) b

-- What a row adds to the trace of its run.
def rowTrace (r : Runner) (o : RowOutcome) : Trace :=
  o.trace ++ if r.stopsAt o.status then [.report .main (.stopping o.record.number)] else []

theorem course_cons_of_stopsAt {o : RowOutcome} (ho : r.row b trigger token row = some o)
    (hs : r.stopsAt o.status) : r.course trigger token b (row :: rows) = some [o] := by
  simp [course, ho, hs]

theorem course_cons_of_not_stopsAt {o : RowOutcome} (ho : r.row b trigger token row = some o)
    (hs : ¬r.stopsAt o.status) (hos : r.course trigger token o.bench rows = some os) :
    r.course trigger token b (row :: rows) = some (o :: os) := by
  simp [course, ho, hs, hos]

theorem course_cons_cases (h : r.course trigger token b (row :: rows) = some os) :
    ∃ o, r.row b trigger token row = some o ∧
      (r.stopsAt o.status ∧ os = [o] ∨
        ¬r.stopsAt o.status ∧ ∃ later, r.course trigger token o.bench rows = some later ∧ os = o :: later) := by
  have ⟨o, ho, h⟩ := Option.bind_eq_some_iff.1 h
  refine ⟨o, ho, ?_⟩
  split at h
  case isTrue hs => exact .inl ⟨hs, (Option.some.inj h).symm⟩
  case isFalse hs =>
    have ⟨later, hlater, h⟩ := Option.bind_eq_some_iff.1 h
    exact .inr ⟨hs, later, hlater, (Option.some.inj h).symm⟩

-- The rows that a run takes are the first of those that were asked for. What holds of every row with its outcome
-- holds of these.
theorem course_forall₂ {p : Row → RowOutcome → Prop}
    (hp : ∀ b row o, r.row b trigger token row = some o → p row o) (h : r.course trigger token b rows = some os) :
    ∃ taken, taken <+: rows ∧ List.Forall₂ p taken os := by
  induction rows generalizing b os
  case nil => cases h; exact ⟨[], List.prefix_refl _, .nil⟩
  case cons row rest ih =>
    have ⟨o, ho, hcases⟩ := course_cons_cases h
    rcases hcases with ⟨_, rfl⟩ | ⟨_, later, hlater, rfl⟩
    · exact ⟨[row], List.cons_prefix_cons.2 ⟨rfl, List.nil_prefix⟩, .cons (hp _ _ _ ho) .nil⟩
    · have ⟨taken, htaken, hlater⟩ := ih hlater
      exact ⟨row :: taken, List.cons_prefix_cons.2 ⟨rfl, htaken⟩, .cons (hp _ _ _ ho) hlater⟩

-- Runs go alike of which each row goes alike, is counted alike and leaves the same bench, if the same rows end them.
theorem course_rel_course {s : Runner} {like : Row → Row → Prop} {related : RowOutcome → RowOutcome → Prop}
    {rows' : List Row}
    (hrow : ∀ b row row', like row row' →
      Option.Rel related (r.row b trigger token row) (s.row b trigger token row'))
    (hsame : ∀ o p, related o p → p.status = o.status ∧ p.bench = o.bench)
    (hstop : ∀ status, s.stopsAt status = r.stopsAt status) (h : List.Forall₂ like rows rows') :
    Option.Rel (List.Forall₂ related) (r.course trigger token b rows) (s.course trigger token b rows') := by
  induction h generalizing b
  case nil => exact .some .nil
  case cons row row' rest rest' hlike _ ih =>
    have hfirst := hrow b row row' hlike
    rw [course, course]
    generalize r.row b trigger token row = x, s.row b trigger token row' = y at hfirst
    cases hfirst
    case none => exact .none
    case some o p ho =>
      have ⟨hstatus, hbench⟩ := hsame o p ho
      have hlater := ih (b := o.bench)
      simp only [Option.bind_eq_bind, Option.bind_some, hstatus, hbench, hstop]
      generalize r.course trigger token o.bench rest = x, s.course trigger token o.bench rest' = y at hlater
      by_cases hs : r.stopsAt o.status
      case pos =>
        simp only [hs]
        exact .some (.cons ho .nil)
      case neg =>
        simp only [hs]
        cases hlater
        case none            => exact .none
        case some os ps hall => exact .some (.cons ho hall)

theorem course_rel {like : Row → Row → Prop} {related : RowOutcome → RowOutcome → Prop} {rows' : List Row}
    (hrow : ∀ b row row', like row row' →
      Option.Rel related (r.row b trigger token row) (r.row b trigger token row'))
    (hsame : ∀ o p, related o p → p.status = o.status ∧ p.bench = o.bench) (h : List.Forall₂ like rows rows') :
    Option.Rel (List.Forall₂ related) (r.course trigger token b rows) (r.course trigger token b rows') :=
  course_rel_course hrow hsame (fun _ => rfl) h

-- A run that no row ends takes every row.
theorem length_course_of_not_stopsAt (hs : ∀ o ∈ os, ¬r.stopsAt o.status)
    (h : r.course trigger token b rows = some os) : os.length = rows.length := by
  induction rows generalizing b os
  case nil => cases h; rfl
  case cons row rest ih =>
    have ⟨o, _, hcases⟩ := course_cons_cases h
    rcases hcases with ⟨hstop, rfl⟩ | ⟨_, later, hlater, rfl⟩
    · exact absurd hstop (hs o (List.mem_singleton_self o))
    · exact congrArg (· + 1) (ih (fun p hp => hs p (List.mem_cons_of_mem _ hp)) hlater)

-- A run that no failure stops takes every row.
theorem length_course (hs : r.settings.stopOnFailure = false) (h : r.course trigger token b rows = some os) :
    os.length = rows.length :=
  length_course_of_not_stopsAt (fun o _ => by simp [stopsAt, hs]) h

theorem rows_eq : r.rows trigger token b summary rows =
    (r.course trigger token b rows).map fun os =>
      ⟨os.map (·.record), (os.map (·.status)).foldl .count summary, os.flatMap r.rowTrace, lastBench b os⟩ := by
  induction rows generalizing b summary
  case nil => rfl
  case cons row rest ih =>
    rw [rows, course]
    cases r.row b trigger token row
    case none => rfl
    case some o =>
      by_cases hs : r.stopsAt o.status
      case pos => simp [hs, rowTrace, lastBench]
      case neg =>
        simp only [Option.bind_eq_bind, Option.bind_some, hs]
        rw [ih]
        cases r.course trigger token o.bench rest <;> simp [hs, rowTrace, lastBench]

-- The bench with the scope of a run opened, and the halves of that scope.
def enter (r : Runner) (b : Bench) : Bench × Trigger × Token :=
  let (signals, inner) := b.timeline.signals.child r.token
  ({ b with timeline := { b.timeline with signals } }, inner)

-- The course of a run within the scope that it opens.
def runCourse (r : Runner) (b : Bench) (rows : List Row) : Option (List RowOutcome) :=
  let (b, trigger, token) := r.enter b
  r.course trigger token b rows

-- The report on a run, from its course.
def report (r : Runner) (b : Bench) (lines : List String) (selection : List Nat) (os : List RowOutcome) :
    RunOutcome :=
  let last := lastBench (r.enter b).1 os
  let summary := { RunSummary.tally (os.map (·.status)) with
    elapsed := (last.timeline.now - b.timeline.now) % Text.wordLimit
    timestamp := (r.instant last).seconds }
  let requested := Row.select lines selection
  { records := os.map (·.record)
    summary
    trace :=
      (Row.warnings lines selection).map (.report .main) ++
        ([.report .main (.runStarted requested.length r.settings.cancellationScope)] ++ os.flatMap r.rowTrace ++
          [.report .main (.runFinished summary.succeeded summary.failed summary.cancelled)] ++
          r.publishSummary summary)
    bench := last }

theorem run_eq {lines : List String} {selection : List Nat} :
    r.run b lines selection =
      (r.runCourse b (Row.select lines selection)).map (r.report b lines selection) := by
  simp only [run, runRows, rows_eq, runCourse, enter]
  cases r.course _ _ _ (Row.select lines selection) <;> rfl

theorem exists_course_of_run {lines : List String} {selection : List Nat} {q : RunOutcome}
    (hq : r.run b lines selection = some q) :
    ∃ os, r.runCourse b (Row.select lines selection) = some os ∧ q = r.report b lines selection os := by
  have ⟨os, hos, heq⟩ := Option.map_eq_some_iff.1 (run_eq ▸ hq)
  exact ⟨os, hos, heq.symm⟩

-- The summary tells how long the run took, as far as a word of 64 bits can tell it.
theorem elapsed_of_run {lines : List String} {selection : List Nat} {q : RunOutcome}
    (hq : r.run b lines selection = some q) : q.summary.elapsed = q.duration b % Text.wordLimit := by
  have ⟨os, _, heq⟩ := exists_course_of_run hq
  rw [heq]
  rfl

theorem publishLine_actions {record : LineRecord} : (r.publishLine record).actions = [] := by
  unfold publishLine
  split <;> rfl

theorem publishSummary_actions : (r.publishSummary summary).actions = [] := by
  unfold publishSummary
  split <;> rfl

theorem rowTrace_actions {o : RowOutcome} : (r.rowTrace o).actions = o.trace.actions := by
  unfold rowTrace
  split <;> simp [Trace.actions, Effect.action?]

theorem flatMap_actions : Trace.actions (os.flatMap (·.trace)) = os.flatMap (·.trace.actions) :=
  List.filterMap_flatMap

theorem flatMap_rowTrace_actions :
    Trace.actions (os.flatMap r.rowTrace) = Trace.actions (os.flatMap (·.trace)) := by
  have hrows : Trace.actions (os.flatMap r.rowTrace) = os.flatMap fun o => (r.rowTrace o).actions :=
    List.filterMap_flatMap
  rw [hrows, flatMap_actions]
  exact List.flatMap_congr fun o _ => rowTrace_actions

theorem flatMap_actions_eq_nil (h : ∀ o ∈ os, o.trace.actions = []) :
    Trace.actions (os.flatMap (·.trace)) = [] := by
  rw [flatMap_actions]
  exact List.flatMap_eq_nil_iff.2 h

-- Rows of which each performs the same actions have the same journal.
theorem flatMap_actions_congr {related : RowOutcome → RowOutcome → Prop} {ps : List RowOutcome}
    (h : List.Forall₂ related os ps) (hactions : ∀ o p, related o p → o.trace.actions = p.trace.actions) :
    Trace.actions (os.flatMap (·.trace)) = Trace.actions (ps.flatMap (·.trace)) := by
  rw [flatMap_actions, flatMap_actions, List.flatMap_def, List.flatMap_def, map_eq_of_forall₂ h hactions]

-- The journal of a run is that of its rows.
theorem report_actions {lines : List String} {selection : List Nat} :
    (r.report b lines selection os).trace.actions = Trace.actions (os.flatMap (·.trace)) := by
  have hevent : ∀ e : Event, Trace.actions [.report .main e] = [] := fun _ => rfl
  simp only [report, Trace.actions_append, Trace.actions_reports, flatMap_rowTrace_actions, hevent,
    publishSummary_actions, List.nil_append, List.append_nil]

theorem statuses_of_cutShort (h : List.Forall₂ RowOutcome.CutShort rows os) :
    os.map (·.status) = rows.map fun _ => .cancelled :=
  (map_eq_of_forall₂ h fun _ _ hcut => hcut.cancelled.symm).symm

-- The totals of a run of which the last rows were cut or skipped.
theorem report_cut {kept cut : List RowOutcome} {instant : Nat} (lines : List String) (selection : List Nat)
    (hcuts : List.Forall₂ RowOutcome.CutShort rows cut)
    (hnow : (lastBench (r.enter b).1 (kept ++ cut)).timeline.now = instant) :
    (r.report b lines selection (kept ++ cut)).summary =
      { RunSummary.tally (kept.map (·.status) ++ rows.map fun _ => .cancelled) with
        elapsed := (instant - b.timeline.now) % Text.wordLimit
        timestamp := (r.origin.addMilliseconds instant).seconds } := by
  simp only [report, Runner.instant, hnow, List.map_append, statuses_of_cutShort hcuts]

-- What holds of the benches that rows leave holds of those that the last rows leave.
theorem lastBench_of_forall₂ {motive : Bench → Bench → Prop} {related : RowOutcome → RowOutcome → Prop} {a : Bench}
    {ps : List RowOutcome} (h : List.Forall₂ related os ps) (hstart : motive a b)
    (hbench : ∀ o p, related o p → motive o.bench p.bench) : motive (lastBench a os) (lastBench b ps) := by
  induction h generalizing a b
  case nil => exact hstart
  case cons ho _ ih => exact ih (hbench _ _ ho)

-- The record of a row that starts on a bench.
def lineRecord (r : Runner) (b : Bench) (row : Row) (x : Execution) : LineRecord where
  number := row.number
  executedAt := r.instant b
  commandText := Text.trimmed row.text
  success := x.success
  output := x.describe

-- The outcome of a row from that of its line, where the bench and the token are those of the line's scope.
def rowOutcome (r : Runner) (b : Bench) (token : Token) (row : Row) (o : Outcome) : RowOutcome where
  record := r.lineRecord b row o.execution
  status := .of o.execution.success (o.bench.isCancelled token)
  trace := o.trace ++ r.publishLine (r.lineRecord b row o.execution)
  bench := o.bench

theorem row_eq : r.row b trigger token row =
    (r.interpreter.execute (r.lineScope b trigger token).1 row.text (r.lineScope b trigger token).2.2
        (r.lineScope b trigger token).2.1).map
      (r.rowOutcome (r.lineScope b trigger token).1 (r.lineScope b trigger token).2.2 row) := by
  rw [Option.map_eq_bind]
  rfl

theorem exists_execute_of_row {o : RowOutcome} (ho : r.row b trigger token row = some o) :
    ∃ x, r.interpreter.execute (r.lineScope b trigger token).1 row.text (r.lineScope b trigger token).2.2
        (r.lineScope b trigger token).2.1 = some x ∧
      o = r.rowOutcome (r.lineScope b trigger token).1 (r.lineScope b trigger token).2.2 row x := by
  have ⟨x, hx, heq⟩ := Option.map_eq_some_iff.1 (row_eq ▸ ho)
  exact ⟨x, hx, heq.symm⟩

-- The scope of a line is opened without any other change.
theorem exists_lineScope_eq_withOpened (r : Runner) (b : Bench) (trigger : Trigger) (token : Token) :
    ∃ opened, (r.lineScope b trigger token).1 = b.withOpened opened := by
  unfold lineScope
  split
  · exact ⟨b.timeline.signals.opened, rfl⟩
  · exact ⟨b.timeline.signals.opened + 1, rfl⟩

-- The scope of a line lies in the scope of the run.
theorem mem_lineScope_flags {f : Flag} (h : f ∈ token.flags) :
    f ∈ (r.lineScope b trigger token).2.2.flags := by
  unfold lineScope
  split
  · exact h
  · exact List.mem_cons_of_mem _ h

theorem rowOutcome_cutShort {o : Outcome} (hs : o.execution.success = false) (hc : o.bench.isCancelled token) :
    (r.rowOutcome b token row o).CutShort row where
  number    := rfl
  text      := rfl
  failed    := hs
  output    := by simp [rowOutcome, lineRecord, Execution.describe, hs]
  cancelled := by simp [rowOutcome, RowStatus.of, hs, hc]

-- A row within a cancelled run is skipped, and takes no time.
theorem row_of_isCancelled (r : Runner) (trigger : Trigger) (row : Row) (h : b.isCancelled token) :
    ∃ o opened, r.row b trigger token row = some o ∧ o.CutShort row ∧ o.trace.actions = [] ∧
      o.bench = b.withOpened opened := by
  have ⟨opened, ho⟩ := r.exists_lineScope_eq_withOpened b trigger token
  have hc : (r.lineScope b trigger token).1.isCancelled (r.lineScope b trigger token).2.2 := by
    rw [ho]
    exact Bench.isCancelled_of_mem (b := b) (fun f hf => mem_lineScope_flags hf) h
  refine ⟨_, opened, by rw [row_eq, Interpreter.execute_of_isCancelled hc]; rfl, ?_, ?_, ho⟩
  · exact rowOutcome_cutShort rfl hc
  · rw [rowOutcome, Trace.actions_append, publishLine_actions]
    rfl

-- All rows within a cancelled run are skipped.
theorem course_of_isCancelled (r : Runner) (trigger : Trigger) (rows : List Row) (h : b.isCancelled token) :
    ∃ os opened, r.course trigger token b rows = some os ∧ List.Forall₂ RowOutcome.CutShort rows os ∧
      (∀ o ∈ os, o.trace.actions = [] ∧ ∃ opened, o.bench = b.withOpened opened) ∧
      lastBench b os = b.withOpened opened := by
  induction rows generalizing b
  case nil => exact ⟨[], b.timeline.signals.opened, rfl, .nil, List.forall_mem_nil _, rfl⟩
  case cons row rest ih =>
    have ⟨o, opened, ho, hcut, hactions, hbench⟩ := row_of_isCancelled r trigger row h
    have hc : o.bench.isCancelled token := hbench ▸ h
    have ⟨os, opened', hos, hcuts, hactions', hlast⟩ := ih hc
    refine ⟨o :: os, opened', ?_, .cons hcut hcuts, ?_, ?_⟩
    · exact course_cons_of_not_stopsAt ho (by simp [hcut.not_stopsAt]) hos
    · refine List.forall_mem_cons.2 ⟨⟨hactions, opened, hbench⟩, fun p hp => ?_⟩
      have ⟨hnone, opened'', hp⟩ := hactions' p hp
      exact ⟨hnone, opened'', hp.trans (by rw [hbench]; rfl)⟩
    · exact hlast.trans (by rw [hbench]; rfl)

theorem exists_row (h : r.interpreter.station.AlwaysReplies) (b : Bench) (trigger : Trigger) (token : Token)
    (row : Row) : ∃ o, r.row b trigger token row = some o := by
  have ⟨o, ho⟩ := Interpreter.exists_execute h (r.lineScope b trigger token).1 row.text
    (r.lineScope b trigger token).2.2 (r.lineScope b trigger token).2.1
  exact ⟨_, by rw [row_eq, ho]; rfl⟩

-- A run at a station whose operator always replies comes to its end.
theorem exists_course (h : r.interpreter.station.AlwaysReplies) :
    ∃ os, r.course trigger token b rows = some os := by
  induction rows generalizing b
  case nil => exact ⟨[], rfl⟩
  case cons row rest ih =>
    have ⟨o, ho⟩ := exists_row h b trigger token row
    have ⟨os, hos⟩ := ih (b := o.bench)
    by_cases hs : r.stopsAt o.status
    case pos => exact ⟨[o], course_cons_of_stopsAt ho hs⟩
    case neg => exact ⟨o :: os, course_cons_of_not_stopsAt ho hs hos⟩

end Runner

end StationScript
