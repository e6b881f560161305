import StationScript.Proofs.Course

namespace StationScript

theorem exists_toDigits_eq_cons (n : Nat) : ∃ d ds, Nat.toDigits 10 n = d :: ds ∧ d.isDigit := by
  cases hn : Nat.toDigits 10 n
  case nil => exact absurd hn Nat.toDigits_ne_nil
  case cons d ds =>
    have hmem : d ∈ Nat.toDigits 10 n := hn ▸ List.mem_cons_self ..
    exact ⟨d, ds, rfl, Nat.isDigit_of_mem_toDigits (by decide) (by decide) hmem⟩

-- A decimal starts with a digit or a minus sign if it is not one of two words.
theorem Double.exists_fixed_eq_cons (places : Nat) (x : Double) :
    ∃ c cs, (x.fixed places).toList = c :: cs ∧ c ≠ 'C' := by
  have ⟨d, ds, hdigits, hd⟩ := exists_toDigits_eq_cons (scaledMagnitude places x / ten places)
  have hne : d ≠ 'C' := fun h => by rw [h] at hd; cases hd
  unfold fixed
  split
  · exact ⟨'N', _, rfl, by decide⟩
  · cases x.isInfinite <;> cases x.isNegative <;> simp [hdigits, hne]

theorem Reading.text_ne_failureText (value : Double) (unit : String) : text value unit ≠ Execution.failureText := by
  intro h
  have h := congrArg String.toList h
  unfold text at h
  split at h
  · exact absurd h (by decide)
  · have ⟨c, cs, hc, hne⟩ := Double.exists_fixed_eq_cons 3 ((Scale.ofValue value).apply value)
    simp only [engineering, String.toList_append, hc] at h
    exact hne (List.head_eq_of_cons_eq h)

namespace Execution

variable {x : Execution}

theorem describe_of_failure (h : x.success = false) : x.describe = failureText := by
  simp [describe, h]

-- If a line that succeeded captured anything, it was a reading, and no reading looks like a failure.
theorem describe_ne_failureText (hs : x.success = true)
    (hout : ∀ text ∈ x.output, ∃ value unit, text = Reading.text value unit) : x.describe ≠ failureText := by
  obtain ⟨success, command⟩ := x
  cases hs
  cases command
  case none => exact by decide
  case some c =>
    simp only [describe]
    split
    · cases ho : c.output
      case none => exact by decide
      case some text =>
        obtain ⟨value, unit, htext⟩ := hout text ho
        exact htext ▸ Reading.text_ne_failureText value unit
    · intro h
      have h := congrArg String.toList h
      simp [failureText] at h
    · exact by decide

end Execution

namespace Trace

variable {events : List Event}

@[simp]
theorem publications_reports : publications (events.map (.report .main)) = [] := by
  simp [publications, Effect.publication?]

end Trace

namespace Interpreter

variable {i : Interpreter} {b : Bench} {line : String} {token : Token} {trigger : Trigger} {o : Outcome}

theorem reading_of_output (ho : i.execute b line token trigger = some o) (hs : o.execution.success = true)
    {text : String} (h : text ∈ o.execution.output) : ∃ value unit, text = Reading.text value unit := by
  by_cases hl : b.isCancelled token
  case pos => rw [execute_of_isCancelled hl] at ho; cases ho; cases hs
  case neg =>
    rcases outcome_cases hl ho with ⟨_, rfl⟩ | ⟨c, _, _, rfl⟩ | ⟨c, v, p, hc, hv, hp, rfl⟩
    · cases h
    · cases hs
    · have hlast : p.trace.captures.getLast? = some text := h
      have ⟨e, he, hcapture⟩ := List.mem_filterMap.1 (List.mem_of_getLast? hlast)
      have ⟨_, _, hplan⟩ := mem_plan hc hv (Timeline.follow_subset hp e he)
      have hstation := Station.plan_ofStation e hplan
      cases e <;> cases hcapture
      exact hstation

theorem describe_eq_failureText_iff (ho : i.execute b line token trigger = some o) :
    o.execution.describe = Execution.failureText ↔ o.execution.success = false := by
  constructor
  · intro hd
    cases hs : o.execution.success
    case false => rfl
    case true => exact absurd hd (Execution.describe_ne_failureText hs fun _ => reading_of_output ho hs)
  · exact Execution.describe_of_failure

-- A line publishes nothing by itself.
theorem publish_not_mem_trace (ho : i.execute b line token trigger = some o) (p : Publication) :
    .publish p ∉ o.trace := by
  intro he
  rcases mem_trace_of_execute ho he with ⟨_, heq⟩ | ⟨_, _, hplan⟩
  · cases heq
  · exact Station.plan_ofStation _ hplan

theorem publications_of_execute (ho : i.execute b line token trigger = some o) : o.trace.publications = [] := by
  refine List.filterMap_eq_nil_iff.2 fun e he => ?_
  cases e
  case publish p => exact absurd he (publish_not_mem_trace ho p)
  all_goals rfl

end Interpreter

namespace Row

variable {lines : List String} {selection : List Nat} {row : Row}

theorem mem_ofLines : row ∈ ofLines lines ↔ lines[row.index]? = some row.text := by
  simp only [ofLines, List.mem_map]
  constructor
  · intro ⟨⟨text, index⟩, hm, hrow⟩
    exact hrow ▸ List.mem_zipIdx_iff_getElem?.1 hm
  · exact fun h => ⟨(row.text, row.index), List.mem_zipIdx_iff_getElem?.2 h, rfl⟩

theorem ofLines_pairwise : (ofLines lines).Pairwise (·.index < ·.index) := by
  have hindex : (ofLines lines).map (·.index) = List.range' 0 lines.length := by
    rw [← List.zipIdx_map_snd, ofLines, List.map_map]
    rfl
  exact List.pairwise_map.1 (hindex ▸ List.pairwise_lt_range')

-- The rows that are asked for are lines of the script, in the order in which they stand there.
theorem mem_select : row ∈ select lines selection ↔
    lines[row.index]? = some row.text ∧ (selection = [] ∨ row.index ∈ selection) := by
  unfold select
  cases selection
  case nil    => simp [mem_ofLines]
  case cons _ => simp [mem_ofLines, List.mem_filter]

theorem select_pairwise : (select lines selection).Pairwise (·.index < ·.index) := by
  unfold select
  split
  · exact ofLines_pairwise
  · exact ofLines_pairwise.filter _

end Row

-- What the outcome of a row has to do with the row.
structure RowOutcome.Accounts (row : Row) (o : RowOutcome) : Prop where
  number    : o.record.number = row.number
  text      : o.record.commandText = Text.trimmed row.text
  output    : o.record.output = Execution.failureText ↔ o.record.success = false
  status    : o.status = .succeeded ↔ o.record.success = true
  published : o.trace.publications = [.line o.record]

namespace RunSummary

variable {s : RunSummary} {statuses : List RowStatus}

theorem foldl_count : statuses.foldl count s =
    { s with
      total := s.total + statuses.length
      succeeded := s.succeeded + statuses.count .succeeded
      failed := s.failed + statuses.count .failed
      cancelled := s.cancelled + statuses.count .cancelled } := by
  induction statuses generalizing s
  case nil => rfl
  case cons status rest ih =>
    rw [List.foldl_cons, ih]
    cases status <;> simp [count] <;> omega

theorem length_eq_add_counts : statuses.length =
    statuses.count .succeeded + statuses.count .failed + statuses.count .cancelled := by
  induction statuses
  case nil => rfl
  case cons status rest ih =>
    cases status <;> simp [ih] <;> omega

end RunSummary

namespace Runner

variable {r : Runner} {b : Bench} {trigger : Trigger} {token : Token} {row : Row} {rows taken : List Row}
  {o : RowOutcome} {os : List RowOutcome}

theorem publishLine_publications {record : LineRecord} : (r.publishLine record).publications = [.line record] := by
  unfold publishLine
  split <;> rfl

theorem publishSummary_publications {summary : RunSummary} :
    (r.publishSummary summary).publications = [.summary summary] := by
  unfold publishSummary
  split <;> rfl

theorem row_accounts (h : r.row b trigger token row = some o) : o.Accounts row := by
  rw [row_eq] at h
  have ⟨q, hq, heq⟩ := Option.map_eq_some_iff.1 h
  subst heq
  exact {
    number := rfl
    text := rfl
    output := Interpreter.describe_eq_failureText_iff hq
    status := by
      simp only [rowOutcome, lineRecord, RowStatus.of]
      cases q.execution.success <;> simp
      split <;> simp
    published := by
      rw [rowOutcome, Trace.publications_append, Interpreter.publications_of_execute hq, publishLine_publications]
      rfl }

theorem course_accounts (h : r.course trigger token b rows = some os) :
    ∃ taken, taken <+: rows ∧ List.Forall₂ RowOutcome.Accounts taken os :=
  course_forall₂ (fun _ _ _ => row_accounts) h

theorem exists_row_of_accounts (h : List.Forall₂ RowOutcome.Accounts taken os) (ho : o ∈ os) :
    ∃ row ∈ taken, o.Accounts row := by
  induction h
  case nil => cases ho
  case cons row p taken os hp _ ih =>
    cases List.mem_cons.1 ho
    case inl heq => exact ⟨row, List.mem_cons_self .., heq ▸ hp⟩
    case inr ho =>
      have ⟨row', hrow, haccounts⟩ := ih ho
      exact ⟨row', List.mem_cons_of_mem _ hrow, haccounts⟩

theorem numbers_of_accounts (h : List.Forall₂ RowOutcome.Accounts taken os) :
    os.map (·.record.number) = taken.map (·.number) :=
  (map_eq_of_forall₂ h fun _ _ hp => hp.number.symm).symm

theorem rowTrace_publications : (r.rowTrace o).publications = o.trace.publications := by
  unfold rowTrace
  split <;> simp [Trace.publications, Effect.publication?]

theorem flatMap_rowTrace_publications (h : ∀ o ∈ os, o.trace.publications = [.line o.record]) :
    Trace.publications (os.flatMap r.rowTrace) = os.map fun o => .line o.record := by
  have hrows : Trace.publications (os.flatMap r.rowTrace) = os.flatMap fun o => (r.rowTrace o).publications :=
    List.filterMap_flatMap
  rw [hrows, List.map_eq_flatMap]
  exact List.flatMap_congr fun o ho => rowTrace_publications.trans (h o ho)

theorem report_publications {lines : List String} {selection : List Nat}
    (h : ∀ o ∈ os, o.trace.publications = [.line o.record]) :
    (r.report b lines selection os).trace.publications =
      (r.report b lines selection os).records.map .line ++ [.summary (r.report b lines selection os).summary] := by
  have hevent : ∀ e : Event, Trace.publications [.report .main e] = [] := fun _ => rfl
  simp only [report, Trace.publications_append, Trace.publications_reports, flatMap_rowTrace_publications h, hevent,
    publishSummary_publications, List.nil_append, List.append_nil, List.map_map]
  rfl

end Runner

-- The warning when a publication failed.
def Publication.unpublished (reason : String) : Publication → Event
  | .line record => .lineUnpublished record.number reason
  | .summary _   => .summaryUnpublished reason

theorem Publication.unpublished_level {x : Publication} {reason : String} : (x.unpublished reason).level = .warn := by
  cases x <;> rfl

namespace Publisher

variable {p : Publisher} {t : Trace}

-- The reason for which a publication fails, if it does.
def refusal? (p : Publisher) : Publication → Option String
  | .line record     => p.line record
  | .summary summary => p.summary summary

-- An effect together with what the publisher adds to it: one warning if it is a publication that fails.
def hear (p : Publisher) : Effect → Trace
  | .publish x => .publish x :: (p.refusal? x).toList.map fun reason => .report .main (x.unpublished reason)
  | e => [e]

theorem flatMap_hear_of_not_mem (h : ∀ x, .publish x ∉ t) : t.flatMap p.hear = t := by
  induction t
  case nil => rfl
  case cons e rest ih =>
    have hrest := ih fun x hx => h x (List.mem_cons_of_mem _ hx)
    cases e
    case publish x => exact absurd (List.mem_cons_self ..) (h x)
    all_goals rw [List.flatMap_cons, hrest]; rfl

theorem actions_flatMap_hear : Trace.actions (t.flatMap p.hear) = t.actions := by
  have hhear (e : Effect) : Trace.actions (p.hear e) = Trace.actions [e] := by
    cases e
    case publish x => cases hx : p.refusal? x <;> rw [hear, hx] <;> rfl
    all_goals rfl
  induction t
  case nil => rfl
  case cons e rest ih => rw [List.flatMap_cons, Trace.actions_append, ih, hhear, ← Trace.actions_append]; rfl

end Publisher

-- How many warnings a trace holds.
def Trace.warnings (t : Trace) : Nat :=
  (t.events .main).countP (·.level = .warn)

theorem Trace.warnings_append (t u : Trace) : warnings (t ++ u) = t.warnings + u.warnings := by
  rw [warnings, events_append, List.countP_append]
  rfl

namespace Publisher

variable {p : Publisher} {t : Trace}

-- There is one more warning for every publication that fails.
theorem warnings_flatMap_hear : Trace.warnings (t.flatMap p.hear) =
    t.warnings + t.publications.countP fun x => (p.refusal? x).isSome := by
  have hhear (e : Effect) : Trace.warnings (p.hear e) =
      Trace.warnings [e] + (Trace.publications [e]).countP fun x => (p.refusal? x).isSome := by
    cases e
    case publish x =>
      cases hx : p.refusal? x <;>
        simp [hear, hx, Trace.warnings, Trace.events, Effect.event?, Trace.publications, Effect.publication?,
          List.filterMap_cons, Publication.unpublished_level]
    all_goals rfl
  induction t
  case nil => rfl
  case cons e rest ih =>
    have hcons : e :: rest = [e] ++ rest := rfl
    rw [List.flatMap_cons, Trace.warnings_append, ih, hhear, hcons, Trace.warnings_append, Trace.publications_append,
      List.countP_append]
    omega

end Publisher

def RowOutcome.heardBy (p : Publisher) (o : RowOutcome) : RowOutcome :=
  { o with trace := o.trace.flatMap p.hear }

def RunOutcome.heardBy (p : Publisher) (q : RunOutcome) : RunOutcome :=
  { q with trace := q.trace.flatMap p.hear }

namespace Runner

variable {r : Runner} {b : Bench} {trigger : Trigger} {token : Token} {row : Row} {rows : List Row}
  {o : RowOutcome} {os : List RowOutcome} {p : Publisher} {lines : List String} {selection : List Nat}

-- The runner with another publisher.
def publishingTo (r : Runner) (p : Publisher) : Runner :=
  { r with publisher := p }

theorem publishLine_publishingTo {record : LineRecord} : (r.publishingTo p).publishLine record =
    ((r.publishingTo .accepting).publishLine record).flatMap p.hear := by
  cases h : p.line record <;>
    simp [publishLine, publishingTo, Publisher.accepting, Publisher.hear, Publisher.refusal?, h,
      Publication.unpublished]

theorem publishSummary_publishingTo {summary : RunSummary} : (r.publishingTo p).publishSummary summary =
    ((r.publishingTo .accepting).publishSummary summary).flatMap p.hear := by
  cases h : p.summary summary <;>
    simp [publishSummary, publishingTo, Publisher.accepting, Publisher.hear, Publisher.refusal?, h,
      Publication.unpublished]

theorem row_publishingTo : (r.publishingTo p).row b trigger token row =
    ((r.publishingTo .accepting).row b trigger token row).map (·.heardBy p) := by
  rw [row_eq, row_eq, Option.map_map]
  apply Option.map_congr
  intro q hq
  have hline : q.trace.flatMap p.hear = q.trace :=
    Publisher.flatMap_hear_of_not_mem (Interpreter.publish_not_mem_trace hq)
  rw [Function.comp, rowOutcome, publishLine_publishingTo, rowOutcome, RowOutcome.heardBy, List.flatMap_append, hline]
  rfl

theorem course_publishingTo : (r.publishingTo p).course trigger token b rows =
    ((r.publishingTo .accepting).course trigger token b rows).map (List.map (·.heardBy p)) := by
  induction rows generalizing b
  case nil => rfl
  case cons row rest ih =>
    rw [course, course, row_publishingTo]
    cases (r.publishingTo .accepting).row b trigger token row
    case none => rfl
    case some o =>
      -- What the publisher hears of a row decides neither whether the run stops nor where the next row starts.
      have hstops :
          (r.publishingTo p).stopsAt (o.heardBy p).status = (r.publishingTo .accepting).stopsAt o.status := rfl
      have hbench : (o.heardBy p).bench = o.bench := rfl
      simp only [Option.map_some, Option.bind_eq_bind, Option.bind_some, hstops, hbench, ih]
      by_cases hs : (r.publishingTo .accepting).stopsAt o.status
      case pos => simp [hs]
      case neg => cases (r.publishingTo .accepting).course trigger token o.bench rest <;> simp [hs]

theorem rowTrace_publishingTo : (r.publishingTo p).rowTrace (o.heardBy p) =
    ((r.publishingTo .accepting).rowTrace o).flatMap p.hear := by
  have hstops : (r.publishingTo p).stopsAt (o.heardBy p).status = (r.publishingTo .accepting).stopsAt o.status := rfl
  rw [rowTrace, rowTrace, hstops, List.flatMap_append]
  split <;> rfl

theorem lastBench_heardBy : lastBench b (os.map (·.heardBy p)) = lastBench b os := by
  rw [lastBench, List.foldl_map]
  rfl

theorem report_publishingTo : (r.publishingTo p).report b lines selection (os.map (·.heardBy p)) =
    ((r.publishingTo .accepting).report b lines selection os).heardBy p := by
  have hevents (events : List Event) :
      (events.map (Effect.report .main)).flatMap p.hear = events.map (.report .main) :=
    Publisher.flatMap_hear_of_not_mem (by simp)
  have hrows : (os.map (·.heardBy p)).flatMap (r.publishingTo p).rowTrace =
      (os.flatMap (r.publishingTo .accepting).rowTrace).flatMap p.hear := by
    rw [List.flatMap_map, List.flatMap_assoc]
    simp only [rowTrace_publishingTo]
  have hstatuses : (os.map (·.heardBy p)).map (·.status) = os.map (·.status) := by
    rw [List.map_map]
    rfl
  have hrecords : (os.map (·.heardBy p)).map (·.record) = os.map (·.record) := by
    rw [List.map_map]
    rfl
  simp only [report, RunOutcome.heardBy, lastBench_heardBy, hstatuses, hrecords, hrows, List.flatMap_append, hevents]
  rw [publishSummary_publishingTo (p := p)]
  rfl

theorem run_publishingTo : (r.publishingTo p).run b lines selection =
    ((r.publishingTo .accepting).run b lines selection).map (·.heardBy p) := by
  have hcourse : (r.publishingTo p).runCourse b (Row.select lines selection) =
      ((r.publishingTo .accepting).runCourse b (Row.select lines selection)).map (List.map (·.heardBy p)) :=
    course_publishingTo
  rw [run_eq, run_eq, hcourse, Option.map_map, Option.map_map]
  exact congrArg (Option.map · _) (funext fun os => report_publishingTo)

end Runner

-- The accounts of a run of some lines of a script.
structure RunOutcome.Accounts (lines : List String) (selection : List Nat) (q : RunOutcome) : Prop where
  total      : q.summary.total = q.records.length
  classes    : q.summary.total = q.summary.succeeded + q.summary.failed + q.summary.cancelled
  succeeded  : q.summary.succeeded = q.records.countP (·.success)
  increasing : q.records.Pairwise (·.number < ·.number)
  -- A record is about the line that has its number, counted from 1, and that line was asked for.
  lines      : ∀ record ∈ q.records, ∃ index line, record.number = index + 1 ∧ lines[index]? = some line ∧
    (selection = [] ∨ index ∈ selection) ∧ record.commandText = Text.trimmed line
  output     : ∀ record ∈ q.records, record.output = "Command failed" ↔ record.success = false
  success    : q.summary.allSucceeded ↔ ∀ record ∈ q.records, record.success
  published  : q.trace.publications = q.records.map .line ++ [.summary q.summary]

namespace Runner

variable {r : Runner} {b : Bench} {lines : List String} {selection : List Nat} {os : List RowOutcome}

theorem count_succeeded (h : ∀ o ∈ os, o.status = .succeeded ↔ o.record.success = true) :
    (os.map (·.status)).count .succeeded = (os.map (·.record)).countP (·.success) := by
  rw [List.count, List.countP_map, List.countP_map]
  refine List.countP_congr fun o ho => ?_
  simpa using h o ho

theorem allSucceeded_iff {s : RunSummary} {records : List LineRecord} (htotal : s.total = records.length)
    (hclasses : s.total = s.succeeded + s.failed + s.cancelled)
    (hsucceeded : s.succeeded = records.countP (·.success)) :
    s.allSucceeded ↔ ∀ record ∈ records, record.success := by
  rw [← List.countP_eq_length, ← hsucceeded, ← htotal]
  simp only [RunSummary.allSucceeded, Bool.and_eq_true, beq_iff_eq]
  omega

theorem report_accounts {taken : List Row} (ht : taken <+: Row.select lines selection)
    (h : List.Forall₂ RowOutcome.Accounts taken os) : (r.report b lines selection os).Accounts lines selection := by
  have hrow (o) (ho : o ∈ os) := exists_row_of_accounts h ho
  have htally : RunSummary.tally (os.map (·.status)) = _ := RunSummary.foldl_count
  have hcounts : (os.map (·.status)).length = _ := RunSummary.length_eq_add_counts
  have hsucceeded := count_succeeded fun o ho => (hrow o ho).elim fun _ hp => hp.right.status
  let q := r.report b lines selection os
  have htotal : q.summary.total = q.records.length := by simp [q, report, htally]
  have hclasses : q.summary.total = q.summary.succeeded + q.summary.failed + q.summary.cancelled := by
    simpa only [q, report, htally, Nat.zero_add] using hcounts
  have hsucceeded : q.summary.succeeded = q.records.countP (·.success) := by
    simpa only [q, report, htally, Nat.zero_add] using hsucceeded
  refine ⟨htotal, hclasses, hsucceeded, ?increasing, ?lines, ?output, allSucceeded_iff htotal hclasses hsucceeded,
    ?published⟩
  case increasing =>
    have hnumbers := numbers_of_accounts h
    have hrows : (taken.map (·.number)).Pairwise (· < ·) :=
      List.pairwise_map.2 ((Row.select_pairwise.sublist ht.sublist).imp Nat.succ_lt_succ)
    rw [← hnumbers] at hrows
    exact List.pairwise_map.2 (List.pairwise_map.1 hrows)
  case lines =>
    intro record hrecord
    obtain ⟨o, ho, heq⟩ := List.mem_map.1 hrecord
    obtain ⟨row, hm, hp⟩ := hrow o ho
    obtain ⟨hline, hselected⟩ := Row.mem_select.1 (ht.subset hm)
    exact heq ▸ ⟨row.index, row.text, hp.number, hline, hselected, hp.text⟩
  case output =>
    intro record hrecord
    obtain ⟨o, ho, heq⟩ := List.mem_map.1 hrecord
    obtain ⟨_, _, hp⟩ := hrow o ho
    exact heq ▸ hp.output
  case published =>
    exact report_publications fun o ho => (hrow o ho).elim fun _ hp => hp.right.published

-- A run publishes every record, and then the totals.
theorem run_publications {q : RunOutcome} (h : r.run b lines selection = some q) :
    q.trace.publications = q.records.map .line ++ [.summary q.summary] := by
  rw [run_eq] at h
  obtain ⟨os, hos, rfl⟩ := Option.map_eq_some_iff.1 h
  have ⟨_, htaken, haccounts⟩ := course_accounts hos
  exact (report_accounts htaken haccounts).published

-- The accounts of a run agree with one another, whatever became of its rows. Whatever publisher follows the run
-- gets every record and then the totals, and where it fails there is one warning more and no other difference.
theorem run_accounts {q : RunOutcome} (h : r.run b lines selection = some q) :
    q.Accounts lines selection ∧
    ∃ quiet, (r.publishingTo .accepting).run b lines selection = some quiet ∧
      ∀ p : Publisher, ∃ u, (r.publishingTo p).run b lines selection = some u ∧
        u.records = quiet.records ∧ u.summary = quiet.summary ∧ u.bench = quiet.bench ∧
        u.trace.actions = quiet.trace.actions ∧ u.trace = quiet.trace.flatMap p.hear ∧
        u.trace.warnings = quiet.trace.warnings + quiet.trace.publications.countP fun x => (p.refusal? x).isSome := by
  constructor
  · rw [run_eq] at h
    have ⟨os, hos, heq⟩ := Option.map_eq_some_iff.1 h
    have ⟨taken, htaken, haccounts⟩ := course_accounts hos
    exact heq ▸ report_accounts htaken haccounts
  · have hown : (r.publishingTo r.publisher).run b lines selection = some q := h
    have ⟨quiet, hquiet, _⟩ := Option.map_eq_some_iff.1 (run_publishingTo ▸ hown)
    refine ⟨quiet, hquiet, fun p => ?_⟩
    have hu : (r.publishingTo p).run b lines selection = some (quiet.heardBy p) := by
      rw [run_publishingTo, hquiet]
      rfl
    exact ⟨_, hu, rfl, rfl, rfl, Publisher.actions_flatMap_hear, rfl, Publisher.warnings_flatMap_hear⟩

-- A publisher that takes nothing follows a run of one selected row.
theorem run_accounts_of_refused :
    let p : Publisher := ⟨fun _ => some "line sink closed", fun _ => some "summary sink closed"⟩
    let (r, b) := Runner.open ⟨.ofSettings {}, 100⟩ {} p ⟨0⟩ {}
    ∃ q quiet, r.run b ["SET_OUTPUT ^ NONE", "WAIT ^ T ^ 7"] [0] = some q ∧
      (r.publishingTo .accepting).run b ["SET_OUTPUT ^ NONE", "WAIT ^ T ^ 7"] [0] = some quiet ∧
      q.Accounts ["SET_OUTPUT ^ NONE", "WAIT ^ T ^ 7"] [0] ∧ q.summary.total = 1 ∧
      q.trace.warnings = quiet.trace.warnings + 2 := by
  let p : Publisher := ⟨fun _ => some "line sink closed", fun _ => some "summary sink closed"⟩
  let lines := ["SET_OUTPUT ^ NONE", "WAIT ^ T ^ 7"]
  let r := (Runner.open ⟨.ofSettings {}, 100⟩ {} p ⟨0⟩ {}).1
  let b := (Runner.open ⟨.ofSettings {}, 100⟩ {} p ⟨0⟩ {}).2
  have htotal : (r.run b lines [0]).map (·.summary.total) = some 1 := by decide +kernel
  have ⟨q, hq, hone⟩ := Option.map_eq_some_iff.1 htotal
  have ⟨haccounts, quiet, hquiet, hall⟩ := run_accounts hq
  have ⟨u, hu, _, _, _, _, _, hwarnings⟩ := hall p
  cases hq.symm.trans hu
  have hrefused : ((r.publishingTo .accepting).run b lines [0]).map
      (·.trace.publications.countP fun x => (p.refusal? x).isSome) = some 2 := by
    decide +kernel
  rw [hquiet] at hrefused
  have hadded := congrArg (quiet.trace.warnings + ·) (Option.some.inj hrefused)
  exact ⟨q, quiet, hq, hquiet, haccounts, hone, hwarnings.trans hadded⟩

end Runner

end StationScript
