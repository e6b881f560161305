import StationScript.Proofs.Accounts

namespace StationScript

namespace Event

def opensWith (e : Event) (words : String) : Bool :=
  words.toList.isPrefixOf e.message.toList

def isError (e : Event) : Bool :=
  e.level == .error

-- A line was cut short.
def isCut (e : Event) : Bool :=
  e.level == .info && e.opensWith "Cancelled: "

-- A line was skipped because its run was cancelled.
def isSkip (e : Event) : Bool :=
  e.level == .debug && e.opensWith "Run cancelled, skipping line: "

-- The class of a row, as far as an event tells it.
def told? : Event → Option RowStatus
  | unknownCommand _ | commandFailed _ _ | handlerPanicked _ | surfacePanicked _ | runIncomplete _ _
  | unknownInLine _ _ => some .failed
  | cancelled _ | lineSkipped _ => some .cancelled
  | _ => none

variable {e : Event}

theorem isError_iff : e.isError ↔ e.told? = some .failed := by
  cases e <;> simp [isError, level, told?]

theorem isCut_iff : e.isCut ↔ ∃ text, e = .cancelled text := by
  constructor
  · intro h
    have ⟨hlevel, hwords⟩ := Bool.and_eq_true_iff.1 h
    unfold opensWith message at hwords
    cases e <;> try exact absurd hlevel Bool.false_ne_true
    case cancelled text => exact ⟨text, rfl⟩
    case axisMoving component _ => cases component <;> simp [Component.name] at hwords
    case linesOk lines =>
      obtain ⟨d, ds, hdigits, hd⟩ := exists_toDigits_eq_cons lines
      simp [hdigits] at hwords
      exact absurd hd (by rw [← hwords.left]; decide)
    all_goals simp at hwords
  · rintro ⟨text, rfl⟩
    unfold isCut opensWith message
    simp [level]

theorem isSkip_iff : e.isSkip ↔ ∃ text, e = .lineSkipped text := by
  constructor
  · intro h
    have ⟨hlevel, hwords⟩ := Bool.and_eq_true_iff.1 h
    unfold opensWith message at hwords
    cases e <;> try exact absurd hlevel Bool.false_ne_true
    case lineSkipped text => exact ⟨text, rfl⟩
    case confirmationIgnored component => cases component <;> simp [Component.name] at hwords
    all_goals simp at hwords
  · rintro ⟨text, rfl⟩
    unfold isSkip opensWith message
    simp [level]

-- No event says both, and those that say either tell of a cancelled row.
theorem told?_eq_cancelled_iff : e.told? = some .cancelled ↔ e.isCut ∨ e.isSkip := by
  rw [isCut_iff, isSkip_iff]
  cases e <;> simp [told?]

theorem isSkip_of_isCut (h : e.isCut) : e.isSkip = false := by
  have ⟨_, heq⟩ := isCut_iff.1 h
  exact heq ▸ rfl

-- What a station reports tells of no row.
theorem OfStation.told? (h : e.OfStation) : e.told? = none := by
  cases e <;> first | rfl | exact h.elim

end Event

namespace Trace

variable {t u : Trace} {events : List Event}

-- How many errors a trace holds.
def errors (t : Trace) : Nat :=
  (t.events .main).countP (·.isError)

-- How many events of a trace say that a line was cut short or skipped.
def cancellations (t : Trace) : Nat :=
  (t.events .main).countP (·.isCut) + (t.events .main).countP (·.isSkip)

-- The classes of rows that a trace tells of, in order.
def told (t : Trace) : List RowStatus :=
  (t.events .main).filterMap Event.told?

theorem told_append : told (t ++ u) = t.told ++ u.told := by
  rw [told, events_append, List.filterMap_append]
  rfl

theorem told_reports : told (events.map (.report .main)) = events.filterMap Event.told? := by
  rw [told, events_reports]

theorem told_eq_nil (h : ∀ e, .report .main e ∈ t → e.told? = none) : t.told = [] := by
  refine List.filterMap_eq_nil_iff.2 fun e he => ?_
  have ⟨effect, hm, hevent⟩ := List.mem_filterMap.1 he
  cases effect
  case report thread event =>
    cases thread
    case surface => cases hevent
    case main    => cases hevent; exact h _ hm
  all_goals cases hevent

theorem errors_eq : t.errors = t.told.count .failed := by
  rw [told, List.count, List.countP_filterMap]
  refine List.countP_congr fun e _ => ?_
  rw [Event.isError_iff]
  cases e.told? <;> simp

theorem cancellations_eq : t.cancellations = t.told.count .cancelled := by
  rw [cancellations, told]
  induction t.events .main
  case nil => rfl
  case cons e rest ih =>
    have hhead : [e].countP (·.isCut) + [e].countP (·.isSkip) = ([e].filterMap Event.told?).count .cancelled := by
      by_cases hcut : e.isCut
      case pos =>
        have htold := Event.told?_eq_cancelled_iff.2 (.inl hcut)
        simp [hcut, Event.isSkip_of_isCut hcut, htold]
      case neg =>
        have htold := Event.told?_eq_cancelled_iff (e := e)
        by_cases hskip : e.isSkip
        case pos => simp [hcut, hskip, htold.2 (.inr hskip)]
        case neg =>
          have hother : e.told? ≠ some .cancelled := fun h => (htold.1 h).elim hcut hskip
          cases hsome : e.told? <;> simp_all
    have hcons : e :: rest = [e] ++ rest := rfl
    rw [hcons, List.countP_append, List.countP_append, List.filterMap_append, List.count_append, ← ih, ← hhead]
    omega

end Trace

theorem Trace.errors_append {t u : Trace} : errors (t ++ u) = t.errors + u.errors := by
  simp only [errors_eq, told_append, List.count_append]

theorem Trace.cancellations_append {t u : Trace} : cancellations (t ++ u) = t.cancellations + u.cancellations := by
  simp only [cancellations_eq, told_append, List.count_append]

-- What is to be told of a row of some class.
def RowStatus.told : RowStatus → List RowStatus
  | .succeeded => []
  | status => [status]

-- A trace that tells of a row as it is counted.
structure Trace.TellsOf (status : RowStatus) (t : Trace) : Prop where
  errors        : t.errors = if status = .failed then 1 else 0
  cancellations : t.cancellations = if status = .cancelled then 1 else 0

-- A trace that tells of no row.
structure Trace.TellsNothing (t : Trace) : Prop where
  errors        : t.errors = 0
  cancellations : t.cancellations = 0

namespace Trace

variable {t u : Trace} {status : RowStatus}

theorem TellsOf.of_told (h : t.told = status.told) : t.TellsOf status where
  errors := by
    rw [errors_eq, h]
    cases status <;> rfl
  cancellations := by
    rw [cancellations_eq, h]
    cases status <;> rfl

theorem TellsNothing.of_told (h : t.told = []) : t.TellsNothing where
  errors := by
    rw [errors_eq, h]
    rfl
  cancellations := by
    rw [cancellations_eq, h]
    rfl

theorem TellsOf.append (h : t.TellsOf status) (hu : u.TellsNothing) : TellsOf status (t ++ u) where
  errors        := by rw [errors_append, h.errors, hu.errors, Nat.add_zero]
  cancellations := by rw [cancellations_append, h.cancellations, hu.cancellations, Nat.add_zero]

end Trace

namespace Ending

variable {ending : Ending} {text : String} {v : Verdict} {finished : Bool} {token : Token} {trigger : Trigger}
  {t : Timeline}

theorem ofVerdict_eq_cancelled_iff : ofVerdict finished v = .cancelled ↔ finished = false := by
  cases finished
  case false => exact ⟨fun _ => rfl, fun _ => rfl⟩
  case true  => cases v <;> exact ⟨nofun, nofun⟩

-- The events that close a command tell how it counts: as cancelled if its token was cancelled meanwhile, or is
-- cancelled by the very ending.
theorem told_events (ht : trigger.flag ∈ token.flags) (h : t.isCancelled token ↔ ending = .cancelled) :
    (ending.events text).filterMap Event.told? =
      (RowStatus.of ending.success ((ending.signal trigger t).isCancelled token)).told := by
  cases ending
  case completed => rfl
  case declined title =>
    have hcancelled : (t.fire trigger).isCancelled token := Timeline.isCancelled_fire.2 (.inl ht)
    rw [signal, hcancelled]
    rfl
  case cancelled =>
    simp only [signal, h.2 rfl]
    rfl
  all_goals
    have hlive : t.isCancelled token = false := Bool.eq_false_iff.2 fun hc => nomatch h.1 hc
    simp only [signal, hlive]
    rfl

end Ending

namespace Interpreter

variable {i : Interpreter} {b : Bench} {c : Command} {v : Verb} {line : String} {token : Token} {trigger : Trigger}
  {p : Progress} {o : Outcome}

-- While the plan of a command is followed, nothing is told.
theorem told_of_follow (hc : Line.ofString line = .command c) (hv : Verb.ofName? c.name = some v)
    (hp : b.timeline.follow token (i.plan b.input c v).effects = some p) : p.trace.told = [] := by
  refine Trace.told_eq_nil fun e he => ?_
  have ⟨_, _, hplan⟩ := mem_plan hc hv (Timeline.follow_subset hp _ he)
  exact (Station.plan_reports hplan).told?

-- A command tells, when it closes, how its row is counted.
theorem outcome_told (ht : trigger.flag ∈ token.flags) (hl : ¬b.isCancelled token)
    (hc : Line.ofString line = .command c) (hv : Verb.ofName? c.name = some v)
    (hp : b.timeline.follow token (i.plan b.input c v).effects = some p) :
    (i.outcome b c v trigger p).trace.told =
      (RowStatus.of (i.outcome b c v trigger p).execution.success
        ((i.outcome b c v trigger p).bench.isCancelled token)).told := by
  have htold : (i.outcome b c v trigger p).trace.told =
      ((Ending.ofVerdict p.finished (i.plan b.input c v).verdict).events c.text).filterMap Event.told? := by
    have hopen : Trace.told [.report .main (.executing v c.text)] = [] := rfl
    simp only [outcome, Trace.told_append, Trace.told_reports, told_of_follow hc hv hp, hopen, List.nil_append]
  -- A plan is cut exactly if its token is cancelled by then.
  have hcancelled : p.timeline.isCancelled token ↔
      Ending.ofVerdict p.finished (i.plan b.input c v).verdict = .cancelled := by
    rw [Ending.ofVerdict_eq_cancelled_iff]
    constructor
    · exact fun hc => Bool.eq_false_iff.2 fun hf => Timeline.not_isCancelled_of_follow hp hf hl hc
    · exact Timeline.isCancelled_of_follow_cut hp
  rw [htold, Ending.told_events ht hcancelled]
  rfl

-- A line tells how its row is counted.
theorem told_of_execute (ht : trigger.flag ∈ token.flags) (ho : i.execute b line token trigger = some o) :
    o.trace.told = (RowStatus.of o.execution.success (o.bench.isCancelled token)).told := by
  by_cases hl : b.isCancelled token
  case pos =>
    rw [execute_of_isCancelled hl] at ho
    cases ho
    rw [hl]
    rfl
  case neg =>
    rcases outcome_cases hl ho with ⟨_, rfl⟩ | ⟨c, _, _, rfl⟩ | ⟨c, v, p, hc, hv, hp, rfl⟩
    · have hnone : (Line.ofString line).warnings.filterMap Event.told? = [] := by
        cases Line.ofString line <;> rfl
      rw [Bench.reportOnly, Trace.told_reports, hnone]
      rfl
    · have hlive : b.isCancelled token = false := Bool.eq_false_iff.2 hl
      show [RowStatus.failed] = (RowStatus.of false (b.isCancelled token)).told
      rw [hlive]
      rfl
    · exact outcome_told ht hl hc hv hp

end Interpreter

-- The log tells of a row as it is counted: by one error if it failed, by one event that says so if it was cancelled,
-- and not at all if it succeeded. All of this is told while the line of the row runs.
structure RowOutcome.Told (r : Runner) (row : Row) (o : RowOutcome) : Prop where
  success : o.status = .succeeded ↔ o.record.success = true
  line    : ∃ (b : Bench) (token : Token) (trigger : Trigger) (x : Outcome) (rest : Trace),
    r.interpreter.execute b row.text token trigger = some x ∧ r.rowTrace o = x.trace ++ rest ∧ o.bench = x.bench ∧
      x.trace.TellsOf o.status ∧ rest.TellsNothing

namespace Runner

variable {r : Runner} {b : Bench} {trigger : Trigger} {token : Token} {summary : RunSummary} {row : Row}
  {rows taken : List Row} {o : RowOutcome} {os : List RowOutcome} {lines : List String} {selection : List Nat}

-- A line is given the trigger of a scope that its token observes.
theorem lineScope_trigger_mem (r : Runner) (b : Bench) (h : trigger.flag ∈ token.flags) :
    (r.lineScope b trigger token).2.1.flag ∈ (r.lineScope b trigger token).2.2.flags := by
  unfold lineScope
  split
  · exact h
  · exact List.mem_cons_self ..

theorem publishLine_told {record : LineRecord} : (r.publishLine record).told = [] := by
  unfold publishLine
  split <;> rfl

theorem publishSummary_told : (r.publishSummary summary).told = [] := by
  unfold publishSummary
  split <;> rfl

theorem row_told (ht : trigger.flag ∈ token.flags) (h : r.row b trigger token row = some o) : o.Told r row := by
  have haccounts := row_accounts h
  rw [row_eq] at h
  obtain ⟨x, hx, rfl⟩ := Option.map_eq_some_iff.1 h
  refine ⟨haccounts.status, _, _, _, x, _, hx, List.append_assoc .., rfl, ?_, .of_told ?_⟩
  · exact .of_told (Interpreter.told_of_execute (lineScope_trigger_mem r b ht) hx)
  · rw [Trace.told_append, publishLine_told]
    split <;> rfl

theorem rowTrace_tellsOf (h : o.Told r row) : (r.rowTrace o).TellsOf o.status := by
  have ⟨_, _, _, x, rest, _, htrace, _, hline, hrest⟩ := h.line
  rw [htrace]
  exact hline.append hrest

-- What is counted row by row comes to the number of rows of a class.
theorem count_of_told {count : Trace → Nat} {status : RowStatus} (hnil : count [] = 0)
    (happend : ∀ t u, count (t ++ u) = count t + count u)
    (hrow : ∀ row o, o.Told r row → count (r.rowTrace o) = if o.status = status then 1 else 0)
    (h : List.Forall₂ (RowOutcome.Told r) taken os) :
    count (os.flatMap r.rowTrace) = (os.map (·.status)).count status := by
  induction h
  case nil => exact hnil
  case cons ho _ ih =>
    rw [List.flatMap_cons, happend, ih, hrow _ _ ho, List.map_cons, List.count_cons, Nat.add_comm]
    simp

theorem errors_of_told (h : List.Forall₂ (RowOutcome.Told r) taken os) :
    Trace.errors (os.flatMap r.rowTrace) = (os.map (·.status)).count .failed :=
  count_of_told rfl (fun _ _ => Trace.errors_append) (fun _ _ ho => (rowTrace_tellsOf ho).errors) h

theorem cancellations_of_told (h : List.Forall₂ (RowOutcome.Told r) taken os) :
    Trace.cancellations (os.flatMap r.rowTrace) = (os.map (·.status)).count .cancelled :=
  count_of_told rfl (fun _ _ => Trace.cancellations_append) (fun _ _ ho => (rowTrace_tellsOf ho).cancellations) h

theorem warnings_told : Trace.told ((Row.warnings lines selection).map (.report .main)) = [] := by
  rw [Trace.told_reports, List.filterMap_eq_nil_iff]
  intro e he
  obtain ⟨_, _, rfl⟩ := List.mem_map.1 he
  rfl

-- The log of a run agrees with its totals: it has one error for every row that failed, and one event that says so
-- for every row that was cancelled. Each of these is told while the row it is about runs.
theorem run_told {q : RunOutcome} (h : r.run b lines selection = some q) :
    q.trace.errors = q.summary.failed ∧ q.trace.cancellations = q.summary.cancelled ∧
    ∃ (taken : List Row) (os : List RowOutcome) (opening closing : Trace),
      taken <+: Row.select lines selection ∧ r.runCourse b (Row.select lines selection) = some os ∧
      List.Forall₂ (RowOutcome.Told r) taken os ∧ q.records = os.map (·.record) ∧
      q.trace = opening ++ os.flatMap r.rowTrace ++ closing ∧ opening.TellsNothing ∧ closing.TellsNothing := by
  rw [run_eq] at h
  obtain ⟨os, hos, rfl⟩ := Option.map_eq_some_iff.1 h
  have ⟨taken, htaken, htold⟩ := course_forall₂ (fun _ _ _ => row_told (List.mem_cons_self ..)) hos
  let q := r.report b lines selection os
  let opening : Trace := (Row.warnings lines selection).map (.report .main) ++
    [.report .main (.runStarted (Row.select lines selection).length r.settings.cancellationScope)]
  let closing : Trace :=
    [.report .main (.runFinished q.summary.succeeded q.summary.failed q.summary.cancelled)] ++
      r.publishSummary q.summary
  have htrace : q.trace = opening ++ os.flatMap r.rowTrace ++ closing := by
    simp only [q, opening, closing, report, List.append_assoc]
  have hopening : opening.TellsNothing := .of_told (by rw [Trace.told_append, warnings_told]; rfl)
  have hclosing : closing.TellsNothing := .of_told (by rw [Trace.told_append, publishSummary_told]; rfl)
  have htally : RunSummary.tally (os.map (·.status)) = _ := RunSummary.foldl_count
  refine ⟨?errors, ?cancellations, taken, os, opening, closing, htaken, hos, htold, rfl, htrace, hopening, hclosing⟩
  case errors =>
    rw [htrace, Trace.errors_append, Trace.errors_append, hopening.errors, hclosing.errors, errors_of_told htold]
    simp only [report, htally]
    omega
  case cancellations =>
    rw [htrace, Trace.cancellations_append, Trace.cancellations_append, hopening.cancellations,
      hclosing.cancellations, cancellations_of_told htold]
    simp only [report, htally]
    omega

-- A row that fails, a question answered No, and a row that is skipped after it.
theorem run_told_of_declined :
    let (r, b) := Runner.open ⟨.ofSettings { dialog := .no }, 100⟩ ⟨.run, false⟩ .accepting ⟨0⟩ {}
    ∃ q, r.run b ["UNKNOWN ^ X", "SHOW_DIALOG ^ UI ^ YES_NO ^ T ^ M", "WAIT ^ T ^ 7"] [] = some q ∧
      q.trace.errors = 1 ∧ q.trace.cancellations = 2 := by
  let lines := ["UNKNOWN ^ X", "SHOW_DIALOG ^ UI ^ YES_NO ^ T ^ M", "WAIT ^ T ^ 7"]
  let r := (Runner.open ⟨.ofSettings { dialog := .no }, 100⟩ ⟨.run, false⟩ .accepting ⟨0⟩ {}).1
  let b := (Runner.open ⟨.ofSettings { dialog := .no }, 100⟩ ⟨.run, false⟩ .accepting ⟨0⟩ {}).2
  have htotals : (r.run b lines []).map (fun q => (q.summary.failed, q.summary.cancelled)) = some (1, 2) := by
    decide +kernel
  have ⟨q, hq, hcounts⟩ := Option.map_eq_some_iff.1 htotals
  have ⟨hfailed, hcancelled⟩ := Prod.mk.inj hcounts
  have ⟨herrors, hcancellations, _⟩ := run_told hq
  exact ⟨q, hq, herrors.trans hfailed, hcancellations.trans hcancelled⟩

end Runner

end StationScript
