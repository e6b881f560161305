import StationScript.Proofs.Accounts
import StationScript.Proofs.Decline

namespace StationScript

namespace Runner

variable {r : Runner} {b : Bench} {trigger : Trigger} {token : Token} {rows : List Row} {o : RowOutcome}
  {os : List RowOutcome} {lines : List String} {selection : List Nat}

-- The runner that failures stop, or do not stop.
def stopping (r : Runner) (stop : Bool) : Runner :=
  { r with settings := { r.settings with stopOnFailure := stop } }

theorem stopsAt_stopping {status : RowStatus} : (r.stopping true).stopsAt status ↔ status = .failed := by
  simp [stopsAt, stopping]

theorem not_stopsAt_stopping {status : RowStatus} : ¬(r.stopping false).stopsAt status :=
  Bool.false_ne_true

-- As long as no row fails, nothing is different.
theorem course_stopping_of_none (hos : (r.stopping false).course trigger token b rows = some os)
    (hnone : ∀ o ∈ os, o.status ≠ .failed) : (r.stopping true).course trigger token b rows = some os := by
  induction rows generalizing b os
  case nil => exact hos
  case cons row rest ih =>
    have ⟨o, ho, hcases⟩ := course_cons_cases hos
    rcases hcases with ⟨hs, _⟩ | ⟨_, later, hlater, rfl⟩
    · cases hs
    · have ⟨hgo, hnone⟩ := List.forall_mem_cons.1 hnone
      exact course_cons_of_not_stopsAt ho (mt stopsAt_stopping.1 hgo) (ih hlater hnone)

-- The first row that fails is the last one that is taken.
theorem course_stopping_of_failed {before after : List RowOutcome}
    (hos : (r.stopping false).course trigger token b rows = some (before ++ o :: after))
    (hbefore : ∀ p ∈ before, p.status ≠ .failed) (hfailed : o.status = .failed) :
    (r.stopping true).course trigger token b rows = some (before ++ [o]) := by
  induction before generalizing b rows
  case nil =>
    cases rows
    case nil => cases hos
    case cons row rest =>
      have ⟨p, hp, hcases⟩ := course_cons_cases hos
      rcases hcases with ⟨hs, _⟩ | ⟨_, later, _, heq⟩
      · cases hs
      · cases heq
        exact course_cons_of_stopsAt hp (stopsAt_stopping.2 hfailed)
  case cons p before ih =>
    cases rows
    case nil => cases hos
    case cons row rest =>
      have ⟨p', hp, hcases⟩ := course_cons_cases hos
      rcases hcases with ⟨hs, _⟩ | ⟨_, later, hlater, heq⟩
      · cases hs
      · cases heq
        have ⟨hgo, hbefore⟩ := List.forall_mem_cons.1 hbefore
        exact course_cons_of_not_stopsAt hp (mt stopsAt_stopping.1 hgo) (ih hlater hbefore)

theorem rowTrace_stopping (h : o.status ≠ .failed) : (r.stopping true).rowTrace o = (r.stopping false).rowTrace o := by
  have hgo : ¬(r.stopping true).stopsAt o.status := mt stopsAt_stopping.1 h
  rw [rowTrace, rowTrace, if_neg hgo, if_neg not_stopsAt_stopping]

theorem report_stopping (h : ∀ o ∈ os, o.status ≠ .failed) :
    (r.stopping true).report b lines selection os = (r.stopping false).report b lines selection os := by
  have htraces : os.flatMap (r.stopping true).rowTrace = os.flatMap (r.stopping false).rowTrace :=
    List.flatMap_congr fun o ho => rowTrace_stopping (h o ho)
  simp only [report, htraces]
  rfl

theorem count_failed_eq_zero (h : ∀ o ∈ os, o.status ≠ .failed) : (os.map (·.status)).count .failed = 0 := by
  rw [List.count_eq_zero, List.mem_map]
  exact fun ⟨o, ho, heq⟩ => h o ho heq

theorem runCourse_stopping (hos : (r.stopping false).runCourse b rows = some os) :
    ∃ os', (r.stopping true).runCourse b rows = some os' ∧ (os'.map (·.status)).count .failed ≤ 1 ∧
      ((∀ o ∈ os, o.status ≠ .failed) ∧ os' = os ∨
        ∃ before o after, os = before ++ o :: after ∧ (∀ p ∈ before, p.status ≠ .failed) ∧ o.status = .failed ∧
          os' = before ++ [o]) := by
  rcases forall_or_exists_first (·.status ≠ .failed) os with hnone | ⟨before, o, after, rfl, hbefore, hfailed⟩
  case inl =>
    exact ⟨os, course_stopping_of_none hos hnone, count_failed_eq_zero hnone ▸ Nat.zero_le 1, .inl ⟨hnone, rfl⟩⟩
  case inr =>
    have hfailed := Decidable.not_not.1 hfailed
    refine ⟨_, course_stopping_of_failed hos hbefore hfailed, ?_, .inr ⟨before, o, after, rfl, hbefore, hfailed, rfl⟩⟩
    rw [List.map_append, List.count_append, count_failed_eq_zero hbefore, Nat.zero_add]
    exact List.count_le_length

-- Two runners that differ only in whether failures stop them.
theorem open_eq_stopping {i : Interpreter} {scope : CancellationScope} {publisher : Publisher} {origin : Instant}
    {b₀ : Bench} {r s : Runner} {b b' : Bench} (hstop : Runner.open i ⟨scope, true⟩ publisher origin b₀ = (r, b))
    (hfree : Runner.open i ⟨scope, false⟩ publisher origin b₀ = (s, b')) :
    ∃ t : Runner, r = t.stopping true ∧ s = t.stopping false ∧ b = b' ∧ t.interpreter = i ∧ t.origin = origin := by
  cases hstop
  cases hfree
  exact ⟨(Runner.open i ⟨scope, false⟩ publisher origin b₀).1, rfl, rfl, rfl, rfl, rfl⟩

-- When the last of some rows ended depends on where they started only if there are none.
theorem lastBench_now {a : Bench} (h : a.timeline.now = b.timeline.now) :
    (lastBench a os).timeline.now = (lastBench b os).timeline.now := by
  cases os
  case nil  => exact h
  case cons => rfl

-- Stopping after a failure truncates a run, and does nothing else. Left alone, the run takes every row, those that
-- were cancelled included. If no row fails, the run that stops reports the same. Otherwise it takes the rows up to
-- the first that failed: their records, their journal, their counts, and the time when the last of them ended.
theorem run_stops_after_failure {i : Interpreter} {scope : CancellationScope} {publisher : Publisher}
    {origin : Instant} {b₀ : Bench} {r s : Runner} {b b' : Bench}
    (hstop : Runner.open i ⟨scope, true⟩ publisher origin b₀ = (r, b))
    (hfree : Runner.open i ⟨scope, false⟩ publisher origin b₀ = (s, b'))
    (hr : i.station.AlwaysReplies) (lines : List String) (selection : List Nat) (abort : Option Nat) :
    let rows := Row.select lines selection
    ∃ (os os' : List RowOutcome) (q q' : RunOutcome),
      s.runCourse (s.withAbort b' abort) rows = some os ∧ r.runCourse (r.withAbort b abort) rows = some os' ∧
      s.run (s.withAbort b' abort) lines selection = some q ∧
      r.run (r.withAbort b abort) lines selection = some q' ∧
      q.records = os.map (·.record) ∧ os.length = rows.length ∧ q'.records = os'.map (·.record) ∧
      q'.trace.actions = Trace.actions (os'.flatMap (·.trace)) ∧
      q'.summary =
        { RunSummary.tally (os'.map (·.status)) with
          elapsed := ((lastBench b os').timeline.now - b.timeline.now) % Text.wordLimit
          timestamp := (origin.addMilliseconds (lastBench b os').timeline.now).seconds } ∧
      q'.summary.failed ≤ 1 ∧
      ((∀ o ∈ os, o.status ≠ .failed) ∧ os' = os ∧ q' = q ∨
        ∃ before o after, os = before ++ o :: after ∧ (∀ p ∈ before, p.status ≠ .failed) ∧ o.status = .failed ∧
          os' = before ++ [o]) := by
  intro rows
  obtain ⟨t, rfl, rfl, rfl, rfl, rfl⟩ := open_eq_stopping hstop hfree
  have ⟨os, hos⟩ := exists_runCourse (r := t.stopping false) hr (t.withAbort b abort) rows
  have ⟨os', hos', hcount, hcases⟩ := runCourse_stopping hos
  have htally : RunSummary.tally (os'.map (·.status)) = _ := RunSummary.foldl_count
  refine ⟨os, os', _, _, hos, hos', by rw [run_eq]; exact congrArg (Option.map _) hos,
    by rw [run_eq]; exact congrArg (Option.map _) hos', rfl, length_course rfl hos, rfl, report_actions, ?summary,
    ?failed, hcases.imp_left ?report⟩
  case summary =>
    have hbegin : ((t.stopping true).withAbort b abort).timeline.now = b.timeline.now := by cases abort <;> rfl
    have hend : (lastBench ((t.stopping true).enter ((t.stopping true).withAbort b abort)).1 os').timeline.now =
        (lastBench b os').timeline.now := lastBench_now hbegin
    simp only [report, instant, hend, hbegin]
    rfl
  case failed =>
    show (RunSummary.tally (os'.map (·.status))).failed ≤ 1
    rw [htally]
    simpa using hcount
  case report =>
    rintro ⟨hnone, rfl⟩
    exact ⟨hnone, rfl, report_stopping hnone⟩

-- A declined question does not stop the run, whereas the unknown command after it does.
theorem run_stops_after_unknown :
    let (r, b) := Runner.open ⟨.ofSettings { dialog := .no }, 100⟩ ⟨.line, true⟩ .accepting ⟨0⟩ {}
    ∃ q', r.run b ["SHOW_DIALOG ^ UI ^ YES_NO ^ T ^ M", "UNKNOWN ^ X", "WAIT ^ T ^ 7"] [] = some q' ∧
      q'.records.length = 2 ∧ q'.trace.actions = [.dialog .yesNo "T"] ∧ q'.summary.elapsed = 0 := by
  let i : Interpreter := ⟨.ofSettings { dialog := .no }, 100⟩
  let lines := ["SHOW_DIALOG ^ UI ^ YES_NO ^ T ^ M", "UNKNOWN ^ X", "WAIT ^ T ^ 7"]
  let s := (Runner.open i ⟨.line, false⟩ .accepting ⟨0⟩ {}).1
  let b := (Runner.open i ⟨.line, false⟩ .accepting ⟨0⟩ {}).2
  have hfree : Runner.open i ⟨.line, false⟩ .accepting ⟨0⟩ {} = (s, b) := rfl
  obtain ⟨os, os', q, q', hos, -, -, hq', -, hlen, hrecords, hactions, hsummary, -, hcases⟩ :=
    run_stops_after_failure rfl hfree (Station.ofSettings_alwaysReplies { dialog := .no }) lines [] none
  -- Left alone, the run takes all three rows.
  have hrows : (s.runCourse b (Row.select lines [])).map
      (·.map fun o => (o.status, o.trace.actions, o.bench.timeline.now)) =
        some [(.cancelled, [.dialog .yesNo "T"], 0), (.failed, [], 0), (.succeeded, [], 7)] := by
    decide +kernel
  rw [show s.runCourse b (Row.select lines []) = some os from hos] at hrows
  obtain ⟨dialog, unknown, wait, rfl⟩ := List.length_eq_three.1 hlen
  simp only [Option.map_some, List.map_cons, List.map_nil, Option.some.injEq, List.cons.injEq, Prod.mk.injEq] at hrows
  obtain ⟨⟨hdeclined, hdialog, _⟩, ⟨hfailed, hunknown, hnow⟩, _⟩ := hrows
  have hos' : os' = [dialog, unknown] := by
    rcases hcases with ⟨hnone, _⟩ | ⟨before, o, after, heq, hbefore, hlast, rfl⟩
    · exact absurd hfailed (hnone unknown (by simp))
    · match before with
      | [] => cases heq; cases hdeclined.symm.trans hlast
      | [_] => cases heq; rfl
      | _ :: p :: _ =>
        have hsame : unknown = p := List.head_eq_of_cons_eq (List.tail_eq_of_cons_eq heq)
        exact absurd (hsame ▸ hfailed) (hbefore p (by simp))
  refine ⟨q', hq', by rw [hrecords, hos']; rfl, ?_, ?_⟩
  · rw [hactions, hos', List.flatMap_cons, List.flatMap_singleton, Trace.actions_append, hdialog, hunknown]
    rfl
  · rw [hsummary, hos']
    exact congrArg (fun now => (now - 0) % Text.wordLimit) hnow

end Runner

end StationScript
