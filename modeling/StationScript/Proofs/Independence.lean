import Mathlib.Algebra.BigOperators.Group.List.Basic
import Mathlib.Tactic.Choose
import StationScript.Proofs.Accounts
import StationScript.Proofs.Lists
import StationScript.Proofs.Undisturbed

namespace StationScript

theorem Instant.addMilliseconds_add {t : Instant} {m n : Nat} :
    t.addMilliseconds (m + n) = (t.addMilliseconds m).addMilliseconds n := by
  rw [addMilliseconds, addMilliseconds, addMilliseconds, Int.natCast_add, Int.add_mul, Int.add_assoc]

def Row.later (n : Nat) (row : Row) : Row :=
  { row with index := row.index + n }

-- The rows of a script in two parts.
theorem Row.ofLines_append (xs ys : List String) :
    ofLines (xs ++ ys) = ofLines xs ++ (ofLines ys).map (·.later xs.length) := by
  simp only [ofLines, List.zipIdx_append, List.map_append, List.map_map, Nat.zero_add]
  rw [List.zipIdx_eq_map_add (i := xs.length), List.map_map]
  congr 1
  refine List.map_congr_left fun _ _ => ?_
  simp [later, Nat.add_comm]

-- The record of a line so many rows and milliseconds later. What it says about the line is the same.
def LineRecord.later (n milliseconds : Nat) (record : LineRecord) : LineRecord :=
  { record with
    number := record.number + n
    executedAt := record.executedAt.addMilliseconds milliseconds }

-- The outcome of a row, and that of the same line so many rows and milliseconds later.
structure RowOutcome.Later (n milliseconds : Nat) (o p : RowOutcome) : Prop where
  record  : p.record = o.record.later n milliseconds
  status  : p.status = o.status
  actions : p.trace.actions = o.trace.actions
  now     : p.bench.timeline.now = o.bench.timeline.now + milliseconds

theorem RunSummary.tally_append {ss ts : List RowStatus} : tally (ss ++ ts) =
    { total := (tally ss).total + (tally ts).total
      succeeded := (tally ss).succeeded + (tally ts).succeeded
      failed := (tally ss).failed + (tally ts).failed
      cancelled := (tally ss).cancelled + (tally ts).cancelled } := by
  rw [tally, tally, tally, foldl_count, foldl_count, foldl_count]
  simp [List.count_append]

namespace Runner

variable {r : Runner} {a b : Bench} {seen : Token} {ta tb trigger : Trigger} {row : Row} {rows : List Row}
  {os ps : List RowOutcome} {n d : Nat}

-- A row that nothing disturbs does not disturb the run.
theorem resting_of_meets {fate : Fate} {o : RowOutcome} (h : b.Resting seen) (ho : o.Meets r b seen row fate)
    (hl : fate.cancelled = false) : o.bench.Resting seen where
  idle  := ho.schedule.trans h.idle
  live  := Bool.eq_false_iff.1 (ho.cancelled.trans hl)
  ready := ho.ready

theorem lineRecord_later {x : Execution} (hnow : b.timeline.now = a.timeline.now + d) :
    r.lineRecord b (row.later n) x = (r.lineRecord a row x).later n d := by
  have hinstant : r.instant b = (r.instant a).addMilliseconds d := by
    rw [instant, hnow]
    exact Instant.addMilliseconds_add
  have hnumber : (row.later n).number = row.number + n := Nat.add_right_comm ..
  simp only [lineRecord, LineRecord.later, hinstant, hnumber]
  rfl

-- A row goes the same way at another place of the script, and at another time.
theorem row_later (hr : r.interpreter.station.AlwaysReplies) (ht : r.interpreter.station.presenter ≠ .terminal)
    (ha : a.Resting seen) (hb : b.Resting seen) (hnow : b.timeline.now = a.timeline.now + d) (ta tb : Trigger)
    (row : Row) (n : Nat) :
    ∃ o p, (r.under .line).row a ta seen row = some o ∧ (r.under .line).row b tb seen (row.later n) = some p ∧
      o.Later n d p ∧ o.bench.Resting seen ∧ p.bench.Resting seen ∧ a.timeline.now ≤ o.bench.timeline.now := by
  have ⟨fate, hl, hmeets⟩ := exists_fate hr ht .line row.text false
  have ⟨o, ho, hofate⟩ := hmeets (r.under .line) a seen ta row rfl rfl rfl ha.ready nofun (Bool.eq_false_iff.2 ha.live)
    (by simp [ha.idle])
  have ⟨p, hp, hpfate⟩ := hmeets (r.under .line) b seen tb (row.later n) rfl rfl rfl hb.ready nofun
    (Bool.eq_false_iff.2 hb.live) (by simp [hb.idle])
  have honow := hofate.now
  have hpnow := hpfate.now
  have hrecord : p.record = o.record.later n d := by
    rw [hpfate.record, hofate.record]
    exact lineRecord_later hnow
  have hlater : o.Later n d p :=
    ⟨hrecord, hpfate.status.trans hofate.status.symm, hpfate.actions.trans hofate.actions.symm, by omega⟩
  exact ⟨o, p, ho, hp, hlater, resting_of_meets ha hofate (hl rfl), resting_of_meets hb hpfate (hl rfl), by omega⟩

theorem course_later (hr : r.interpreter.station.AlwaysReplies) (ht : r.interpreter.station.presenter ≠ .terminal)
    (ha : a.Resting seen) (hb : b.Resting seen) (hnow : b.timeline.now = a.timeline.now + d) (ta tb : Trigger)
    (rows : List Row) (n : Nat) :
    ∃ os ps, (r.under .line).course ta seen a rows = some os ∧
      (r.under .line).course tb seen b (rows.map (·.later n)) = some ps ∧
      List.Forall₂ (RowOutcome.Later n d) os ps ∧ (lastBench a os).Resting seen ∧
      a.timeline.now ≤ (lastBench a os).timeline.now := by
  induction rows generalizing a b
  case nil => exact ⟨[], [], rfl, rfl, .nil, ha, Nat.le_refl _⟩
  case cons row rest ih =>
    have ⟨o, p, ho, hp, hlater, horesting, hpresting, hle⟩ := row_later hr ht ha hb hnow ta tb row n
    have ⟨os, ps, hos, hps, hall, hresting, hle'⟩ := ih horesting hpresting hlater.now
    refine ⟨o :: os, p :: ps, course_cons_of_not_stopsAt ho nofun hos, ?_, .cons hlater hall, hresting,
      Nat.le_trans hle hle'⟩
    rw [List.map_cons]
    exact course_cons_of_not_stopsAt hp nofun hps

-- A run that no failure stops takes one part of the rows after the other.
theorem course_append {xs ys : List Row} (hos : (r.under .line).course trigger seen b xs = some os)
    (hps : (r.under .line).course trigger seen (lastBench b os) ys = some ps) :
    (r.under .line).course trigger seen b (xs ++ ys) = some (os ++ ps) := by
  induction xs generalizing b os
  case nil => cases hos; exact hps
  case cons row rest ih =>
    have ⟨o, ho, hcases⟩ := course_cons_cases hos
    rcases hcases with ⟨hs, _⟩ | ⟨hs, later, hlater, rfl⟩
    · cases hs
    · exact course_cons_of_not_stopsAt ho hs (ih hlater hps)

theorem lastBench_later (h : List.Forall₂ (RowOutcome.Later n d) os ps)
    (hnow : b.timeline.now = a.timeline.now + d) :
    (lastBench b ps).timeline.now = (lastBench a os).timeline.now + d :=
  lastBench_of_forall₂ (motive := fun a b => b.timeline.now = a.timeline.now + d) h hnow fun _ _ ho => ho.now

theorem records_later (h : List.Forall₂ (RowOutcome.Later n d) os ps) :
    ps.map (·.record) = (os.map (·.record)).map (·.later n d) := by
  rw [List.map_map]
  exact (map_eq_of_forall₂ h fun _ _ ho => ho.record.symm).symm

theorem statuses_later (h : List.Forall₂ (RowOutcome.Later n d) os ps) : ps.map (·.status) = os.map (·.status) :=
  (map_eq_of_forall₂ h fun _ _ ho => ho.status.symm).symm

theorem actions_later (h : List.Forall₂ (RowOutcome.Later n d) os ps) :
    Trace.actions (ps.flatMap (·.trace)) = Trace.actions (os.flatMap (·.trace)) :=
  (flatMap_actions_congr h fun _ _ ho => ho.actions.symm).symm

-- The runs of all scripts from one bench: the outcomes of their rows, and what they report.
structure Independent (r : Runner) (b : Bench) (outcomes : List String → List RowOutcome)
    (report : List String → RunOutcome) : Prop where
  course  : ∀ lines, r.runCourse b (Row.select lines []) = some (outcomes lines)
  run     : ∀ lines, r.run b lines [] = some (report lines)
  records : ∀ lines, (report lines).records = (outcomes lines).map (·.record)
  length  : ∀ lines, (outcomes lines).length = lines.length
  classes : ∀ lines,
    (report lines).summary.succeeded = ((outcomes lines).map (·.status)).count .succeeded ∧
      (report lines).summary.failed = ((outcomes lines).map (·.status)).count .failed ∧
      (report lines).summary.cancelled = ((outcomes lines).map (·.status)).count .cancelled
  -- A line goes as it goes alone, only later: at its place in the script, and after the time of the lines before.
  alone   : ∀ (lines : List String) (n : Nat) line, lines[n]? = some line →
    ∃ o p, (outcomes lines)[n]? = some o ∧ outcomes [line] = [p] ∧ o.status = p.status ∧
      o.record = p.record.later n ((lines.take n).map fun line => (report [line]).duration b).sum
  actions : ∀ lines, (report lines).trace.actions = lines.flatMap fun line => (report [line]).trace.actions
  duration : ∀ lines, (report lines).duration b = (lines.map fun line => (report [line]).duration b).sum
  -- The time that is reported is a sum of such times, as long as that fits a word of 64 bits.
  elapsed : ∀ lines, (report lines).summary.elapsed =
    (lines.map fun line => (report [line]).summary.elapsed).sum % Text.wordLimit
  -- A script in two parts goes as one part after the other.
  append  : ∀ xs ys,
    (report (xs ++ ys)).records =
        (report xs).records ++ (report ys).records.map (·.later xs.length ((report xs).duration b)) ∧
      (report (xs ++ ys)).trace.actions = (report xs).trace.actions ++ (report ys).trace.actions ∧
      (report (xs ++ ys)).summary.total = (report xs).summary.total + (report ys).summary.total ∧
      (report (xs ++ ys)).summary.succeeded = (report xs).summary.succeeded + (report ys).summary.succeeded ∧
      (report (xs ++ ys)).summary.failed = (report xs).summary.failed + (report ys).summary.failed ∧
      (report (xs ++ ys)).summary.cancelled = (report xs).summary.cancelled + (report ys).summary.cancelled ∧
      (report (xs ++ ys)).duration b = (report xs).duration b + (report ys).duration b ∧
      (report (xs ++ ys)).summary.elapsed =
        ((report xs).summary.elapsed + (report ys).summary.elapsed) % Text.wordLimit

-- How long the rows of a run took.
def elapsedOf (r : Runner) (b : Bench) (os : List RowOutcome) : Nat :=
  (lastBench (r.enter b).1 os).timeline.now - b.timeline.now

theorem exists_runCourse_of_resting (hr : r.interpreter.station.AlwaysReplies)
    (ht : r.interpreter.station.presenter ≠ .terminal) (h : b.Resting r.token) (rows : List Row) :
    ∃ os, (r.under .line).runCourse b rows = some os ∧ (lastBench (r.enter b).1 os).Resting (r.enter b).2.2 ∧
      (lastBench (r.enter b).1 os).timeline.now = b.timeline.now + r.elapsedOf b os := by
  have hstart : (r.enter b).1.Resting (r.enter b).2.2 := h.enter
  have ⟨os, _, hos, _, _, hresting, hle⟩ := course_later hr ht hstart hstart (d := 0) rfl (r.enter b).2.1
    (r.enter b).2.1 rows 0
  exact ⟨os, hos, hresting, (Nat.add_sub_of_le hle).symm⟩

theorem runCourse_append (hr : r.interpreter.station.AlwaysReplies)
    (ht : r.interpreter.station.presenter ≠ .terminal) (h : b.Resting r.token) (xs ys : List String)
    (hos : (r.under .line).runCourse b (Row.ofLines xs) = some os)
    (hps : (r.under .line).runCourse b (Row.ofLines ys) = some ps) :
    ∃ qs, (r.under .line).runCourse b (Row.ofLines (xs ++ ys)) = some (os ++ qs) ∧
      List.Forall₂ (RowOutcome.Later xs.length (r.elapsedOf b os)) ps qs ∧
      r.elapsedOf b (os ++ qs) = r.elapsedOf b os + r.elapsedOf b ps := by
  have hstart : (r.enter b).1.Resting (r.enter b).2.2 := h.enter
  have ⟨os', hos', hresting, hnow⟩ := exists_runCourse_of_resting hr ht h (Row.ofLines xs)
  cases hos.symm.trans hos'
  have ⟨ps', hps', _, hnow'⟩ := exists_runCourse_of_resting hr ht h (Row.ofLines ys)
  cases hps.symm.trans hps'
  have ⟨_, qs, hps', hqs, hlater, _⟩ := course_later hr ht hstart hresting hnow (r.enter b).2.1 (r.enter b).2.1
    (Row.ofLines ys) xs.length
  cases hps.symm.trans hps'
  refine ⟨qs, ?_, hlater, ?_⟩
  · rw [Row.ofLines_append]
    exact course_append hos hqs
  · have hlast : lastBench (r.enter b).1 (os ++ qs) = lastBench (lastBench (r.enter b).1 os) qs := List.foldl_append
    have hend := lastBench_later hlater (a := (r.enter b).1) (b := lastBench (r.enter b).1 os) hnow
    rw [elapsedOf, hlast, hend, hnow']
    omega

-- The outcomes of the rows of all scripts from one bench, where every script in two parts goes as one part after
-- the other.
structure Additive (r : Runner) (b : Bench) (outcomes : List String → List RowOutcome) : Prop where
  course : ∀ lines, (r.under .line).runCourse b (Row.ofLines lines) = some (outcomes lines)
  append : ∀ xs ys, ∃ qs, outcomes (xs ++ ys) = outcomes xs ++ qs ∧
    List.Forall₂ (RowOutcome.Later xs.length (r.elapsedOf b (outcomes xs))) (outcomes ys) qs ∧
    r.elapsedOf b (outcomes (xs ++ ys)) = r.elapsedOf b (outcomes xs) + r.elapsedOf b (outcomes ys)

theorem exists_additive (hr : r.interpreter.station.AlwaysReplies)
    (ht : r.interpreter.station.presenter ≠ .terminal) (h : b.Resting r.token) :
    ∃ outcomes, r.Additive b outcomes := by
  choose outcomes houtcomes using fun lines => exists_runCourse_of_resting hr ht h (Row.ofLines lines)
  have hcourse (lines : List String) : (r.under .line).runCourse b (Row.ofLines lines) = some (outcomes lines) :=
    (houtcomes lines).left
  refine ⟨outcomes, hcourse, fun xs ys => ?_⟩
  obtain ⟨qs, hqs, hlater, helapsed⟩ := runCourse_append hr ht h xs ys (hcourse xs) (hcourse ys)
  have heq : outcomes (xs ++ ys) = outcomes xs ++ qs := Option.some.inj ((hcourse _).symm.trans hqs)
  exact ⟨qs, heq, hlater, heq ▸ helapsed⟩

section

variable {outcomes : List String → List RowOutcome}

theorem Additive.length (h : r.Additive b outcomes) (lines : List String) :
    (outcomes lines).length = lines.length := by
  have hrows := length_course rfl (h.course lines)
  simpa [Row.ofLines] using hrows

theorem Additive.elapsed (h : r.Additive b outcomes) (lines : List String) :
    r.elapsedOf b (outcomes lines) = (lines.map fun line => r.elapsedOf b (outcomes [line])).sum := by
  refine eq_sum_of_append (f := fun lines => r.elapsedOf b (outcomes lines)) (fun xs ys => ?_) lines
  obtain ⟨_, _, _, hadd⟩ := h.append xs ys
  exact hadd

-- The row of a line in the midst of a script, and that of the line alone.
theorem Additive.alone (h : r.Additive b outcomes) {lines : List String} {n : Nat} {line : String}
    (hline : lines[n]? = some line) :
    ∃ o p, (outcomes lines)[n]? = some o ∧ outcomes [line] = [p] ∧
      p.Later n (r.elapsedOf b (outcomes (lines.take n))) o := by
  obtain ⟨hn, hget⟩ := List.getElem?_eq_some_iff.1 hline
  have hsplit : lines.take n ++ ([line] ++ lines.drop (n + 1)) = lines := by
    rw [← hget, List.singleton_append, List.getElem_cons_drop, List.take_append_drop]
  obtain ⟨qs, hqs, hlater, _⟩ := h.append (lines.take n) ([line] ++ lines.drop (n + 1))
  obtain ⟨rest, hrest, _⟩ := h.append [line] (lines.drop (n + 1))
  obtain ⟨p, hp⟩ := List.length_eq_one_iff.1 (h.length [line])
  rw [hrest, hp] at hlater
  rw [hsplit] at hqs
  cases hlater
  case cons o qs ho _ =>
    have hbefore : (lines.take n).length = n := List.length_take_of_le (Nat.le_of_lt hn)
    have hplace : (outcomes (lines.take n)).length = n := (h.length _).trans hbefore
    rw [hbefore] at ho
    refine ⟨o, p, ?_, hp, ho⟩
    rw [hqs, List.getElem?_append_right (Nat.le_of_eq hplace), hplace, Nat.sub_self]
    rfl

theorem Additive.actions_append (h : r.Additive b outcomes) (xs ys : List String) :
    Trace.actions ((outcomes (xs ++ ys)).flatMap (·.trace)) =
      Trace.actions ((outcomes xs).flatMap (·.trace)) ++ Trace.actions ((outcomes ys).flatMap (·.trace)) := by
  obtain ⟨qs, hqs, hlater, _⟩ := h.append xs ys
  rw [hqs, List.flatMap_append, Trace.actions_append, actions_later hlater]

theorem Additive.records_append (h : r.Additive b outcomes) (xs ys : List String) :
    (outcomes (xs ++ ys)).map (·.record) =
      (outcomes xs).map (·.record) ++
        ((outcomes ys).map (·.record)).map (·.later xs.length (r.elapsedOf b (outcomes xs))) := by
  obtain ⟨qs, hqs, hlater, _⟩ := h.append xs ys
  rw [hqs, List.map_append, records_later hlater]

theorem Additive.statuses_append (h : r.Additive b outcomes) (xs ys : List String) :
    (outcomes (xs ++ ys)).map (·.status) = (outcomes xs).map (·.status) ++ (outcomes ys).map (·.status) := by
  obtain ⟨qs, hqs, hlater, _⟩ := h.append xs ys
  rw [hqs, List.map_append, statuses_later hlater]

end

theorem independent_of_resting (hr : r.interpreter.station.AlwaysReplies)
    (ht : r.interpreter.station.presenter ≠ .terminal) (h : b.Resting r.token) :
    ∃ outcomes report, (r.under .line).Independent b outcomes report := by
  obtain ⟨outcomes, hadditive⟩ := exists_additive hr ht h
  let report (lines : List String) := (r.under .line).report b lines [] (outcomes lines)
  have hactions (xs ys : List String) :
      (report (xs ++ ys)).trace.actions = (report xs).trace.actions ++ (report ys).trace.actions := by
    simp only [report, report_actions, hadditive.actions_append]
  have hrun (lines : List String) : (r.under .line).run b lines [] = some (report lines) := by
    rw [run_eq]
    exact congrArg _ (hadditive.course lines)
  refine ⟨outcomes, report, hadditive.course, hrun, fun _ => rfl, hadditive.length,
    fun lines => ?classes, ?alone, ?actions, hadditive.elapsed, fun lines => ?elapsed, fun xs ys => ?append⟩
  case classes =>
    have htally : RunSummary.tally ((outcomes lines).map (·.status)) = _ := RunSummary.foldl_count
    simp only [report, Runner.report, htally, Nat.zero_add, true_and]
  case alone =>
    intro lines n line hline
    obtain ⟨o, p, ho, hp, hlater⟩ := hadditive.alone hline
    exact ⟨o, p, ho, hp, hlater.status, hadditive.elapsed (lines.take n) ▸ hlater.record⟩
  case actions => exact eq_flatMap_of_append (f := fun lines => (report lines).trace.actions) hactions
  case elapsed =>
    have hsingle : (lines.map fun line => (report [line]).summary.elapsed) =
        (lines.map fun line => (report [line]).duration b).map (· % Text.wordLimit) := by
      rw [List.map_map]
      exact List.map_congr_left fun line _ => elapsed_of_run (hrun [line])
    rw [elapsed_of_run (hrun lines), hsingle, ← List.sum_nat_mod]
    exact congrArg (· % Text.wordLimit) (hadditive.elapsed lines)
  case append =>
    have htally : RunSummary.tally ((outcomes (xs ++ ys)).map (·.status)) = _ :=
      hadditive.statuses_append xs ys ▸ RunSummary.tally_append
    obtain ⟨_, _, _, hadd⟩ := hadditive.append xs ys
    refine ⟨hadditive.records_append xs ys, hactions xs ys, ?_, ?_, ?_, ?_, hadd, ?elapsed⟩
    case elapsed =>
      have hadd : (report (xs ++ ys)).duration b = (report xs).duration b + (report ys).duration b := hadd
      rw [elapsed_of_run (hrun (xs ++ ys)), elapsed_of_run (hrun xs), elapsed_of_run (hrun ys), hadd, Nat.add_mod]
    all_goals simp only [report, Runner.report, htally]

-- At a station whose dialogs neither hang nor read the terminal, lines know nothing of one another: a script that
-- runs with a scope for each line, without an abort and without a stop, does line by line what each of its lines
-- does alone at a fresh station.
theorem lines_independent {i : Interpreter} {publisher : Publisher} {origin : Instant} {typed : List Typed}
    {r : Runner} {b : Bench}
    (hopen : Runner.open i ⟨.line, false⟩ publisher origin { input := typed } = (r, b))
    (hr : i.station.AlwaysReplies) (ht : i.station.presenter ≠ .terminal) :
    ∃ outcomes report, r.Independent b outcomes report := by
  cases hopen
  let r := (Runner.open i ⟨.line, false⟩ publisher origin { input := typed }).1
  let b := (Runner.open i ⟨.line, false⟩ publisher origin { input := typed }).2
  have hresting : b.Resting r.token := resting_open i ⟨.line, false⟩ publisher origin typed
  exact independent_of_resting (r := r) hr ht hresting

-- The line after a declined dialog takes its time.
theorem lines_independent_of_declined :
    let (r, b) := Runner.open ⟨.ofSettings { dialog := .no }, 100⟩ ⟨.line, false⟩ .accepting ⟨0⟩ {}
    ∃ q, r.run b ["SHOW_DIALOG ^ UI ^ YES_NO ^ T ^ M", "SET_OUTPUT ^ UV_PLC1"] [] = some q ∧
      q.trace.actions = [.dialog .yesNo "T", .setOutput "UV_PLC1"] ∧ q.summary.elapsed = 100 := by
  let i : Interpreter := ⟨.ofSettings { dialog := .no }, 100⟩
  let r := (Runner.open i ⟨.line, false⟩ .accepting ⟨0⟩ {}).1
  let b := (Runner.open i ⟨.line, false⟩ .accepting ⟨0⟩ {}).2
  have hopen : Runner.open i ⟨.line, false⟩ .accepting ⟨0⟩ { input := [] } = (r, b) := rfl
  have hpresenter : i.station.presenter ≠ .terminal := by
    rw [Station.ofSettings_presenter]
    exact nofun
  have ⟨outcomes, report, h⟩ :=
    lines_independent hopen (Station.ofSettings_alwaysReplies { dialog := .no }) hpresenter
  -- Each of the lines alone.
  have hdialog : (r.run b ["SHOW_DIALOG ^ UI ^ YES_NO ^ T ^ M"] []).map
      (fun q => (q.trace.actions, q.summary.elapsed)) = some ([.dialog .yesNo "T"], 0) := by
    decide +kernel
  have houtput : (r.run b ["SET_OUTPUT ^ UV_PLC1"] []).map (fun q => (q.trace.actions, q.summary.elapsed)) =
      some ([.setOutput "UV_PLC1"], 100) := by
    decide +kernel
  rw [h.run] at hdialog houtput
  have ⟨hdialog, htime⟩ := Prod.mk.inj (Option.some.inj hdialog)
  have ⟨houtput, htime'⟩ := Prod.mk.inj (Option.some.inj houtput)
  refine ⟨_, h.run _, ?_, ?_⟩
  · rw [h.actions]
    simp [hdialog, houtput]
  · rw [h.elapsed]
    simp [htime, htime', Text.wordLimit]

end Runner

end StationScript
