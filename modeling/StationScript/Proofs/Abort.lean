import StationScript.Proofs.Course
import StationScript.Proofs.Interruption

namespace StationScript

-- The bench with one firing still to come.
def Bench.expecting (b : Bench) (f : Firing) : Bench :=
  { b with timeline := { b.timeline with schedule := [f] } }

theorem Bench.quiet_expecting {b : Bench} {f : Firing} (h : b.timeline.schedule = []) :
    (b.expecting f).quiet = b := by
  have ⟨⟨now, signals, schedule⟩, devices, lastReading, input⟩ := b
  cases h
  rfl

def RowOutcome.expecting (o : RowOutcome) (f : Firing) : RowOutcome :=
  { o with bench := o.bench.expecting f }

theorem Ending.signal_schedule {ending : Ending} {trigger : Trigger} {t : Timeline} :
    (ending.signal trigger t).schedule = t.schedule := by
  cases ending <;> rfl

namespace Interpreter

variable {i : Interpreter} {b : Bench} {line : String} {token : Token} {trigger : Trigger} {f : Firing}
  {o : Outcome}

-- A line goes the same way with a firing to come, as long as it ends before.
theorem execute_expecting (h : i.station.AlwaysReplies) (hq : b.timeline.schedule = [])
    (ho : i.execute b line token trigger = some o) :
    b.timeline.now ≤ o.bench.timeline.now ∧ o.bench.timeline.schedule = [] ∧
      ∀ f : Firing, o.bench.timeline.now ≤ f.instant →
        i.execute (b.expecting f) line token trigger = some { o with bench := o.bench.expecting f } := by
  by_cases hl : b.isCancelled token
  case pos =>
    cases ho.symm.trans (execute_of_isCancelled hl)
    exact ⟨Nat.le_refl _, hq, fun f _ => execute_of_isCancelled (b := b.expecting f) hl⟩
  case neg =>
    have ⟨d, x, trace, ending, hidle⟩ := execute_of_idle h b.input line
    cases ho.symm.trans (hidle b token trigger (fun _ _ => rfl) hl (by simp [hq]))
    simp only [Bench.advance, Ending.signal_now, Ending.signal_schedule]
    refine ⟨Nat.le_add_right .., hq, fun f hf => ?_⟩
    rw [hidle (b.expecting f) token trigger (fun _ _ => rfl) hl (by simpa [Bench.expecting] using hf)]
    cases ending <;> rfl

-- A firing that reaches the token cuts the line if the line would end later.
theorem execute_cut (h : i.station.AlwaysReplies) (hq : b.timeline.schedule = []) (hf : f.flag ∈ token.flags)
    (hn : b.timeline.now ≤ f.instant) (ho : i.execute b line token trigger = some o)
    (hlate : f.instant < o.bench.timeline.now) :
    ∃ o', i.execute (b.expecting f) line token trigger = some o' ∧ o'.execution.success = false ∧
      o'.bench.timeline.now = f.instant ∧ o'.trace.actions = i.switching line ∧
      f.flag ∈ o'.bench.timeline.signals.raised := by
  have hl : ¬b.isCancelled token := by
    intro hc
    cases ho.symm.trans (execute_of_isCancelled hc)
    exact absurd hlate (Nat.not_lt.2 hn)
  have he : (b.expecting f).timeline.EarliestFor token f.instant :=
    ⟨⟨f, List.mem_cons_self .., hf, rfl⟩, by simp [Bench.expecting]⟩
  have hquiet : ∀ q, i.execute (b.expecting f).quiet line token trigger = some q →
      f.instant < q.bench.timeline.now := by
    intro q hq'
    rw [Bench.quiet_expecting hq] at hq'
    cases ho.symm.trans hq'
    exact hlate
  have hmoves : ¬i.StandsStill (b.expecting f) line := fun hs => not_neverAnswers h hs.right
  have ⟨o', ho', hfail, hnow, hactions, hraised⟩ :=
    execute_of_earliest (b := b.expecting f) hl he hn hmoves hquiet
  exact ⟨o', ho', hfail, hnow, hactions, hraised f (List.mem_cons_self ..) (Nat.le_refl _)⟩

end Interpreter

namespace Runner

variable {r : Runner} {b : Bench} {trigger : Trigger} {token : Token} {row : Row} {rows : List Row}
  {o : RowOutcome} {os : List RowOutcome} {f : Firing}

theorem lineScope_expecting : r.lineScope (b.expecting f) trigger token =
    ((r.lineScope b trigger token).1.expecting f, (r.lineScope b trigger token).2) := by
  unfold lineScope
  split <;> rfl

theorem row_expecting (h : r.interpreter.station.AlwaysReplies) (hq : b.timeline.schedule = [])
    (ho : r.row b trigger token row = some o) :
    b.timeline.now ≤ o.bench.timeline.now ∧ o.bench.timeline.schedule = [] ∧
      ∀ f : Firing, o.bench.timeline.now ≤ f.instant →
        r.row (b.expecting f) trigger token row = some (o.expecting f) := by
  have ⟨opened, hscope⟩ := r.exists_lineScope_eq_withOpened b trigger token
  rw [row_eq] at ho
  obtain ⟨q, hq', rfl⟩ := Option.map_eq_some_iff.1 ho
  have ⟨hle, hnil, hsame⟩ := Interpreter.execute_expecting h (by rw [hscope]; exact hq) hq'
  rw [hscope] at hle
  refine ⟨hle, hnil, fun f hf => ?_⟩
  rw [row_eq, lineScope_expecting, hsame f hf]
  rfl

theorem row_cut (h : r.interpreter.station.AlwaysReplies) (hq : b.timeline.schedule = [])
    (hf : f.flag ∈ token.flags) (hn : b.timeline.now ≤ f.instant) (ho : r.row b trigger token row = some o)
    (hlate : f.instant < o.bench.timeline.now) :
    ∃ o', r.row (b.expecting f) trigger token row = some o' ∧ o'.CutShort row ∧
      o'.trace.actions = r.interpreter.switching row.text ∧ o'.bench.timeline.now = f.instant ∧
      o'.bench.isCancelled token := by
  have ⟨opened, hscope⟩ := r.exists_lineScope_eq_withOpened b trigger token
  rw [row_eq] at ho
  obtain ⟨q, hq', rfl⟩ := Option.map_eq_some_iff.1 ho
  have ⟨q', hcut, hfail, hnow, hactions, hraised⟩ := Interpreter.execute_cut h (by rw [hscope]; exact hq)
    (mem_lineScope_flags hf) (by rw [hscope]; exact hn) hq' hlate
  have hc : q'.bench.isCancelled token := Signals.isCancelled_iff.2 ⟨f.flag, hf, hraised⟩
  refine ⟨_, by rw [row_eq, lineScope_expecting, hcut]; rfl, rowOutcome_cutShort hfail ?_, ?_, hnow, hc⟩
  · exact Bench.isCancelled_of_mem (fun g hg => mem_lineScope_flags hg) hc
  · rw [rowOutcome, Trace.actions_append, publishLine_actions, hactions, List.append_nil]

-- As long as no row ends later than the firing comes, the run is the same.
theorem course_expecting (h : r.interpreter.station.AlwaysReplies) (hq : b.timeline.schedule = [])
    (hos : r.course trigger token b rows = some os) (hall : ∀ o ∈ os, o.bench.timeline.now ≤ f.instant) :
    r.course trigger token (b.expecting f) rows = some (os.map (·.expecting f)) := by
  induction rows generalizing b os
  case nil => cases hos; rfl
  case cons row rest ih =>
    have ⟨o, ho, hrest⟩ := course_cons_cases hos
    obtain ⟨-, hnil, hsame⟩ := row_expecting h hq ho
    cases hrest
    case inl hstop =>
      obtain ⟨hs, rfl⟩ := hstop
      exact course_cons_of_stopsAt (hsame f (hall o (List.mem_cons_self ..))) hs
    case inr hgo =>
      obtain ⟨hs, later, hlater, rfl⟩ := hgo
      have hlater' := ih hnil hlater fun p hp => hall p (List.mem_cons_of_mem _ hp)
      exact course_cons_of_not_stopsAt (hsame f (hall o (List.mem_cons_self ..))) hs hlater'

-- The first row that would end later than the firing comes is cut by it, and the rows after that are skipped.
theorem course_cut {before after : List RowOutcome} (h : r.interpreter.station.AlwaysReplies)
    (hq : b.timeline.schedule = []) (hf : f.flag ∈ token.flags) (hn : b.timeline.now ≤ f.instant)
    (hos : r.course trigger token b rows = some (before ++ o :: after))
    (hbefore : ∀ p ∈ before, p.bench.timeline.now ≤ f.instant) (hlate : f.instant < o.bench.timeline.now) :
    ∃ done row rest cut, rows = done ++ row :: rest ∧ done.length = before.length ∧
      r.course trigger token (b.expecting f) rows = some (before.map (·.expecting f) ++ cut) ∧
      List.Forall₂ RowOutcome.CutShort (row :: rest) cut ∧
      Trace.actions (cut.flatMap (·.trace)) = r.interpreter.switching row.text ∧
      ∀ b', (lastBench b' cut).timeline.now = f.instant := by
  induction before generalizing b rows
  case nil =>
    cases rows
    case nil => cases hos
    case cons row rest =>
      have ⟨o₁, ho, hrest⟩ := course_cons_cases hos
      have heq : o₁ = o := by
        rcases hrest with ⟨-, heq⟩ | ⟨-, _, -, heq⟩ <;> cases heq <;> rfl
      subst heq
      have ⟨o', ho', hcut, hactions, hnow, hc⟩ := row_cut h hq hf hn ho hlate
      have ⟨cut, opened, hcourse, hcuts, hnone, hlast⟩ :=
        course_of_isCancelled r trigger rest hc
      refine ⟨[], row, rest, o' :: cut, rfl, rfl, ?_, .cons hcut hcuts, ?_, fun b' => ?_⟩
      · exact course_cons_of_not_stopsAt ho' (by simp [hcut.not_stopsAt]) hcourse
      · have hskipped := flatMap_actions_eq_nil fun p hp => (hnone p hp).left
        rw [List.flatMap_cons, Trace.actions_append, hactions, hskipped, List.append_nil]
      · exact (congrArg (·.timeline.now) hlast).trans hnow
  case cons o₁ before ih =>
    cases rows
    case nil => cases hos
    case cons row rest =>
      have ⟨o₂, ho, hrest⟩ := course_cons_cases hos
      rcases hrest with ⟨-, heq⟩ | ⟨hs, later, hlater, heq⟩
      case inl => simp at heq
      case inr =>
        cases heq
        obtain ⟨-, hnil, hsame⟩ := row_expecting h hq ho
        have hle := hbefore _ (List.mem_cons_self ..)
        have ⟨done, row', rest', cut, hrows, hlen, hcourse, hcuts⟩ :=
          ih hnil hle hlater fun p hp => hbefore p (List.mem_cons_of_mem _ hp)
        refine ⟨row :: done, row', rest', cut, by rw [hrows]; rfl, by simp [hlen], ?_, hcuts⟩
        exact course_cons_of_not_stopsAt (hsame f hle) hs hcourse

-- Rows end one after another.
theorem course_pairwise (h : r.interpreter.station.AlwaysReplies) (hq : b.timeline.schedule = [])
    (hos : r.course trigger token b rows = some os) :
    (∀ o ∈ os, b.timeline.now ≤ o.bench.timeline.now) ∧
      os.Pairwise (·.bench.timeline.now ≤ ·.bench.timeline.now) := by
  induction rows generalizing b os
  case nil => cases hos; simp
  case cons row rest ih =>
    have ⟨o, ho, hrest⟩ := course_cons_cases hos
    obtain ⟨hle, hnil, -⟩ := row_expecting h hq ho
    rcases hrest with ⟨-, rfl⟩ | ⟨-, later, hlater, rfl⟩
    case inl => simpa using hle
    case inr =>
      have ⟨hfirst, hpairs⟩ := ih hnil hlater
      refine ⟨fun p hp => ?_, List.pairwise_cons.2 ⟨hfirst, hpairs⟩⟩
      rcases List.mem_cons.1 hp with rfl | hp
      · exact hle
      · exact Nat.le_trans hle (hfirst p hp)

theorem lastBench_expecting :
    lastBench (b.expecting f) (os.map (·.expecting f)) = (lastBench b os).expecting f := by
  induction os generalizing b
  case nil             => rfl
  case cons o rest ih => exact ih (b := o.bench)

theorem report_expecting {lines : List String} {selection : List Nat} :
    r.report (b.expecting f) lines selection (os.map (·.expecting f)) =
      { r.report b lines selection os with bench := (lastBench (r.enter b).1 os).expecting f } := by
  have hlast : lastBench (r.enter (b.expecting f)).1 (os.map (·.expecting f)) =
      (lastBench (r.enter b).1 os).expecting f := lastBench_expecting (b := (r.enter b).1)
  have htrace : (os.map (·.expecting f)).flatMap r.rowTrace = os.flatMap r.rowTrace := by
    rw [List.flatMap_map]
    rfl
  simp only [report, hlast, htrace, List.map_map]
  rfl

-- Any property of rows holds of all of them, or of those before a first one without it.
theorem forall_or_exists_first (p : RowOutcome → Prop) (os : List RowOutcome) :
    (∀ o ∈ os, p o) ∨ ∃ before o after, os = before ++ o :: after ∧ (∀ o ∈ before, p o) ∧ ¬p o := by
  induction os
  case nil => exact .inl (List.forall_mem_nil _)
  case cons o rest ih =>
    by_cases ho : p o
    case neg => exact .inr ⟨[], o, rest, rfl, List.forall_mem_nil _, ho⟩
    case pos =>
      rcases ih with hall | ⟨before, o', after, rfl, hbefore, ho'⟩
      · exact .inl (List.forall_mem_cons.2 ⟨ho, hall⟩)
      · exact .inr ⟨o :: before, o', after, rfl, List.forall_mem_cons.2 ⟨ho, hbefore⟩, ho'⟩

-- The bench with the operator's abort to come so many milliseconds from now.
def planAbort (r : Runner) (b : Bench) (milliseconds : Nat) : Bench :=
  { b with timeline := b.timeline.plan [(milliseconds, r.abort.flag)] }

theorem planAbort_eq {milliseconds : Nat} (hq : b.timeline.schedule = []) :
    r.planAbort b milliseconds = b.expecting ⟨b.timeline.now + milliseconds, r.abort.flag⟩ := by
  simp [planAbort, Bench.expecting, Timeline.plan, hq]

theorem runCourse_expecting (h : r.interpreter.station.AlwaysReplies) (hq : b.timeline.schedule = [])
    (hos : r.runCourse b rows = some os) (hall : ∀ o ∈ os, o.bench.timeline.now ≤ f.instant) :
    r.runCourse (b.expecting f) rows = some (os.map (·.expecting f)) :=
  course_expecting (b := (r.enter b).1) h hq hos hall

theorem runCourse_cut {before after : List RowOutcome} (h : r.interpreter.station.AlwaysReplies)
    (hq : b.timeline.schedule = []) (hf : f.flag ∈ r.token.flags) (hn : b.timeline.now ≤ f.instant)
    (hos : r.runCourse b rows = some (before ++ o :: after))
    (hbefore : ∀ p ∈ before, p.bench.timeline.now ≤ f.instant) (hlate : f.instant < o.bench.timeline.now) :
    ∃ done row rest cut, rows = done ++ row :: rest ∧ done.length = before.length ∧
      r.runCourse (b.expecting f) rows = some (before.map (·.expecting f) ++ cut) ∧
      List.Forall₂ RowOutcome.CutShort (row :: rest) cut ∧
      Trace.actions (cut.flatMap (·.trace)) = r.interpreter.switching row.text ∧
      ∀ b', (lastBench b' cut).timeline.now = f.instant :=
  course_cut (b := (r.enter b).1) h hq (List.mem_cons_of_mem _ hf) hn hos hbefore hlate

theorem exists_runCourse (h : r.interpreter.station.AlwaysReplies) (b : Bench) (rows : List Row) :
    ∃ os, r.runCourse b rows = some os :=
  exists_course h

theorem runCourse_pairwise (h : r.interpreter.station.AlwaysReplies) (hq : b.timeline.schedule = [])
    (hos : r.runCourse b rows = some os) : os.Pairwise (·.bench.timeline.now ≤ ·.bench.timeline.now) :=
  (course_pairwise (b := (r.enter b).1) h hq hos).right

-- Whatever ends in time stands before the first row that does not.
theorem index_lt_of_pairwise {before after : List RowOutcome} {first : RowOutcome} {n limit : Nat}
    (hpairs : (before ++ first :: after).Pairwise (·.bench.timeline.now ≤ ·.bench.timeline.now))
    (ho : (before ++ first :: after)[n]? = some o) (hle : o.bench.timeline.now ≤ limit)
    (hlate : ¬first.bench.timeline.now ≤ limit) : n < before.length := by
  by_contra hn
  rw [List.getElem?_append_right (Nat.not_lt.1 hn)] at ho
  have hmem : o ∈ first :: after := List.mem_of_getElem? ho
  rcases List.mem_cons.1 hmem with rfl | hmem
  · exact hlate hle
  · have hafter := (List.pairwise_cons.1 (List.pairwise_append.1 hpairs).right.left).left
    exact hlate (Nat.le_trans (hafter o hmem) hle)

-- The operator's abort, compared with the same run left alone. A row that ends by the abort is the same in both.
-- If all do, so is the whole report. Otherwise the first row that would end later is cut, and every row after it
-- is skipped: all of them are recorded and count as cancelled, only an output that the row was to switch is
-- switched, and the run ends with the abort.
theorem run_aborted {i : Interpreter} {settings : RunnerSettings} {publisher : Publisher} {origin : Instant}
    {b₀ : Bench} (hopen : Runner.open i settings publisher origin b₀ = (r, b))
    (hq : b₀.timeline.schedule = []) (hr : i.station.AlwaysReplies) (lines : List String)
    (selection : List Nat) (milliseconds : Nat) :
    ∃ (os os' : List RowOutcome) (q q' : RunOutcome),
      r.runCourse b (Row.select lines selection) = some os ∧
      r.runCourse (r.planAbort b milliseconds) (Row.select lines selection) = some os' ∧
      r.run b lines selection = some q ∧ r.run (r.planAbort b milliseconds) lines selection = some q' ∧
      q.records = os.map (·.record) ∧ q'.records = os'.map (·.record) ∧
      (∀ (n : Nat) o, os[n]? = some o → o.bench.timeline.now ≤ b.timeline.now + milliseconds →
        ∃ o', os'[n]? = some o' ∧ o'.record = o.record ∧ o'.status = o.status ∧ o'.trace = o.trace) ∧
      ((∀ o ∈ os, o.bench.timeline.now ≤ b.timeline.now + milliseconds) →
        q'.records = q.records ∧ q'.summary = q.summary ∧ q'.trace = q.trace) ∧
      ∀ before o after, os = before ++ o :: after →
        (∀ p ∈ before, p.bench.timeline.now ≤ b.timeline.now + milliseconds) →
        b.timeline.now + milliseconds < o.bench.timeline.now →
        List.Forall₂ RowOutcome.CutShort ((Row.select lines selection).drop before.length)
          (os'.drop before.length) ∧
        q'.summary =
          { RunSummary.tally (before.map (·.status) ++
              ((Row.select lines selection).drop before.length).map fun _ => .cancelled) with
            elapsed := milliseconds % Text.wordLimit
            timestamp := (origin.addMilliseconds (b.timeline.now + milliseconds)).seconds } ∧
        q'.duration b = milliseconds ∧
        ∃ row, (Row.select lines selection)[before.length]? = some row ∧
          q'.trace.actions = Trace.actions (before.flatMap (·.trace)) ++ i.switching row.text := by
  have ⟨hi, horigin, hf, hq⟩ :
      r.interpreter = i ∧ r.origin = origin ∧ r.abort.flag ∈ r.token.flags ∧ b.timeline.schedule = [] := by
    cases hopen
    exact ⟨rfl, rfl, List.mem_cons_self .., hq⟩
  subst hi horigin
  let rows := Row.select lines selection
  let f : Firing := ⟨b.timeline.now + milliseconds, r.abort.flag⟩
  have ⟨os, hos⟩ := exists_runCourse hr b rows
  have ⟨os', hos'⟩ := exists_runCourse hr (b.expecting f) rows
  have hall (h : ∀ o ∈ os, o.bench.timeline.now ≤ f.instant) : os' = os.map (·.expecting f) :=
    Option.some.inj (hos'.symm.trans (runCourse_expecting hr hq hos h))
  rw [planAbort_eq hq]
  refine ⟨os, os', _, _, hos, hos', by rw [run_eq, hos]; rfl, by rw [run_eq, hos']; rfl, rfl, rfl, ?same,
    ?report, ?cut⟩
  case same =>
    intro n o ho hle
    rcases forall_or_exists_first (·.bench.timeline.now ≤ f.instant) os with
      h | ⟨before, first, after, rfl, hbefore, hlate⟩
    · exact ⟨o.expecting f, by simp [hall h, ho], rfl, rfl, rfl⟩
    · obtain ⟨_, _, _, cut, -, -, hcourse, -⟩ :=
        runCourse_cut hr hq hf (Nat.le_add_right ..) hos hbefore (Nat.not_le.1 hlate)
      have hkept : os' = before.map (·.expecting f) ++ cut := Option.some.inj (hos'.symm.trans hcourse)
      have hn : n < before.length := index_lt_of_pairwise (runCourse_pairwise hr hq hos) ho hle hlate
      rw [List.getElem?_append_left hn] at ho
      refine ⟨o.expecting f, ?_, rfl, rfl, rfl⟩
      rw [hkept, List.getElem?_append_left (by simpa using hn)]
      simp [ho]
  case report =>
    intro h
    rw [hall h, report_expecting]
    exact ⟨rfl, rfl, rfl⟩
  case cut =>
    intro before o after heq hbefore hlate
    subst heq
    have ⟨done, row, rest, cut, hrows, hlen, hcourse, hcuts, hactions, hlast⟩ :=
      runCourse_cut (f := f) hr hq hf (Nat.le_add_right ..) hos hbefore hlate
    have hkept : os' = before.map (·.expecting f) ++ cut := Option.some.inj (hos'.symm.trans hcourse)
    have hdrop : rows.drop before.length = row :: rest := by rw [hrows, ← hlen, List.drop_left]
    have hdrop' : os'.drop before.length = cut := by rw [hkept]; simp
    have hnow : (lastBench (r.enter (b.expecting f)).1 (before.map (·.expecting f) ++ cut)).timeline.now =
        f.instant := by
      rw [lastBench, List.foldl_append]
      exact hlast _
    refine ⟨?_, ?_, ?_, row, ?_, ?_⟩
    · rw [hdrop, hdrop']
      exact hcuts
    · have hstatuses : (before.map (·.expecting f)).map (·.status) = before.map (·.status) := by
        rw [List.map_map]
        rfl
      rw [hdrop, hkept, report_cut lines selection hcuts hnow, hstatuses]
      simp [f, Bench.expecting]
    · rw [hkept]
      exact (congrArg (· - b.timeline.now) hnow).trans (Nat.add_sub_cancel_left ..)
    · show rows[before.length]? = some row
      rw [hrows, ← hlen, List.getElem?_append_right (Nat.le_refl _)]
      simp
    · rw [report_actions, hkept, List.flatMap_append, Trace.actions_append, hactions, List.flatMap_map]
      rfl

-- An abort while an output settles.
theorem run_aborted_while_settling :
    let (r, b) := Runner.open ⟨.ofSettings {}, 100⟩ {} .accepting ⟨0⟩ {}
    ∃ q', r.run (r.planAbort b 5) ["SET_OUTPUT ^ UV_PLC1", "WAIT ^ T ^ 7"] [] = some q' ∧
      q'.summary.elapsed = 5 ∧ q'.trace.actions = [.setOutput "UV_PLC1"] := by
  let lines := ["SET_OUTPUT ^ UV_PLC1", "WAIT ^ T ^ 7"]
  let r := (Runner.open ⟨.ofSettings {}, 100⟩ {} .accepting ⟨0⟩ {}).1
  let b := (Runner.open ⟨.ofSettings {}, 100⟩ {} .accepting ⟨0⟩ {}).2
  obtain ⟨os, os', q, q', hos, -, -, hq', -, -, -, -, hcut⟩ :=
    run_aborted (r := r) (b := b) rfl rfl (Station.ofSettings_alwaysReplies {}) lines [] 5
  -- Left alone, the rows end after 100 and 107 milliseconds.
  have hends : (r.runCourse b (Row.select lines [])).map (·.map (·.bench.timeline.now)) = some [100, 107] := by
    decide +kernel
  rw [hos] at hends
  cases os
  case nil => cases hends
  case cons o after =>
    have hend : o.bench.timeline.now = 100 := by simp at hends; exact hends.left
    obtain ⟨-, hsummary, -, row, hrow, hactions⟩ := hcut [] o after rfl (List.forall_mem_nil _) (by rw [hend]; decide)
    cases hrow
    exact ⟨q', hq', by rw [hsummary]; rfl, hactions.trans (by decide +kernel)⟩

end Runner

end StationScript
