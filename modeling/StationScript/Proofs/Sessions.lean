import StationScript.Proofs.Accounts
import StationScript.Proofs.Decline
import StationScript.Proofs.Undisturbed

namespace StationScript

-- The outcome of a row, and that of the same row at another time.
structure RowOutcome.Again (o p : RowOutcome) : Prop where
  record  : p.record = { o.record with executedAt := p.record.executedAt }
  status  : p.status = o.status
  actions : p.trace.actions = o.trace.actions

-- What a run reports, and what the same run reports at another time.
structure RunOutcome.Again (q u : RunOutcome) : Prop where
  records : List.Forall₂ (fun o p : LineRecord => p = { o with executedAt := p.executedAt }) q.records u.records
  summary : u.summary = { q.summary with timestamp := u.summary.timestamp }
  actions : u.trace.actions = q.trace.actions

namespace Bench

variable {b : Bench} {seen : Token} {g : Flag}

theorem Ready.quiet (h : b.Ready seen) : b.quiet.Ready seen where
  sound f hf  := ⟨(h.sound f hf).left, nofun⟩
  opened f hf := h.opened f hf

-- What is ready inside a scope is ready outside it.
theorem Ready.outer (h : b.Ready ⟨g :: seen.flags⟩) : b.Ready seen :=
  ⟨h.sound, fun f hf => h.opened f (List.mem_cons_of_mem _ hf)⟩

-- A bench from which a run can start: there is nothing to come but the firings of one flag.
structure Waiting (seen : Token) (g : Flag) (b : Bench) : Prop where
  ready  : b.Ready seen
  awaits : b.Awaits g

end Bench

namespace Runner

-- Two runners of one kind, for a station whose dialogs neither hang nor read the terminal.
structure Twin (r r' : Runner) : Prop where
  interpreter : r'.interpreter = r.interpreter
  settings    : r'.settings = r.settings
  replies     : r.interpreter.station.AlwaysReplies
  presenter   : r.interpreter.station.presenter ≠ .terminal

variable {r r' : Runner} {a b : Bench} {sa sb seen : Token} {ta tb trigger : Trigger} {row : Row} {rows : List Row}
  {g : Flag} {fate : Fate} {o p : RowOutcome} {os ps : List RowOutcome}

theorem again_of_meets (hp : p.Meets r b sb row fate) (ho : o.Meets r' a sa row fate) : p.Again o where
  record  := by rw [hp.record, ho.record]; rfl
  status  := ho.status.trans hp.status.symm
  actions := ho.actions.trans hp.actions.symm

theorem awaits_of_meets (h : b.Awaits g) (hidle : ∀ f ∈ b.timeline.schedule, b.timeline.now + fate.elapsed ≤ f.instant)
    (hp : p.Meets r b sb row fate) : p.bench.Awaits g := by
  intro f hf
  rw [hp.schedule] at hf
  exact ⟨(h f hf).left, hp.now ▸ hidle f hf⟩

-- A row meets the same fate on both benches, or the flag is raised meanwhile.
theorem row_again (h : r.Twin r') (ha : a.Ready sa) (hidle : a.timeline.schedule = []) (hb : b.Waiting sb g)
    (hg : g ∈ sb.flags) (hta : ta.flag ∈ sa.flags) (htb : tb.flag ∈ sb.flags)
    (hsame : a.isCancelled sa = b.isCancelled sb) (row : Row) :
    ∃ o p, r'.row a ta sa row = some o ∧ r.row b tb sb row = some p ∧
      (g ∈ p.bench.timeline.signals.raised ∨
        ∃ fate, o.Meets r' a sa row fate ∧ p.Meets r b sb row fate ∧ p.bench.Awaits g) := by
  have ⟨fate, _, hmeets⟩ := exists_fate h.replies h.presenter r.settings.cancellationScope row.text (b.isCancelled sb)
  have ⟨o, ho, hofate⟩ := hmeets r' a sa ta row h.interpreter (congrArg _ h.settings) rfl ha (fun _ => hta) hsame
    (by simp [hidle])
  by_cases hcalm : ∀ f ∈ b.timeline.schedule, b.timeline.now + fate.elapsed ≤ f.instant
  case pos =>
    have ⟨p, hp, hpfate⟩ := hmeets r b sb tb row rfl rfl rfl hb.ready (fun _ => htb) rfl hcalm
    exact ⟨o, p, ho, hp, .inr ⟨fate, hofate, hpfate, awaits_of_meets hb.awaits hcalm hpfate⟩⟩
  case neg =>
    -- The row would last until after the firing.
    have ⟨f, hf, hearly⟩ : ∃ f ∈ b.timeline.schedule, f.instant < b.timeline.now + fate.elapsed := by
      simpa using hcalm
    have ⟨q, hq, hqfate⟩ := hmeets r b.quiet sb tb row rfl rfl rfl hb.ready.quiet (fun _ => htb) rfl nofun
    have ⟨p, hp, hraised⟩ := row_disturbed h.replies hb.awaits hg hq hf (hqfate.now ▸ hearly)
    exact ⟨o, p, ho, hp, .inl hraised⟩

-- Flags stay raised for as long as a cancelled run lasts.
theorem raised_lastBench (hg : g ∈ seen.flags) (hraised : g ∈ b.timeline.signals.raised)
    (hos : r.course trigger seen b rows = some os) : g ∈ (lastBench b os).timeline.signals.raised := by
  have hc : b.isCancelled seen := Signals.isCancelled_iff.2 ⟨g, hg, hraised⟩
  have ⟨os', opened, hos', _, _, hlast⟩ := course_of_isCancelled r trigger rows hc
  cases hos.symm.trans hos'
  rw [hlast]
  exact hraised

-- What the rows of a run have come to since they started.
structure CourseAgain (g : Flag) (sb : Token) (a b : Bench) (os ps : List RowOutcome) : Prop where
  rows    : List.Forall₂ RowOutcome.Again ps os
  waiting : (lastBench b ps).Waiting sb g
  elapsed : ∃ d, (lastBench a os).timeline.now = a.timeline.now + d ∧ (lastBench b ps).timeline.now = b.timeline.now + d

theorem CourseAgain.cons {fate : Fate} (ho : o.Meets r' a sa row fate) (hp : p.Meets r b sb row fate)
    (h : CourseAgain g sb o.bench p.bench os ps) : CourseAgain g sb a b (o :: os) (p :: ps) where
  rows    := .cons (again_of_meets hp ho) h.rows
  waiting := h.waiting
  elapsed := by
    have ⟨d, hd, hd'⟩ := h.elapsed
    refine ⟨fate.elapsed + d, ?_, ?_⟩
    · exact hd.trans (by rw [ho.now, Nat.add_assoc])
    · exact hd'.trans (by rw [hp.now, Nat.add_assoc])

-- Rows go alike on both benches for as long as the flag is not raised.
theorem course_again (h : r.Twin r') (ha : a.Ready sa) (hidle : a.timeline.schedule = []) (hb : b.Waiting sb g)
    (hg : g ∈ sb.flags) (hta : ta.flag ∈ sa.flags) (htb : tb.flag ∈ sb.flags)
    (hsame : a.isCancelled sa = b.isCancelled sb) (rows : List Row) :
    ∃ os ps, r'.course ta sa a rows = some os ∧ r.course tb sb b rows = some ps ∧
      (g ∈ (lastBench b ps).timeline.signals.raised ∨ CourseAgain g sb a b os ps) := by
  induction rows generalizing a b
  case nil => exact ⟨[], [], rfl, rfl, .inr ⟨.nil, hb, 0, rfl, rfl⟩⟩
  case cons row rest ih =>
    have ⟨o, p, ho, hp, hcases⟩ := row_again h ha hidle hb hg hta htb hsame row
    rcases hcases with hraised | ⟨fate, hofate, hpfate, hawaits⟩
    case inl =>
      have ⟨os, hos⟩ : ∃ os, r'.course ta sa a (row :: rest) = some os := exists_course (h.interpreter ▸ h.replies)
      have ⟨ps, hps⟩ : ∃ ps, r.course tb sb b (row :: rest) = some ps := exists_course h.replies
      refine ⟨os, ps, hos, hps, .inl ?_⟩
      have ⟨p', hp', hcases⟩ := course_cons_cases hps
      cases hp.symm.trans hp'
      rcases hcases with ⟨_, rfl⟩ | ⟨_, later, hlater, rfl⟩
      · exact hraised
      · exact raised_lastBench (b := p.bench) hg hraised hlater
    case inr =>
      have hstops : r'.stopsAt o.status = r.stopsAt p.status := by
        rw [stopsAt, h.settings, hofate.status, ← hpfate.status, stopsAt]
      by_cases hstop : r.stopsAt p.status
      case pos =>
        have hpbench : p.bench.Waiting sb g := ⟨hpfate.ready, hawaits⟩
        exact ⟨[o], [p], course_cons_of_stopsAt ho (hstops.trans hstop), course_cons_of_stopsAt hp hstop,
          .inr (CourseAgain.cons hofate hpfate ⟨.nil, hpbench, 0, rfl, rfl⟩)⟩
      case neg =>
        obtain ⟨os, ps, hos, hps, hlater⟩ := ih hofate.ready (hofate.schedule.trans hidle) ⟨hpfate.ready, hawaits⟩
          (hofate.cancelled.trans hpfate.cancelled.symm)
        exact ⟨o :: os, p :: ps, course_cons_of_not_stopsAt ho (hstops ▸ hstop) hos,
          course_cons_of_not_stopsAt hp hstop hps, hlater.imp_right (CourseAgain.cons hofate hpfate)⟩

variable {lines : List String} {selection : List Nat}

theorem runCourse_again (h : r.Twin r') (ha : a.Resting r'.token) (hb : b.Waiting r.token g)
    (hl : ¬b.isCancelled r.token) (hg : g ∈ r.token.flags) (rows : List Row) :
    ∃ os ps, r'.runCourse a rows = some os ∧ r.runCourse b rows = some ps ∧
      (g ∈ (lastBench (r.enter b).1 ps).timeline.signals.raised ∨
        CourseAgain g (r.enter b).2.2 (r'.enter a).1 (r.enter b).1 os ps) := by
  have hsame : (r'.enter a).1.isCancelled (r'.enter a).2.2 = (r.enter b).1.isCancelled (r.enter b).2.2 := by
    have hb : (r.enter b).1.isCancelled (r.enter b).2.2 = b.isCancelled r.token := hb.ready.isCancelled_opening
    rw [hb, Bool.eq_false_iff.2 hl, Bool.eq_false_iff.2 ha.enter.live]
  exact course_again h ha.enter.ready ha.idle ⟨Ready.enter hb.ready, hb.awaits⟩ (List.mem_cons_of_mem _ hg)
    (List.mem_cons_self ..) (List.mem_cons_self ..) hsame rows

theorem report_again (h : CourseAgain g sb (r'.enter a).1 (r.enter b).1 os ps) :
    (r.report b lines selection ps).Again (r'.report a lines selection os) where
  records := List.forall₂_map_left_iff.2 (List.forall₂_map_right_iff.2 (h.rows.imp fun _ _ ho => ho.record))
  summary := by
    have hstatuses : os.map (·.status) = ps.map (·.status) :=
      (map_eq_of_forall₂ h.rows fun _ _ ho => ho.status.symm).symm
    obtain ⟨d, ha, hb⟩ := h.elapsed
    have hela : (lastBench (r'.enter a).1 os).timeline.now - a.timeline.now = d := by
      rw [ha]
      exact Nat.add_sub_cancel_left ..
    have helb : (lastBench (r.enter b).1 ps).timeline.now - b.timeline.now = d := by
      rw [hb]
      exact Nat.add_sub_cancel_left ..
    simp only [report, hstatuses, hela, helb]
  actions := by
    rw [report_actions, report_actions]
    exact (flatMap_actions_congr h.rows fun _ _ ho => ho.actions.symm).symm

-- A run goes alike on both benches, unless the flag is raised meanwhile.
theorem run_again (h : r.Twin r') (ha : a.Resting r'.token) (hb : b.Waiting r.token g)
    (hl : ¬b.isCancelled r.token) (hg : g ∈ r.token.flags) (lines : List String) (selection : List Nat) :
    ∃ u q, r'.run a lines selection = some u ∧ r.run b lines selection = some q ∧
      (g ∈ q.bench.timeline.signals.raised ∨ q.Again u ∧ q.bench.Waiting r.token g) := by
  have ⟨os, ps, hos, hps, hcases⟩ := runCourse_again h ha hb hl hg (Row.select lines selection)
  refine ⟨_, _, by rw [run_eq, hos]; rfl, by rw [run_eq, hps]; rfl, hcases.imp_right fun h => ⟨report_again h, ?_⟩⟩
  exact ⟨h.waiting.ready.outer, h.waiting.awaits⟩

end Runner

-- An effect that reaches neither the station nor the operator, and takes no time.
def Effect.IsNotice : Effect → Prop
  | report .main _ | publish _ => True
  | _ => False

-- A run that was aborted before it began: all rows are skipped, at once.
structure RunOutcome.Aborted (b : Bench) (rows : List Row) (q : RunOutcome) : Prop where
  records : List.Forall₂ (fun (row : Row) (record : LineRecord) => record.number = row.number ∧
    record.commandText = Text.trimmed row.text ∧ record.success = false ∧ record.output = "Command failed")
      rows q.records
  total     : q.summary.total = rows.length
  succeeded : q.summary.succeeded = 0
  failed    : q.summary.failed = 0
  cancelled : q.summary.cancelled = rows.length
  elapsed   : q.summary.elapsed = 0
  reached   : ∀ e ∈ q.trace, e.IsNotice
  published : q.trace.publications = q.records.map .line ++ [.summary q.summary]
  bench     : ∃ opened, q.bench = b.withOpened opened

namespace Runner

variable {r : Runner} {b : Bench} {seen : Token} {trigger : Trigger} {row : Row} {rows : List Row} {o : RowOutcome}
  {os : List RowOutcome} {lines : List String} {selection : List Nat}

theorem isNotice_of_publishLine {record : LineRecord} : ∀ e ∈ r.publishLine record, e.IsNotice := by
  unfold publishLine
  split <;> simp [Effect.IsNotice]

theorem isNotice_of_publishSummary {summary : RunSummary} : ∀ e ∈ r.publishSummary summary, e.IsNotice := by
  unfold publishSummary
  split <;> simp [Effect.IsNotice]

theorem isNotice_of_row (h : b.isCancelled seen) (ho : r.row b trigger seen row = some o) :
    ∀ e ∈ r.rowTrace o, e.IsNotice := by
  have ⟨opened, hscope⟩ := r.exists_lineScope_eq_withOpened b trigger seen
  have hc : (r.lineScope b trigger seen).1.isCancelled (r.lineScope b trigger seen).2.2 := by
    rw [hscope]
    exact Bench.isCancelled_of_mem (b := b) (fun f hf => mem_lineScope_flags hf) h
  rw [row_eq, Interpreter.execute_of_isCancelled hc] at ho
  cases ho
  refine List.forall_mem_append.2 ⟨List.forall_mem_append.2 ⟨?_, isNotice_of_publishLine⟩, ?_⟩
  · exact List.forall_mem_singleton.2 trivial
  · split
    · exact List.forall_mem_singleton.2 trivial
    · exact nofun

theorem isNotice_of_course (h : b.isCancelled seen) (hos : r.course trigger seen b rows = some os) :
    ∀ e ∈ os.flatMap r.rowTrace, e.IsNotice := by
  induction rows generalizing b os
  case nil => cases hos; exact nofun
  case cons row rest ih =>
    have ⟨o, ho, hcases⟩ := course_cons_cases hos
    have hrow := isNotice_of_row h ho
    have ⟨o', _, ho', _, _, hbench⟩ := row_of_isCancelled r trigger row h
    cases ho.symm.trans ho'
    have hc : o.bench.isCancelled seen := hbench ▸ h
    rcases hcases with ⟨_, rfl⟩ | ⟨_, later, hlater, rfl⟩
    · simpa using hrow
    · rw [List.flatMap_cons]
      exact List.forall_mem_append.2 ⟨hrow, ih hc hlater⟩

-- A run that starts cancelled skips all its rows, and reports that.
theorem exists_run_aborted (h : b.isCancelled r.token) (lines : List String) (selection : List Nat) :
    ∃ q, r.run b lines selection = some q ∧ q.Aborted b (Row.select lines selection) := by
  have hc : (r.enter b).1.isCancelled (r.enter b).2.2 :=
    Bench.isCancelled_of_mem (b := b) (fun f hf => List.mem_cons_of_mem _ hf) h
  have ⟨os, opened, hos, hcuts, _, hlast⟩ :=
    course_of_isCancelled r (r.enter b).2.1 (Row.select lines selection) hc
  have hlast : lastBench (r.enter b).1 os = b.withOpened opened := hlast
  have hrun : r.run b lines selection = some (r.report b lines selection os) := by
    rw [run_eq]
    exact congrArg (Option.map _) hos
  have htally : RunSummary.tally (os.map (·.status)) = _ := RunSummary.foldl_count
  rw [statuses_of_cutShort hcuts, List.map_const'] at htally
  refine ⟨_, hrun, ?records, ?total, ?succeeded, ?failed, ?cancelled, ?elapsed, ?reached, run_publications hrun,
    opened, hlast⟩
  case records =>
    exact List.forall₂_map_right_iff.2 (hcuts.imp fun _ _ hcut => ⟨hcut.number, hcut.text, hcut.failed, hcut.output⟩)
  case elapsed =>
    have hduration : (r.report b lines selection os).duration b = 0 :=
      (congrArg (·.timeline.now - b.timeline.now) hlast).trans (Nat.sub_self _)
    rw [elapsed_of_run hrun, hduration, Nat.zero_mod]
  case reached =>
    have hevents (events : List Event) : ∀ e ∈ events.map (Effect.report .main), e.IsNotice :=
      List.forall_mem_map.2 fun _ _ => trivial
    exact List.forall_mem_append.2 ⟨hevents _, List.forall_mem_append.2 ⟨List.forall_mem_append.2
      ⟨List.forall_mem_append.2 ⟨hevents [_], isNotice_of_course hc hos⟩, hevents [_]⟩, isNotice_of_publishSummary⟩⟩
  all_goals
    simp only [report, statuses_of_cutShort hcuts, List.map_const', htally]
    simp [List.count_replicate]

end Runner

namespace Bench

variable {b : Bench} {seen : Token} {g : Flag}

theorem Waiting.quiet (h : b.Waiting seen g) : b.quiet.Waiting seen g :=
  ⟨h.ready.quiet, nofun⟩

theorem Waiting.resting_quiet (h : b.Waiting seen g) (hl : ¬b.isCancelled seen) : b.quiet.Resting seen :=
  ⟨rfl, hl, h.ready.quiet⟩

theorem Resting.waiting (h : b.Resting seen) : b.Waiting seen g :=
  ⟨h.ready, by simp [Awaits, h.idle]⟩

theorem Waiting.planAbort {r : Runner} {milliseconds : Nat} (h : b.Waiting r.token r.abort.flag)
    (hmem : r.abort.flag ∈ r.token.flags) : (r.planAbort b milliseconds).Waiting r.token r.abort.flag where
  ready  := Runner.Ready.withAbort h.ready hmem (some milliseconds)
  awaits := by
    intro f hf
    rcases List.mem_append.1 hf with hf | hf
    · exact h.awaits f hf
    · cases List.mem_singleton.1 hf
      exact ⟨rfl, Nat.le_add_right ..⟩

-- If the flag is not raised when time has passed, it was not due yet.
theorem Waiting.moveTo {instant : Nat} (h : b.Waiting seen g) (hg : g ∉ (b.timeline.moveTo instant).signals.raised) :
    Waiting seen g { b with timeline := b.timeline.moveTo instant } := by
  have hlate : ∀ f ∈ b.timeline.schedule, instant ≤ f.instant := by
    intro f hf
    by_contra hearly
    exact hg (Timeline.mem_raised_firePending.2 (.inl ⟨f, hf, Nat.lt_of_not_le hearly, (h.awaits f hf).left⟩))
  rw [Timeline.moveTo_of_idle hlate]
  exact ⟨h.ready.advance [] instant, fun f hf => ⟨(h.awaits f hf).left, hlate f hf⟩⟩

end Bench

namespace Runner

variable {r r' : Runner} {a b b₀ c : Bench} {lines : List String} {selection : List Nat} {g : Flag}

-- A new runner has its settings, its token observes its abort alone, and nothing happened yet.
theorem of_open {i : Interpreter} {settings : RunnerSettings} {publisher : Publisher} {origin : Instant}
    {typed : List Typed} (h : Runner.open i settings publisher origin { input := typed } = (r, b)) :
    r.interpreter = i ∧ r.settings = settings ∧ r.token = ⟨[r.abort.flag]⟩ ∧ b.Resting r.token := by
  cases h
  exact ⟨rfl, rfl, rfl, resting_open i settings publisher origin typed⟩

-- The benches that can come about from a first one while a runner is in use. Runs take place one after another, and
-- between them time passes. The operator's abort comes at once, or is arranged for later and perhaps called off.
inductive Session (r : Runner) (b₀ : Bench) : Bench → Prop
  | start : r.Session b₀ b₀
  | run {b : Bench} {lines : List String} {selection : List Nat} {q : RunOutcome} :
      r.Session b₀ b → r.run b lines selection = some q → r.Session b₀ q.bench
  | abort {b : Bench} : r.Session b₀ b → r.Session b₀ { b with timeline := b.timeline.fire r.abort }
  | planAbort {b : Bench} (milliseconds : Nat) : r.Session b₀ b → r.Session b₀ (r.planAbort b milliseconds)
  | callOff {b : Bench} : r.Session b₀ b → r.Session b₀ b.quiet
  | pass {b : Bench} {instant : Nat} : r.Session b₀ b → b.timeline.now ≤ instant →
      r.Session b₀ { b with timeline := b.timeline.moveTo instant }

theorem isCancelled_iff_isFired (htoken : r.token = ⟨[r.abort.flag]⟩) :
    b.isCancelled r.token ↔ b.timeline.signals.isFired r.abort := by
  simp [Bench.isCancelled, Timeline.isCancelled, Signals.isCancelled, Signals.isFired, htoken]

-- The abort is never taken back.
theorem Session.isFired (htoken : r.token = ⟨[r.abort.flag]⟩) (hfired : b.timeline.signals.isFired r.abort)
    (h : r.Session b c) : c.timeline.signals.isFired r.abort := by
  induction h
  case start => exact hfired
  case run lines selection q _ hrun ih =>
    have ⟨_, hq, haborted⟩ := exists_run_aborted ((isCancelled_iff_isFired htoken).2 ih) lines selection
    cases hrun.symm.trans hq
    obtain ⟨_, hbench⟩ := haborted.bench
    rw [hbench]
    exact ih
  case abort          => exact Signals.isFired_iff.2 (Signals.mem_raise.2 (.inl rfl))
  case planAbort ih   => exact ih
  case callOff ih     => exact ih
  case pass instant _ _ ih =>
    exact Signals.isFired_iff.2 (Timeline.mem_raised_firePending.2 (.inr (Signals.isFired_iff.1 ih)))

-- As long as the abort did not come, it stays all that can come.
theorem Session.waiting (htoken : r.token = ⟨[r.abort.flag]⟩) (hr : r.interpreter.station.AlwaysReplies)
    (ht : r.interpreter.station.presenter ≠ .terminal) (h₀ : b₀.Waiting r.token r.abort.flag) (h : r.Session b₀ b)
    (hlive : ¬b.timeline.signals.isFired r.abort) : b.Waiting r.token r.abort.flag := by
  have hmem : r.abort.flag ∈ r.token.flags := htoken ▸ List.mem_singleton_self _
  -- What is not fired after a step was not fired before it.
  have hbefore {b c : Bench} (hstep : r.Session b c) (hc : ¬c.timeline.signals.isFired r.abort) :
      ¬b.timeline.signals.isFired r.abort := fun hfired => hc (hstep.isFired htoken hfired)
  induction h
  case start => exact h₀
  case run b lines selection q h hrun ih =>
    have hlive₀ := hbefore (.run .start hrun) hlive
    have hb := ih hlive₀
    have hl : ¬b.isCancelled r.token := mt (isCancelled_iff_isFired htoken).1 hlive₀
    have ⟨_, _, _, hq, hcases⟩ := run_again ⟨rfl, rfl, hr, ht⟩ (hb.resting_quiet hl) hb hl hmem lines selection
    cases hrun.symm.trans hq
    exact (hcases.resolve_left (mt Signals.isFired_iff.2 hlive)).right
  case abort                   => exact absurd (Signals.isFired_iff.2 (Signals.mem_raise.2 (.inl rfl))) hlive
  case planAbort ih            => exact (ih hlive).planAbort hmem
  case callOff ih              => exact (ih hlive).quiet
  case pass instant h hle ih   => exact (ih (hbefore (.pass .start hle) hlive)).moveTo (mt Signals.isFired_iff.2 hlive)

-- The runs of a session. Each that ends before the abort came reports what it would report if it were the first of a
-- new runner at a new station. Each that starts after the abort came skips all its rows at once, asks nobody, and
-- publishes that.
theorem session_isolated_until_aborted {i : Interpreter} {settings : RunnerSettings} {publisher : Publisher}
    {origin : Instant} {typed : List Typed}
    (hopen : Runner.open i settings publisher origin { input := typed } = (r, b₀))
    (hr : i.station.AlwaysReplies) (ht : i.station.presenter ≠ .terminal) (h : r.Session b₀ b) :
    (∀ lines selection, ∃ q, r.run b lines selection = some q ∧
      (¬q.bench.timeline.signals.isFired r.abort →
        ∀ publisher' origin' typed' r' b', Runner.open i settings publisher' origin' { input := typed' } = (r', b') →
          ∃ u, r'.run b' lines selection = some u ∧ q.Again u)) ∧
    (b.timeline.signals.isFired r.abort → ∀ c, r.Session b c → ∀ lines selection,
      ∃ q, r.run c lines selection = some q ∧ q.Aborted c (Row.select lines selection)) := by
  have ⟨hi, hs, htoken, hnew⟩ := of_open hopen
  subst hi hs
  have hmem : r.abort.flag ∈ r.token.flags := htoken ▸ List.mem_singleton_self _
  constructor
  case left =>
    intro lines selection
    have ⟨ps, hps⟩ := exists_runCourse hr b (Row.select lines selection)
    have hq : r.run b lines selection = some (r.report b lines selection ps) := by
      rw [run_eq, hps]
      rfl
    refine ⟨_, hq, fun hlive publisher' origin' typed' r' b' hopen' => ?_⟩
    have ⟨hi', hs', _, hnew'⟩ := of_open hopen'
    have hbefore : ¬b.timeline.signals.isFired r.abort :=
      fun hfired => hlive (Session.isFired htoken hfired (.run .start hq))
    have hb := h.waiting htoken hr ht hnew.waiting hbefore
    have hl : ¬b.isCancelled r.token := mt (isCancelled_iff_isFired htoken).1 hbefore
    have ⟨u, _, hu, hq', hcases⟩ := run_again ⟨hi', hs', hr, ht⟩ hnew' hb hl hmem lines selection
    cases hq.symm.trans hq'
    exact ⟨u, hu, (hcases.resolve_left (mt Signals.isFired_iff.2 hlive)).left⟩
  case right =>
    intro hfired c hc lines selection
    exact exists_run_aborted ((isCancelled_iff_isFired htoken).2 (hc.isFired htoken hfired)) lines selection

-- A run whose first line is declined, a run that does not notice, and one after the abort.
theorem session_isolated_until_aborted_of_declined :
    let (r, b) := Runner.open ⟨.ofSettings { dialog := .no }, 100⟩ ⟨.run, false⟩ .accepting ⟨0⟩ {}
    ∃ q later after, r.run b ["SHOW_DIALOG ^ UI ^ YES_NO ^ T ^ M", "SET_OUTPUT ^ UV_PLC1"] [] = some q ∧
      r.run q.bench ["SET_OUTPUT ^ UV_PLC1"] [] = some later ∧ later.trace.actions = [.setOutput "UV_PLC1"] ∧
      r.run { later.bench with timeline := later.bench.timeline.fire r.abort } ["SET_OUTPUT ^ UV_PLC1"] [] =
        some after ∧ after.summary.cancelled = 1 ∧ after.bench.devices = later.bench.devices := by
  let i : Interpreter := ⟨.ofSettings { dialog := .no }, 100⟩
  let r := (Runner.open i ⟨.run, false⟩ .accepting ⟨0⟩ {}).1
  let b := (Runner.open i ⟨.run, false⟩ .accepting ⟨0⟩ {}).2
  let lines := ["SHOW_DIALOG ^ UI ^ YES_NO ^ T ^ M", "SET_OUTPUT ^ UV_PLC1"]
  have hopen : Runner.open i ⟨.run, false⟩ .accepting ⟨0⟩ { input := [] } = (r, b) := rfl
  have hr : i.station.AlwaysReplies := Station.ofSettings_alwaysReplies { dialog := .no }
  have ht : i.station.presenter ≠ .terminal := by
    rw [Station.ofSettings_presenter]
    exact nofun
  have ⟨q, hq, _⟩ := (session_isolated_until_aborted hopen hr ht .start).left lines []
  have hsession : r.Session b q.bench := .run .start hq
  have ⟨later, hlater, hsame⟩ := (session_isolated_until_aborted hopen hr ht hsession).left [lines[1]] []
  have ⟨after, hafter, haborted⟩ :=
    (session_isolated_until_aborted hopen hr ht (.abort (.run hsession hlater))).right
      (Signals.isFired_iff.2 (Signals.mem_raise.2 (.inl rfl))) _ .start [lines[1]] []
  refine ⟨q, later, after, hq, hlater, ?actions, hafter, haborted.cancelled, ?devices⟩
  case actions =>
    have hend : ((r.run b lines []).bind fun q => r.run q.bench [lines[1]] []).map
        (·.bench.timeline.signals.isFired r.abort) = some false := by
      decide +kernel
    rw [hq, Option.bind_some, hlater] at hend
    have ⟨u, hu, hagain⟩ := hsame (Bool.eq_false_iff.1 (Option.some.inj hend)) .accepting ⟨0⟩ [] r b hopen
    have hnew : (r.run b [lines[1]] []).map (·.trace.actions) = some [.setOutput "UV_PLC1"] := by
      decide +kernel
    rw [hu] at hnew
    exact hagain.actions.symm.trans (Option.some.inj hnew)
  case devices =>
    obtain ⟨_, hbench⟩ := haborted.bench
    rw [hbench]
    rfl

end Runner

end StationScript
