import StationScript.Proofs.Abort
import StationScript.Proofs.RowScopes

namespace StationScript

namespace Runner

variable {r : Runner} {s : CancellationScope} {a b : Bench} {ta tb trigger : Trigger} {seen : Token} {row : Row}
  {rows : List Row} {o p : RowOutcome} {os ps : List RowOutcome}

theorem course_under_cons (ho : (r.under s).row b trigger seen row = some o)
    (hos : (r.under s).course trigger seen o.bench rows = some os) :
    (r.under s).course trigger seen b (row :: rows) = some (o :: os) :=
  course_cons_of_not_stopsAt ho nofun hos

theorem course_under_cons_cases (h : (r.under s).course trigger seen b (row :: rows) = some os) :
    ∃ o later, (r.under s).row b trigger seen row = some o ∧
      (r.under s).course trigger seen o.bench rows = some later ∧ os = o :: later := by
  have ⟨o, ho, hrest⟩ := course_cons_cases h
  rcases hrest with ⟨hs, -⟩ | ⟨-, later, hlater, heq⟩
  · cases hs
  · exact ⟨o, later, ho, hlater, heq⟩

-- Under a scope for each line, all rows go the same way on benches that look alike, declined or not.
theorem course_alike_line (hr : r.interpreter.station.AlwaysReplies) (ha : a.Ready seen) (hb : b.Ready seen)
    (h : a.Alike seen b) (ta tb : Trigger) (rows : List Row) :
    ∃ os ps, (r.under .line).course ta seen a rows = some os ∧ (r.under .line).course tb seen b rows = some ps ∧
      List.Forall₂ (RowOutcome.Alike seen) os ps := by
  induction rows generalizing a b
  case nil => exact ⟨[], [], rfl, rfl, .nil⟩
  case cons row rest ih =>
    have ⟨o, p, ho, hp, halike, hra, hrb⟩ := row_alike_line hr ha hb h ta tb row
    have ⟨os, ps, hos, hps, hlater⟩ := ih hra hrb halike.bench
    exact ⟨o :: os, p :: ps, course_under_cons ho hos, course_under_cons hp hps, .cons halike hlater⟩

-- As long as no row is declined, rows go the same way under both scopes.
theorem course_alike (hr : r.interpreter.station.AlwaysReplies) (ha : a.Ready seen) (hb : b.Ready seen)
    (h : a.Alike seen b) (ta : Trigger) (hps : (r.under .line).course tb seen b rows = some ps)
    (hnone : ∀ p ∈ ps, ¬p.Declined) :
    ∃ os, (r.under .run).course ta seen a rows = some os ∧ List.Forall₂ (RowOutcome.Alike seen) os ps := by
  induction rows generalizing a b ps
  case nil => cases hps; exact ⟨[], rfl, .nil⟩
  case cons row rest ih =>
    obtain ⟨p, later, hp, hlater, rfl⟩ := course_under_cons_cases hps
    have ⟨hnot, hnone⟩ := List.forall_mem_cons.1 hnone
    have ⟨o, ho, halike, hra, hrb⟩ := row_alike_of_not_declined hr ha hb h ta hp hnot
    have ⟨os, hos, hrest⟩ := ih hra hrb halike.bench hlater hnone
    exact ⟨o :: os, course_under_cons ho hos, .cons halike hrest⟩

-- Up to the first declined row, that one included, rows go the same way under both scopes. Then the run is over
-- under its one scope, whereas under a scope for each line it goes on as if nothing had been raised.
theorem course_of_declined {before after : List RowOutcome} (hr : r.interpreter.station.AlwaysReplies)
    (ha : a.Ready seen) (hb : b.Ready seen) (h : a.Alike seen b) (ht : ta.flag ∈ seen.flags)
    (hps : (r.under .line).course tb seen b rows = some (before ++ p :: after))
    (hbefore : ∀ p ∈ before, ¬p.Declined) (hp : p.Declined) :
    ∃ kept o skipped, (r.under .run).course ta seen a rows = some (kept ++ o :: skipped) ∧
      List.Forall₂ (RowOutcome.Alike seen) kept before ∧ o.Alike ⟨[]⟩ p ∧
      List.Forall₂ RowOutcome.CutShort (rows.drop (before.length + 1)) skipped ∧
      (∀ q ∈ skipped, q.trace.actions = [] ∧ ∃ opened, q.bench = o.bench.withOpened opened) ∧
      (∃ opened, lastBench o.bench skipped = o.bench.withOpened opened) ∧
      ∃ after', (r.under .line).course tb seen
          (p.bench.withRaised (lastBench b before).timeline.signals.raised) (rows.drop (before.length + 1)) =
            some after' ∧ List.Forall₂ (RowOutcome.Alike seen) after after' := by
  induction before generalizing a b rows
  case nil =>
    cases rows
    case nil => cases hps
    case cons row rest =>
      have ⟨p', later, hp', hlater, heq⟩ := course_under_cons_cases hps
      cases heq
      have ⟨o, ho, halike, hc, hready, hready', hunseen⟩ := row_alike_of_declined hr ha hb h ht hp' hp
      have ⟨skipped, opened, hskipped, hcuts, hnone, hlast⟩ :=
        course_of_isCancelled (r.under .run) ta rest hc
      have ⟨ps, after', hps, hafter, hsame⟩ := course_alike_line hr hready hready' hunseen tb tb rest
      cases hlater.symm.trans hps
      exact ⟨[], o, skipped, course_under_cons ho hskipped, .nil, halike, hcuts, hnone,
        ⟨opened, hlast⟩, after', hafter, hsame⟩
  case cons p₁ before ih =>
    cases rows
    case nil => cases hps
    case cons row rest =>
      have ⟨p', later, hp', hlater, heq⟩ := course_under_cons_cases hps
      cases heq
      have ⟨hnot, hbefore⟩ := List.forall_mem_cons.1 hbefore
      have ⟨o₁, ho, halike, hra, hrb⟩ := row_alike_of_not_declined hr ha hb h ta hp' hnot
      have ⟨kept, o, skipped, hcourse, hkept, hrest⟩ := ih hra hrb halike.bench hlater hbefore
      exact ⟨o₁ :: kept, o, skipped, course_under_cons ho hcourse, .cons halike hkept, hrest⟩

-- Which rows of a run are declined is settled by the bench from which they start.
theorem declined_iff_of_course {n : Nat} (hr : r.interpreter.station.AlwaysReplies) (hb : b.Ready seen)
    (hps : (r.under .line).course trigger seen b rows = some ps) (hrow : rows[n]? = some row)
    (hp : ps[n]? = some p) :
    p.Declined ↔ ¬(lastBench b (ps.take n)).isCancelled seen ∧
      r.interpreter.AnsweredNo (lastBench b (ps.take n)).input row.text := by
  induction rows generalizing b ps n
  case nil => cases hrow
  case cons first rest ih =>
    obtain ⟨p₁, later, hp₁, hlater, rfl⟩ := course_under_cons_cases hps
    cases n
    case zero =>
      cases hrow
      cases hp
      exact declined_iff hr hb hp₁
    case succ n =>
      have ⟨_, p', _, hp', _, _, hready⟩ := row_alike_line hr hb hb (.refl b) trigger trigger first
      cases hp₁.symm.trans hp'
      exact ih (b := p₁.bench) hready hlater hrow hp

variable {lines : List String} {selection : List Nat}

theorem lastBench_alike (h : a.Alike seen b) (hs : List.Forall₂ (RowOutcome.Alike seen) os ps) :
    (lastBench a os).Alike seen (lastBench b ps) :=
  lastBench_of_forall₂ hs h fun _ _ halike => halike.bench

-- Runs of which all rows go alike report alike.
theorem report_alike (h : List.Forall₂ (RowOutcome.Alike seen) os ps) :
    ((r.under .run).report b lines selection os).records = ((r.under .line).report b lines selection ps).records ∧
    ((r.under .run).report b lines selection os).summary = ((r.under .line).report b lines selection ps).summary ∧
    ((r.under .run).report b lines selection os).trace.actions =
      ((r.under .line).report b lines selection ps).trace.actions ∧
    ((r.under .run).report b lines selection os).bench.lastReading =
      ((r.under .line).report b lines selection ps).bench.lastReading := by
  have hrecords : os.map (·.record) = ps.map (·.record) := map_eq_of_forall₂ h fun _ _ h => h.record
  have hstatuses : os.map (·.status) = ps.map (·.status) := map_eq_of_forall₂ h fun _ _ h => h.status
  have hlast := lastBench_alike (.refl (r.enter b).1) h
  have hnow : (lastBench ((r.under .run).enter b).1 os).timeline.now =
      (lastBench ((r.under .line).enter b).1 ps).timeline.now := hlast.timeline.now
  refine ⟨hrecords, ?_, ?_, hlast.lastReading⟩
  · simp only [report, hstatuses, instant, hnow]
    rfl
  · rw [report_actions, report_actions, flatMap_actions_congr h fun _ _ h => congrArg Trace.actions h.trace]

-- The bench of a runner with the operator's abort to come, if there will be one.
def withAbort (r : Runner) (b : Bench) : Option Nat → Bench
  | some milliseconds => r.planAbort b milliseconds
  | none => b

theorem Ready.withAbort (h : b.Ready r.token) (hf : r.abort.flag ∈ r.token.flags) (abort : Option Nat) :
    (r.withAbort b abort).Ready r.token := by
  cases abort
  case none => exact h
  case some milliseconds =>
    refine ⟨fun g hg => ⟨(h.sound g hg).left, fun f hm => ?_⟩, h.opened⟩
    cases List.mem_append.1 hm
    case inl hm => exact (h.sound g hg).right f hm
    case inr hm =>
      cases List.mem_singleton.1 hm
      intro he
      have he : r.abort.flag = g := he
      exact Nat.lt_irrefl _ (Nat.lt_of_lt_of_le (h.opened _ hf) (he ▸ hg))

-- Two runners that differ in the scope only, on benches where nothing happened yet.
theorem open_eq_under {i : Interpreter} {publisher : Publisher} {origin : Instant} {typed : List Typed}
    {l : Runner} {b' : Bench}
    (hrun : Runner.open i ⟨.run, false⟩ publisher origin { input := typed } = (r, b))
    (hline : Runner.open i ⟨.line, false⟩ publisher origin { input := typed } = (l, b')) :
    ∃ s : Runner, r = s.under .run ∧ l = s.under .line ∧ b = b' ∧ s.interpreter = i ∧ s.origin = origin ∧
      s.abort.flag ∈ s.token.flags ∧ b.Ready s.token := by
  cases hrun
  cases hline
  exact ⟨(Runner.open i {} publisher origin { input := typed }).1, rfl, rfl, rfl, rfl, rfl, List.mem_cons_self ..,
    ready_open i {} publisher origin typed⟩

-- A declined dialog under the two scopes, with or without an abort of the operator. If no row of the run with a
-- scope for each line is declined, the run with one scope reports the same. Otherwise both go alike up to the
-- first declined row, that one included. The run with one scope then skips whatever is left, at once and without
-- asking any device, whereas the other one goes on as if no flag had been raised by the row.
theorem declined_dialog_under_scopes {i : Interpreter} {publisher : Publisher} {origin : Instant}
    {typed : List Typed} {r l : Runner} {b b' : Bench}
    (hrun : Runner.open i ⟨.run, false⟩ publisher origin { input := typed } = (r, b))
    (hline : Runner.open i ⟨.line, false⟩ publisher origin { input := typed } = (l, b'))
    (hr : i.station.AlwaysReplies) (lines : List String) (selection : List Nat) (abort : Option Nat) :
    let rows := Row.select lines selection
    let start := (l.enter (l.withAbort b' abort)).1
    let trigger := (l.enter (l.withAbort b' abort)).2.1
    let token := (l.enter (l.withAbort b' abort)).2.2
    ∃ (os ps : List RowOutcome) (q p : RunOutcome),
      r.runCourse (r.withAbort b abort) rows = some os ∧ l.runCourse (l.withAbort b' abort) rows = some ps ∧
      r.run (r.withAbort b abort) lines selection = some q ∧
      l.run (l.withAbort b' abort) lines selection = some p ∧
      q.records = os.map (·.record) ∧ p.records = ps.map (·.record) ∧
      (∀ (n : Nat) row o, rows[n]? = some row → ps[n]? = some o →
        (o.Declined ↔ ¬(lastBench start (ps.take n)).isCancelled token ∧
          i.AnsweredNo (lastBench start (ps.take n)).input row.text)) ∧
      ((∀ o ∈ ps, ¬o.Declined) →
        q.records = p.records ∧ q.summary = p.summary ∧ q.trace.actions = p.trace.actions ∧
          q.bench.lastReading = p.bench.lastReading) ∧
      ∀ before o after, ps = before ++ o :: after → (∀ o ∈ before, ¬o.Declined) → o.Declined →
        List.Forall₂ (RowOutcome.Alike ⟨[]⟩) (os.take (before.length + 1)) (before ++ [o]) ∧
        List.Forall₂ RowOutcome.CutShort (rows.drop (before.length + 1)) (os.drop (before.length + 1)) ∧
        (∀ s ∈ os.drop (before.length + 1), s.trace.actions = [] ∧ s.bench.Alike ⟨[]⟩ o.bench) ∧
        q.trace.actions = Trace.actions ((before ++ [o]).flatMap (·.trace)) ∧
        q.bench.lastReading = o.bench.lastReading ∧
        q.summary =
          { RunSummary.tally ((before ++ [o]).map (·.status) ++
              (rows.drop (before.length + 1)).map fun _ => .cancelled) with
            elapsed := (o.bench.timeline.now - b.timeline.now) % Text.wordLimit
            timestamp := (origin.addMilliseconds o.bench.timeline.now).seconds } ∧
        ∃ after', l.course trigger token
            (o.bench.withRaised (lastBench start before).timeline.signals.raised) (rows.drop (before.length + 1)) =
              some after' ∧ List.Forall₂ (RowOutcome.Alike token) after after' := by
  intro rows start trigger token
  obtain ⟨s, rfl, rfl, rfl, rfl, rfl, hf, hready⟩ := open_eq_under hrun hline
  have hstart : start.Ready token := Ready.enter (Ready.withAbort hready hf abort)
  have htrigger : trigger.flag ∈ token.flags := List.mem_cons_self ..
  obtain ⟨os, hos⟩ := exists_runCourse (r := s.under .run) hr (s.withAbort b abort) rows
  obtain ⟨ps, hps⟩ := exists_runCourse (r := s.under .line) hr (s.withAbort b abort) rows
  refine ⟨os, ps, _, _, hos, hps, by rw [run_eq]; exact congrArg (Option.map _) hos,
    by rw [run_eq]; exact congrArg (Option.map _) hps, rfl, rfl, ?declined, ?none, ?first⟩
  case declined => exact fun n row o hrow ho => declined_iff_of_course hr hstart hps hrow ho
  case none =>
    intro hnone
    have ⟨os', hos', halike⟩ := course_alike hr hstart hstart (.refl start) trigger hps hnone
    cases hos.symm.trans hos'
    exact report_alike halike
  case first =>
    intro before o after heq hbefore ho
    subst heq
    have ⟨kept, o', skipped, hcourse, hkept, halike, hcuts, hnone, hlast, hrest⟩ :=
      course_of_declined hr hstart hstart (.refl start) htrigger hps hbefore ho
    cases hos.symm.trans hcourse
    have htake : (kept ++ o' :: skipped).take (before.length + 1) = kept ++ [o'] := by
      rw [← hkept.length_eq, List.take_length_add_append]
      rfl
    have hdrop : (kept ++ o' :: skipped).drop (before.length + 1) = skipped := by
      rw [← hkept.length_eq, List.drop_length_add_append]
      rfl
    have hupto : List.Forall₂ (RowOutcome.Alike ⟨[]⟩) (kept ++ [o']) (before ++ [o]) :=
      List.rel_append (hkept.imp fun _ _ h => h.blind) (.cons halike .nil)
    obtain ⟨opened, hlast⟩ := hlast
    have hend : lastBench start (kept ++ o' :: skipped) = o'.bench.withOpened opened := by
      rw [← hlast, lastBench, List.foldl_append]
      rfl
    rw [htake, hdrop]
    refine ⟨hupto, hcuts, ?rest, ?actions, ?reading, ?summary, hrest⟩
    case rest =>
      intro p hp
      obtain ⟨hp, n, hbench⟩ := hnone p hp
      rw [hbench]
      exact ⟨hp, halike.bench.withOpened (n := o.bench.timeline.signals.opened)⟩
    case actions =>
      have hskipped := flatMap_actions_eq_nil fun p hp => (hnone p hp).left
      rw [report_actions, ← flatMap_actions_congr hupto fun _ _ h => congrArg Trace.actions h.trace,
        List.append_cons, List.flatMap_append, Trace.actions_append, hskipped, List.append_nil]
    case reading =>
      show (lastBench start (kept ++ o' :: skipped)).lastReading = _
      rw [hend]
      exact halike.bench.lastReading
    case summary =>
      have hstatuses : (kept ++ [o']).map (·.status) = (before ++ [o]).map (·.status) :=
        map_eq_of_forall₂ hupto fun _ _ h => h.status
      have hnow : (lastBench start ((kept ++ [o']) ++ skipped)).timeline.now = o.bench.timeline.now := by
        rw [List.append_assoc]
        exact (congrArg (·.timeline.now) hend).trans halike.bench.timeline.now
      have hbegin : (s.withAbort b abort).timeline.now = b.timeline.now := by cases abort <;> rfl
      have hsummary := report_cut (r := s.under .run) (b := s.withAbort b abort) lines selection hcuts hnow
      rw [hstatuses, hbegin, List.append_assoc] at hsummary
      exact hsummary

-- A question answered No, before an output would be set.
theorem declined_dialog_ends_run :
    let (r, b) := Runner.open ⟨.ofSettings { dialog := .no }, 100⟩ ⟨.run, false⟩ .accepting ⟨0⟩ {}
    ∃ q, r.run b ["SHOW_DIALOG ^ UI ^ YES_NO ^ T ^ M", "SET_OUTPUT ^ UV_PLC1"] [] = some q ∧
      q.trace.actions = [.dialog .yesNo "T"] ∧ q.summary.elapsed = 0 := by
  let i : Interpreter := ⟨.ofSettings { dialog := .no }, 100⟩
  let lines := ["SHOW_DIALOG ^ UI ^ YES_NO ^ T ^ M", "SET_OUTPUT ^ UV_PLC1"]
  let l := (Runner.open i ⟨.line, false⟩ .accepting ⟨0⟩ {}).1
  let b := (Runner.open i ⟨.line, false⟩ .accepting ⟨0⟩ {}).2
  have hline : Runner.open i ⟨.line, false⟩ .accepting ⟨0⟩ {} = (l, b) := rfl
  obtain ⟨os, ps, q, p, -, hps, hq, -, -, -, hdeclined, -, hfirst⟩ :=
    declined_dialog_under_scopes rfl hline (Station.ofSettings_alwaysReplies { dialog := .no }) lines [] none
  have hrows : (l.runCourse b (Row.select lines [])).map (·.map fun o => (o.trace.actions, o.bench.timeline.now)) =
      some [([.dialog .yesNo "T"], 0), ([.setOutput "UV_PLC1"], 100)] := by
    decide +kernel
  rw [show l.runCourse b (Row.select lines []) = some ps from hps] at hrows
  cases ps
  case nil => cases hrows
  case cons o after =>
    have ho : o.trace.actions = [.dialog .yesNo "T"] ∧ o.bench.timeline.now = 0 := by
      simp at hrows
      exact hrows.left
    have hreply : (i.station.presenter.ask i.station.dialogThread .yesNo "T" "M" []).reply = .answered .no := by
      decide +kernel
    have hanswer : i.AnsweredNo [] "SHOW_DIALOG ^ UI ^ YES_NO ^ T ^ M" :=
      ⟨.dialog .yesNo "T" "M", by decide +kernel, hreply⟩
    have hd : o.Declined := (hdeclined 0 _ o rfl rfl).2 ⟨Bool.false_ne_true, hanswer⟩
    have ⟨_, _, _, hactions, _, hsummary, _⟩ := hfirst [] o after rfl (List.forall_mem_nil _) hd
    refine ⟨q, hq, ?_, ?_⟩
    · rw [hactions, List.nil_append, List.flatMap_singleton, ho.left]
    · rw [hsummary]
      exact congrArg (fun now => (now - 0) % Text.wordLimit) ho.right

end Runner

end StationScript
