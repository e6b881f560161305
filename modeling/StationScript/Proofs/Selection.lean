import Mathlib.Data.List.Dedup
import Mathlib.Data.List.Sort
import StationScript.CommandLine.Invocation
import StationScript.Proofs.Accounts

namespace StationScript

-- Numbers in ascending order and each once.
def inOrder (numbers : List Nat) : List Nat :=
  (numbers.insertionSort (· ≤ ·)).dedup

theorem mem_inOrder {numbers : List Nat} {n : Nat} : n ∈ inOrder numbers ↔ n ∈ numbers := by
  simp [inOrder]

theorem inOrder_pairwise (numbers : List Nat) : (inOrder numbers).Pairwise (· < ·) := by
  have hsorted : (numbers.insertionSort (· ≤ ·)).Pairwise (· ≤ ·) := List.pairwise_insertionSort (· ≤ ·) numbers
  exact (hsorted.sublist (List.dedup_sublist _)).imp₂ (fun _ _ => Nat.lt_of_le_of_ne) (List.nodup_dedup _)

namespace Row

variable {lines : List String} {selection selection' : List Nat} {n : Nat}

-- The positions of a selection that the script has, in the order of the script and each once.
def positions (lines : List String) (selection : List Nat) : List Nat :=
  inOrder (selection.filter (· < lines.length))

-- The selected lines as a script of their own.
def subscript (lines : List String) (selection : List Nat) : List String :=
  (positions lines selection).filterMap (lines[·]?)

theorem mem_positions : n ∈ positions lines selection ↔ n ∈ selection ∧ n < lines.length := by
  simp [positions, mem_inOrder]

theorem positions_pairwise : (positions lines selection).Pairwise (· < ·) :=
  inOrder_pairwise _

-- The order in which rows are selected, and how often, makes no difference, and neither do rows that the script
-- does not have.
theorem select_congr (hne : selection ≠ []) (hne' : selection' ≠ [])
    (h : ∀ n < lines.length, n ∈ selection' ↔ n ∈ selection) : select lines selection' = select lines selection := by
  rw [select, select, if_neg (by simpa using hne'), if_neg (by simpa using hne)]
  refine List.filter_congr fun row hrow => ?_
  have ⟨hlt, _⟩ := List.getElem?_eq_some_iff.1 (mem_ofLines.1 hrow)
  rw [Bool.eq_iff_iff, List.contains_iff_mem, List.contains_iff_mem]
  exact h _ hlt

theorem map_index_select (h : selection ≠ []) :
    (select lines selection).map (·.index) = positions lines selection := by
  refine (List.pairwise_map.2 select_pairwise).eq_of_mem_iff positions_pairwise fun n => ?_
  rw [mem_positions, List.mem_map]
  constructor
  · rintro ⟨row, hrow, rfl⟩
    have ⟨hline, hselected⟩ := mem_select.1 hrow
    have ⟨hlt, _⟩ := List.getElem?_eq_some_iff.1 hline
    exact ⟨hselected.resolve_left h, hlt⟩
  · intro ⟨hselected, hlt⟩
    exact ⟨⟨n, lines[n]⟩, mem_select.2 ⟨List.getElem?_eq_getElem hlt, .inr hselected⟩, rfl⟩

theorem map_text_select (h : selection ≠ []) : (select lines selection).map (·.text) = subscript lines selection := by
  rw [subscript, ← map_index_select h, List.filterMap_map, ← List.filterMap_eq_map]
  refine List.filterMap_congr fun row hrow => ?_
  exact (mem_select.1 hrow).left.symm

theorem map_text_ofLines : (ofLines lines).map (·.text) = lines := by
  rw [ofLines, List.map_map]
  exact List.zipIdx_map_fst 0 lines

end Row

-- The outcomes of a line at two places of two scripts. Only the numbers of the records differ.
structure RowOutcome.Renumbered (o p : RowOutcome) : Prop where
  record  : p.record = { o.record with number := p.record.number }
  status  : p.status = o.status
  actions : p.trace.actions = o.trace.actions
  bench   : p.bench = o.bench

namespace Runner

variable {r : Runner} {b : Bench} {trigger : Trigger} {token : Token} {row row' : Row} {rows rows' : List Row}
  {os ps : List RowOutcome} {lines : List String} {selection : List Nat}

theorem row_renumbered (h : row.text = row'.text) :
    Option.Rel RowOutcome.Renumbered (r.row b trigger token row) (r.row b trigger token row') := by
  rw [row_eq, row_eq, ← h]
  cases r.interpreter.execute (r.lineScope b trigger token).1 row.text (r.lineScope b trigger token).2.2
    (r.lineScope b trigger token).2.1
  case none => exact .none
  case some x =>
    refine .some ⟨?_, rfl, ?_, rfl⟩
    · simp only [rowOutcome, lineRecord, h]
    · simp only [rowOutcome, Trace.actions_append, publishLine_actions]

theorem course_renumbered (h : rows.map (·.text) = rows'.map (·.text)) :
    Option.Rel (List.Forall₂ RowOutcome.Renumbered) (r.course trigger token b rows)
      (r.course trigger token b rows') := by
  have htexts : List.Forall₂ (·.text = ·.text) rows rows' :=
    List.forall₂_map_left_iff.1 (List.forall₂_map_right_iff.1 (List.forall₂_eq_eq_eq ▸ h))
  exact course_rel (fun _ _ _ => row_renumbered) (fun _ _ ho => ⟨ho.status, ho.bench⟩) htexts

theorem lastBench_renumbered (h : List.Forall₂ RowOutcome.Renumbered os ps) : lastBench b ps = lastBench b os :=
  lastBench_of_forall₂ (motive := fun a b => b = a) h rfl fun _ _ ho => ho.bench

theorem runCourse_renumbered (h : selection ≠ []) :
    Option.Rel (List.Forall₂ RowOutcome.Renumbered) (r.runCourse b (Row.select lines selection))
      (r.runCourse b (Row.select (Row.subscript lines selection) [])) := by
  refine course_renumbered ?_
  rw [Row.map_text_select h]
  exact Row.map_text_ofLines.symm

-- Warnings are all that is different for selections of the same rows.
theorem run_eq_warnings : r.run b lines selection =
    (r.runRows b (Row.select lines selection)).map fun q =>
      { q with trace := (Row.warnings lines selection).map (.report .main) ++ q.trace } := by
  rw [run, Option.map_eq_bind]
  rfl

-- Where there is nothing to run, nothing is done.
theorem run_of_select_eq_nil (h : Row.select lines selection = []) :
    ∃ q, r.run b lines selection = some q ∧ q.records = [] ∧ q.trace.actions = [] ∧ q.summary.total = 0 ∧
      q.summary.elapsed = 0 ∧ q.bench = (r.enter b).1 := by
  have hcourse : r.runCourse b (Row.select lines selection) = some [] := by
    rw [h]
    rfl
  refine ⟨_, by rw [run_eq, hcourse]; rfl, rfl, report_actions, rfl, by simp [report, lastBench, enter], rfl⟩

-- Records have the numbers of the rows that were taken: the first of those that were selected.
theorem run_numbers {q : RunOutcome} (hq : r.run b lines selection = some q) (h : selection ≠ []) :
    q.records.map (·.number) = ((Row.positions lines selection).map (· + 1)).take q.records.length := by
  rw [run_eq] at hq
  obtain ⟨os, hos, rfl⟩ := Option.map_eq_some_iff.1 hq
  have ⟨taken, htaken, haccounts⟩ := course_accounts hos
  have hrows : (Row.select lines selection).map (·.number) = (Row.positions lines selection).map (· + 1) := by
    rw [← Row.map_index_select h, List.map_map]
    rfl
  have hnumbers : (os.map (·.record)).map (·.number) = taken.map (·.number) := by
    rw [List.map_map]
    exact numbers_of_accounts haccounts
  have hlen : (os.map (·.record)).length = taken.length := by rw [List.length_map, haccounts.length_eq]
  rw [← hrows, report, hnumbers, hlen, ← List.map_take, ← List.prefix_iff_eq_take.1 htaken]

-- How the run of a selection relates to that of the selected lines as a script of their own.
structure RunsSubscript (r : Runner) (b : Bench) (lines : List String) (selection : List Nat) : Prop where
  positions : (Row.positions lines selection).Pairwise (· < ·) ∧
    ∀ n, n ∈ Row.positions lines selection ↔ n ∈ selection ∧ n < lines.length
  -- Either both runs come to an end or neither does.
  ends : (r.run b lines selection).isSome = (r.run b (Row.subscript lines selection) []).isSome
  -- Row by row the same is done and counted. Only the records are numbered by the positions of the rows.
  same : ∀ q u, r.run b lines selection = some q → r.run b (Row.subscript lines selection) [] = some u →
    ∃ os ps, r.runCourse b (Row.select lines selection) = some os ∧
      r.runCourse b (Row.select (Row.subscript lines selection) []) = some ps ∧
      List.Forall₂ RowOutcome.Renumbered os ps ∧ q.records = os.map (·.record) ∧ u.records = ps.map (·.record) ∧
      q.records.map (·.number) = ((Row.positions lines selection).map (· + 1)).take u.records.length ∧
      q.summary = u.summary ∧ q.trace.actions = u.trace.actions ∧ q.bench = u.bench
  -- Selections of the same rows of the script run the same, but for the warnings about other rows.
  rows : ∃ body : Option RunOutcome, ∀ selection' ≠ [], (∀ n < lines.length, n ∈ selection' ↔ n ∈ selection) →
    r.run b lines selection' = body.map fun q =>
      { q with trace := (Row.warnings lines selection').map (.report .main) ++ q.trace }
  warnings : (Row.warnings lines selection).length = selection.countP (lines.length ≤ ·) ∧
    ∀ e ∈ Row.warnings lines selection, e.level = .warn
  nothing : (∀ n ∈ selection, lines.length ≤ n) → ∃ q, r.run b lines selection = some q ∧ q.records = [] ∧
    q.trace.actions = [] ∧ q.summary.total = 0 ∧ q.summary.elapsed = 0 ∧ q.bench = (r.enter b).1

theorem runsSubscript (h : selection ≠ []) : r.RunsSubscript b lines selection := by
  have hcourse : Option.Rel (List.Forall₂ RowOutcome.Renumbered) (r.runCourse b (Row.select lines selection))
      (r.runCourse b (Row.select (Row.subscript lines selection) [])) :=
    runCourse_renumbered h
  refine ⟨⟨Row.positions_pairwise, fun _ => Row.mem_positions⟩, ?ends, ?same,
    ⟨r.runRows b (Row.select lines selection), ?rows⟩, ?warnings, ?nothing⟩
  case ends =>
    rw [run_eq, run_eq, Option.isSome_map, Option.isSome_map]
    generalize r.runCourse b (Row.select lines selection) = x,
      r.runCourse b (Row.select (Row.subscript lines selection) []) = y at hcourse
    cases hcourse <;> rfl
  case same =>
    intro q u hq hu
    have hnumbers := run_numbers hq h
    rw [run_eq] at hq hu
    obtain ⟨os, hos, rfl⟩ := Option.map_eq_some_iff.1 hq
    obtain ⟨ps, hps, rfl⟩ := Option.map_eq_some_iff.1 hu
    rw [hos, hps] at hcourse
    cases hcourse
    case some hall =>
      have hlast : lastBench (r.enter b).1 ps = lastBench (r.enter b).1 os := lastBench_renumbered hall
      have hstatuses : ps.map (·.status) = os.map (·.status) :=
        (map_eq_of_forall₂ hall fun _ _ ho => ho.status.symm).symm
      have hlen : (ps.map (·.record)).length = (os.map (·.record)).length := by
        rw [List.length_map, List.length_map, hall.length_eq]
      refine ⟨os, ps, hos, hps, hall, rfl, rfl, ?numbers, ?summary, ?actions, hlast.symm⟩
      case numbers => rwa [report, ← hlen] at hnumbers
      case summary => simp only [report, hlast, hstatuses]
      case actions =>
        rw [report_actions, report_actions]
        exact flatMap_actions_congr hall fun _ _ ho => ho.actions.symm
  case rows =>
    intro selection' hne hsame
    rw [run_eq_warnings, Row.select_congr h hne hsame]
  case warnings =>
    constructor
    · rw [Row.warnings, List.length_map, List.countP_eq_length_filter]
    · intro e he
      obtain ⟨_, _, rfl⟩ := List.mem_map.1 he
      rfl
  case nothing =>
    intro hout
    refine run_of_select_eq_nil (List.eq_nil_iff_forall_not_mem.2 fun row hrow => ?_)
    obtain ⟨hline, hselected⟩ := Row.mem_select.1 hrow
    obtain ⟨hlt, _⟩ := List.getElem?_eq_some_iff.1 hline
    exact absurd hlt (Nat.not_lt.2 (hout _ (hselected.resolve_left h)))

end Runner

theorem Output.publications_notices {events : List Event} :
    (Output.notices events).filterMap Output.publication? = [] := by
  simp [notices, notice, publication?, Effect.publication?]

theorem Report.publications_after {first : List Output} {report : Report} :
    (report.after first).publications = first.filterMap Output.publication? ++ report.publications :=
  List.filterMap_append

theorem publications_closing {q : RunOutcome} {surface : Option String} : (closing q surface).publications = [] := by
  have hsurface : (surface.toList.map fun thread =>
      Output.effect (.report .surface (.surfaceStopped thread))).filterMap Output.publication? = [] := by
    cases surface <;> rfl
  by_cases hs : q.summary.allSucceeded
  case pos =>
    simp only [closing, hs, if_true, Report.publications, List.filterMap_append, Output.publications_notices, hsurface,
      List.append_nil]
  case neg => simp only [closing, hs, Report.publications]; exact Output.publications_notices

-- The runner that a call sets up by its settings, and the bench from which it starts.
def Settings.openRunner (s : Settings) (origin : Instant) (script : Loaded) : Runner × Bench :=
  let station := { Station.ofSettings s.simulation with surface := surfaceFor s.simulation.dialog }
  Runner.open ⟨station, s.interpreter.settleDelay⟩ s.runner .accepting origin { input := script.input }

-- What is put out about a run.
def RunOutcome.shown (surface : Option String) (q : RunOutcome) : Report :=
  let opening := [.banner, .rule] ++ surface.toList.map .dialogThread
  (closing q surface).after (Output.notices opening ++ q.trace.map .effect)

theorem runReport_eq {settings : Settings} {origin : Instant} {script : Loaded} {selection : List Nat} :
    runReport settings origin script selection =
      ((settings.openRunner origin script).1.run (settings.openRunner origin script).2 script.lines selection).map
        (·.shown (surfaceFor settings.simulation.dialog)) := by
  rw [Option.map_eq_bind]
  rfl

-- All that a run publishes is put out.
theorem publications_shown {r : Runner} {b : Bench} {lines : List String} {selection : List Nat} {q : RunOutcome}
    (hq : r.run b lines selection = some q) (surface : Option String) :
    (q.shown surface).publications = q.records.map .line ++ [.summary q.summary] := by
  have heffects : (q.trace.map Output.effect).filterMap Output.publication? = q.trace.publications := by
    rw [List.filterMap_map]
    rfl
  rw [RunOutcome.shown, Report.publications_after, publications_closing, List.append_nil, List.filterMap_append,
    Output.publications_notices, heffects]
  exact Runner.run_publications hq

namespace Invocation

variable {v : Invocation} {settings : Settings} {source : String} {numbers : List Nat} {dialog : Option String}
  {stop : Bool} {form : LogForm} {policy : Option DialogPolicy} {script : Loaded}

theorem perform_run (hdialog : dialog.mapM policyOf = .ok policy) (hscript : v.load source = .ok script) :
    v.perform settings (.run source numbers dialog stop form) =
      (orFailure (positions numbers) (runReport (settings.withOptions policy stop) v.origin script)).map fun r =>
        { r.after (Output.notices script.events) with form } := by
  simp only [perform, orFailure, hdialog, hscript]

-- How the numbers that are given at the command line select rows.
structure SelectsByNumber (v : Invocation) (settings : Settings) (source : String) (numbers : List Nat)
    (dialog : Option String) (stop : Bool) (form : LogForm) : Prop where
  -- A row 0 is refused, and nothing is put out but messages.
  refused : 0 ∈ numbers → ∃ report, v.perform settings (.run source numbers dialog stop form) = some report ∧
    report.status = 1 ∧ (∀ o ∈ report.output, (∃ e, o = .notice e) ∨ ∃ text, o = .message text) ∧
    ∀ policy script, dialog.mapM policyOf = .ok policy → v.load source = .ok script →
      report.output = Output.notices script.events ++ [.message "Error: Rows are numbered from 1\n"]
  -- The records that are put out have the given numbers, as far as the script has such rows.
  rows : 0 ∉ numbers → ∀ policy script r b, dialog.mapM policyOf = .ok policy → v.load source = .ok script →
    (settings.withOptions policy stop).openRunner v.origin script = (r, b) →
    let run := r.run b script.lines (numbers.map (· - 1))
    ∃ shown : RunOutcome → Report, v.perform settings (.run source numbers dialog stop form) = run.map shown ∧
      ∀ q, run = some q →
        (shown q).publications = q.records.map .line ++ [.summary q.summary] ∧
        (numbers ≠ [] → q.records.map (·.number) <+: inOrder (numbers.filter (· ≤ script.lines.length)))

theorem inOrder_positions {lines : List String} (h : 0 ∉ numbers) :
    (Row.positions lines (numbers.map (· - 1))).map (· + 1) = inOrder (numbers.filter (· ≤ lines.length)) := by
  have hpairs : ((Row.positions lines (numbers.map (· - 1))).map (· + 1)).Pairwise (· < ·) :=
    List.pairwise_map.2 (Row.positions_pairwise.imp Nat.succ_lt_succ)
  refine hpairs.eq_of_mem_iff (inOrder_pairwise _) fun n => ?_
  simp only [List.mem_map, Row.mem_positions, mem_inOrder, List.mem_filter, decide_eq_true_eq]
  constructor
  · rintro ⟨_, ⟨⟨m, hm, rfl⟩, hlt⟩, rfl⟩
    have hpos : m ≠ 0 := fun heq => h (heq ▸ hm)
    rw [Nat.sub_one_add_one hpos]
    exact ⟨hm, by omega⟩
  · intro ⟨hn, hle⟩
    have hpos : n ≠ 0 := fun heq => h (heq ▸ hn)
    exact ⟨n - 1, ⟨⟨n, hn, rfl⟩, by omega⟩, Nat.sub_one_add_one hpos⟩

theorem refused_of_failure (f : Failure) :
    f.report.status = 1 ∧ ∀ o ∈ f.report.output, (∃ e, o = .notice e) ∨ ∃ text, o = .message text :=
  ⟨rfl, fun _ ho => .inr ⟨_, List.mem_singleton.1 ho⟩⟩

theorem selectsByNumber : v.SelectsByNumber settings source numbers dialog stop form := by
  constructor
  case refused =>
    intro hzero
    have hpositions : positions numbers = .error .rowZero := by simp [positions, hzero]
    cases hdialog : dialog.mapM policyOf
    case error f =>
      have hrun : v.perform settings (.run source numbers dialog stop form) = some f.report := by
        simp only [perform, orFailure, hdialog]
      exact ⟨f.report, hrun, rfl, (refused_of_failure f).right, nofun⟩
    case ok policy =>
      cases hscript : v.load source
      case error f =>
        have hrun : v.perform settings (.run source numbers dialog stop form) = some f.report := by
          simp only [perform, orFailure, hdialog, hscript]
        exact ⟨f.report, hrun, rfl, (refused_of_failure f).right, nofun⟩
      case ok script =>
        refine ⟨_, by rw [perform_run hdialog hscript, hpositions]; rfl, rfl, fun o ho => ?_, ?_⟩
        · cases List.mem_append.1 ho
          case inl ho =>
            have ⟨e, _, heq⟩ := List.mem_map.1 ho
            exact .inl ⟨e, heq.symm⟩
          case inr ho => exact (refused_of_failure .rowZero).right o ho
        · rintro _ _ ⟨⟩ ⟨⟩
          rfl
  case rows =>
    intro hzero policy script r b hdialog hscript hopen run
    have hpositions : positions numbers = .ok (numbers.map (· - 1)) := by simp [positions, hzero]
    let surface := surfaceFor (settings.withOptions policy stop).simulation.dialog
    let shown (q : RunOutcome) : Report := { (q.shown surface).after (Output.notices script.events) with form }
    refine ⟨shown, ?performed, fun q hq => ⟨?published, fun hne => ?given⟩⟩
    case performed =>
      rw [perform_run hdialog hscript, hpositions, orFailure, runReport_eq, hopen, Option.map_map]
      rfl
    case published =>
      have hafter : (shown q).publications = _ := Report.publications_after
      rw [Output.publications_notices] at hafter
      exact hafter.trans (publications_shown hq _)
    case given =>
      have hselection : numbers.map (· - 1) ≠ [] := by simpa using hne
      rw [← inOrder_positions hzero, Runner.run_numbers hq hselection]
      exact List.take_prefix ..

end Invocation

namespace Runner

-- A selection is a script within a script. To run it is to run the script that consists of the selected lines, where
-- the records are numbered by the rows that were selected. The order of the selection, repetitions, and rows that the
-- script does not have make no difference but for the warnings about the latter. Only an empty selection stands for
-- all rows. At the command line, rows are selected by the numbers that their records have.
theorem selection_is_subscript (r : Runner) (b : Bench) (lines : List String) :
    (∀ selection ≠ [], r.RunsSubscript b lines selection) ∧
    r.run b lines [] = r.runRows b (Row.ofLines lines) ∧
    ∀ v settings source numbers dialog stop form,
      Invocation.SelectsByNumber v settings source numbers dialog stop form := by
  refine ⟨fun selection h => runsSubscript h, ?_, fun _ _ _ _ _ _ _ => Invocation.selectsByNumber⟩
  rw [run_eq_warnings]
  exact Option.map_id'

-- Two rows out of three, of which one is selected twice, and a row that the script does not have.
theorem selection_is_subscript_of_repeated :
    let (r, b) := Runner.open ⟨.ofSettings {}, 100⟩ {} .accepting ⟨0⟩ {}
    let lines := ["WAIT ^ T ^ 7", "SET_OUTPUT ^ UV_PLC1", "UNKNOWN ^ X"]
    ∃ q u, r.run b lines [2, 9, 0, 2] = some q ∧ r.run b ["WAIT ^ T ^ 7", "UNKNOWN ^ X"] [] = some u ∧
      q.records.map (·.number) = [1, 3] ∧ q.summary = u.summary ∧ (Row.warnings lines [2, 9, 0, 2]).length = 1 := by
  let r := (Runner.open ⟨.ofSettings {}, 100⟩ {} .accepting ⟨0⟩ {}).1
  let b := (Runner.open ⟨.ofSettings {}, 100⟩ {} .accepting ⟨0⟩ {}).2
  let lines := ["WAIT ^ T ^ 7", "SET_OUTPUT ^ UV_PLC1", "UNKNOWN ^ X"]
  have hnumbers : (r.run b lines [2, 9, 0, 2]).map (·.records.map (·.number)) = some [1, 3] := by decide +kernel
  have ⟨q, hq, hnumbers⟩ := Option.map_eq_some_iff.1 hnumbers
  have ⟨hselect, _, _⟩ := selection_is_subscript r b lines
  have h := hselect [2, 9, 0, 2] (by simp)
  have hlines : Row.subscript lines [2, 9, 0, 2] = ["WAIT ^ T ^ 7", "UNKNOWN ^ X"] := by decide +kernel
  have hends := h.ends
  rw [hq, hlines] at hends
  have ⟨u, hu⟩ := Option.isSome_iff_exists.1 hends.symm
  obtain ⟨_, _, _, _, _, _, _, _, hsummary, _⟩ := h.same q u hq (hlines ▸ hu)
  exact ⟨q, u, hq, hu, hnumbers, hsummary, h.warnings.left.trans (by decide)⟩

end Runner

end StationScript
