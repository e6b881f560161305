import StationScript.Interpreter
import StationScript.Proofs.Plans

namespace StationScript

namespace Trace

variable {events : List Event}

@[simp]
theorem events_reports : Trace.events (events.map (.report .main)) .main = events := by
  induction events
  case nil            => rfl
  case cons e rest ih => exact congrArg (e :: ·) ih

-- Reports change nothing, enter nothing in the journal, capture nothing and take no line.
@[simp]
theorem changes_reports : changes (events.map (.report .main)) = [] := by
  simp [changes, Effect.change?]

@[simp]
theorem actions_reports : actions (events.map (.report .main)) = [] := by
  simp [actions, Effect.action?]

@[simp]
theorem captures_reports : captures (events.map (.report .main)) = [] := by
  simp [captures, Effect.capture?]

@[simp]
theorem linesTaken_reports : linesTaken (events.map (.report .main)) = 0 := by
  induction events
  case nil         => rfl
  case cons _ _ ih => simpa [linesTaken, Effect.linesTaken] using ih

end Trace

-- Where only events took place, and at once, nothing is different.
theorem Bench.advance_reports {b : Bench} {events : List Event} :
    b.advance (events.map (.report .main)) b.timeline = b := by
  simp [advance, Devices.applyAll]

namespace Ending

variable {ending : Ending} {trigger : Trigger} {t : Timeline}

theorem signal_now : (ending.signal trigger t).now = t.now := by
  cases ending <;> rfl

theorem signal_of_success (h : ending.success) (trigger : Trigger) (t : Timeline) : ending.signal trigger t = t := by
  cases ending <;> first | rfl | cases h

theorem success_ofVerdict {finished : Bool} {v : Verdict} (h : (ofVerdict finished v).success) :
    finished = true := by
  cases finished
  case false => cases h
  case true  => rfl

end Ending

namespace Interpreter

variable {i : Interpreter} {b : Bench} {c : Command} {v : Verb} {line : String} {token : Token}
  {trigger : Trigger}

-- The outcome of a command, from how far its plan got.
def outcome (i : Interpreter) (b : Bench) (c : Command) (v : Verb) (trigger : Trigger) (p : Progress) :
    Outcome :=
  let ending := Ending.ofVerdict p.finished (i.plan b.input c v).verdict
  let trace :=
    [.report .main (.executing v c.text)] ++ p.trace ++ (ending.events c.text).map (.report .main)
  { execution := ⟨ending.success, some { c with output := p.trace.captures.getLast? }⟩
    trace
    bench := b.advance trace (ending.signal trigger p.timeline) }

theorem runCommand_eq :
    i.runCommand b c v token trigger =
      (b.timeline.follow token (i.plan b.input c v).effects).map (i.outcome b c v trigger) := by
  rw [Option.map_eq_bind]
  rfl

theorem outcome_now {p : Progress} : (i.outcome b c v trigger p).bench.timeline.now = p.timeline.now :=
  Ending.signal_now

theorem execute_of_isCancelled (h : b.isCancelled token) :
    i.execute b line token trigger =
      some ⟨⟨false, none⟩, [.report .main (.lineSkipped (Text.trimmed line))], b⟩ := by
  simp [execute, h, Bench.reportOnly]

theorem execute_of_command (hl : ¬b.isCancelled token) (hc : Line.ofString line = .command c)
    (hv : Verb.ofName? c.name = some v) :
    i.execute b line token trigger = i.runCommand b c v token trigger := by
  simp [execute, hl, hc, hv]

-- A line under a live token is a command that the vocabulary knows, or only events come of it.
theorem execute_cases (line : String) :
    (∃ c v, Line.ofString line = .command c ∧ Verb.ofName? c.name = some v) ∨
    ∃ x events, (∀ title, .declined title ∉ events) ∧
      ∀ (i : Interpreter) (b : Bench) (token : Token) (trigger : Trigger), ¬b.isCancelled token →
        i.execute b line token trigger = some (b.reportOnly x events) := by
  cases hc : Line.ofString line
  case command c =>
    cases hv : Verb.ofName? c.name
    case some v => exact .inl ⟨c, v, rfl, hv⟩
    case none =>
      refine .inr ⟨⟨false, some c⟩, [.unknownCommand c.name], by simp, fun i b token trigger hl => ?_⟩
      simp only [execute, hl, hc, hv]
      rfl
  case malformed text =>
    refine .inr ⟨⟨true, none⟩, [.malformedLine text], by simp, fun i b token trigger hl => ?_⟩
    simp only [execute, hl, hc]
    rfl
  case blank =>
    refine .inr ⟨⟨true, none⟩, [], by simp, fun i b token trigger hl => ?_⟩
    simp only [execute, hl, hc]
    rfl

-- The instruction that a line gives to the station.
def instruction? (line : String) : Option Instruction := do
  let c ← (Line.ofString line).command?
  let v ← Verb.ofName? c.name
  (c.instruction v).toOption

theorem instruction?_eq (hc : Line.ofString line = .command c) (hv : Verb.ofName? c.name = some v) :
    instruction? line = (c.instruction v).toOption := by
  simp [instruction?, hc, Line.command?, hv]

theorem exists_command_of_instruction {instruction : Instruction} (h : instruction? line = some instruction) :
    ∃ c v, Line.ofString line = .command c ∧ Verb.ofName? c.name = some v ∧
      c.instruction v = .ok instruction := by
  have ⟨c, hc, h⟩ := Option.bind_eq_some_iff.1 h
  have ⟨v, hv, h⟩ := Option.bind_eq_some_iff.1 h
  cases hl : Line.ofString line
  case command c' =>
    rw [hl] at hc
    cases hc
    refine ⟨c, v, rfl, hv, ?_⟩
    cases hi : c.instruction v
    case ok    => rw [hi] at h; cases h; rfl
    case error => rw [hi] at h; cases h
  all_goals rw [hl] at hc; cases hc

theorem plan_of_instruction {input : List Typed} {instruction : Instruction} (hc : Line.ofString line = .command c)
    (hv : Verb.ofName? c.name = some v) (hi : instruction? line = some instruction) :
    i.plan input c v = i.station.plan i.settleDelay input instruction := by
  have ⟨_, _, hc', hv', hinstr⟩ := exists_command_of_instruction hi
  cases hc.symm.trans hc'
  cases hv.symm.trans hv'
  simp only [plan, hinstr]

-- A line that is a dialog to which no reply ever comes.
def NeverAnswers (i : Interpreter) (input : List Typed) (line : String) : Prop :=
  ∃ instruction, instruction? line = some instruction ∧ i.station.NeverAnswers input instruction

theorem plan_isPlain (hc : Line.ofString line = .command c) (hv : Verb.ofName? c.name = some v)
    (h : ¬i.NeverAnswers b.input line) : ∀ e ∈ (i.plan b.input c v).effects, e.IsPlain := by
  have hi := instruction?_eq hc hv
  unfold plan
  cases hinstr : c.instruction v
  case ok instruction =>
    exact Station.plan_isPlain fun hn => h ⟨instruction, by rw [hi, hinstr]; rfl, hn⟩
  case error => simp [Plan.fail]

theorem plan_of_neverAnswers (hc : Line.ofString line = .command c) (hv : Verb.ofName? c.name = some v)
    (h : i.NeverAnswers b.input line) :
    i.plan b.input c v = ⟨[if i.station.surface.isSome then .waitForSignal else .block], .done⟩ := by
  have ⟨instruction, hi, hn⟩ := h
  rw [instruction?_eq hc hv] at hi
  cases hinstr : c.instruction v
  case ok _ =>
    rw [hinstr] at hi
    cases hi
    simp only [plan, hinstr]
    exact Station.plan_of_neverAnswers hn
  case error => rw [hinstr] at hi; cases hi

-- What a line switches before it waits for the first time.
def switching (i : Interpreter) (line : String) : List Action :=
  match instruction? line with
  | some instruction => i.station.switching instruction
  | none => []

theorem actions_of_cut {done rest : List Effect} {e : Effect} (hc : Line.ofString line = .command c)
    (hv : Verb.ofName? c.name = some v) (hp : (i.plan b.input c v).effects = done ++ e :: rest)
    (hw : e.IsWait) :
    Trace.actions done = i.switching line := by
  rw [switching, instruction?_eq hc hv]
  cases hinstr : c.instruction v
  case error => simp [plan, hinstr, Plan.fail] at hp
  case ok instruction =>
    by_cases hn : i.station.NeverAnswers b.input instruction
    case neg =>
      simp only [plan, hinstr] at hp
      exact Station.actions_of_cut hn hp hw
    case pos =>
      -- A dialog that waits for a signal does nothing before.
      cases instruction
      case dialog =>
        rw [plan_of_neverAnswers hc hv ⟨_, by rw [instruction?_eq hc hv, hinstr]; rfl, hn⟩] at hp
        cases done
        case nil    => rfl
        case cons _ => simp at hp
      all_goals exact hn.elim

theorem outcome_changes {p : Progress} : (i.outcome b c v trigger p).trace.changes = p.trace.changes := by
  have hopen : Trace.changes [.report .main (.executing v c.text)] = [] := rfl
  simp only [outcome, Trace.changes_append, Trace.changes_reports, hopen, List.nil_append, List.append_nil]

theorem outcome_actions {p : Progress} : (i.outcome b c v trigger p).trace.actions = p.trace.actions := by
  have hopen : Trace.actions [.report .main (.executing v c.text)] = [] := rfl
  simp only [outcome, Trace.actions_append, Trace.actions_reports, hopen, List.nil_append, List.append_nil]

theorem mem_plan {input : List Typed} {e : Effect} (hc : Line.ofString line = .command c)
    (hv : Verb.ofName? c.name = some v) (he : e ∈ (i.plan input c v).effects) :
    ∃ instruction, instruction? line = some instruction ∧
      e ∈ (i.station.plan i.settleDelay input instruction).effects := by
  unfold plan at he
  cases hinstr : c.instruction v
  case error => rw [hinstr] at he; cases he
  case ok instruction =>
    rw [hinstr] at he
    exact ⟨instruction, by rw [instruction?_eq hc hv, hinstr]; rfl, he⟩

-- What a line under a live token can come to.
theorem outcome_cases {o : Outcome} (hl : ¬b.isCancelled token) (ho : i.execute b line token trigger = some o) :
    (Line.ofString line).command? = none ∧ o = b.reportOnly ⟨true, none⟩ (Line.ofString line).warnings ∨
    (∃ c, Line.ofString line = .command c ∧ Verb.ofName? c.name = none ∧
      o = b.reportOnly ⟨false, some c⟩ [.unknownCommand c.name]) ∨
    ∃ c v p, Line.ofString line = .command c ∧ Verb.ofName? c.name = some v ∧
      b.timeline.follow token (i.plan b.input c v).effects = some p ∧ o = i.outcome b c v trigger p := by
  unfold execute at ho
  simp only [hl] at ho
  cases hc : Line.ofString line
  case command c =>
    rw [hc] at ho
    cases hv : Verb.ofName? c.name
    case none => exact .inr (.inl ⟨c, rfl, hv, by simpa [hv] using ho.symm⟩)
    case some v =>
      simp only [hv] at ho
      have ⟨p, hp, heq⟩ := Option.map_eq_some_iff.1 (runCommand_eq ▸ ho)
      exact .inr (.inr ⟨c, v, p, rfl, hv, hp, heq.symm⟩)
  all_goals
    rw [hc] at ho
    exact .inl ⟨rfl, by simpa using ho.symm⟩

-- All that takes place on a line is in the station's plan for it, or an event that the interpreter reports.
theorem mem_trace_of_execute {o : Outcome} {e : Effect} (ho : i.execute b line token trigger = some o)
    (he : e ∈ o.trace) :
    (∃ event, e = .report .main event) ∨
      ∃ instruction, instruction? line = some instruction ∧
        e ∈ (i.station.plan i.settleDelay b.input instruction).effects := by
  by_cases hl : b.isCancelled token
  case pos =>
    rw [execute_of_isCancelled hl] at ho
    cases ho
    exact .inl ⟨_, List.mem_singleton.1 he⟩
  case neg =>
    have hreport {events : List Event} (he : e ∈ events.map (.report .main)) :
        ∃ event, e = .report .main event := by
      have ⟨event, _, heq⟩ := List.mem_map.1 he
      exact ⟨event, heq.symm⟩
    rcases outcome_cases hl ho with ⟨_, rfl⟩ | ⟨c, _, _, rfl⟩ | ⟨c, v, p, hc, hv, hp, rfl⟩
    · exact .inl (hreport he)
    · exact .inl (hreport he)
    · simp only [outcome, List.mem_append, List.mem_singleton] at he
      rcases he with (heq | he) | he
      · exact .inl ⟨_, heq⟩
      · exact .inr (mem_plan hc hv (Timeline.follow_subset hp e he))
      · exact .inl (hreport he)

theorem execute_devices {o : Outcome} (ho : i.execute b line token trigger = some o) :
    o.bench.devices = b.devices.applyAll o.trace.changes := by
  by_cases hl : b.isCancelled token
  case pos => rw [execute_of_isCancelled hl] at ho; cases ho; rfl
  case neg =>
    rcases outcome_cases hl ho with ⟨_, rfl⟩ | ⟨c, _, _, rfl⟩ | ⟨c, v, p, _, _, _, rfl⟩
    · simp [Bench.reportOnly, Devices.applyAll]
    · rfl
    · rfl

theorem not_neverAnswers {input : List Typed} (h : i.station.AlwaysReplies) : ¬i.NeverAnswers input line :=
  fun ⟨instruction, _, hn⟩ => h input instruction hn

theorem exists_span (h : i.station.AlwaysReplies) (hc : Line.ofString line = .command c)
    (hv : Verb.ofName? c.name = some v) : ∃ d, Effect.span? (i.plan b.input c v).effects = some d :=
  Effect.span?_of_isPlain (plan_isPlain hc hv (not_neverAnswers h))

theorem exists_execute (h : i.station.AlwaysReplies) (b : Bench) (line : String) (token : Token)
    (trigger : Trigger) : ∃ o, i.execute b line token trigger = some o := by
  by_cases hl : b.isCancelled token
  case pos => exact ⟨_, execute_of_isCancelled hl⟩
  case neg =>
    rcases execute_cases line with ⟨c, v, hc, hv⟩ | ⟨x, events, -, hx⟩
    case inr => exact ⟨_, hx i b token trigger hl⟩
    case inl =>
      have ⟨d, hd⟩ := exists_span (b := b) h hc hv
      obtain ⟨p, hp⟩ := Timeline.exists_follow hd
      exact ⟨_, by rw [execute_of_command hl hc hv, runCommand_eq, hp]; rfl⟩

theorem reportOnly_eq_advance {x : Execution} {events : List Event} :
    b.reportOnly x events =
      ⟨x, events.map (.report .main), b.advance (events.map (.report .main)) b.timeline⟩ := by
  rw [Bench.advance_reports]
  rfl

-- What a line does while nothing fires is settled by the line, and by what the operator will type as far as the
-- plans of commands depend on that.
theorem execute_of_idle (h : i.station.AlwaysReplies) (input : List Typed) (line : String) :
    ∃ d x trace ending, ∀ (b : Bench) (token : Token) (trigger : Trigger),
      (∀ c v, i.plan b.input c v = i.plan input c v) → ¬b.isCancelled token →
      (∀ f ∈ b.timeline.schedule, b.timeline.now + d ≤ f.instant) →
      i.execute b line token trigger = some ⟨x, trace, b.advance trace
        (Ending.signal trigger ending { b.timeline with now := b.timeline.now + d })⟩ := by
  rcases execute_cases line with ⟨c, v, hc, hv⟩ | ⟨x, events, -, hx⟩
  case inr =>
    refine ⟨0, x, events.map (.report .main), .completed, fun b token trigger _ hl _ => ?_⟩
    rw [hx i b token trigger hl, reportOnly_eq_advance]
    rfl
  case inl =>
    have ⟨d, hd⟩ := exists_span (b := { input }) h hc hv
    let o := i.outcome { input } c v ⟨⟨0⟩⟩ ⟨(i.plan input c v).effects, true, {}⟩
    refine ⟨d, o.execution, o.trace, .ofVerdict true (i.plan input c v).verdict, ?_⟩
    intro b token trigger hinput hl hidle
    rw [execute_of_command hl hc hv, runCommand_eq, hinput, Timeline.follow_of_idle hd hl hidle]
    simp only [Option.map_some, outcome, hinput]
    rfl

end Interpreter

end StationScript
