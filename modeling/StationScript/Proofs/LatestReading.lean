import StationScript.Proofs.Alike
import StationScript.Proofs.Course
import StationScript.Proofs.Instructions
import StationScript.Proofs.Readings

namespace StationScript

-- Of channels with one name the last one counts.
def Channel.lastNamed? (channels : List Channel) (name : String) : Option Channel :=
  (channels.filter (·.name == name)).getLast?

-- The text tells what the channel with a name reads: that there is no value, or the value with the unit beside it.
structure Channel.Tells (channels : List Channel) (name text : String) : Prop where
  missing : text = "null" ↔
    (∀ c ∈ channels, c.name ≠ name) ∨ ∃ c ∈ lastNamed? channels name, ∀ v ∈ c.value, v.isNaN
  value   : ∀ c ∈ lastNamed? channels name, ∀ v ∈ c.value, v.isNaN = false → text = Reading.engineering v c.unit

theorem Channel.lastNamed?_eq_none_iff {channels : List Channel} {name : String} :
    lastNamed? channels name = none ↔ ∀ c ∈ channels, c.name ≠ name := by
  simp [lastNamed?]

theorem Reading.text_eq_missing_iff {v : Double} {unit : String} : text v unit = missing ↔ v.isNaN := by
  unfold text
  cases hnan : v.isNaN
  case true  => simp
  case false => simpa using engineering_ne_missing hnan

namespace Station

variable {st : Station} {name : String}

theorem channel?_eq : st.channel? name = Channel.lastNamed? st.channels name := by
  rw [channel?, Channel.lastNamed?, List.getLast?_eq_head?_reverse, ← List.filter_reverse, List.head?_filter]

-- What a reading of a channel outputs.
def readingOf (st : Station) (channel : String) : String :=
  Reading.text (st.value channel) (st.unit channel)

theorem value_isNaN_iff : (st.value name).isNaN ↔
    (∀ c ∈ st.channels, c.name ≠ name) ∨ ∃ c ∈ Channel.lastNamed? st.channels name, ∀ v ∈ c.value, v.isNaN := by
  have hnan : Double.nan.isNaN := by decide
  rw [value, channel?_eq, ← Channel.lastNamed?_eq_none_iff]
  cases hlast : Channel.lastNamed? st.channels name
  case none => simp [hnan]
  case some c =>
    cases hv : c.value
    case none   => simp [hv, hnan]
    case some v => simp [hv]

theorem readingOf_tells (st : Station) (channel : String) :
    Channel.Tells st.channels channel (st.readingOf channel) where
  missing := Reading.text_eq_missing_iff.trans value_isNaN_iff
  value c hlast v hv hnan := by
    have hvalue : st.value channel = v := by
      simp [Station.value, channel?_eq, Option.mem_def.1 hlast, Option.mem_def.1 hv]
    have hunit : st.unit channel = c.unit := by simp [unit, channel?_eq, Option.mem_def.1 hlast]
    simp [readingOf, Reading.text, hvalue, hunit, hnan]

theorem ofSettings_channels (s : SimulationSettings) : (ofSettings s).channels = s.channels := by
  have hfit (motion : List MotionSettings) (st : Station) : (motion.foldl fitEntry st).channels = st.channels := by
    induction motion generalizing st
    case nil => rfl
    case cons m rest ih =>
      rw [List.foldl_cons, ih]
      unfold fitEntry
      split <;> rfl
  exact hfit s.motion _

end Station

namespace Interpreter

variable {i : Interpreter} {b : Bench} {c : Command} {line : String} {token : Token} {trigger : Trigger} {o : Outcome}

theorem execute_lastReading (ho : i.execute b line token trigger = some o) :
    o.bench.lastReading = o.trace.captures.getLastD b.lastReading := by
  by_cases hl : b.isCancelled token
  case pos => rw [execute_of_isCancelled hl] at ho; cases ho; rfl
  case neg =>
    rcases outcome_cases hl ho with ⟨_, rfl⟩ | ⟨c, _, _, rfl⟩ | ⟨c, v, p, _, _, _, rfl⟩
    · simp [Bench.reportOnly]
    · rfl
    · rfl

-- A reading under a live token succeeds at once, whether or not there is such a channel.
theorem execute_of_read (hl : ¬b.isCancelled token) (hc : Line.ofString line = .command c) (hname : c.name = "READ")
    (trigger : Trigger) : ∃ o, i.execute b line token trigger = some o ∧
      o.execution = ⟨true, some { c with output := some (i.station.readingOf c.target) }⟩ ∧
      o.bench.lastReading = i.station.readingOf c.target := by
  have hv : Verb.ofName? c.name = some .read := Verb.ofName?_eq_some_iff.2 hname
  let plan := i.plan b.input c .read
  have hplan : plan = ⟨[.record (.read c.target), .report .main (.reading c.target (i.station.readingOf c.target)),
      .capture (i.station.readingOf c.target)], .done⟩ := rfl
  have hinstant : ∀ e ∈ plan.effects, e.IsInstant := by
    simp [hplan, Effect.IsInstant]
  have hfollow : b.timeline.follow token plan.effects = some ⟨plan.effects, true, b.timeline⟩ :=
    Timeline.follow_of_instant hinstant
  refine ⟨i.outcome b c .read trigger ⟨plan.effects, true, b.timeline⟩, ?_, rfl, rfl⟩
  rw [execute_of_command hl hc hv, runCommand_eq, hfollow]
  rfl

-- The channel that a line asks to read.
def readBy? (line : String) : Option String :=
  ((Line.ofString line).command?.filter (·.name == "READ")).map (·.target)

theorem readBy?_eq_some_iff {channel : String} : readBy? line = some channel ↔
    ∃ c, Line.ofString line = .command c ∧ c.name = "READ" ∧ c.target = channel := by
  unfold readBy?
  cases Line.ofString line <;> simp [Line.command?, Option.filter]

-- A line that asks for no reading gives another instruction, if any.
theorem instruction?_ne_read {channel : String} (h : readBy? line = none) :
    instruction? line ≠ some (.read channel) := by
  intro hread
  have ⟨c, v, hc, hv, hinstr⟩ := exists_command_of_instruction hread
  have ⟨hverb, htarget⟩ := Command.instruction_eq_read_iff.1 hinstr
  have hname : c.name = "READ" := Verb.ofName?_eq_some_iff.1 (hverb ▸ hv)
  have hsome : readBy? line = some channel := readBy?_eq_some_iff.2 ⟨c, hc, hname, htarget⟩
  rw [h] at hsome
  cases hsome

-- Whatever else happens on a line, the latest reading stays.
theorem lastReading_of_execute (h : b.isCancelled token ∨ readBy? line = none)
    (ho : i.execute b line token trigger = some o) : o.bench.lastReading = b.lastReading := by
  rcases h with hc | hother
  case inl => rw [execute_of_isCancelled hc] at ho; cases ho; rfl
  case inr =>
    have hcaptures : o.trace.captures = [] := by
      refine Trace.captures_eq_nil fun text he => ?_
      rcases mem_trace_of_execute ho he with ⟨_, heq⟩ | ⟨instruction, hinstr, hplan⟩
      · cases heq
      · refine Station.capture_not_mem_plan (fun channel heq => ?_) text hplan
        exact instruction?_ne_read hother (heq ▸ hinstr)
    rw [execute_lastReading ho, hcaptures]
    rfl

end Interpreter

-- A line that was executed: whether its token was live, and what came of it. In a run it also left a record.
structure Executed where
  line : String
  live : Bool
  execution : Execution
  record? : Option LineRecord := none

namespace Executed

-- The channel that was read, if the line was a reading and was not skipped.
def channel? (x : Executed) : Option String :=
  if x.live then Interpreter.readBy? x.line else none

-- The reading that was executed last.
def latest? (done : List Executed) : Option Executed :=
  (done.filter (·.channel?.isSome)).getLast?

-- A reading succeeded, and its output, which is in its record as well, tells what its channel reads.
def ReadsRight (channels : List Channel) (x : Executed) : Prop :=
  ∀ channel ∈ x.channel?, x.execution.success ∧ ∃ text, x.execution.output = some text ∧
    Channel.Tells channels channel text ∧ ∀ record ∈ x.record?, record.success ∧ record.output = text

-- How a line changes what was read last: it puts its own output there if it is a reading.
structure Leaves (x : Executed) (before after : String) : Prop where
  reading : x.channel?.isSome → x.execution.output = some after
  other   : x.channel? = none → after = before

-- A text is what was read last, and empty if nothing was read yet.
structure IsLatest (done : List Executed) (text : String) : Prop where
  read   : ∀ x ∈ latest? done, x.execution.output = some text
  unread : latest? done = none → text = ""

variable {done : List Executed} {x : Executed} {before after : String}

theorem IsLatest.concat (h : IsLatest done before) (hx : x.Leaves before after) : IsLatest (done ++ [x]) after := by
  cases hc : x.channel?
  case none =>
    have hsame : latest? (done ++ [x]) = latest? done := by simp [latest?, hc]
    rw [hx.other hc]
    exact ⟨hsame ▸ h.read, hsame ▸ h.unread⟩
  case some channel =>
    have hlast : latest? (done ++ [x]) = some x := by simp [latest?, hc]
    refine ⟨fun y hy => ?_, fun hnone => ?_⟩
    · rw [hlast, Option.mem_some_iff] at hy
      exact hy ▸ hx.reading (by simp [hc])
    · rw [hlast] at hnone
      cases hnone

end Executed

namespace Interpreter

variable {i : Interpreter} {b : Bench} {line channel : String} {token : Token} {trigger : Trigger} {o : Outcome}
  {record? : Option LineRecord} {done : List Executed}

-- A line that starts on a bench under a token, with its outcome.
def executed (b : Bench) (line : String) (token : Token) (o : Outcome) (record? : Option LineRecord) : Executed where
  line
  live      := !b.isCancelled token
  execution := o.execution
  record?

theorem channel?_executed_eq_some_iff : (executed b line token o record?).channel? = some channel ↔
    ¬b.isCancelled token ∧ readBy? line = some channel := by
  cases hc : b.isCancelled token <;> simp [Executed.channel?, executed, hc]

theorem channel?_executed_eq_none (h : (executed b line token o record?).channel? = none) :
    b.isCancelled token ∨ readBy? line = none := by
  cases hc : b.isCancelled token
  case true  => exact .inl rfl
  case false => exact .inr (by simpa [Executed.channel?, executed, hc] using h)

-- The outcome of a reading.
theorem outcome_of_channel? (ho : i.execute b line token trigger = some o)
    (h : (executed b line token o record?).channel? = some channel) :
    o.execution.success ∧ o.execution.output = some (i.station.readingOf channel) ∧
      o.execution.describe = i.station.readingOf channel ∧ o.bench.lastReading = i.station.readingOf channel := by
  have ⟨hl, hread⟩ := channel?_executed_eq_some_iff.1 h
  obtain ⟨c, hc, hname, rfl⟩ := readBy?_eq_some_iff.1 hread
  have ⟨o', ho', hx, hlast⟩ := execute_of_read (i := i) hl hc hname trigger
  cases ho.symm.trans ho'
  have hv : Verb.ofName? c.name = some .read := Verb.ofName?_eq_some_iff.2 hname
  refine ⟨by rw [hx], by rw [hx]; rfl, ?_, hlast⟩
  simp [hx, Execution.describe, hv]

theorem execute_leaves (ho : i.execute b line token trigger = some o) (record? : Option LineRecord) :
    (executed b line token o record?).Leaves b.lastReading o.bench.lastReading where
  reading hsome := by
    obtain ⟨channel, hchannel⟩ := Option.isSome_iff_exists.1 hsome
    have ⟨_, houtput, _, hlast⟩ := outcome_of_channel? ho hchannel
    exact hlast ▸ houtput
  other hnone := lastReading_of_execute (channel?_executed_eq_none hnone) ho

theorem execute_readsRight (ho : i.execute b line token trigger = some o)
    (hrecord : ∀ record ∈ record?, record.success = o.execution.success ∧ record.output = o.execution.describe) :
    (executed b line token o record?).ReadsRight i.station.channels := by
  intro channel hchannel
  have ⟨hsuccess, houtput, hdescribe, _⟩ := outcome_of_channel? ho hchannel
  refine ⟨hsuccess, _, houtput, i.station.readingOf_tells channel, fun record hr => ?_⟩
  have ⟨hs, hd⟩ := hrecord record hr
  exact ⟨hs ▸ hsuccess, hd ▸ hdescribe⟩

end Interpreter

namespace Runner

variable {r : Runner} {b : Bench} {trigger : Trigger} {token : Token} {row : Row} {rows : List Row}
  {os : List RowOutcome} {done : List Executed}

-- The lines of the rows that a run takes, each as it was executed.
def executedRows (r : Runner) (trigger : Trigger) (token : Token) (b : Bench) : List Row → List Executed
  | [] => []
  | row :: rest =>
    let (start, own, seen) := r.lineScope b trigger token
    match r.interpreter.execute start row.text seen own with
    | none => []
    | some x =>
      let o := r.rowOutcome start seen row x
      Interpreter.executed start row.text seen x (some o.record) ::
        if r.stopsAt o.status then [] else r.executedRows trigger token o.bench rest

-- The lines that a run executes.
def executed (r : Runner) (b : Bench) (lines : List String) (selection : List Nat) : List Executed :=
  let (b, trigger, token) := r.enter b
  r.executedRows trigger token b (Row.select lines selection)

-- The line of a row.
def executedRow (r : Runner) (trigger : Trigger) (token : Token) (b : Bench) (row : Row) (x : Outcome) : Executed :=
  let (start, _, seen) := r.lineScope b trigger token
  Interpreter.executed start row.text seen x (some (r.lineRecord start row x.execution))

theorem executedRows_cons {x : Outcome} (hx : r.interpreter.execute (r.lineScope b trigger token).1 row.text
    (r.lineScope b trigger token).2.2 (r.lineScope b trigger token).2.1 = some x) :
    r.executedRows trigger token b (row :: rows) = r.executedRow trigger token b row x ::
      if r.stopsAt (r.rowOutcome (r.lineScope b trigger token).1 (r.lineScope b trigger token).2.2 row x).status then []
      else r.executedRows trigger token x.bench rows := by
  simp only [executedRows, hx]
  rfl

theorem lineScope_lastReading : (r.lineScope b trigger token).1.lastReading = b.lastReading := by
  have ⟨_, hscope⟩ := r.exists_lineScope_eq_withOpened b trigger token
  rw [hscope]
  rfl

-- The lines of a course keep the latest reading, and their records are those of its rows.
theorem executedRows_of_course (hos : r.course trigger token b rows = some os) :
    (∀ before, Executed.IsLatest before b.lastReading →
      Executed.IsLatest (before ++ r.executedRows trigger token b rows) (lastBench b os).lastReading) ∧
    (∀ x ∈ r.executedRows trigger token b rows, x.ReadsRight r.interpreter.station.channels) ∧
    (r.executedRows trigger token b rows).map (·.record?) = os.map (some ·.record) := by
  induction rows generalizing b os
  case nil =>
    cases hos
    exact ⟨fun before h => by simpa [executedRows, lastBench] using h, List.forall_mem_nil _, rfl⟩
  case cons row rest ih =>
    obtain ⟨o, ho, hcases⟩ := course_cons_cases hos
    obtain ⟨x, hx, rfl⟩ := exists_execute_of_row ho
    let first := r.executedRow trigger token b row x
    have hleaves : first.Leaves b.lastReading x.bench.lastReading :=
      lineScope_lastReading (r := r) ▸ Interpreter.execute_leaves hx _
    have hright : first.ReadsRight r.interpreter.station.channels :=
      Interpreter.execute_readsRight hx (by simp [lineRecord])
    rw [executedRows_cons hx]
    rcases hcases with ⟨hs, rfl⟩ | ⟨hs, later, hlater, rfl⟩
    case inl =>
      rw [if_pos hs]
      exact ⟨fun before h => h.concat hleaves, List.forall_mem_singleton.2 hright, rfl⟩
    case inr =>
      obtain ⟨hlast, hrest, hrecords⟩ := ih hlater
      rw [if_neg hs]
      refine ⟨fun before h => ?_, List.forall_mem_cons.2 ⟨hright, hrest⟩, congrArg (_ :: ·) hrecords⟩
      rw [List.append_cons]
      exact hlast _ (h.concat hleaves)

end Runner

namespace Interpreter

variable {i : Interpreter} {b : Bench} {done : List Executed}

-- The benches that can come about from a fresh one, with the lines that were executed until then. Lines and runs follow
-- one another under any tokens, and in between scopes are opened and cancelled, time passes, devices are called
-- directly, and the operator types.
inductive Used (i : Interpreter) : Bench → List Executed → Prop
  | fresh (b : Bench) (h : b.lastReading = "") : i.Used b []
  | meanwhile {b : Bench} {done : List Executed} (h : i.Used b done) (timeline : Timeline) (devices : Devices)
    (input : List Typed) : i.Used { b with timeline, devices, input } done
  | line {b : Bench} {done : List Executed} (h : i.Used b done) (line : String) (token : Token) (trigger : Trigger)
    (o : Outcome) (ho : i.execute b line token trigger = some o) :
    i.Used o.bench (done ++ [executed b line token o none])
  | run {b : Bench} {done : List Executed} (h : i.Used b done) (r : Runner) (hr : r.interpreter = i)
    (lines : List String) (selection : List Nat) (q : RunOutcome) (hq : r.run b lines selection = some q) :
    i.Used q.bench (done ++ r.executed b lines selection)

theorem Used.isLatest (h : i.Used b done) :
    Executed.IsLatest done b.lastReading ∧ ∀ x ∈ done, x.ReadsRight i.station.channels := by
  induction h
  case fresh b hb => exact ⟨⟨nofun, fun _ => hb⟩, List.forall_mem_nil _⟩
  case meanwhile ih => exact ih
  case line ho ih =>
    have ⟨hlast, hright⟩ := ih
    refine ⟨hlast.concat (execute_leaves ho none), List.forall_mem_append.2 ⟨hright, ?_⟩⟩
    exact List.forall_mem_singleton.2 (execute_readsRight ho nofun)
  case run b done _ r hr lines selection q hq ih =>
    subst hr
    have ⟨hlast, hright⟩ := ih
    obtain ⟨os, hos, rfl⟩ := Runner.exists_course_of_run hq
    have ⟨hlater, hright', _⟩ := Runner.executedRows_of_course (b := (r.enter b).1) hos
    exact ⟨hlater done hlast, List.forall_mem_append.2 ⟨hright, hright'⟩⟩

-- However lines and runs follow one another, the latest reading is the output of the last reading that was executed
-- under a live token. Such a reading never fails, and tells what the last channel of its name is configured to read.
theorem keeps_latest_reading (i : Interpreter) :
    (∀ b done, i.Used b done →
      Executed.IsLatest done b.lastReading ∧ ∀ x ∈ done, x.ReadsRight i.station.channels) ∧
    (∀ b token trigger line c, ¬b.isCancelled token → Line.ofString line = .command c → c.name = "READ" →
      ∃ o, i.execute b line token trigger = some o ∧ (executed b line token o none).channel? = some c.target ∧
        o.execution.success) ∧
    (∀ (r : Runner) b lines selection q, r.run b lines selection = some q →
      (r.executed b lines selection).map (·.record?) = q.records.map some) ∧
    ∀ s : SimulationSettings, (Station.ofSettings s).channels = s.channels := by
  refine ⟨fun b done h => h.isLatest, ?read, ?records, Station.ofSettings_channels⟩
  case read =>
    intro b token trigger line c hl hc hname
    have ⟨o, ho, hx, _⟩ := execute_of_read (i := i) hl hc hname trigger
    have hread : readBy? line = some c.target := readBy?_eq_some_iff.2 ⟨c, hc, hname, rfl⟩
    exact ⟨o, ho, channel?_executed_eq_some_iff.2 ⟨hl, hread⟩, by rw [hx]⟩
  case records =>
    intro r b lines selection q hq
    obtain ⟨os, hos, rfl⟩ := Runner.exists_course_of_run hq
    have ⟨_, _, hrecords⟩ := Runner.executedRows_of_course (b := (r.enter b).1) hos
    exact hrecords.trans (List.map_map ..).symm

-- A channel that is configured twice is read, then one without a value, and then a dialog that is declined cancels the
-- run before it reads again.
theorem keeps_latest_reading_past_decline :
    let channels :=
      [⟨"I", some (.ofNat 1), "V", none⟩, ⟨"N", none, "V", none⟩, ⟨"I", some (.ofDecimal false 25 (-8)), "A", none⟩]
    let i : Interpreter := ⟨.ofSettings { channels, dialog := .no }, 100⟩
    let b₀ : Bench := { timeline := { signals := { opened := 1 } } }
    let r : Runner := ⟨i, ⟨.run, false⟩, .accepting, ⟨⟨0⟩⟩, ⟨[⟨0⟩]⟩, ⟨0⟩⟩
    let lines := ["READ ^ N", "SHOW_DIALOG ^ UI ^ YES_NO ^ T ^ M", "READ ^ I"]
    ∃ o q, i.execute b₀ "READ ^ I" ⟨[]⟩ ⟨⟨0⟩⟩ = some o ∧ r.run o.bench lines [] = some q ∧
      let done := [executed b₀ "READ ^ I" ⟨[]⟩ o none] ++ r.executed o.bench lines []
      i.Used q.bench done ∧
      done.map (fun x => (x.live, x.execution.output)) =
        [(true, some "250.000 nA"), (true, some "null"), (true, none), (false, none)] ∧
      q.bench.lastReading = "null" ∧ Executed.IsLatest done q.bench.lastReading ∧
      (r.executed o.bench lines []).map (·.record?) = q.records.map some := by
  intro channels i b₀ r lines
  have hend : ((i.execute b₀ "READ ^ I" ⟨[]⟩ ⟨⟨0⟩⟩).bind fun o => (r.run o.bench lines []).map fun q =>
      (([executed b₀ "READ ^ I" ⟨[]⟩ o none] ++ r.executed o.bench lines []).map fun x => (x.live, x.execution.output),
        q.bench.lastReading)) =
      some ([(true, some "250.000 nA"), (true, some "null"), (true, none), (false, none)], "null") := by
    decide +kernel
  have ⟨o, ho, hend⟩ := Option.bind_eq_some_iff.1 hend
  have ⟨q, hq, hend⟩ := Option.map_eq_some_iff.1 hend
  have ⟨hlive, hlast⟩ := Prod.mk.inj hend
  have ⟨hlatest, _, hrecords, _⟩ := keeps_latest_reading i
  have hused := ((Used.fresh (i := i) b₀ rfl).line _ _ _ o ho).run r rfl lines [] q hq
  exact ⟨o, q, ho, hq, hused, hlive, hlast, (hlatest _ _ hused).left, hrecords r o.bench lines [] q hq⟩

end Interpreter

end StationScript
