import StationScript.Proofs.Atomicity
import StationScript.Proofs.Commands
import StationScript.Proofs.Course
import StationScript.Proofs.Instructions
import StationScript.Proofs.Interruption
import StationScript.Proofs.Numerals

namespace StationScript

namespace Command

variable {cs : List Char}

theorem isTrimmed_of_no_blank (h : ∀ c ∈ cs, Text.isBlank c = false) : Text.IsTrimmed cs := by
  have ⟨left, right, hleft, hright, heq⟩ := Text.exists_eq_append_trim cs
  have hnone {ws : List Char} (hws : ∀ c ∈ ws, Text.isBlank c) (hsub : ws ⊆ cs) : ws = [] :=
    List.eq_nil_iff_forall_not_mem.2 fun c hc => by simpa [h c (hsub hc)] using hws c hc
  have hleft : left = [] := hnone hleft fun c hc => heq ▸ by simp [hc]
  have hright : right = [] := hnone hright fun c hc => heq ▸ by simp [hc]
  rw [hleft, hright, List.nil_append, List.append_nil] at heq
  exact heq.symm

theorem isField_of_digits (hne : cs ≠ []) (h : ∀ c ∈ cs, c.isDigit) : IsField cs where
  ne_nil      := hne
  trimmed     := isTrimmed_of_no_blank fun c hc => Text.isBlank_of_isDigit (Text.isDigit_iff_isDigit.2 (h c hc))
  caret       := fun hcaret => nomatch h '^' hcaret
  uncommented := uncommented_of_not_mem fun hslash => nomatch h '/' hslash

end Command

namespace Station

open Effect

variable {st : Station} {es fs : List Effect} {n d d' : Nat}

-- What is shown of a countdown, with the waits in between.
def countdownSteps (n : Nat) : List Effect :=
  (Countdown.ticks n).flatMap fun t => [.report .main (.countdown t.seconds), .wait t.length]

theorem countdownSteps_zero : countdownSteps 0 = [] := by
  rw [countdownSteps, Countdown.ticks_zero, List.flatMap_nil]

theorem countdownSteps_of_pos (h : 0 < n) : countdownSteps n =
    .report .main (.countdown ((n + 999) / 1000)) :: .wait (min n 1000) :: countdownSteps (n - 1000) := by
  rw [countdownSteps, Countdown.ticks_of_pos h, List.flatMap_cons]
  rfl

-- The remaining time goes down by a second at a time, and at last to nothing.
@[elab_as_elim]
theorem countdownSteps_induction {motive : Nat → Prop} (zero : motive 0)
    (step : ∀ n, 0 < n → motive (n - 1000) → motive n) (n : Nat) : motive n := by
  induction n using Nat.strongRecOn
  case ind n ih =>
    by_cases hn : n = 0
    case pos => exact hn ▸ zero
    case neg => exact step n (by omega) (ih (n - 1000) (by omega))

theorem showCountdown_of_accepts (h : Countdown.accepts n) :
    showCountdown n = ⟨countdownSteps n ++ [.record (.countdown n)], .done⟩ :=
  if_pos h

theorem showCountdown_of_not_accepts (h : ¬Countdown.accepts n) : showCountdown n = .fail (.countdownOutOfRange n) :=
  if_neg h

theorem span?_countdownSteps (hd : span? es = some d) (n : Nat) : span? (countdownSteps n ++ es) = some (n + d) := by
  induction n using countdownSteps_induction
  case zero => rw [countdownSteps_zero, List.nil_append, hd, Nat.zero_add]
  case step n hn ih =>
    have hlength : min n 1000 + (n - 1000 + d) = n + d := by omega
    have hshown : IsInstant (.report .main (.countdown ((n + 999) / 1000))) := trivial
    rw [countdownSteps_of_pos hn, List.cons_append, List.cons_append, span?_cons_of_instant hshown, span?_cons_wait, ih,
      Option.map_some, hlength]

theorem span?_showCountdown (h : Countdown.accepts n) : span? (showCountdown n).effects = some n := by
  have hentry : span? [.record (.countdown n)] = some 0 := rfl
  rw [showCountdown_of_accepts h]
  exact span?_countdownSteps hentry n

-- Without a surface any duration will do.
theorem countdown_of_plain (h : ¬st.showsCountdowns) (n : Nat) : st.countdown n = ⟨[.wait n], .done⟩ :=
  if_neg h

theorem plan_countdown (delay : Nat) (input : List Typed) (n : Nat) :
    st.plan delay input (.countdown n) = st.countdown n :=
  rfl

theorem countdown_of_shown (h : st.showsCountdowns) (n : Nat) : st.countdown n = showCountdown n :=
  if_pos h

end Station

namespace Command

variable {c : Command} {p what : String} {n : Nat}

theorem duration_of_spells (hp : c.parameter? 0 = some p) (h : Text.Spells p n) (hlt : n < 2 ^ 64) :
    c.duration what = .ok n := by
  simp [duration, required, hp, Text.natural?_eq_some_iff.2 ⟨h, hlt⟩, bind, Except.bind]

theorem duration_of_not_spells (hp : c.parameter? 0 = some p) (h : ¬∃ n, Text.Spells p n ∧ n < 2 ^ 64) :
    c.duration what = .error (.invalidParameter what p) := by
  simp [duration, required, hp, Text.natural?_eq_none_iff.2 h, bind, Except.bind]

-- A verb whose commands say nothing but a duration.
structure Gives (c : Command) (v : Verb) (what : String) (f : Nat → Instruction) : Prop where
  ok    : ∀ n, c.duration what = .ok n → c.instruction v = .ok (f n)
  error : ∀ e, c.duration what = .error e → c.instruction v = .error e

theorem gives_wait (c : Command) : c.Gives .wait "wait duration" .wait where
  ok n h    := by simp [instruction, h, bind, Except.bind, pure, Except.pure]
  error e h := by simp [instruction, h, bind, Except.bind]

theorem gives_countdown (c : Command) : c.Gives .showCountdown "countdown duration" .countdown where
  ok n h    := by simp [instruction, h, bind, Except.bind, pure, Except.pure]
  error e h := by simp [instruction, h, bind, Except.bind]

end Command

-- What becomes of a line whose duration is this text, where only some durations are accepted.
structure Outcome.Lasts (b : Bench) (c : Command) (v : Verb) (what p : String) (accepted : Nat → Prop) (o : Outcome) :
    Prop where
  success : o.execution.success ↔ ∃ n, Text.Spells p n ∧ n < 2 ^ 64 ∧ accepted n
  elapsed : ∀ n, Text.Spells p n → o.execution.success → o.bench.timeline.now = b.timeline.now + n
  refused : (¬∃ n, Text.Spells p n ∧ n < 2 ^ 64) → o.bench = b ∧ o.trace = [.report .main (.executing v c.text),
    .report .main (.commandFailed c.text ("invalid " ++ what ++ ": '" ++ p ++ "'"))]
  outside : ∀ n, Text.Spells p n → n < 2 ^ 64 → ¬accepted n → o.bench = b ∧ o.trace =
    [.report .main (.executing v c.text),
      .report .main (.commandFailed c.text (CommandError.countdownOutOfRange n).message)]

namespace Outcome

variable {b : Bench} {c : Command} {v : Verb} {what p : String} {accepted : Nat → Prop} {n : Nat} {o : Outcome}

theorem lasts_of_not_spells (h : ¬∃ n, Text.Spells p n ∧ n < 2 ^ 64) :
    Lasts b c v what p accepted (b.reportOnly ⟨false, some { c with output := none }⟩
      [.executing v c.text, .commandFailed c.text (CommandError.invalidParameter what p).message]) where
  success                 := iff_of_false nofun fun ⟨n, hspells, hlt, _⟩ => h ⟨n, hspells, hlt⟩
  elapsed                 := nofun
  refused _               := ⟨rfl, rfl⟩
  outside n hspells hlt _ := absurd ⟨n, hspells, hlt⟩ h

theorem lasts_of_not_accepted (hspells : Text.Spells p n) (hlt : n < 2 ^ 64) (ha : ¬accepted n) :
    Lasts b c v what p accepted (b.reportOnly ⟨false, some { c with output := none }⟩
      [.executing v c.text, .commandFailed c.text (CommandError.countdownOutOfRange n).message]) where
  success          := iff_of_false nofun fun ⟨_, hm, _, haccepted⟩ => ha (hm.unique hspells ▸ haccepted)
  elapsed          := nofun
  refused hnone    := absurd ⟨n, hspells, hlt⟩ hnone
  outside _ hm _ _ := hm.unique hspells ▸ ⟨rfl, rfl⟩

theorem lasts_of_success (hspells : Text.Spells p n) (hlt : n < 2 ^ 64) (ha : accepted n)
    (hs : o.execution.success) (hnow : o.bench.timeline.now = b.timeline.now + n) :
    Lasts b c v what p accepted o where
  success            := iff_of_true hs ⟨n, hspells, hlt, ha⟩
  elapsed _ hm _     := hm.unique hspells ▸ hnow
  refused hnone      := absurd ⟨n, hspells, hlt⟩ hnone
  outside _ hm _ hna := absurd (hm.unique hspells ▸ ha) hna

end Outcome

namespace Interpreter

variable {i : Interpreter} {b : Bench} {c : Command} {v : Verb} {line p what : String} {token : Token}
  {trigger : Trigger} {e : CommandError} {d : Nat}

theorem plan_of_ok {instruction : Instruction} (h : c.instruction v = .ok instruction) (input : List Typed) :
    i.plan input c v = i.station.plan i.settleDelay input instruction := by
  simp only [plan, h]

theorem plan_of_error (h : c.instruction v = .error e) (input : List Typed) : i.plan input c v = .fail e := by
  simp only [plan, h]

-- A plan that is refused before it begins leaves everything as it was.
theorem execute_of_fail (hl : ¬b.isCancelled token) (hc : Line.ofString line = .command c)
    (hv : Verb.ofName? c.name = some v) (he : i.plan b.input c v = .fail e) (trigger : Trigger) :
    i.execute b line token trigger = some (b.reportOnly ⟨false, some { c with output := none }⟩
      [.executing v c.text, .commandFailed c.text e.message]) := by
  have hfollow : b.timeline.follow token (Plan.fail e).effects = some ⟨[], true, b.timeline⟩ := rfl
  rw [execute_of_command hl hc hv, runCommand_eq, reportOnly_eq_advance, he, hfollow, Option.map_some, outcome, he]
  rfl

-- A plan that is done takes as long as its effects.
theorem execute_of_done (hl : ¬b.isCancelled token) (hc : Line.ofString line = .command c)
    (hv : Verb.ofName? c.name = some v) (hd : Effect.span? (i.plan b.input c v).effects = some d)
    (hdone : (i.plan b.input c v).verdict = .done) (hcalm : b.timeline.CalmUntil token (b.timeline.now + d))
    (trigger : Trigger) :
    ∃ u, i.execute b line token trigger =
        some (i.outcome b c v trigger ⟨(i.plan b.input c v).effects, true, u⟩) ∧
      (i.outcome b c v trigger ⟨(i.plan b.input c v).effects, true, u⟩).execution.success ∧
      (i.outcome b c v trigger ⟨(i.plan b.input c v).effects, true, u⟩).bench.timeline = u ∧
      u.now = b.timeline.now + d := by
  have ⟨u, hu, hnow⟩ := runCommand_of_calm trigger hl hd hcalm
  have hending : Ending.ofVerdict true (i.plan b.input c v).verdict = .completed := by rw [hdone]; rfl
  refine ⟨u, (execute_of_command hl hc hv).trans hu, ?_, ?_, hnow⟩
  · simp only [outcome, hending]
    rfl
  · simp only [outcome, hending]
    rfl

theorem exists_execute_lasts {f : Nat → Instruction} {accepted : Nat → Prop} (hl : ¬b.isCancelled token)
    (hc : Line.ofString line = .command c) (hv : Verb.ofName? c.name = some v) (hp : c.parameter? 0 = some p)
    (hgives : c.Gives v what f)
    (hdone : ∀ n, accepted n →
      Effect.span? (i.station.plan i.settleDelay b.input (f n)).effects = some n ∧
        (i.station.plan i.settleDelay b.input (f n)).verdict = .done)
    (hfail : ∀ n, ¬accepted n → i.station.plan i.settleDelay b.input (f n) = .fail (.countdownOutOfRange n))
    (hcalm : ∀ n, Text.Spells p n → b.timeline.CalmUntil token (b.timeline.now + n)) (trigger : Trigger) :
    ∃ o, i.execute b line token trigger = some o ∧ o.Lasts b c v what p accepted := by
  by_cases hnumber : ∃ n, Text.Spells p n ∧ n < 2 ^ 64
  case neg =>
    have hplan : i.plan b.input c v = .fail (.invalidParameter what p) :=
      plan_of_error (hgives.error _ (Command.duration_of_not_spells hp hnumber)) b.input
    exact ⟨_, execute_of_fail hl hc hv hplan trigger, Outcome.lasts_of_not_spells hnumber⟩
  case pos =>
    have ⟨n, hspells, hlt⟩ := hnumber
    have hplan : i.plan b.input c v = i.station.plan i.settleDelay b.input (f n) :=
      plan_of_ok (hgives.ok n (Command.duration_of_spells hp hspells hlt)) b.input
    by_cases ha : accepted n
    case neg =>
      have hfail := hplan.trans (hfail n ha)
      exact ⟨_, execute_of_fail hl hc hv hfail trigger, Outcome.lasts_of_not_accepted hspells hlt ha⟩
    case pos =>
      have ⟨hspan, hverdict⟩ := hdone n ha
      rw [← hplan] at hspan hverdict
      have ⟨u, ho, hsuccess, hu, hnow⟩ := execute_of_done hl hc hv hspan hverdict (hcalm n hspells) trigger
      exact ⟨_, ho, Outcome.lasts_of_success hspells hlt ha hsuccess ((congrArg (·.now) hu).trans hnow)⟩

-- A line that succeeds was its command, with whatever was captured.
theorem exists_output_of_success {o : Outcome} (ho : i.execute b line token trigger = some o)
    (hs : o.execution.success) (hc : Line.ofString line = .command c) :
    ∃ output, o.execution.command = some { c with output } := by
  by_cases hl : b.isCancelled token
  case pos =>
    rw [execute_of_isCancelled hl] at ho
    cases ho
    cases hs
  case neg =>
    rcases outcome_cases hl ho with ⟨hnone, _⟩ | ⟨_, _, _, rfl⟩ | ⟨c', _, _, hc', _, _, rfl⟩
    · rw [hc] at hnone
      cases hnone
    · cases hs
    · cases hc.symm.trans hc'
      exact ⟨_, rfl⟩

-- A wait shows its duration as it was written.
theorem describe_of_wait {o : Outcome} (ho : i.execute b line token trigger = some o) (hs : o.execution.success)
    (hc : Line.ofString line = .command c) (hname : c.name = "WAIT") (hp : c.parameter? 0 = some p) :
    o.execution.describe = "Waited " ++ p ++ " ms" := by
  have ⟨output, hcommand⟩ := exists_output_of_success ho hs hc
  have hv : Verb.ofName? c.name = some .wait := Verb.ofName?_eq_some_iff.2 hname
  have hp' : Command.parameter? { c with output } 0 = some p := hp
  simp only [Execution.describe, hs, hcommand, hv, hp']
  rfl

end Interpreter

-- The duration of a wait, or of a countdown, is a text of digits, below the limit of a machine word, with a plus sign
-- in front at most. The line takes as long as the digits say, and a wait is recorded with its text as it was written.
-- Every other text is refused at once. A countdown on a surface may be refused for its length as well, but a plain one
-- not.
theorem durations_are_taken_as_written :
    (∀ (i : Interpreter) (b : Bench) (line : String) (c : Command) (p : String) (token : Token) (trigger : Trigger),
      Line.ofString line = .command c → c.parameter? 0 = some p → ¬b.isCancelled token →
      (∀ n, Text.Spells p n → b.timeline.CalmUntil token (b.timeline.now + n)) →
      (c.name = "WAIT" → ∃ o, i.execute b line token trigger = some o ∧
        o.Lasts b c .wait "wait duration" p fun _ => True) ∧
      (c.name = "SHOW_COUNTDOWN" → ∃ o, i.execute b line token trigger = some o ∧
        o.Lasts b c .showCountdown "countdown duration" p
          fun n => i.station.showsCountdowns → 1 ≤ n ∧ n ≤ 1200000)) ∧
    (∀ text reason, (Event.commandFailed text reason).level = .error) ∧
    ∀ (r : Runner) (b : Bench) (trigger : Trigger) (token : Token) (row : Row) (o : RowOutcome) (c : Command)
      (p : String), r.row b trigger token row = some o → Line.ofString row.text = .command c → c.name = "WAIT" →
      c.parameter? 0 = some p → o.record.success → o.record.output = "Waited " ++ p ++ " ms" := by
  refine ⟨?lines, fun _ _ => rfl, ?records⟩
  case lines =>
    intro i b line c p token trigger hc hp hl hcalm
    constructor
    case left =>
      intro hname
      have hv : Verb.ofName? c.name = some .wait := Verb.ofName?_eq_some_iff.2 hname
      exact Interpreter.exists_execute_lasts hl hc hv hp c.gives_wait (fun _ _ => ⟨rfl, rfl⟩)
        (fun _ h => h.elim trivial) hcalm trigger
    case right =>
      intro hname
      have hv : Verb.ofName? c.name = some .showCountdown := Verb.ofName?_eq_some_iff.2 hname
      refine Interpreter.exists_execute_lasts hl hc hv hp c.gives_countdown ?done ?fail hcalm trigger
      case done =>
        intro n haccepted
        by_cases hshown : i.station.showsCountdowns
        case pos =>
          have haccepts := Countdown.accepts_iff.2 (haccepted hshown)
          rw [Station.plan_countdown, Station.countdown_of_shown hshown]
          exact ⟨Station.span?_showCountdown haccepts, by rw [Station.showCountdown_of_accepts haccepts]⟩
        case neg =>
          rw [Station.plan_countdown, Station.countdown_of_plain hshown]
          exact ⟨rfl, rfl⟩
      case fail =>
        intro n hrejected
        have ⟨hshown, hrange⟩ := Classical.not_imp.1 hrejected
        rw [Station.plan_countdown, Station.countdown_of_shown hshown]
        exact Station.showCountdown_of_not_accepts (mt Countdown.accepts_iff.1 hrange)
  case records =>
    intro r b trigger token row o c p ho hc hname hp hs
    obtain ⟨x, hx, rfl⟩ := Runner.exists_execute_of_row ho
    exact Interpreter.describe_of_wait hx hs hc hname hp

-- A sign and zeros in front, with a parameter that nobody reads behind. A number that fits no word, a digit that is
-- none of the decimal ones, and a countdown that is too long by a millisecond are refused.
theorem durations_are_taken_as_written_with_sign :
    let i : Interpreter := ⟨.ofSettings .instant, 100⟩
    let (r, b) := Runner.open i ⟨.run, false⟩ .accepting ⟨0⟩ {}
    (∃ o, i.execute b "WAIT ^ T ^ +007 ^ X // n" r.token r.abort = some o ∧ o.execution.success ∧
      o.bench.timeline.now = 7) ∧
    (∃ o, i.execute b "WAIT ^ T ^ 18446744073709551616 ^ X" r.token r.abort = some o ∧ ¬o.execution.success ∧
      o.bench = b) ∧
    (∃ o, i.execute b "WAIT ^ T ^ ٣ ^ X" r.token r.abort = some o ∧ o.trace =
      [.report .main (.executing .wait "WAIT ^ T ^ ٣ ^ X"),
        .report .main (.commandFailed "WAIT ^ T ^ ٣ ^ X" "invalid wait duration: '٣'")]) ∧
    (∃ o, i.execute b "SHOW_COUNTDOWN ^ T ^ 1200001 ^ X" r.token r.abort = some o ∧ ¬o.execution.success ∧
      o.bench = b) ∧
    ∃ o, r.row b r.abort r.token ⟨0, "WAIT ^ T ^ +007 ^ X // n"⟩ = some o ∧ o.record.output = "Waited +007 ms" := by
  intro i
  let r := (Runner.open i ⟨.run, false⟩ .accepting ⟨0⟩ {}).1
  let b := (Runner.open i ⟨.run, false⟩ .accepting ⟨0⟩ {}).2
  have ⟨hlines, _, hrecords⟩ := durations_are_taken_as_written
  have hseven : Text.Spells "+007" 7 ∧ 7 < 2 ^ 64 := Text.natural?_eq_some_iff.1 (by decide +kernel)
  have hlive : ¬b.isCancelled r.token := by decide +kernel
  let written : Command := ⟨"WAIT", "T", ["+007", "X"], "WAIT ^ T ^ +007 ^ X", none⟩
  have hwritten : Line.ofString "WAIT ^ T ^ +007 ^ X // n" = .command written := by decide +kernel
  refine ⟨?sign, ?large, ?foreign, ?long, ?record⟩
  case sign =>
    have ⟨o, ho, hlasts⟩ := (hlines i b _ written "+007" r.token r.abort hwritten rfl hlive fun _ _ => nofun).left rfl
    have hsuccess : o.execution.success := hlasts.success.2 ⟨7, hseven.left, hseven.right, trivial⟩
    exact ⟨o, ho, hsuccess, hlasts.elapsed 7 hseven.left hsuccess⟩
  case large =>
    have hnone := Text.natural?_eq_none_iff.1 (by decide +kernel : Text.natural? "18446744073709551616" = none)
    have ⟨o, ho, hlasts⟩ := (hlines i b "WAIT ^ T ^ 18446744073709551616 ^ X"
      ⟨"WAIT", "T", ["18446744073709551616", "X"], "WAIT ^ T ^ 18446744073709551616 ^ X", none⟩ _ r.token r.abort
      (by decide +kernel) rfl hlive fun _ _ => nofun).left rfl
    refine ⟨o, ho, fun hsuccess => ?_, (hlasts.refused hnone).left⟩
    have ⟨n, hspells, hlt, _⟩ := hlasts.success.1 hsuccess
    exact hnone ⟨n, hspells, hlt⟩
  case foreign =>
    have hnone := Text.natural?_eq_none_iff.1 (by decide +kernel : Text.natural? "٣" = none)
    have ⟨o, ho, hlasts⟩ := (hlines i b "WAIT ^ T ^ ٣ ^ X" ⟨"WAIT", "T", ["٣", "X"], "WAIT ^ T ^ ٣ ^ X", none⟩ _ r.token
      r.abort (by decide +kernel) rfl hlive fun _ _ => nofun).left rfl
    exact ⟨o, ho, (hlasts.refused hnone).right⟩
  case long =>
    have ⟨hspells, hlt⟩ := Text.natural?_eq_some_iff.1 (by decide +kernel : Text.natural? "1200001" = some 1200001)
    have ⟨o, ho, hlasts⟩ := (hlines i b "SHOW_COUNTDOWN ^ T ^ 1200001 ^ X"
      ⟨"SHOW_COUNTDOWN", "T", ["1200001", "X"], "SHOW_COUNTDOWN ^ T ^ 1200001 ^ X", none⟩ _ r.token r.abort
      (by decide +kernel) rfl hlive fun _ _ => nofun).right rfl
    have houtside : ¬(i.station.showsCountdowns → 1 ≤ 1200001 ∧ 1200001 ≤ 1200000) := by decide +kernel
    refine ⟨o, ho, fun hsuccess => ?_, (hlasts.outside _ hspells hlt houtside).left⟩
    have ⟨n, hn, _, hfits⟩ := hlasts.success.1 hsuccess
    exact houtside (hn.unique hspells ▸ hfits)
  case record =>
    have hend : (r.row b r.abort r.token ⟨0, "WAIT ^ T ^ +007 ^ X // n"⟩).map (·.record.success) = some true := by
      decide +kernel
    have ⟨o, ho, hsuccess⟩ := Option.map_eq_some_iff.1 hend
    exact ⟨o, ho, hrecords r b r.abort r.token _ o written "+007" ho hwritten rfl rfl hsuccess⟩

end StationScript
