import StationScript.Proofs.Alike

namespace StationScript

namespace Trace

-- The event with which a trace ends on the main thread.
def closing? (t : Trace) : Option Event :=
  (t.events .main).getLast?

end Trace

-- The last event of a command.
def Ending.closing (text : String) : Ending → Event
  | completed             => .completed text
  | failed e              => .commandFailed text e.message
  | panicked              => .handlerPanicked text
  | cancelled | declined _ => .cancelled text

theorem Ending.getLast?_events {ending : Ending} {text : String} :
    (ending.events text).getLast? = some (ending.closing text) := by
  cases ending <;> rfl

namespace Plan

variable {p : Plan}

-- A plan that fails before it does anything.
structure Refused (p : Plan) : Prop where
  verdict : (∃ e, p.verdict = .failed e) ∨ p.verdict = .panicked
  effects : ∃ events : List Event, p.effects = events.map (.report .main)

-- A plan that performs one action if nothing cuts it.
structure Performs (p : Plan) : Prop where
  verdict : p.verdict = .done
  actions : ∃ a, Trace.actions p.effects = [a]

theorem refused_fail (e : CommandError) : (fail e).Refused :=
  ⟨.inl ⟨e, rfl⟩, [], rfl⟩

theorem Refused.ending (h : p.Refused) (text : String) (trigger : Trigger) (t : Timeline) :
    (Ending.ofVerdict true p.verdict).success = false ∧
      ((Ending.ofVerdict true p.verdict).closing text).level = .error ∧
      (Ending.ofVerdict true p.verdict).signal trigger t = t := by
  rcases h.verdict with ⟨e, hv⟩ | hv <;> rw [hv] <;> exact ⟨rfl, rfl, rfl⟩

theorem Refused.after_report (h : p.Refused) (event : Event) : (p.after [.report .main event]).Refused where
  verdict := h.verdict
  effects := by
    have ⟨events, heq⟩ := h.effects
    exact ⟨event :: events, congrArg (_ :: ·) heq⟩

theorem Performs.after_report (h : p.Performs) (event : Event) : (p.after [.report .main event]).Performs where
  verdict := h.verdict
  actions := h.actions

theorem Refused.andThen (h : p.Refused) (further : List Effect) : (p.andThen further).Refused := by
  have hsame : p.andThen further = p := by
    unfold Plan.andThen
    split
    · rename_i hdone
      rcases h.verdict with ⟨_, hv⟩ | hv <;> rw [hv] at hdone <;> cases hdone
    · rfl
  rwa [hsame]

theorem Performs.andThen (h : p.Performs) {further : List Effect} (hf : Trace.actions further = []) :
    (p.andThen further).Performs := by
  have ⟨a, ha⟩ := h.actions
  have hthen : p.andThen further = { p with effects := p.effects ++ further } := by
    simp only [Plan.andThen, h.verdict]
  rw [hthen]
  exact ⟨h.verdict, a, by rw [Trace.actions_append, ha, hf]; rfl⟩

end Plan

namespace Station

variable {st : Station} {policy : DialogPolicy} {delay : Nat} {input : List Typed} {instruction : Instruction}

theorem alwaysReplies_of_scripted (h : st.presenter = .scripted policy) : st.AlwaysReplies := by
  intro input instruction hn
  cases instruction
  case dialog => simp [NeverAnswers, h, Presenter.ask] at hn
  all_goals exact hn

-- An instruction for which nothing is entered in the journal: a wait, or a countdown that nobody shows.
def Silent (st : Station) : Instruction → Prop
  | .wait _      => True
  | .countdown _ => st.showsCountdowns = false
  | _            => False

theorem showCountdown_cases (milliseconds : Nat) :
    (showCountdown milliseconds).Performs ∨ (showCountdown milliseconds).Refused := by
  unfold showCountdown
  split
  case isTrue =>
    have hticks : Trace.actions ((Countdown.ticks milliseconds).flatMap fun t =>
        [.report .main (.countdown t.seconds), .wait t.length]) = [] := by
      simp [Trace.actions, List.filterMap_eq_nil_iff]
      rintro e tick - (rfl | rfl) <;> rfl
    exact .inl ⟨rfl, _, by rw [Trace.actions_append, hticks]; rfl⟩
  case isFalse => exact .inr (Plan.refused_fail _)

theorem controller_move_cases (controller : Controller) (component : Component) (point : String) :
    (controller.move component point false).Performs ∨ (controller.move component point false).Refused := by
  cases controller
  case recording => exact .inl ⟨rfl, _, rfl⟩
  case faulty    => exact .inr ⟨.inr rfl, [], rfl⟩
  case axis points travel =>
    simp only [Controller.move]
    split
    case isTrue  => exact .inl ⟨rfl, _, rfl⟩
    case isFalse => exact .inr (Plan.refused_fail _)

-- A dialog that the policy answers performs itself. Only a question can be declined.
theorem dialog_cases (h : st.presenter = .scripted policy) (kind : DialogKind) (title message : String)
    (input : List Typed) :
    (st.dialog kind title message input).Performs ∨
      st.AnsweredNo input (.dialog kind title message) ∧
        Trace.actions (st.dialog kind title message input).effects = [.dialog .yesNo title] ∧
        ∃ declined, (st.dialog kind title message input).verdict = .declined declined := by
  have hask : st.presenter.ask st.dialogThread kind title message input =
      ⟨[.record (.dialog kind title), .report st.dialogThread (.dialogAnswered title message (policy.answer kind))],
        .answered (policy.answer kind)⟩ := by
    rw [h]
    rfl
  have hperforms (hdone : ofAnswer title kind (policy.answer kind) = ⟨[], .done⟩) :
      (st.dialog kind title message input).Performs := by
    simp only [dialog, hask, ofReply, hdone]
    exact ⟨rfl, _, rfl⟩
  cases kind
  case ok => exact .inl (hperforms rfl)
  case yesNo =>
    cases policy
    case no =>
      refine .inr ⟨by simp only [AnsweredNo, hask]; rfl, ?_, title, ?_⟩
      all_goals simp only [dialog, hask]; rfl
    all_goals exact .inl (hperforms rfl)

-- What becomes of an instruction if nothing cuts it.
inductive Shape (st : Station) (input : List Typed) (instruction : Instruction) (p : Plan) : Prop
  | idle (hs : st.Silent instruction) (hv : p.verdict = .done) (ha : Trace.actions p.effects = [])
  | performs (hs : ¬st.Silent instruction) (hp : p.Performs)
  | refused (hp : p.Refused)
  | declined (hno : st.AnsweredNo input instruction) (title declined : String)
    (ha : Trace.actions p.effects = [.dialog .yesNo title]) (hv : p.verdict = .declined declined)

theorem plan_shape (h : st.presenter = .scripted policy) (delay : Nat) (input : List Typed)
    (instruction : Instruction) : st.Shape input instruction (st.plan delay input instruction) := by
  cases instruction
  case wait => exact .idle trivial rfl rfl
  case countdown milliseconds =>
    simp only [plan, countdown]
    split
    case isFalse hs => exact .idle (by simpa [Silent] using hs) rfl rfl
    case isTrue hs =>
      cases showCountdown_cases milliseconds
      case inl hp => exact .performs (by simp [Silent, hs]) hp
      case inr hr => exact .refused hr
  case dialog kind title message =>
    rcases dialog_cases h kind title message input with hp | ⟨hno, ha, declined, hv⟩
    · exact .performs id hp
    · exact .declined hno title declined ha hv
  case move component point =>
    simp only [plan, move]
    cases st.controller? component
    case none => exact .refused (Plan.refused_fail _)
    case some controller =>
      cases controller_move_cases controller component point
      case inl hp => exact .performs id (hp.after_report _)
      case inr hr => exact .refused (hr.after_report _)
  case laser => exact .performs id ⟨rfl, _, rfl⟩
  case read channel =>
    have hp : (lookUp channel).Performs := ⟨rfl, _, rfl⟩
    exact .performs id (hp.andThen rfl)
  case setOutput | clearOutput =>
    simp only [plan, setOutput, clearOutput]
    split
    case isTrue  => exact .performs id (Plan.Performs.andThen ⟨rfl, _, rfl⟩ rfl)
    case isFalse => exact .refused ((Plan.refused_fail _).andThen _)
  case extendSlide | retractSlide =>
    simp only [plan, extendSlide, retractSlide]
    split
    case isTrue  => exact .performs id ⟨rfl, _, rfl⟩
    case isFalse => exact .refused (Plan.refused_fail _)

-- An instruction that switches a known output and then waits for it to settle.
theorem plan_of_switching (h : st.switching instruction ≠ []) (delay : Nat) (input : List Typed) :
    ∃ name change event action,
    (instruction = .setOutput name ∧ action = .setOutput name ∨
      instruction = .clearOutput name ∧ action = .clearOutput name) ∧
    (st.plan delay input instruction).effects =
      [.change change, .report .main event, .record action, .wait delay] := by
  cases instruction
  case setOutput name =>
    have hk : st.outputs.contains name = true := by simpa [switching] using h
    exact ⟨name, _, _, _, .inl ⟨rfl, rfl⟩, by simp only [plan, setOutput, hk]; rfl⟩
  case clearOutput name =>
    have hk : st.outputs.contains name = true := by simpa [switching] using h
    exact ⟨name, _, _, _, .inr ⟨rfl, rfl⟩, by simp only [plan, clearOutput, hk]; rfl⟩
  all_goals exact absurd rfl h

end Station

-- An output that is switched is cut while it settles, if it is cut.
theorem Timeline.follow_cut_settling {t : Timeline} {token : Token} {change : Change} {event : Event}
    {action : Action} {n : Nat} {p : Progress} (hl : ¬t.isCancelled token) (hs : ∀ f ∈ t.schedule, t.now ≤ f.instant)
    (h : t.follow token [.change change, .report .main event, .record action, .wait n] = some p)
    (hf : p.finished = false) :
    p.trace.actions = [action] ∧ p.timeline.now < t.now + n := by
  replace h : (((t.follow token [.wait n]).map (.after (.record action))).map (.after (.report .main event))).map
    (.after (.change change)) = some p := h
  rw [follow_cons_wait] at h
  split at h
  case isTrue => cases h; cases hf
  case isFalse hcut =>
    cases h
    exact ⟨rfl, now_lt_of_wait_cut hl hs (by simpa using hcut)⟩

-- A line for which nothing is entered in the journal even if it succeeds.
def Interpreter.Silent (i : Interpreter) (line : String) : Prop :=
  (Line.ofString line).command? = none ∨
    ∃ instruction, Interpreter.instruction? line = some instruction ∧ i.station.Silent instruction

-- The outcome of a line that switched an output and was cut before the output had settled.
def Outcome.CutSettling (i : Interpreter) (b : Bench) (line : String) (o : Outcome) : Prop :=
  ∃ name, (Interpreter.instruction? line = some (.setOutput name) ∧ o.trace.actions = [.setOutput name] ∨
      Interpreter.instruction? line = some (.clearOutput name) ∧ o.trace.actions = [.clearOutput name]) ∧
    o.bench.timeline.now < b.timeline.now + i.settleDelay

-- The outcome of a line, as far as actions and errors go.
structure Outcome.Atomic (i : Interpreter) (b : Bench) (line : String) (o : Outcome) : Prop where
  most : o.trace.actions.length ≤ 1
  silent : o.execution.success → i.Silent line → o.trace.actions = []
  one : o.execution.success → ¬i.Silent line → o.trace.actions.length = 1
  -- After an error everything is as before, the clock and the flags included.
  error : ∀ event, o.trace.closing? = some event → event.level = .error →
    ¬o.execution.success ∧ o.trace.actions = [] ∧ o.bench = b
  cancelled : ∀ text, o.trace.closing? = some (.cancelled text) →
    ¬o.execution.success ∧ (o.trace.actions = [] ∨ o.CutSettling i b line ∨
      i.AnsweredNo b.input line ∧ ∃ title, o.trace.actions = [.dialog .yesNo title])
  -- There is no other way to fail.
  failure : ¬o.execution.success →
    (∃ event, o.trace.closing? = some event ∧ event.level = .error) ∨
      ∃ text, o.trace.closing? = some (.cancelled text)

namespace Outcome

variable {i : Interpreter} {b : Bench} {line : String} {o : Outcome}

theorem Atomic.of_success (hs : o.execution.success)
    (hc : ∀ event, o.trace.closing? = some event → event.level ≠ .error ∧ ∀ text, event ≠ .cancelled text)
    (ha : i.Silent line ∧ o.trace.actions = [] ∨ ¬i.Silent line ∧ ∃ a, o.trace.actions = [a]) :
    o.Atomic i b line where
  most := by
    rcases ha with ⟨_, ha⟩ | ⟨_, a, ha⟩ <;> simp [ha]
  silent _ hsilent := by
    rcases ha with ⟨_, ha⟩ | ⟨hn, _⟩
    · exact ha
    · exact absurd hsilent hn
  one _ hsilent := by
    rcases ha with ⟨hs, _⟩ | ⟨_, a, ha⟩
    · exact absurd hs hsilent
    · rw [ha]; rfl
  error event he hl := absurd hl (hc event he).left
  cancelled text he := absurd rfl ((hc _ he).right text)
  failure hf := absurd hs hf

theorem Atomic.of_error {event : Event} (hf : ¬o.execution.success) (hc : o.trace.closing? = some event)
    (hl : event.level = .error) (ha : o.trace.actions = []) (hb : o.bench = b) : o.Atomic i b line where
  most := by simp [ha]
  silent hs := absurd hs hf
  one hs := absurd hs hf
  error _ _ _ := ⟨hf, ha, hb⟩
  cancelled text he := by
    cases hc.symm.trans he
    cases hl
  failure _ := .inl ⟨event, hc, hl⟩

theorem Atomic.of_cancelled {text : String} (hf : ¬o.execution.success)
    (hc : o.trace.closing? = some (.cancelled text)) (hm : o.trace.actions.length ≤ 1)
    (ha : o.trace.actions = [] ∨ o.CutSettling i b line ∨
      i.AnsweredNo b.input line ∧ ∃ title, o.trace.actions = [.dialog .yesNo title]) : o.Atomic i b line where
  most := hm
  silent hs := absurd hs hf
  one hs := absurd hs hf
  error event he hl := by
    cases hc.symm.trans he
    cases hl
  cancelled _ _ := ⟨hf, ha⟩
  failure _ := .inr ⟨text, hc⟩

end Outcome

namespace Interpreter

variable {i : Interpreter} {b : Bench} {c : Command} {v : Verb} {line : String} {token : Token}
  {trigger : Trigger} {p : Progress} {policy : DialogPolicy}

theorem outcome_closing? : (i.outcome b c v trigger p).trace.closing? =
    some ((Ending.ofVerdict p.finished (i.plan b.input c v).verdict).closing c.text) := by
  simp only [outcome, Trace.closing?, Trace.events_append, Trace.events_reports, List.getLast?_append,
    Ending.getLast?_events]
  rfl

theorem outcome_success : (i.outcome b c v trigger p).execution.success =
    (Ending.ofVerdict p.finished (i.plan b.input c v).verdict).success :=
  rfl

-- A command that was cut after it performed something was cut while an output settled.
theorem outcome_cutSettling (hl : ¬b.isCancelled token)
    (hs : ∀ f ∈ b.timeline.schedule, b.timeline.now ≤ f.instant) (hc : Line.ofString line = .command c)
    (hv : Verb.ofName? c.name = some v) (hp : b.timeline.follow token (i.plan b.input c v).effects = some p)
    (hf : p.finished = false) (hne : i.switching line ≠ []) :
    (i.outcome b c v trigger p).CutSettling i b line := by
  unfold switching at hne
  cases hi : instruction? line
  case none => rw [hi] at hne; exact absurd rfl hne
  case some instruction =>
    rw [hi] at hne
    have ⟨name, change, event, action, hname, heffects⟩ :=
      Station.plan_of_switching hne i.settleDelay b.input
    rw [plan_of_instruction hc hv hi, heffects] at hp
    have ⟨hactions, hnow⟩ := Timeline.follow_cut_settling hl hs hp hf
    refine ⟨name, ?_, by rw [outcome_now]; exact hnow⟩
    rw [outcome_actions, hactions, hi]
    rcases hname with ⟨rfl, rfl⟩ | ⟨rfl, rfl⟩
    · exact .inl ⟨rfl, rfl⟩
    · exact .inr ⟨rfl, rfl⟩

-- A command that was cut performed nothing, or switched an output that was to settle.
theorem outcome_atomic_of_cut {e : Effect} {rest : List Effect} (hl : ¬b.isCancelled token)
    (hs : ∀ f ∈ b.timeline.schedule, b.timeline.now ≤ f.instant) (hc : Line.ofString line = .command c)
    (hv : Verb.ofName? c.name = some v) (hp : b.timeline.follow token (i.plan b.input c v).effects = some p)
    (hf : p.finished = false) (hes : (i.plan b.input c v).effects = p.trace ++ e :: rest) (hw : e.IsWait) :
    (i.outcome b c v trigger p).Atomic i b line := by
  have hactions : (i.outcome b c v trigger p).trace.actions = i.switching line :=
    outcome_actions.trans (actions_of_cut hc hv hes hw)
  have hending : Ending.ofVerdict p.finished (i.plan b.input c v).verdict = .cancelled := by rw [hf]; rfl
  have hfail : ¬(i.outcome b c v trigger p).execution.success := by rw [outcome_success, hending]; exact nofun
  have hclosing : (i.outcome b c v trigger p).trace.closing? = some (.cancelled c.text) := by
    rw [outcome_closing?, hending]
    rfl
  by_cases hne : i.switching line = []
  case pos => exact .of_cancelled hfail hclosing (by simp [hactions, hne]) (.inl (hactions.trans hne))
  case neg =>
    have hcut : (i.outcome b c v trigger p).CutSettling i b line := outcome_cutSettling hl hs hc hv hp hf hne
    have ⟨name, hname, _⟩ := hcut
    refine .of_cancelled hfail hclosing ?_ (.inr (.inl hcut))
    rcases hname with ⟨_, hone⟩ | ⟨_, hone⟩ <;> rw [hone] <;> exact Nat.le_refl 1

theorem follow_of_refused (hr : (i.plan b.input c v).Refused) :
    b.timeline.follow token (i.plan b.input c v).effects = some ⟨(i.plan b.input c v).effects, true, b.timeline⟩ := by
  obtain ⟨events, heffects⟩ := hr.effects
  apply Timeline.follow_of_instant
  rw [heffects]
  simp [Effect.IsInstant]

-- A command that was refused changed nothing.
theorem outcome_of_refused (hr : (i.plan b.input c v).Refused) (trigger : Trigger)
    (hp : b.timeline.follow token (i.plan b.input c v).effects = some p) :
    ¬(i.outcome b c v trigger p).execution.success ∧ (i.outcome b c v trigger p).trace.actions = [] ∧
      (i.outcome b c v trigger p).bench = b := by
  cases hp.symm.trans (follow_of_refused hr)
  obtain ⟨events, heffects⟩ := hr.effects
  obtain ⟨hfail, _, hsignal⟩ := hr.ending c.text trigger b.timeline
  let all := .executing v c.text :: events ++
    (Ending.ofVerdict true (i.plan b.input c v).verdict).events c.text
  have htrace : (i.outcome b c v trigger ⟨(i.plan b.input c v).effects, true, b.timeline⟩).trace =
      all.map (.report .main) := by
    simp [outcome, all, heffects]
  refine ⟨by rw [outcome_success, hfail]; exact Bool.false_ne_true, ?_, ?_⟩
  · rw [htrace, Trace.actions_reports]
  · have hbench : (i.outcome b c v trigger ⟨(i.plan b.input c v).effects, true, b.timeline⟩).bench =
        b.advance (all.map (.report .main)) b.timeline := by
      rw [← htrace]
      exact congrArg (b.advance _) hsignal
    exact hbench.trans Bench.advance_reports

theorem outcome_atomic_of_refused (hr : (i.plan b.input c v).Refused)
    (hp : b.timeline.follow token (i.plan b.input c v).effects = some p) :
    (i.outcome b c v trigger p).Atomic i b line := by
  have ⟨hfail, hactions, hbench⟩ := outcome_of_refused hr trigger hp
  cases hp.symm.trans (follow_of_refused hr)
  obtain ⟨_, hlevel, _⟩ := hr.ending c.text trigger b.timeline
  exact .of_error hfail outcome_closing? hlevel hactions hbench

theorem outcome_atomic_of_done (hf : p.finished = true) (hv : (i.plan b.input c v).verdict = .done)
    (ha : i.Silent line ∧ p.trace.actions = [] ∨ ¬i.Silent line ∧ ∃ a, p.trace.actions = [a]) :
    (i.outcome b c v trigger p).Atomic i b line := by
  have hending : Ending.ofVerdict p.finished (i.plan b.input c v).verdict = .completed := by rw [hf, hv]; rfl
  refine .of_success (by rw [outcome_success, hending]; rfl) ?_ (by rwa [outcome_actions])
  intro event hevent
  rw [outcome_closing?, hending] at hevent
  cases hevent
  exact ⟨nofun, nofun⟩

-- A command of which nothing was cut did all that its plan says.
theorem outcome_atomic_of_finished (hpolicy : i.station.presenter = .scripted policy)
    (hc : Line.ofString line = .command c) (hv : Verb.ofName? c.name = some v)
    (hp : b.timeline.follow token (i.plan b.input c v).effects = some p) (hf : p.finished = true)
    (htrace : p.trace = (i.plan b.input c v).effects) : (i.outcome b c v trigger p).Atomic i b line := by
  have hcommand : (Line.ofString line).command? ≠ none := by rw [hc]; exact nofun
  cases hi : instruction? line
  case none =>
    -- The command says too little, or the wrong thing.
    have hrefused : (i.plan b.input c v).Refused := by
      rw [instruction?_eq hc hv] at hi
      unfold plan
      cases hinstr : c.instruction v
      case error e => exact Plan.refused_fail e
      case ok      => rw [hinstr] at hi; cases hi
    exact outcome_atomic_of_refused hrefused hp
  case some instruction =>
    have hsilent : i.Silent line ↔ i.station.Silent instruction := by
      constructor
      · rintro (hnone | ⟨_, hi', hs⟩)
        · exact absurd hnone hcommand
        · cases hi.symm.trans hi'; exact hs
      · exact fun hs => .inr ⟨instruction, hi, hs⟩
    have hshape := Station.plan_shape hpolicy i.settleDelay b.input instruction
    rw [← plan_of_instruction hc hv hi] at hshape
    cases hshape
    case idle hs hverdict ha =>
      rw [← htrace] at ha
      exact outcome_atomic_of_done hf hverdict (.inl ⟨hsilent.2 hs, ha⟩)
    case performs hs hperforms =>
      have ha := hperforms.actions
      rw [← htrace] at ha
      exact outcome_atomic_of_done hf hperforms.verdict (.inr ⟨fun h => hs (hsilent.1 h), ha⟩)
    case refused hr => exact outcome_atomic_of_refused hr hp
    case declined hno title declined ha hverdict =>
      have hending : Ending.ofVerdict p.finished (i.plan b.input c v).verdict = .declined declined := by
        rw [hf, hverdict]
        rfl
      have hactions : (i.outcome b c v trigger p).trace.actions = [.dialog .yesNo title] :=
        outcome_actions.trans (htrace ▸ ha)
      have hclosing : (i.outcome b c v trigger p).trace.closing? = some (.cancelled c.text) := by
        rw [outcome_closing?, hending]
        rfl
      exact .of_cancelled (by rw [outcome_success, hending]; exact nofun) hclosing (by simp [hactions])
        (.inr (.inr ⟨⟨instruction, hi, hno⟩, title, hactions⟩))

-- Whatever is scheduled, a line under a live token performs at most one action. A line that succeeds performs
-- exactly one, unless there is nothing to perform; one that ends with an error leaves everything as it was.
theorem execute_atomic {i : Interpreter} {b : Bench} {token : Token} {policy : DialogPolicy}
    (hp : i.station.presenter = .scripted policy) (hl : ¬b.isCancelled token)
    (hs : ∀ f ∈ b.timeline.schedule, b.timeline.now ≤ f.instant) (line : String) (trigger : Trigger) :
    ∃ o, i.execute b line token trigger = some o ∧ o.Atomic i b line := by
  obtain ⟨o, ho⟩ := exists_execute (Station.alwaysReplies_of_scripted hp) b line token trigger
  refine ⟨o, ho, ?_⟩
  rcases outcome_cases hl ho with ⟨hnone, rfl⟩ | ⟨c, _, _, rfl⟩ | ⟨c, v, p, hc, hv, hfollow, rfl⟩
  · have hclosing : (b.reportOnly ⟨true, none⟩ (Line.ofString line).warnings).trace.closing? =
        (Line.ofString line).warnings.getLast? := by
      simp [Bench.reportOnly, Trace.closing?]
    refine .of_success rfl ?_ (.inl ⟨.inl hnone, Trace.actions_reports⟩)
    intro event hevent
    rw [hclosing] at hevent
    cases hw : Line.ofString line <;> rw [hw] at hevent <;> cases hevent
    simp [Event.level]
  · have hclosing : (b.reportOnly ⟨false, some c⟩ [.unknownCommand c.name]).trace.closing? =
        some (.unknownCommand c.name) := rfl
    exact .of_error Bool.false_ne_true hclosing rfl rfl rfl
  · rcases Timeline.follow_split hfollow with ⟨hf, htrace⟩ | ⟨hf, e, rest, hes, hw⟩
    · exact outcome_atomic_of_finished hp hc hv hfollow hf htrace
    · exact outcome_atomic_of_cut hl hs hc hv hfollow hf hes hw

-- An output is given 100 milliseconds to settle, and is cut after 5 of them.
theorem execute_atomic_while_settling :
    let i : Interpreter := ⟨.ofSettings { dialog := .no }, 100⟩
    let b : Bench := { timeline := { signals := { opened := 1 }, schedule := [⟨5, ⟨0⟩⟩] } }
    ∃ o, i.execute b "SET_OUTPUT ^ UV_PLC1" ⟨[⟨0⟩]⟩ ⟨⟨0⟩⟩ = some o ∧
      ¬o.execution.success ∧ o.CutSettling i b "SET_OUTPUT ^ UV_PLC1" := by
  intro i b
  have hpolicy : i.station.presenter = .scripted .no := Station.ofSettings_presenter _
  have hlive : ¬b.isCancelled ⟨[⟨0⟩]⟩ := by decide
  have ⟨o, ho, hatomic⟩ := execute_atomic hpolicy hlive (by decide) "SET_OUTPUT ^ UV_PLC1" ⟨⟨0⟩⟩
  have hrun : (i.execute b "SET_OUTPUT ^ UV_PLC1" ⟨[⟨0⟩]⟩ ⟨⟨0⟩⟩).map
      (fun o => (o.trace.closing?, o.trace.actions)) =
        some (some (.cancelled "SET_OUTPUT ^ UV_PLC1"), [.setOutput "UV_PLC1"]) := by
    decide +kernel
  rw [ho] at hrun
  have ⟨hclosing, hactions⟩ := Prod.mk.inj (Option.some.inj hrun)
  have ⟨hfail, hcases⟩ := hatomic.cancelled _ hclosing
  refine ⟨o, ho, hfail, ?_⟩
  rcases hcases with hnone | hcut | ⟨_, _, hdialog⟩
  · cases hactions.symm.trans hnone
  · exact hcut
  · cases hactions.symm.trans hdialog

end Interpreter

end StationScript
