import StationScript.Proofs.Following
import StationScript.Station

namespace StationScript

-- An event that a station reports: what a device does, or what becomes of a dialog.
def Event.OfStation : Event → Prop
  | moving _ _ | reading _ _ | outputSet _ | outputCleared _ | slideActivated _ | slideDeactivated _ | axisMoving _ _
  | confirmationIgnored _ | laserSwitched _ | countdown _ | dialogAnswered _ _ _ | answerRejected => True
  | _ => False

-- An event that a device reports, or that tells what remains of a countdown.
def Event.OfDevice : Event → Prop
  | moving _ _ | reading _ _ | outputSet _ | outputCleared _ | slideActivated _ | slideDeactivated _ | axisMoving _ _
  | confirmationIgnored _ | laserSwitched _ | countdown _ => True
  | _ => False

-- An instruction that neither asks the operator anything nor reads a channel.
def Instruction.OfDevice : Instruction → Prop
  | dialog _ _ _ | read _ => False
  | _ => True

namespace Effect

-- An effect by which something is asked of a device, or waited for.
def OfDevice : Effect → Prop
  | report .main event => event.OfDevice
  | wait _ | change _ | record _ => True
  | _ => False

-- An effect that ends by itself and reports no declined dialog.
def IsPlain : Effect → Prop
  | waitForSignal | block | report _ (.declined _) => False
  | _ => True

-- An effect such as the plans of a station are made of: it publishes nothing, and what it captures is a reading.
def OfStation : Effect → Prop
  | publish _ => False
  | capture text => ∃ value unit, text = Reading.text value unit
  | _ => True

-- An effect that the plan of some instruction holds. A fault of the surface thread is reported there.
def Planned : Effect → Prop
  | report .surface (.surfacePanicked _) => True
  | report _ event => event.OfStation
  | e => e.OfStation

theorem Planned.ofStation {e : Effect} (h : e.Planned) : e.OfStation := by
  cases e
  case publish => exact h
  case capture => exact h
  all_goals trivial

theorem OfDevice.isPlain {e : Effect} (h : e.OfDevice) : e.IsPlain := by
  cases e
  case report thread event =>
    cases event
    case declined => cases thread <;> exact h
    all_goals trivial
  case waitForSignal | block => exact h
  all_goals trivial

theorem OfDevice.planned {e : Effect} (h : e.OfDevice) : e.Planned := by
  cases e
  case report thread event =>
    cases thread
    case main    => cases event <;> trivial
    case surface => exact h.elim
  case publish | capture => exact h.elim
  all_goals trivial

theorem IsPlain.duration?_isSome {e : Effect} (h : e.IsPlain) : e.duration?.isSome := by
  cases e <;> first | rfl | exact h.elim

theorem IsWait.not_isInstant {e : Effect} (h : e.IsWait) : ¬e.IsInstant := by
  cases e <;> first | exact id | exact h.elim

-- Effects that all end by themselves take some time together.
theorem span?_of_isPlain {es : List Effect} (h : ∀ e ∈ es, e.IsPlain) : ∃ d, span? es = some d := by
  induction es
  case nil => exact ⟨0, rfl⟩
  case cons e rest ih =>
    have ⟨n, hn⟩ := Option.isSome_iff_exists.1 (h e (List.mem_cons_self ..)).duration?_isSome
    have ⟨d, hd⟩ := ih fun e' he' => h e' (List.mem_cons_of_mem _ he')
    exact ⟨n + d, by simp [span?, hn, hd]⟩

end Effect

namespace Plan

variable {p : Plan}

-- Whenever a plan of this kind has to wait, it has performed nothing yet: a cut leaves the devices alone.
def ActsLast (p : Plan) : Prop :=
  ∀ done e rest, p.effects = done ++ e :: rest → e.IsWait → Trace.actions done = []

theorem ActsLast.of_instant (h : ∀ e ∈ p.effects, e.IsInstant) : p.ActsLast := by
  intro done e rest hp hw
  exact absurd (h e (hp ▸ List.mem_append_right _ (List.mem_cons_self ..))) hw.not_isInstant

-- An action at the very end comes after every wait.
theorem ActsLast.of_dropLast (h : Trace.actions p.effects.dropLast = []) : p.ActsLast := by
  intro done e rest hp _
  have hd : p.effects.dropLast = done ++ (e :: rest).dropLast := by simp [hp]
  rw [hd, Trace.actions_append, List.append_eq_nil_iff] at h
  exact h.left

end Plan

namespace Presenter

open Effect

variable {thread : Thread} {kind : DialogKind} {title message : String} {input : List Typed}

-- A question at the terminal is shown, and shown again after every line that does not answer it.
theorem mem_terminal_ask {e : Effect} (he : e ∈ (Terminal.ask thread kind title message input).effects) :
    (∃ text, e = .prompt text) ∨ e = .takeLine ∨ e = .report thread .answerRejected := by
  induction input
  case nil =>
    have hprompt := List.mem_singleton.1 he
    exact .inl ⟨_, hprompt⟩
  case cons line rest ih =>
    have htaken (h : e ∈ [.prompt (Terminal.question kind title message), .takeLine]) :
        (∃ text, e = .prompt text) ∨ e = .takeLine ∨ e = .report thread .answerRejected := by
      simp only [List.mem_cons, List.not_mem_nil, or_false] at h
      exact h.imp (fun h => ⟨_, h⟩) .inl
    cases line
    case binary => exact htaken he
    case text line =>
      rw [Terminal.ask] at he
      split at he
      · exact htaken he
      · simp only [Showing.after, List.mem_append, List.mem_cons, List.not_mem_nil, or_false] at he
        rcases he with (hprompt | hline | hrejected) | he
        · exact .inl ⟨_, hprompt⟩
        · exact .inr (.inl hline)
        · exact .inr (.inr hrejected)
        · exact ih he

theorem terminal_ask_effects :
    ∀ e ∈ (Terminal.ask thread kind title message input).effects, e.IsInstant ∧ e.IsPlain := by
  intro e he
  rcases mem_terminal_ask he with ⟨text, rfl⟩ | rfl | rfl <;> exact ⟨trivial, trivial⟩

-- The end of the input is no answer, nor is a line that cannot be read, but each is a reply.
theorem terminal_ask_ne_unanswered :
    (Terminal.ask thread kind title message input).reply ≠ .unanswered := by
  induction input
  case nil => simp [Terminal.ask]
  case cons line rest ih =>
    cases line
    case binary => simp [Terminal.ask]
    case text line =>
      rw [Terminal.ask]
      split
      · simp
      · exact ih

-- Showing a dialog takes no time.
theorem ask_effects (p : Presenter) (thread : Thread) (kind : DialogKind) (title message : String)
    (input : List Typed) :
    ∀ e ∈ (p.ask thread kind title message input).effects, e.IsInstant ∧ e.IsPlain := by
  cases p
  case scripted => simp [ask, IsInstant, IsPlain]
  case terminal => exact terminal_ask_effects
  case custom   => simp [ask]

theorem effects_of_unanswered {p : Presenter}
    (h : (p.ask thread kind title message input).reply = .unanswered) :
    (p.ask thread kind title message input).effects = [] := by
  cases p
  case scripted => cases h
  case terminal => exact absurd h terminal_ask_ne_unanswered
  case custom   => rfl

end Presenter

namespace Station

open Effect

variable {st : Station} {delay : Nat} {input : List Typed} {instruction : Instruction}

-- An instruction for a dialog to which no reply ever comes.
def NeverAnswers (st : Station) (input : List Typed) : Instruction → Prop
  | .dialog kind title message =>
    (st.presenter.ask st.dialogThread kind title message input).reply = .unanswered
  | _ => False

-- A station whose operator replies to every dialog, in whatever way.
def AlwaysReplies (st : Station) : Prop :=
  ∀ input instruction, ¬st.NeverAnswers input instruction

theorem ofSettings_presenter (s : SimulationSettings) : (ofSettings s).presenter = .ofPolicy s.dialog := by
  have hfit : ∀ (motion : List MotionSettings) (st : Station),
      (motion.foldl fitEntry st).presenter = st.presenter := by
    intro motion
    induction motion
    case nil => exact fun _ => rfl
    case cons m rest ih =>
      intro st
      rw [List.foldl_cons, ih]
      unfold fitEntry
      split <;> rfl
  exact hfit s.motion _

-- No settings lead to a dialog without a reply.
theorem ofSettings_alwaysReplies (s : SimulationSettings) : (ofSettings s).AlwaysReplies := by
  intro input instruction h
  cases instruction
  case dialog kind title message =>
    simp only [NeverAnswers, ofSettings_presenter] at h
    cases hp : s.dialog
    case prompt => exact Presenter.terminal_ask_ne_unanswered (by rwa [hp] at h)
    all_goals rw [hp] at h; cases h
  all_goals exact h

-- The action of an instruction that switches an output. It comes before the wait for the output to settle.
def switching (st : Station) : Instruction → List Action
  | .setOutput name   => if st.outputs.contains name then [.setOutput name] else []
  | .clearOutput name => if st.outputs.contains name then [.clearOutput name] else []
  | _ => []

-- Without a reply a dialog waits for a signal if another thread shows it, and holds everything up if not.
theorem plan_of_neverAnswers (h : st.NeverAnswers input instruction) :
    st.plan delay input instruction = ⟨[if st.surface.isSome then .waitForSignal else .block], .done⟩ := by
  cases instruction
  case dialog kind title message =>
    replace h : (st.presenter.ask st.dialogThread kind title message input).reply = .unanswered := h
    simp only [plan, dialog, h, Presenter.effects_of_unanswered h, ofReply, Plan.after, List.nil_append]
    cases st.surface <;> rfl
  all_goals exact h.elim

theorem ofReply_effects {kind : DialogKind} {title : String} {reply : Reply} (h : reply ≠ .unanswered) :
    ∀ e ∈ (st.ofReply kind title reply).effects, e.IsInstant ∧ e.IsPlain := by
  cases reply
  case answered answer => cases kind <;> cases answer <;> simp [ofReply, ofAnswer, Plan.fail]
  case failed          => simp [ofReply, Plan.fail]
  case panicked        => cases hs : st.surface <;> simp [ofReply, hs, IsInstant, IsPlain]
  case unanswered      => contradiction

theorem dialog_effects {kind : DialogKind} {title message : String}
    (h : ¬st.NeverAnswers input (.dialog kind title message)) :
    ∀ e ∈ (st.dialog kind title message input).effects, e.IsInstant ∧ e.IsPlain := by
  intro e he
  cases List.mem_append.1 he
  case inl he => exact st.presenter.ask_effects _ _ _ _ _ e he
  case inr he => exact ofReply_effects h e he

-- A countdown shows the remaining time and waits, over and over, until it is entered in the journal.
theorem mem_showCountdown {milliseconds : Nat} {e : Effect} (he : e ∈ (showCountdown milliseconds).effects) :
    (∃ seconds, e = .report .main (.countdown seconds)) ∨ (∃ n, e = .wait n) ∨
      e = .record (.countdown milliseconds) := by
  unfold showCountdown at he
  split at he
  case isFalse => cases he
  case isTrue =>
    simp only [List.mem_append, List.mem_flatMap, List.mem_cons, List.not_mem_nil, or_false] at he
    rcases he with ⟨tick, _, hshown | hwait⟩ | hend
    · exact .inl ⟨_, hshown⟩
    · exact .inr (.inl ⟨_, hwait⟩)
    · exact .inr (.inr hend)

theorem plan_ofDevice {e : Effect} (he : e ∈ (st.plan delay input instruction).effects) (h : instruction.OfDevice) :
    e.OfDevice := by
  revert e
  cases instruction
  case dialog | read => exact h.elim
  case countdown milliseconds =>
    simp only [plan, countdown]
    split
    · intro e he
      rcases mem_showCountdown he with ⟨_, rfl⟩ | ⟨_, rfl⟩ | rfl <;> trivial
    · simp [OfDevice]
  case move component point =>
    simp only [plan, move]
    cases st.controller? component
    case none => simp [Plan.fail]
    case some c =>
      cases c <;> simp [Controller.move, Plan.after, OfDevice, Event.OfDevice]
      split <;> simp [Plan.fail]
  all_goals
    simp only [plan, setOutput, clearOutput, extendSlide, retractSlide, laser]
    try split
    all_goals simp [Plan.andThen, Plan.fail, OfDevice, Event.OfDevice]

theorem plan_isPlain (h : ¬st.NeverAnswers input instruction) :
    ∀ e ∈ (st.plan delay input instruction).effects, e.IsPlain := by
  cases instruction
  case dialog => exact fun e he => (dialog_effects h e he).right
  case read   => simp [plan, read, lookUp, Plan.andThen, IsPlain]
  all_goals exact fun e he => (plan_ofDevice he trivial).isPlain

theorem ask_planned {kind : DialogKind} {title message : String} (thread : Thread) :
    ∀ e ∈ (st.presenter.ask thread kind title message input).effects, e.Planned := by
  cases hp : st.presenter
  case scripted => cases thread <;> simp [Presenter.ask, Planned, OfStation, Event.OfStation]
  case custom   => simp [Presenter.ask]
  case terminal =>
    intro e he
    rcases Presenter.mem_terminal_ask he with ⟨text, rfl⟩ | rfl | rfl
    · trivial
    · trivial
    · cases thread <;> trivial

theorem ofReply_planned {kind : DialogKind} {title : String} {reply : Reply} :
    ∀ e ∈ (st.ofReply kind title reply).effects, e.Planned := by
  cases reply
  case answered answer => cases kind <;> cases answer <;> simp [ofReply, ofAnswer, Plan.fail]
  case failed          => simp [ofReply, Plan.fail]
  case panicked        => cases hs : st.surface <;> simp [ofReply, hs, Planned]
  case unanswered      => cases hs : st.surface <;> simp [ofReply, hs, Planned, OfStation]

-- Whatever the instruction, its plan is made of such effects only.
theorem plan_planned : ∀ e ∈ (st.plan delay input instruction).effects, e.Planned := by
  cases instruction
  case dialog =>
    intro e he
    cases List.mem_append.1 he
    case inl he => exact ask_planned _ e he
    case inr he => exact ofReply_planned e he
  case read channel =>
    have hreading : ∃ value unit, Reading.text (st.value channel) (st.unit channel) = Reading.text value unit :=
      ⟨_, _, rfl⟩
    simp [plan, read, lookUp, Plan.andThen, Planned, OfStation, Event.OfStation, hreading]
  all_goals exact fun e he => (plan_ofDevice he trivial).planned

theorem plan_ofStation (e : Effect) (he : e ∈ (st.plan delay input instruction).effects) : e.OfStation :=
  (plan_planned e he).ofStation

-- On the main thread a plan reports what the station does, and nothing else.
theorem plan_reports {event : Event} (he : .report .main event ∈ (st.plan delay input instruction).effects) :
    event.OfStation :=
  plan_planned _ he

-- The plan for switching an output is cut, if at all, after the output was switched.
theorem actions_of_cut_switch {change : Change} {event : Event} {action : Action} {e : Effect}
    {done rest : List Effect}
    (hp : [.change change, .report .main event, .record action, .wait delay] = done ++ e :: rest) (hw : e.IsWait) :
    Trace.actions done = [action] := by
  match done with
  | [] => simp at hp; exact (hp.left ▸ hw : (Effect.change change).IsWait).elim
  | [_] => simp at hp; exact (hp.right.left ▸ hw : (Effect.report .main event).IsWait).elim
  | [_, _] => simp at hp; exact (hp.right.right.left ▸ hw : (Effect.record action).IsWait).elim
  | [_, _, _] => simp at hp; rw [← hp.left, ← hp.right.left, ← hp.right.right.left]; rfl
  | _ :: _ :: _ :: _ :: _ => simp at hp

theorem showCountdown_actsLast {milliseconds : Nat} : (showCountdown milliseconds).ActsLast := by
  apply Plan.ActsLast.of_dropLast
  unfold showCountdown
  split
  · simp [Trace.actions, List.filterMap_eq_nil_iff]
    rintro e tick - (rfl | rfl) <;> rfl
  · rfl

-- Of all instructions only those that switch an output perform something before they wait.
theorem plan_actsLast (h : ¬st.NeverAnswers input instruction) (hs : st.switching instruction = []) :
    (st.plan delay input instruction).ActsLast := by
  cases instruction
  case dialog => exact .of_instant fun e he => (dialog_effects h e he).left
  case countdown milliseconds =>
    simp only [plan, countdown]
    split
    · exact showCountdown_actsLast
    · exact .of_dropLast rfl
  case move component point =>
    simp only [plan, move]
    cases st.controller? component
    case none => exact .of_dropLast rfl
    case some c =>
      apply Plan.ActsLast.of_dropLast
      cases c <;> simp only [Controller.move]
      case axis => split <;> rfl
      all_goals rfl
  case setOutput name | clearOutput name =>
    have hf : st.outputs.contains name = false := by simpa [switching] using hs
    simp only [plan, setOutput, clearOutput, hf]
    exact .of_dropLast rfl
  case read => exact .of_instant (by simp [plan, read, lookUp, Plan.andThen, IsInstant])
  all_goals
    apply Plan.ActsLast.of_dropLast
    simp only [plan, extendSlide, retractSlide, laser]
    try split
    all_goals rfl

theorem actions_of_cut {done rest : List Effect} {e : Effect} (h : ¬st.NeverAnswers input instruction)
    (hp : (st.plan delay input instruction).effects = done ++ e :: rest) (hw : e.IsWait) :
    Trace.actions done = st.switching instruction := by
  by_cases hs : st.switching instruction = []
  case pos => exact hs ▸ plan_actsLast h hs done e rest hp hw
  case neg =>
    cases instruction
    case setOutput name =>
      have hk : st.outputs.contains name = true := by simpa [switching] using hs
      simp only [plan, setOutput, switching, hk, if_true, Plan.andThen] at hp ⊢
      exact actions_of_cut_switch hp hw
    case clearOutput name =>
      have hk : st.outputs.contains name = true := by simpa [switching] using hs
      simp only [plan, clearOutput, switching, hk, if_true, Plan.andThen] at hp ⊢
      exact actions_of_cut_switch hp hw
    all_goals exact absurd rfl hs

-- A question that the operator answers No.
def AnsweredNo (st : Station) (input : List Typed) : Instruction → Prop
  | .dialog .yesNo title message =>
    (st.presenter.ask st.dialogThread .yesNo title message input).reply = .answered .no
  | _ => False

theorem plan_of_answeredNo (delay : Nat) (h : st.AnsweredNo input instruction) :
    (∀ e ∈ (st.plan delay input instruction).effects, e.IsInstant ∧ e.IsPlain) ∧
      ∃ title, (st.plan delay input instruction).verdict = .declined title := by
  cases instruction
  case dialog kind title message =>
    cases kind
    case ok => exact h.elim
    case yesNo =>
      replace h : (st.presenter.ask st.dialogThread .yesNo title message input).reply = .answered .no := h
      simp only [plan, dialog, h, ofReply, ofAnswer, Plan.after, List.append_nil]
      exact ⟨st.presenter.ask_effects _ _ _ _ _, title, rfl⟩
  all_goals exact h.elim

theorem ofReply_verdict {kind : DialogKind} {title declined : String} {reply : Reply}
    (h : (st.ofReply kind title reply).verdict = .declined declined) :
    kind = .yesNo ∧ reply = .answered .no := by
  cases reply
  case answered answer => cases kind <;> cases answer <;> first | exact ⟨rfl, rfl⟩ | cases h
  case panicked        => cases hs : st.surface <;> simp [ofReply, hs] at h
  case unanswered      => cases hs : st.surface <;> simp [ofReply, hs] at h
  case failed          => cases h

-- Nothing but a question answered No counts as declined.
theorem answeredNo_of_verdict {title : String} (h : (st.plan delay input instruction).verdict = .declined title) :
    st.AnsweredNo input instruction := by
  cases instruction
  case dialog kind _ message =>
    obtain ⟨rfl, hreply⟩ := ofReply_verdict h
    exact hreply
  case move component point =>
    simp only [plan, move] at h
    cases hc : st.controller? component
    case none => rw [hc] at h; cases h
    case some c =>
      rw [hc] at h
      cases c <;> simp only [Controller.move, Plan.after] at h
      case axis => split at h <;> cases h
      all_goals cases h
  case read => cases h
  case wait => cases h
  case laser => cases h
  all_goals
    simp only [plan, setOutput, clearOutput, extendSlide, retractSlide, countdown, showCountdown] at h
    repeat (split at h)
    all_goals cases h

end Station

end StationScript
