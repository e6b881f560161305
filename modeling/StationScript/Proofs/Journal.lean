import StationScript.Proofs.Entries
import StationScript.Proofs.Lines

namespace StationScript

-- A call to one of the devices of a station.
inductive DeviceCall
  | setOutput (name : String)
  | clearOutput (name : String)
  | extendSlide (name : String)
  | retractSlide (name : String)
  | move (component : Component) (point : String) (confirm : Bool)
  | laser (action : LaserAction)
  | lookUp (channel : String)
  | showCountdown (milliseconds : Nat)
  | showDialog (kind : DialogKind) (title message : String)

theorem Trace.mem_actions {t : Trace} {a : Action} : a ∈ t.actions ↔ .record a ∈ t := by
  simp only [actions, List.mem_filterMap]
  constructor
  · rintro ⟨e, he, ha⟩
    cases e <;> cases ha
    exact he
  · exact fun h => ⟨_, h, rfl⟩

namespace Effect

-- An effect during which others come in: time passes, or the operator is waited for.
def Yields : Effect → Prop
  | wait _ | waitForSignal | block | takeLine => True
  | _ => False

theorem IsWait.yields {e : Effect} (h : e.IsWait) : e.Yields := by
  cases e <;> trivial

end Effect

-- Effects that enter every step of a device in the journal, and no step that was not made. A step is pending until
-- it is entered, and nothing but reports comes in between.
def Journaled : (pending : Option Change) → List Effect → Prop
  | pending, []                   => pending = none
  | pending, .change c :: rest    => pending = none ∧ Journaled (some c) rest
  | pending, .record a :: rest    => a.change? = pending ∧ Journaled none rest
  | pending, .report _ _ :: rest  => Journaled pending rest
  | pending, _ :: rest            => pending = none ∧ Journaled none rest

namespace Journaled

variable {pending : Option Change} {es done rest : List Effect}

theorem append (h : Journaled pending es) (hr : Journaled none rest) : Journaled pending (es ++ rest) := by
  induction es generalizing pending
  case nil => cases h; exact hr
  case cons e es ih =>
    cases e
    case report => exact ih h
    all_goals exact ⟨h.left, ih h.right⟩

-- Where no device makes a step, there is nothing to enter.
theorem of_still (h : ∀ e ∈ es, e.change? = none ∧ e.action? = none) : Journaled none es := by
  induction es
  case nil => rfl
  case cons e es ih =>
    have ⟨hchange, haction⟩ := h e (List.mem_cons_self ..)
    have hes := ih fun e' he' => h e' (List.mem_cons_of_mem _ he')
    cases e
    case change => cases hchange
    case record => cases haction
    case report => exact hes
    all_goals exact ⟨rfl, hes⟩

-- Wherever the effects are left off, the journal is behind by the step that is pending, and by nothing else.
theorem exists_pending (h : Journaled pending (done ++ rest)) :
    ∃ pending', Journaled pending' rest ∧
      pending.toList ++ Trace.changes done = (Trace.actions done).filterMap Action.change? ++ pending'.toList := by
  induction done generalizing pending
  case nil => exact ⟨pending, h, by simp [Trace.changes, Trace.actions]⟩
  case cons e done ih =>
    cases e
    case report => exact ih h
    case change c =>
      obtain ⟨rfl, h⟩ := h
      exact ih h
    case record a =>
      obtain ⟨rfl, h⟩ := h
      obtain ⟨pending', hrest, heq⟩ := ih h
      refine ⟨pending', hrest, ?_⟩
      have hentry : (Trace.actions (.record a :: done)).filterMap Action.change? =
          a.change?.toList ++ (Trace.actions done).filterMap Action.change? := by
        cases ha : a.change? <;> simp [Trace.actions, Effect.action?, ha]
      rw [hentry, List.append_assoc, ← heq]
      rfl
    all_goals
      obtain ⟨rfl, h⟩ := h
      exact ih h

-- At the end, and wherever others come in, the journal and the devices are in step.
theorem changes_eq (h : Journaled none (done ++ rest)) (hr : ∀ e, rest.head? = some e → e.Yields) :
    Trace.changes done = (Trace.actions done).filterMap Action.change? := by
  obtain ⟨pending, hrest, heq⟩ := h.exists_pending
  have hnone : pending = none := by
    cases rest
    case nil => exact hrest
    case cons e rest =>
      have he := hr e rfl
      cases e <;> first | exact hrest.left | exact he.elim
  simpa [hnone] using heq

-- Effects that are followed may all take place or be cut, but they are not cut within a step.
theorem follow_changes {t : Timeline} {token : Token} {p : Progress} (h : Journaled none es)
    (hp : t.follow token es = some p) : p.trace.changes = p.trace.actions.filterMap Action.change? := by
  rcases Timeline.follow_split hp with ⟨_, htrace⟩ | ⟨_, e, rest, hes, hw⟩
  · have hall : Journaled none (p.trace ++ []) := by rwa [htrace, List.append_nil]
    exact hall.changes_eq nofun
  · rw [hes] at h
    refine h.changes_eq fun e' he => ?_
    cases he
    exact hw.yields

end Journaled

namespace Station

variable {st : Station} {delay : Nat} {input : List Typed} {instruction : Instruction} {call : DeviceCall}
  {a : Action} {p : Plan}

-- What a device does when it is called. Where no controller is fitted, there is none to call.
def respond (st : Station) (input : List Typed) : DeviceCall → List Effect
  | .setOutput name => (st.setOutput name).effects
  | .clearOutput name => (st.clearOutput name).effects
  | .extendSlide name => (st.extendSlide name).effects
  | .retractSlide name => (st.retractSlide name).effects
  | .move component point confirm =>
    match st.controller? component with
    | some controller => (controller.move component point confirm).effects
    | none => []
  | .laser action => (st.laser action).effects
  | .lookUp channel => (lookUp channel).effects
  | .showCountdown milliseconds => (showCountdown milliseconds).effects
  | .showDialog kind title message => (st.presenter.ask .main kind title message input).effects

-- The entries that the fitted devices can make.
def Supports (st : Station) : Action → Prop
  | .setOutput name | .clearOutput name => name ∈ st.outputs
  | .activateSlide name | .deactivateSlide name => name ∈ st.slides
  | .move component point =>
    ∃ points travel, st.controller? component = some (.axis points travel) ∧ point ∈ points
  | .probe component _ _ => st.controller? component = some .recording
  | .laser _ | .read _ | .countdown _ | .dialog _ _ => True

theorem record_mem_of_andThen {further : List Effect} (h : .record a ∈ (p.andThen further).effects)
    (hf : .record a ∉ further) : .record a ∈ p.effects := by
  unfold Plan.andThen at h
  split at h
  · exact (List.mem_append.1 h).resolve_right hf
  · exact h

-- The question at the terminal is not entered in the journal.
theorem record_not_mem_terminal_ask {thread : Thread} {kind : DialogKind} {title message : String} :
    .record a ∉ (Terminal.ask thread kind title message input).effects := by
  intro h
  rcases Presenter.mem_terminal_ask h with ⟨_, heq⟩ | heq | heq <;> cases heq

theorem record_not_mem_ofReply {kind : DialogKind} {title : String} {reply : Reply} :
    .record a ∉ (st.ofReply kind title reply).effects := by
  cases reply
  case answered answer => cases kind <;> cases answer <;> simp [ofReply, ofAnswer, Plan.fail]
  case failed          => simp [ofReply, Plan.fail]
  case panicked        => cases hs : st.surface <;> simp [ofReply, hs]
  case unanswered      => cases hs : st.surface <;> simp [ofReply, hs]

-- On whichever thread a dialog is shown, the presenter does the same.
theorem record_mem_ask {s t : Thread} {presenter : Presenter} {kind : DialogKind} {title message : String}
    (h : .record a ∈ (presenter.ask s kind title message input).effects) :
    .record a ∈ (presenter.ask t kind title message input).effects := by
  cases presenter
  case scripted => simpa [Presenter.ask] using h
  case terminal => exact absurd h record_not_mem_terminal_ask
  case custom   => cases h

-- An instruction enters nothing in the journal but what a call to some device enters.
theorem exists_call_of_plan (h : .record a ∈ (st.plan delay input instruction).effects) :
    ∃ call, .record a ∈ st.respond input call := by
  cases instruction
  case setOutput name    => exact ⟨.setOutput name, record_mem_of_andThen h (by simp)⟩
  case clearOutput name  => exact ⟨.clearOutput name, record_mem_of_andThen h (by simp)⟩
  case extendSlide name  => exact ⟨.extendSlide name, h⟩
  case retractSlide name => exact ⟨.retractSlide name, h⟩
  case laser action      => exact ⟨.laser action, h⟩
  case read channel      => exact ⟨.lookUp channel, record_mem_of_andThen h (by simp)⟩
  case wait              => simp [plan] at h
  case countdown milliseconds =>
    simp only [plan, countdown] at h
    split at h
    · exact ⟨.showCountdown milliseconds, h⟩
    · simp at h
  case dialog kind title message =>
    have h := (List.mem_append.1 h).resolve_right record_not_mem_ofReply
    exact ⟨.showDialog kind title message, record_mem_ask h⟩
  case move component point =>
    refine ⟨.move component point false, ?_⟩
    simp only [plan, move] at h
    cases hc : st.controller? component
    case none => rw [hc] at h; cases h
    case some controller =>
      rw [hc] at h
      simpa [respond, hc, Plan.after] using h

theorem supports_of_respond (h : .record a ∈ st.respond input call) : st.Supports a := by
  cases call
  case move component point confirm =>
    simp only [respond] at h
    cases hc : st.controller? component
    case none => rw [hc] at h; cases h
    case some controller =>
      rw [hc] at h
      cases controller
      case recording => simp [Controller.move] at h; exact h ▸ hc
      case faulty    => cases h
      case axis points travel =>
        simp only [Controller.move] at h
        split at h
        case isFalse => cases h
        case isTrue hp =>
          have ha : a = .move component point := by cases confirm <;> simpa using h
          exact ha ▸ ⟨points, travel, hc, by simpa using hp⟩
  case showCountdown milliseconds =>
    rcases mem_showCountdown h with ⟨_, heq⟩ | ⟨_, heq⟩ | heq <;> cases heq
    trivial
  case showDialog kind title message =>
    cases hp : st.presenter
    case scripted => simp [respond, hp, Presenter.ask] at h; exact h ▸ trivial
    case terminal => rw [respond, hp] at h; exact absurd h record_not_mem_terminal_ask
    case custom   => rw [respond, hp] at h; cases h
  case laser  => simp [respond, laser] at h; exact h ▸ trivial
  case lookUp => simp [respond, lookUp] at h; exact h ▸ trivial
  all_goals
    simp only [respond, setOutput, clearOutput, extendSlide, retractSlide] at h
    split at h
    case isTrue hn =>
      simp at h
      exact h ▸ List.contains_iff_mem.1 hn
    case isFalse => cases h

theorem terminal_ask_journaled {thread : Thread} {kind : DialogKind} {title message : String} :
    Journaled none (Terminal.ask thread kind title message input).effects :=
  .of_still fun e he => by
    rcases Presenter.mem_terminal_ask he with ⟨_, rfl⟩ | rfl | rfl <;> exact ⟨rfl, rfl⟩

theorem ask_journaled {presenter : Presenter} {thread : Thread} {kind : DialogKind} {title message : String} :
    Journaled none (presenter.ask thread kind title message input).effects := by
  cases presenter
  case scripted => exact ⟨rfl, rfl⟩
  case terminal => exact terminal_ask_journaled
  case custom   => exact rfl

theorem ofReply_journaled {kind : DialogKind} {title : String} {reply : Reply} :
    Journaled none (st.ofReply kind title reply).effects := by
  cases reply
  case answered answer => cases kind <;> cases answer <;> rfl
  case failed          => rfl
  case panicked        => cases hs : st.surface <;> simp [ofReply, hs, Journaled]
  case unanswered      => cases hs : st.surface <;> simp [ofReply, hs, Journaled]

theorem showCountdown_journaled {milliseconds : Nat} : Journaled none (showCountdown milliseconds).effects := by
  unfold showCountdown
  split
  case isFalse => rfl
  case isTrue =>
    refine .append (.of_still fun e he => ?_) ⟨rfl, rfl⟩
    obtain ⟨tick, _, he⟩ := List.mem_flatMap.1 he
    simp only [List.mem_cons, List.not_mem_nil, or_false] at he
    rcases he with rfl | rfl <;> exact ⟨rfl, rfl⟩

theorem controller_move_journaled {controller : Controller} {component : Component} {point : String}
    {confirm : Bool} : Journaled none (controller.move component point confirm).effects := by
  cases controller
  case recording => exact ⟨rfl, rfl⟩
  case faulty    => rfl
  case axis points travel =>
    simp only [Controller.move]
    split
    case isFalse => rfl
    case isTrue  => cases confirm <;> exact ⟨rfl, rfl, rfl, rfl⟩

-- A device that is called makes its step and the entry together.
theorem respond_journaled : Journaled none (st.respond input call) := by
  cases call
  case showCountdown => exact showCountdown_journaled
  case showDialog    => exact ask_journaled
  case laser         => exact ⟨rfl, rfl, rfl, rfl⟩
  case lookUp        => exact ⟨rfl, rfl⟩
  case move component point confirm =>
    simp only [respond]
    split
    · exact controller_move_journaled
    · rfl
  all_goals
    simp only [respond, setOutput, clearOutput, extendSlide, retractSlide]
    split
    · simp [Journaled, Action.change?]
    · rfl

theorem journaled_andThen {further : List Effect} (h : Journaled none p.effects) (hf : Journaled none further) :
    Journaled none (p.andThen further).effects := by
  unfold Plan.andThen
  split
  · exact h.append hf
  · exact h

theorem plan_journaled : Journaled none (st.plan delay input instruction).effects := by
  have hcall (call : DeviceCall) : Journaled none (st.respond input call) := respond_journaled
  cases instruction
  case setOutput name    => exact journaled_andThen (hcall (.setOutput name)) ⟨rfl, rfl⟩
  case clearOutput name  => exact journaled_andThen (hcall (.clearOutput name)) ⟨rfl, rfl⟩
  case extendSlide name  => exact hcall (.extendSlide name)
  case retractSlide name => exact hcall (.retractSlide name)
  case laser action      => exact hcall (.laser action)
  case read channel      => exact journaled_andThen (hcall (.lookUp channel)) ⟨rfl, rfl⟩
  case wait              => exact ⟨rfl, rfl⟩
  case dialog            => exact ask_journaled.append ofReply_journaled
  case countdown milliseconds =>
    simp only [plan, countdown]
    split
    · exact showCountdown_journaled
    · exact ⟨rfl, rfl⟩
  case move component point =>
    simp only [plan, move]
    split
    · exact controller_move_journaled
    · rfl

end Station

-- The entries of a journal are those of actions that the station supports, and the devices are what they tell.
def Recounts (st : Station) (journal : List String) (d : Devices) : Prop :=
  ∃ actions : List Action, (∀ a ∈ actions, st.Supports a) ∧ journal = actions.map Action.text ∧
    d = Devices.retold actions

theorem Recounts.after {st : Station} {journal : List String} {d : Devices} {t : Trace} (h : Recounts st journal d)
    (ht : ∀ a, .record a ∈ t → st.Supports a) (hstep : t.changes = t.actions.filterMap Action.change?) :
    Recounts st (journal ++ t.actions.map Action.text) (d.applyAll t.changes) := by
  have ⟨actions, hsupports, hjournal, hd⟩ := h
  refine ⟨actions ++ t.actions, fun a ha => ?_, by rw [hjournal, List.map_append],
    by rw [hd, Devices.retold_append, hstep]⟩
  · cases List.mem_append.1 ha
    case inl ha => exact hsupports a ha
    case inr ha => exact ht a (Trace.mem_actions.1 ha)

namespace Interpreter

-- The states that a bench and the journal of its station can come to, as calls and lines follow one another. A
-- line or call that ends by itself or is cut leaves what took place of it. One that is under way, or never ends,
-- has done some first part of what it would do: others see it wherever it lets them in.
inductive Reachable (i : Interpreter) : Bench → List String → Prop
  | fresh (b : Bench) (h : b.devices = {}) : Reachable i b []
  -- Scopes are opened and cancelled, time passes, and the operator types.
  | meanwhile (h : Reachable i b journal) (timeline : Timeline) (input : List Typed) :
    Reachable i { b with timeline, input } journal
  | call (h : Reachable i b journal) (token : Token) (call : DeviceCall) (p : Progress)
    (hp : b.timeline.follow token (i.station.respond b.input call) = some p) :
    Reachable i (b.advance p.trace p.timeline) (journal ++ p.trace.actions.map Action.text)
  | line (h : Reachable i b journal) (line : String) (token : Token) (trigger : Trigger) (o : Outcome)
    (ho : i.execute b line token trigger = some o) :
    Reachable i o.bench (journal ++ o.trace.actions.map Action.text)
  | duringCall (h : Reachable i b journal) (call : DeviceCall) (done : Trace) (e : Effect) (rest : List Effect)
    (timeline : Timeline) (hd : i.station.respond b.input call = done ++ e :: rest) (he : e.Yields) :
    Reachable i (b.advance done timeline) (journal ++ done.actions.map Action.text)
  | duringLine (h : Reachable i b journal) (c : Command) (v : Verb) (done : Trace) (e : Effect) (rest : List Effect)
    (timeline : Timeline) (hd : (i.plan b.input c v).effects = done ++ e :: rest) (he : e.Yields) :
    Reachable i (b.advance done timeline) (journal ++ done.actions.map Action.text)

variable {i : Interpreter} {b : Bench} {journal : List String}

theorem supports_of_plan {input : List Typed} {c : Command} {v : Verb} {a : Action}
    (h : .record a ∈ (i.plan input c v).effects) : i.station.Supports a := by
  unfold plan at h
  split at h
  · have ⟨_, hcall⟩ := Station.exists_call_of_plan h
    exact Station.supports_of_respond hcall
  · cases h

theorem supports_of_execute {line : String} {token : Token} {trigger : Trigger} {o : Outcome} {a : Action}
    (ho : i.execute b line token trigger = some o) (ha : .record a ∈ o.trace) : i.station.Supports a := by
  rcases mem_trace_of_execute ho ha with ⟨_, heq⟩ | ⟨_, _, hplan⟩
  · cases heq
  · have ⟨_, hcall⟩ := Station.exists_call_of_plan hplan
    exact Station.supports_of_respond hcall

theorem plan_journaled {input : List Typed} {c : Command} {v : Verb} : Journaled none (i.plan input c v).effects := by
  unfold plan
  split
  · exact Station.plan_journaled
  · rfl

theorem execute_changes {line : String} {token : Token} {trigger : Trigger} {o : Outcome}
    (ho : i.execute b line token trigger = some o) : o.trace.changes = o.trace.actions.filterMap Action.change? := by
  by_cases hl : b.isCancelled token
  case pos => rw [execute_of_isCancelled hl] at ho; cases ho; rfl
  case neg =>
    rcases outcome_cases hl ho with ⟨_, rfl⟩ | ⟨c, _, _, rfl⟩ | ⟨c, v, p, _, _, hp, rfl⟩
    · simp [Bench.reportOnly]
    · rfl
    · rw [outcome_changes, outcome_actions]
      exact plan_journaled.follow_changes hp

-- No call and no line takes the journal and the devices apart, wherever it is cut.
theorem Reachable.recounts (h : i.Reachable b journal) : Recounts i.station journal b.devices := by
  induction h
  case fresh b hb => exact ⟨[], List.forall_mem_nil _, rfl, hb⟩
  case meanwhile ih => exact ih
  case call hp ih =>
    exact ih.after (fun a ha => Station.supports_of_respond (Timeline.follow_subset hp _ ha))
      (Station.respond_journaled.follow_changes hp)
  case line ho ih =>
    rw [execute_devices ho]
    exact ih.after (fun a ha => supports_of_execute ho ha) (execute_changes ho)
  case duringCall done e rest _ hd he ih =>
    have hin (a : Action) (ha : .record a ∈ done) := Station.supports_of_respond (hd ▸ List.mem_append_left _ ha)
    exact ih.after hin ((hd ▸ Station.respond_journaled).changes_eq fun e' he' => by cases he'; exact he)
  case duringLine done e rest _ hd he ih =>
    have hin (a : Action) (ha : .record a ∈ done) := supports_of_plan (hd ▸ List.mem_append_left _ ha)
    exact ih.after hin ((hd ▸ plan_journaled).changes_eq fun e' he' => by cases he'; exact he)

end Interpreter

-- What the journal says about every device of a station is so.
structure Faithful (st : Station) (journal : List String) (d : Devices) : Prop where
  output : ∀ n, d.isSet n ↔
    LastOf (fun e => e = "set_output " ++ n ∨ e = "clear_output " ++ n) journal ("set_output " ++ n)
  slide : ∀ n, d.isActive n ↔
    LastOf (fun e => e = "activate_slide " ++ n ∨ e = "deactivate_slide " ++ n) journal ("activate_slide " ++ n)
  position : ∀ (c : Component) p, d.position? c = some p ↔
    LastOf (fun e => ∃ q, e = "move " ++ c.name ++ " " ++ q) journal ("move " ++ c.name ++ " " ++ p)
  unmoved : ∀ c : Component, d.position? c = none ↔ ∀ q, "move " ++ c.name ++ " " ++ q ∉ journal
  highCurrent : d.laser.highCurrent ↔
    LastOf (fun e => e = "laser high_current" ∨ e = "laser low_current") journal "laser high_current"
  laserOn : d.laser.laserOn ↔ LastOf (fun e => e = "laser on" ∨ e = "laser off") journal "laser on"
  tecOn : d.laser.tecOn ↔ LastOf (fun e => e = "tec on" ∨ e = "tec off") journal "tec on"
  -- Only devices that are there are ever in use.
  outputs : ∀ n, d.isSet n → n ∈ st.outputs
  slides : ∀ n, d.isActive n → n ∈ st.slides
  points : ∀ c p, d.position? c = some p →
    ∃ points travel, st.controller? c = some (.axis points travel) ∧ p ∈ points

theorem Recounts.supports {st : Station} {journal : List String} {d : Devices} {a : Action}
    (h : Recounts st journal d) (ha : a.text ∈ journal) : st.Supports a := by
  have ⟨actions, hsupports, hjournal, _⟩ := h
  rw [hjournal] at ha
  have ⟨a', ha', heq⟩ := List.mem_map.1 ha
  exact Action.text_injective heq ▸ hsupports a' ha'

theorem Recounts.faithful {st : Station} {journal : List String} {d : Devices} (h : Recounts st journal d) :
    Faithful st journal d := by
  have ⟨actions, _, hjournal, hd⟩ := h
  have hswitch {on off : Action} {state : Devices → Bool} (hs : Devices.IsSwitch on off state) (hne : on ≠ off) :
      state d ↔ LastOf (fun e => e = on.text ∨ e = off.text) journal on.text := by
    rw [hd, hjournal]
    exact hs.lastOf hne actions
  have hposition (c : Component) (p : String) : d.position? c = some p ↔
      LastOf (fun e => ∃ q, e = (Action.move c q).text) journal (Action.move c p).text := by
    rw [hd, hjournal]
    exact Devices.position?_eq_some_iff
  have houtput (n : String) := hswitch (Devices.isSwitch_output n) nofun
  have hslide (n : String) := hswitch (Devices.isSwitch_slide n) nofun
  refine ⟨houtput, hslide, hposition, fun c => ?_, hswitch Devices.isSwitch_highCurrent (by decide),
    hswitch Devices.isSwitch_laserOn (by decide), hswitch Devices.isSwitch_tecOn (by decide), fun n hn => ?_,
    fun n hn => ?_, fun c p hp => ?_⟩
  · rw [hd, hjournal]
    exact Devices.position?_eq_none_iff
  · exact h.supports (a := .setOutput n) ((houtput n).1 hn).mem
  · exact h.supports (a := .activateSlide n) ((hslide n).1 hn).mem
  · exact h.supports (a := .move c p) ((hposition c p).1 hp).mem

-- The journal is faithful at every state that a station can come to. Lines and calls may follow one another in
-- any way, under any tokens, and each may be cut at any instant, fail, panic or never end.
theorem Interpreter.Reachable.faithful_journal {i : Interpreter} {b : Bench} {journal : List String}
    (h : i.Reachable b journal) : Faithful i.station journal b.devices :=
  h.recounts.faithful

-- An output whose settling is cut stays set, as the journal says. A slide that is cut while it travels is where it was,
-- and there is no entry that says otherwise.
theorem Interpreter.faithful_journal_after_cut :
    let i : Interpreter := ⟨.ofSettings {}, 100⟩
    let b : Bench := { timeline := { signals := { opened := 2 }, schedule := [⟨5, ⟨0⟩⟩, ⟨20, ⟨1⟩⟩] } }
    ∃ o p, i.execute b "SET_OUTPUT ^ UV_PLC1" ⟨[⟨0⟩]⟩ ⟨⟨0⟩⟩ = some o ∧ o.execution.success = false ∧
      i.execute o.bench "SLIDE ^ L_Gripper ^ ACTIVATE" ⟨[⟨1⟩]⟩ ⟨⟨1⟩⟩ = some p ∧ p.execution.success = false ∧
      p.bench.timeline.now = 20 ∧ i.Reachable p.bench ["set_output UV_PLC1"] ∧
      Faithful i.station ["set_output UV_PLC1"] p.bench.devices := by
  intro i b
  have hlines : ((i.execute b "SET_OUTPUT ^ UV_PLC1" ⟨[⟨0⟩]⟩ ⟨⟨0⟩⟩).bind fun o =>
      (i.execute o.bench "SLIDE ^ L_Gripper ^ ACTIVATE" ⟨[⟨1⟩]⟩ ⟨⟨1⟩⟩).map fun p =>
        (o.execution.success, o.trace.actions, p.execution.success, p.trace.actions, p.bench.timeline.now)) =
      some (false, [.setOutput "UV_PLC1"], false, [], 20) := by
    decide +kernel
  have ⟨o, ho, hlater⟩ := Option.bind_eq_some_iff.1 hlines
  have ⟨p, hp, hcut⟩ := Option.map_eq_some_iff.1 hlater
  simp only [Prod.mk.injEq] at hcut
  obtain ⟨hset, hentry, hslide, hnone, hnow⟩ := hcut
  have h := ((Reachable.fresh (i := i) b rfl).line _ _ _ o ho).line _ _ _ p hp
  rw [hentry, hnone] at h
  exact ⟨o, p, ho, hset, hp, hslide, hnow, h, Reachable.faithful_journal h⟩

end StationScript
