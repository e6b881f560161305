import StationScript.Proofs.Atomicity
import StationScript.Proofs.Commands
import StationScript.Proofs.Entries
import StationScript.Proofs.Instructions
import StationScript.Proofs.Interruption
import StationScript.Settings.Reader

namespace StationScript

namespace MotionSettings

variable {motion : List MotionSettings} {m : MotionSettings} {component : Component}

-- Of the entries for one component the last one counts.
def lastFor? (motion : List MotionSettings) (component : Component) : Option MotionSettings :=
  (motion.filter fun m => Component.resolve? m.component == some component).getLast?

theorem lastFor?_concat : lastFor? (motion ++ [m]) component =
    if Component.resolve? m.component = some component then some m else lastFor? motion component := by
  by_cases h : Component.resolve? m.component = some component <;> simp [lastFor?, h]

theorem resolve?_of_lastFor? (h : lastFor? motion component = some m) :
    Component.resolve? m.component = some component := by
  have hmem := List.mem_of_getLast? h
  simpa using (List.mem_filter.1 hmem).right

-- The axis that an entry describes.
def controller (m : MotionSettings) : Controller :=
  .axis m.points m.travel

-- Fits what an entry describes, if it addresses a component.
def fitWith {σ : Type} (fit : σ → Component → Controller → σ) (fitted : σ) (m : MotionSettings) : σ :=
  match Component.resolve? m.component with
  | some component => fit fitted component m.controller
  | none => fitted

-- Where fitting a controller gives it the place of its component and leaves every other place alone, fitting all
-- entries gives each place to the last entry for it.
theorem look_foldl_fitWith {σ : Type} {fit : σ → Component → Controller → σ} {look : σ → Component → Option Controller}
    (hfit : ∀ s c k d, look (fit s c k) d = if c = d then some k else look s d) {start : σ}
    (hstart : ∀ c, look start c = none) (motion : List MotionSettings) (component : Component) :
    look (motion.foldl (fitWith fit) start) component = (lastFor? motion component).map controller := by
  induction motion using List.reverseRecOn
  case nil => exact hstart component
  case append_singleton motion m ih =>
    rw [List.foldl_concat, lastFor?_concat, fitWith]
    cases hm : Component.resolve? m.component
    case none   => simpa using ih
    case some c =>
      by_cases hc : c = component
      case pos => simp [hfit, hc]
      case neg => simpa [hfit, hc] using ih

end MotionSettings

-- The controllers as a list with a slot at the index of each component. It grows as far as the last slot that is
-- fitted.
abbrev Slots :=
  List (Option Controller)

namespace Slots

variable {slots : Slots} {c d : Component} {k : Controller}

def fit (slots : Slots) (component : Component) (controller : Controller) : Slots :=
  (slots ++ List.replicate (component.index + 1 - slots.length) none).set component.index (some controller)

def controller? (slots : Slots) (component : Component) : Option Controller :=
  slots[component.index]?.join

-- Takes up an entry: fits its axis into the slot of the component, or warns that there is no such component.
def takeUp (x : Slots × List Event) (m : MotionSettings) : Slots × List Event :=
  match Component.resolve? m.component with
  | some component => (x.1.fit component m.controller, x.2)
  | none => (x.1, x.2 ++ [.motionSkipped m.component])

-- The slots that motion entries fill, one after another, and the warnings on the way.
def setUp (motion : List MotionSettings) : Slots × List Event :=
  motion.foldl takeUp ([], [])

-- A gap in front of the slot reads as what it was before the list grew.
theorem controller?_fit : (slots.fit c k).controller? d = if c = d then some k else slots.controller? d := by
  unfold controller? fit
  by_cases h : c = d
  case pos =>
    have hbound : d.index < (slots ++ List.replicate (d.index + 1 - slots.length) none).length := by
      rw [List.length_append, List.length_replicate]
      omega
    rw [h, List.getElem?_set_self hbound]
    simp
  case neg =>
    have hne : c.index ≠ d.index := fun heq => h (Component.index_injective heq)
    rw [List.getElem?_set_ne hne, if_neg h]
    by_cases hin : d.index < slots.length
    case pos => rw [List.getElem?_append_left hin]
    case neg =>
      rw [List.getElem?_append_right (Nat.le_of_not_lt hin), List.getElem?_replicate,
        List.getElem?_eq_none (Nat.le_of_not_lt hin)]
      split <;> rfl

theorem setUp_eq (motion : List MotionSettings) : setUp motion =
    (motion.foldl (MotionSettings.fitWith fit) [],
      (motion.filter fun m => (Component.resolve? m.component).isNone).map (.motionSkipped ·.component)) := by
  unfold setUp
  induction motion using List.reverseRecOn
  case nil => rfl
  case append_singleton motion m ih =>
    rw [List.foldl_concat, ih, List.foldl_concat, takeUp, MotionSettings.fitWith]
    cases hm : Component.resolve? m.component <;> simp [hm]

theorem controller?_setUp (motion : List MotionSettings) (component : Component) :
    (setUp motion).1.controller? component =
      (MotionSettings.lastFor? motion component).map MotionSettings.controller := by
  rw [setUp_eq]
  exact MotionSettings.look_foldl_fitWith (fun _ _ _ _ => controller?_fit) (fun _ => rfl) motion component

end Slots

namespace Station

variable {st : Station} {s : SimulationSettings} {component : Component} {point : String} {k : Controller}
  {m : MotionSettings} {before after : List MotionSettings} {delay : Nat} {input : List Typed}

theorem controller?_fit {d : Component} :
    (st.fit component k).controller? d = if component = d then some k else st.controller? d := by
  by_cases h : component = d
  case pos => simp [fit, controller?, h]
  case neg => simp [fit, controller?, List.lookup_cons, beq_false_of_ne (Ne.symm h), h]

theorem controller?_ofSettings (s : SimulationSettings) (component : Component) :
    (ofSettings s).controller? component =
      (MotionSettings.lastFor? s.motion component).map MotionSettings.controller :=
  MotionSettings.look_foldl_fitWith (fun _ _ _ _ => controller?_fit) (fun _ => rfl) s.motion component

-- Nothing that could be written in an entry addresses the bottom hexapod.
theorem controller?_hexapodBottom (s : SimulationSettings) : (ofSettings s).controller? .hexapodBottom = none := by
  rw [controller?_ofSettings]
  cases hlast : MotionSettings.lastFor? s.motion .hexapodBottom
  case none   => rfl
  case some m => exact absurd (MotionSettings.resolve?_of_lastFor? hlast) (Component.resolve?_ne_hexapodBottom _)

theorem ofSettings_of_skipped (hm : Component.resolve? m.component = none) (h : s.motion = before ++ m :: after) :
    ofSettings s = ofSettings { s with motion := before ++ after } := by
  have hskip (st : Station) : fitEntry st m = st := by simp [fitEntry, hm]
  rw [ofSettings, ofSettings, h, List.foldl_append, List.foldl_cons, hskip, List.foldl_append]

theorem warnings_of_skipped (hm : Component.resolve? m.component = none) (h : s.motion = before ++ m :: after) :
    warnings s = warnings { s with motion := before } ++
      .motionSkipped m.component :: warnings { s with motion := after } := by
  simp [warnings, h, hm]

theorem warnings_eq_nil_iff : warnings s = [] ↔ ∀ m ∈ s.motion, (Component.resolve? m.component).isSome := by
  simp [warnings, Option.isSome_iff_ne_none]

end Station

-- Settings that were read from a text have no entry to be warned of.
theorem Settings.warnings_of_ofText {text : String} {settings : Settings} (h : ofText text = .ok settings) :
    Station.warnings settings.simulation = [] := by
  have ⟨read, _, hvalid⟩ := exists_ok_of_bind h
  unfold validate at hvalid
  split at hvalid
  case h_1 => cases hvalid
  case h_2 hknown =>
    cases hvalid
    rw [Station.warnings_eq_nil_iff]
    simpa [unknownComponent?, Option.isSome_iff_ne_none] using hknown

-- A line that asks for a move.
theorem Line.ofString_move {target point : String} (htarget : Command.IsField target.toList)
    (hpoint : Command.IsField point.toList) : ofString ("MOVE ^ " ++ target ++ " ^ " ++ point) = .command {
      name := "MOVE"
      target
      parameters := [point]
      text := Text.trimmed ("MOVE ^ " ++ target ++ " ^ " ++ point) } := by
  have hspaced : Command.spaced ["MOVE", target, point] = "MOVE ^ " ++ target ++ " ^ " ++ point := by
    simp [Command.spaced, String.append_assoc]
  have hmove : Command.IsField "MOVE".toList := by decide +kernel
  rw [← hspaced]
  exact ofString_of_parse? (Command.parse?_spaced (List.forall_mem_cons.2 ⟨hmove, by simp [htarget, hpoint]⟩))

namespace SimulationSettings

-- The point was taught to the component that a target addresses, by the entry that counts.
structure Teaches (s : SimulationSettings) (target point : String) (component : Component) (m : MotionSettings) :
    Prop where
  resolved : Component.resolve? target = some component
  last     : MotionSettings.lastFor? s.motion component = some m
  taught   : point ∈ m.points

theorem Teaches.unique {s : SimulationSettings} {target point : String} {c d : Component} {m n : MotionSettings}
    (h : s.Teaches target point c m) (h' : s.Teaches target point d n) : d = c ∧ n = m := by
  cases h.resolved.symm.trans h'.resolved
  cases h.last.symm.trans h'.last
  exact ⟨rfl, rfl⟩

end SimulationSettings

-- What a move to a point of a target comes to: it takes the axis there if that point was taught to it, and nothing
-- comes of it otherwise.
structure Outcome.Moves (s : SimulationSettings) (target point : String) (b : Bench) (o : Outcome) : Prop where
  success : o.execution.success ↔ ∃ component m, s.Teaches target point component m
  moved   : ∀ component m, s.Teaches target point component m →
    o.bench.timeline.now = b.timeline.now + m.travel ∧
    o.trace.actions.map Action.text = ["move " ++ component.name ++ " " ++ point] ∧
    o.bench.devices = { b.devices with moves := o.bench.devices.moves } ∧
    o.bench.devices.position? component = some point ∧
    ∀ other, other ≠ component → o.bench.devices.position? other = b.devices.position? other
  refused : ¬o.execution.success → o.trace.actions = [] ∧ o.bench = b

namespace Interpreter

variable {i j : Interpreter} {s : SimulationSettings} {b : Bench} {c : Command} {line point : String} {token : Token}
  {component : Component} {m : MotionSettings} {delay : Nat} {input : List Typed} {st : Station} {k : Controller}
  {trigger : Trigger}

theorem plan_of_teaches (h : s.Teaches c.target point component m) (hp : c.parameter? 0 = some point) :
    plan ⟨.ofSettings s, delay⟩ input c .move =
      ⟨[.report .main (.moving component point), .report .main (.axisMoving component point), .wait m.travel,
        .change (.position component point), .record (.move component point)], .done⟩ := by
  have hinstr : c.instruction .move = .ok (.move component point) :=
    Command.instruction_eq_move_iff.2 ⟨rfl, h.resolved, hp⟩
  have hfitted : (Station.ofSettings s).controller? component = some m.controller := by
    rw [Station.controller?_ofSettings, h.last]
    rfl
  simp [plan, hinstr, Station.plan, Station.move, hfitted, MotionSettings.controller, Controller.move, h.taught,
    Plan.after]

theorem refused_of_not_teaches (h : ∀ component m, ¬s.Teaches c.target point component m)
    (hp : c.parameter? 0 = some point) (delay : Nat) (input : List Typed) :
    (plan ⟨.ofSettings s, delay⟩ input c .move).Refused := by
  cases hresolve : Component.resolve? c.target
  case none =>
    have hplan : plan ⟨.ofSettings s, delay⟩ input c .move = .fail (.unknownComponent c.target) := by
      simp [plan, Command.instruction, Command.destination, hresolve]
    exact hplan ▸ Plan.refused_fail _
  case some component =>
    have hinstr : c.instruction .move = .ok (.move component point) :=
      Command.instruction_eq_move_iff.2 ⟨rfl, hresolve, hp⟩
    have hplan : plan ⟨.ofSettings s, delay⟩ input c .move = (Station.ofSettings s).move component point := by
      rw [plan, hinstr]
      rfl
    rw [hplan, Station.move, Station.controller?_ofSettings]
    cases hlast : MotionSettings.lastFor? s.motion component
    case none => exact Plan.refused_fail _
    case some m =>
      have htaught : m.points.contains point = false := by
        simpa using fun hm => h component m ⟨hresolve, hlast, hm⟩
      simp only [Option.map_some, MotionSettings.controller, Controller.move, htaught]
      exact (Plan.refused_fail _).after_report _

-- Nothing is different after a move that brought an axis to a point but where that axis is.
theorem moves_of_teaches {o : Outcome} (h : s.Teaches c.target point component m) (hs : o.execution.success)
    (hnow : o.bench.timeline.now = b.timeline.now + m.travel) (hactions : o.trace.actions = [.move component point])
    (hdevices : o.bench.devices = b.devices.apply (.position component point)) : o.Moves s c.target point b where
  success := ⟨fun _ => ⟨component, m, h⟩, fun _ => hs⟩
  moved component' m' h' := by
    obtain ⟨rfl, rfl⟩ := h.unique h'
    refine ⟨hnow, by rw [hactions]; rfl, by rw [hdevices]; rfl, by rw [hdevices, Devices.position?_position], ?_⟩
    intro other hother
    rw [hdevices]
    exact Devices.position?_of_ne fun p heq => hother (by cases heq; rfl)
  refused hfail := absurd hs hfail

-- A move that is not cut short.
theorem execute_move (hl : ¬b.isCancelled token) (hc : Line.ofString line = .command c) (hname : c.name = "MOVE")
    (hp : c.parameter? 0 = some point)
    (hcalm : ∀ component m, s.Teaches c.target point component m →
      b.timeline.CalmUntil token (b.timeline.now + m.travel)) (delay : Nat) (trigger : Trigger) :
    ∃ o, execute ⟨.ofSettings s, delay⟩ b line token trigger = some o ∧ o.Moves s c.target point b := by
  have hv : Verb.ofName? c.name = some .move := Verb.ofName?_eq_some_iff.2 hname
  by_cases h : ∃ component m, s.Teaches c.target point component m
  case neg =>
    have hnone : ∀ component m, ¬s.Teaches c.target point component m := fun _ _ ht => h ⟨_, _, ht⟩
    have hrefused := refused_of_not_teaches hnone hp delay b.input
    have hfollow : b.timeline.follow token _ = _ := follow_of_refused hrefused
    obtain ⟨hfail, hunchanged⟩ := outcome_of_refused hrefused trigger hfollow
    refine ⟨_, by rw [execute_of_command hl hc hv, runCommand_eq, hfollow]; rfl, ?_⟩
    exact ⟨⟨fun hs => absurd hs hfail, fun ht => absurd ht h⟩, fun _ _ ht => absurd ht (hnone _ _), fun _ => hunchanged⟩
  case pos =>
    obtain ⟨component, m, ht⟩ := h
    let i : Interpreter := ⟨.ofSettings s, delay⟩
    have hplan : i.plan b.input c .move = _ := plan_of_teaches ht hp
    have hspan : Effect.span? (i.plan b.input c .move).effects = some m.travel := by
      rw [hplan]
      simp [Effect.span?, Effect.duration?]
    obtain ⟨u, hu, hnow⟩ := runCommand_of_calm trigger hl hspan (hcalm component m ht)
    have ho := (execute_of_command hl hc hv).trans hu
    refine ⟨_, ho, moves_of_teaches ht ?_ (outcome_now.trans hnow) ?_ ?_⟩
    · rw [outcome_success, hplan]
      rfl
    · rw [outcome_actions, hplan]
      rfl
    · rw [execute_devices ho, outcome_changes, hplan]
      rfl

-- No command moves the bottom hexapod.
theorem plan_fit_hexapodBottom (input : List Typed) (c : Command) (v : Verb) :
    plan ⟨st.fit .hexapodBottom k, delay⟩ input c v = plan ⟨st, delay⟩ input c v := by
  unfold plan
  cases hinstr : c.instruction v
  case error => rfl
  case ok instruction =>
    cases instruction
    case move component point =>
      have ⟨_, hresolve, _⟩ := Command.instruction_eq_move_iff.1 hinstr
      have hne : ¬Component.hexapodBottom = component := fun heq =>
        Component.resolve?_ne_hexapodBottom c.target (heq ▸ hresolve)
      simp only [Station.plan, Station.move, Station.controller?_fit, if_neg hne]
    all_goals rfl

theorem execute_eq_of_plan_eq (h : ∀ input c v, i.plan input c v = j.plan input c v) :
    i.execute b line token trigger = j.execute b line token trigger := by
  simp only [execute, runCommand, h]

end Interpreter

-- A move brings an axis to a point exactly if the last entry for its component teaches that point, in the travel time
-- of that entry, and changes nothing otherwise. The slots that are filled entry by entry hold the controllers that
-- moves reach. An entry that addresses no component makes no difference but for one warning, and settings that were
-- read from a text have none. Nobody reaches the bottom hexapod, whatever controller it has.
theorem moves_reach_last_entry (s : SimulationSettings) (delay : Nat) :
    (∀ b token trigger line c point, ¬b.isCancelled token → Line.ofString line = .command c → c.name = "MOVE" →
      c.parameter? 0 = some point →
      (∀ component m, s.Teaches c.target point component m →
        b.timeline.CalmUntil token (b.timeline.now + m.travel)) →
      ∃ o, Interpreter.execute ⟨.ofSettings s, delay⟩ b line token trigger = some o ∧
        o.Moves s c.target point b) ∧
    (∀ target point : String, Command.IsField target.toList → Command.IsField point.toList →
      ∃ c, Line.ofString ("MOVE ^ " ++ target ++ " ^ " ++ point) = .command c ∧ c.name = "MOVE" ∧ c.target = target ∧
        c.parameter? 0 = some point) ∧
    (∀ component, (Station.ofSettings s).controller? component = (Slots.setUp s.motion).1.controller? component) ∧
    (Slots.setUp s.motion).2 = Station.warnings s ∧
    (∀ before m after, s.motion = before ++ m :: after → Component.resolve? m.component = none →
      Station.ofSettings s = .ofSettings { s with motion := before ++ after } ∧
      Station.warnings s = Station.warnings { s with motion := before } ++
        .motionSkipped m.component :: Station.warnings { s with motion := after } ∧
      (Event.motionSkipped m.component).level = .warn) ∧
    (Station.warnings s = [] ↔ ∀ m ∈ s.motion, (Component.resolve? m.component).isSome) ∧
    (∀ text settings, Settings.ofText text = .ok settings → Station.warnings settings.simulation = []) ∧
    (Station.ofSettings s).controller? .hexapodBottom = none ∧
    ∀ (st : Station) controller b line token trigger,
      Interpreter.execute ⟨st.fit .hexapodBottom controller, delay⟩ b line token trigger =
        Interpreter.execute ⟨st, delay⟩ b line token trigger := by
  refine ⟨?lines, ?written, ?slots, ?warnings, ?skipped, Station.warnings_eq_nil_iff,
    fun _ _ => Settings.warnings_of_ofText, Station.controller?_hexapodBottom s, ?bottom⟩
  case lines =>
    intro b token trigger line c point hl hc hname hp hcalm
    exact Interpreter.execute_move hl hc hname hp hcalm delay trigger
  case written =>
    intro target point htarget hpoint
    exact ⟨_, Line.ofString_move htarget hpoint, rfl, rfl, rfl⟩
  case slots =>
    intro component
    rw [Station.controller?_ofSettings, Slots.controller?_setUp]
  case warnings =>
    rw [Slots.setUp_eq]
    rfl
  case skipped =>
    intro before m after h hm
    exact ⟨Station.ofSettings_of_skipped hm h, Station.warnings_of_skipped hm h, rfl⟩
  case bottom =>
    intro st controller b line token trigger
    exact Interpreter.execute_eq_of_plan_eq Interpreter.plan_fit_hexapodBottom

-- Two entries for one hexapod are spelled differently, and an entry between them addresses nothing.
theorem moves_reach_last_entry_of_respelled :
    let s : SimulationSettings :=
      { motion := [⟨"hexapodleft", ["A"], 3⟩, ⟨"ROBOT", ["B"], 5⟩, ⟨" HEXAPOD_LEFT ", ["B"], 7⟩] }
    (∃ o, Interpreter.execute ⟨.ofSettings s, 0⟩ {} "MOVE ^ Hexapod_Left ^ B // park" ⟨[⟨0⟩]⟩ ⟨⟨0⟩⟩ = some o ∧
      o.execution.success ∧ o.bench.timeline.now = 7 ∧ o.bench.devices.position? .hexapodLeft = some "B") ∧
    (∃ o, Interpreter.execute ⟨.ofSettings s, 0⟩ {} "MOVE ^ Hexapod_Left ^ A" ⟨[⟨0⟩]⟩ ⟨⟨0⟩⟩ = some o ∧
      ¬o.execution.success ∧ o.bench = {}) ∧
    Station.warnings s = [.motionSkipped "ROBOT"] := by
  intro s
  have ⟨hlines, _, _, _, hskipped, _⟩ := moves_reach_last_entry s 0
  refine ⟨?last, ?first, (hskipped [_] _ [_] rfl (by decide +kernel)).right.left.trans ?warnings⟩
  case warnings => decide +kernel
  case last =>
    have ⟨o, ho, hmoves⟩ := hlines {} ⟨[⟨0⟩]⟩ ⟨⟨0⟩⟩ "MOVE ^ Hexapod_Left ^ B // park"
      ⟨"MOVE", "Hexapod_Left", ["B"], "MOVE ^ Hexapod_Left ^ B", none⟩ "B" (by decide) (by decide +kernel) rfl rfl
      fun _ _ _ => nofun
    have hteaches : s.Teaches "Hexapod_Left" "B" .hexapodLeft ⟨" HEXAPOD_LEFT ", ["B"], 7⟩ :=
      ⟨by decide +kernel, by decide +kernel, by decide⟩
    have ⟨hnow, _, _, hposition, _⟩ := hmoves.moved _ _ hteaches
    exact ⟨o, ho, hmoves.success.2 ⟨_, _, hteaches⟩, hnow, hposition⟩
  case first =>
    have ⟨o, ho, hmoves⟩ := hlines {} ⟨[⟨0⟩]⟩ ⟨⟨0⟩⟩ "MOVE ^ Hexapod_Left ^ A"
      ⟨"MOVE", "Hexapod_Left", ["A"], "MOVE ^ Hexapod_Left ^ A", none⟩ "A" (by decide) (by decide +kernel) rfl rfl
      fun _ _ _ => nofun
    have hfail : ¬o.execution.success := by
      rw [hmoves.success]
      rintro ⟨component, m, h⟩
      have hcomponent : component = .hexapodLeft := Option.some.inj (h.resolved.symm.trans (by decide +kernel))
      have hm : m = ⟨" HEXAPOD_LEFT ", ["B"], 7⟩ :=
        Option.some.inj (h.last.symm.trans (hcomponent ▸ by decide +kernel))
      exact absurd (hm ▸ h.taught) (by decide)
    exact ⟨o, ho, hfail, (hmoves.refused hfail).right⟩

end StationScript
