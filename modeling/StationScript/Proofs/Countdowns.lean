import Mathlib.Algebra.Order.Floor.Div
import Mathlib.GroupTheory.GroupAction.Ring
import StationScript.Proofs.Durations

namespace StationScript

namespace Timeline

open Effect

variable {t : Timeline} {token : Token} {es : List Effect} {e : Effect} {n instant : Nat}

-- The events that are reported on the main thread while effects are followed, each with the instant at which it is.
def reports (t : Timeline) (token : Token) : List Effect → List (Nat × Event)
  | [] => []
  | .wait n :: rest => if (t.wait token n).1 then (t.wait token n).2.reports token rest else []
  | .waitForSignal :: _ | .block :: _ => []
  | e :: rest => (e.event? .main).toList.map (t.now, ·) ++ t.reports token rest

theorem reports_cons_wait :
    t.reports token (.wait n :: es) = if (t.wait token n).1 then (t.wait token n).2.reports token es else [] :=
  rfl

theorem reports_cons_of_instant (h : e.IsInstant) :
    t.reports token (e :: es) = (e.event? .main).toList.map (t.now, ·) ++ t.reports token es := by
  cases e <;> first | rfl | exact h.elim

-- Without the instants these are the events that took place.
theorem map_reports {p : Progress} (h : t.follow token es = some p) :
    (t.reports token es).map (·.2) = p.trace.events .main := by
  induction es generalizing t p
  case nil => cases h; rfl
  case cons e rest ih =>
    cases e using byKind
    case wait n =>
      rw [follow_cons_wait] at h
      rw [reports_cons_wait]
      split at h
      case isTrue hpassed =>
        obtain ⟨q, hq, rfl⟩ := Option.map_eq_some_iff.1 h
        rw [if_pos hpassed, ih hq]
        rfl
      case isFalse hcut =>
        cases h
        rw [if_neg hcut]
        rfl
    case signal =>
      obtain ⟨_, _, rfl⟩ := Option.map_eq_some_iff.1 h
      rfl
    case block => cases h
    case instant hi =>
      rw [follow_cons_of_instant hi] at h
      obtain ⟨q, hq, rfl⟩ := Option.map_eq_some_iff.1 h
      rw [reports_cons_of_instant hi, List.map_append, ih hq, List.map_map]
      cases hevent : e.event? .main <;> simp [Progress.after, Trace.events, hevent]

end Timeline

namespace Countdown

variable {start n count : Nat}

-- The first of the reports of a countdown from some instant on. They are a second apart, and each tells how many
-- seconds remain.
def shown (start n count : Nat) : List (Nat × Event) :=
  (List.range count).map fun j => (start + 1000 * j, .countdown (n ⌈/⌉ 1000 - j))

theorem ceilDiv_eq (n : Nat) : n ⌈/⌉ 1000 = (n + 999) / 1000 :=
  Nat.ceilDiv_eq_add_pred_div ..

theorem ceilDiv_of_pos (h : 0 < n) : n ⌈/⌉ 1000 = (n - 1000) ⌈/⌉ 1000 + 1 := by
  simp only [ceilDiv_eq]
  omega

-- After the first report it is a countdown that begins a second later, and is a second shorter. It may be over by then.
theorem shown_succ (h : 0 < n) (hshort : n < 1000 → count = 0) (start : Nat) : shown start n (count + 1) =
    (start, .countdown (n ⌈/⌉ 1000)) :: shown (start + min n 1000) (n - 1000) count := by
  rw [shown, List.range_succ_eq_map, List.map_cons, List.map_map, shown]
  refine congrArg₂ List.cons rfl (List.map_congr_left fun j hj => ?_)
  have hlong : ¬n < 1000 := fun hlt => by simp [hshort hlt] at hj
  have hinstant : start + 1000 * (j + 1) = start + min n 1000 + 1000 * j := by omega
  have hseconds : (n - 1000) ⌈/⌉ 1000 + 1 - (j + 1) = (n - 1000) ⌈/⌉ 1000 - j := Nat.add_sub_add_right ..
  rw [Function.comp_apply, ceilDiv_of_pos h, Nat.succ_eq_add_one, hinstant, hseconds]

end Countdown

namespace Station

open Effect Timeline

variable {t : Timeline} {token : Token} {es : List Effect} {n c : Nat}

-- The first second of a countdown, or what there is of it.
theorem reports_countdownSteps (hn : 0 < n) (t : Timeline) (token : Token) (es : List Effect) :
    t.reports token (countdownSteps n ++ es) = (t.now, .countdown (n ⌈/⌉ 1000)) ::
      if (t.wait token (min n 1000)).1 then
        (t.wait token (min n 1000)).2.reports token (countdownSteps (n - 1000) ++ es)
      else [] := by
  rw [countdownSteps_of_pos hn, Countdown.ceilDiv_eq]
  rfl

-- A countdown that nothing cuts shows every second that was begun.
theorem reports_of_calm (hl : ¬t.isCancelled token) (hcalm : t.CalmUntil token (t.now + n))
    (hes : ∀ t : Timeline, t.reports token es = []) :
    t.reports token (countdownSteps n ++ es) = Countdown.shown t.now n (n ⌈/⌉ 1000) := by
  induction n using countdownSteps_induction generalizing t
  case zero =>
    rw [countdownSteps_zero, List.nil_append, hes]
    rfl
  case step n hn ih =>
    have hsecond : t.CalmUntil token (t.now + min n 1000) := fun f hf hm => by have := hcalm f hf hm; omega
    have hpassed : t.wait token (min n 1000) = (true, t.moveTo (t.now + min n 1000)) := wait_of_calm hl hsecond
    have hlater : (t.moveTo (t.now + min n 1000)).CalmUntil token (t.now + min n 1000 + (n - 1000)) :=
      CalmUntil.moveTo fun f hf hm => by have := hcalm f hf hm; omega
    have hrest := ih (hsecond.not_isCancelled_moveTo hl) hlater
    have hshort : n < 1000 → (n - 1000) ⌈/⌉ 1000 = 0 := by
      rw [Countdown.ceilDiv_eq]
      omega
    rw [reports_countdownSteps hn, hpassed, if_pos rfl, hrest]
    exact (congrArg _ (Countdown.ceilDiv_of_pos hn)).trans (Countdown.shown_succ hn hshort t.now) |>.symm

-- A countdown that is cut shows every second that was begun by then.
theorem reports_of_earliest (hl : ¬t.isCancelled token) (he : t.EarliestFor token c) (hge : t.now ≤ c)
    (hlt : c < t.now + n) :
    t.reports token (countdownSteps n ++ es) = Countdown.shown t.now n ((c - t.now) / 1000 + 1) := by
  induction n using countdownSteps_induction generalizing t
  case zero => omega
  case step n hn ih =>
    by_cases hfirst : c < t.now + min n 1000
    case pos =>
      have hcut : t.wait token (min n 1000) = (false, t.cutAt c) := wait_of_earliest hl he hfirst
      have hnone : (c - t.now) / 1000 = 0 := by omega
      rw [reports_countdownSteps hn, hcut, hnone, Countdown.shown_succ hn fun _ => rfl]
      rfl
    case neg =>
      have hle : t.now + min n 1000 ≤ c := Nat.le_of_not_lt hfirst
      have hsecond : t.CalmUntil token (t.now + min n 1000) := he.calmUntil hle
      have hpassed : t.wait token (min n 1000) = (true, t.moveTo (t.now + min n 1000)) := wait_of_calm hl hsecond
      have hbefore : c < t.now + min n 1000 + (n - 1000) := by omega
      have hrest := ih (hsecond.not_isCancelled_moveTo hl) (he.moveTo hle) hle hbefore
      have hcount : (c - t.now) / 1000 = (c - (t.now + min n 1000)) / 1000 + 1 := by omega
      rw [reports_countdownSteps hn, hpassed, if_pos rfl, hrest, hcount, Countdown.shown_succ hn (by omega)]
      rfl

theorem actions_countdownSteps (n : Nat) : Trace.actions (countdownSteps n) = [] := by
  induction n using countdownSteps_induction
  case zero         => rw [countdownSteps_zero]; rfl
  case step n hn ih => rw [countdownSteps_of_pos hn]; exact ih

-- A countdown that was done took its time to the millisecond. It was entered in the journal once, at the end.
structure CountdownDone (t : Timeline) (token : Token) (n : Nat) (p : Progress) : Prop where
  finished : p.finished
  now      : p.timeline.now = t.now + n
  reports  : t.reports token (showCountdown n).effects = Countdown.shown t.now n (n ⌈/⌉ 1000)
  events   : p.trace.events .main = (Countdown.shown t.now n (n ⌈/⌉ 1000)).map (·.2)
  actions  : p.trace.actions = [.countdown n]
  last     : p.trace.getLast? = some (.record (.countdown n))

-- A countdown that was cut at some instant is entered nowhere.
structure CountdownCut (t : Timeline) (token : Token) (n c : Nat) (p : Progress) : Prop where
  finished : ¬p.finished
  now      : p.timeline.now = c
  reports  : t.reports token (showCountdown n).effects = Countdown.shown t.now n ((c - t.now) / 1000 + 1)
  events   : p.trace.events .main = (Countdown.shown t.now n ((c - t.now) / 1000 + 1)).map (·.2)
  actions  : p.trace.actions = []

theorem exists_follow_done (ha : Countdown.accepts n) (hl : ¬t.isCancelled token)
    (hcalm : t.CalmUntil token (t.now + n)) :
    ∃ p, t.follow token (showCountdown n).effects = some p ∧ CountdownDone t token n p := by
  have ⟨u, hu, hnow, _⟩ := follow_of_calm (span?_showCountdown ha) hl hcalm
  have heffects : (showCountdown n).effects = countdownSteps n ++ [.record (.countdown n)] := by
    rw [showCountdown_of_accepts ha]
  have hreports : t.reports token (showCountdown n).effects = Countdown.shown t.now n (n ⌈/⌉ 1000) := by
    rw [heffects]
    exact reports_of_calm hl hcalm fun _ => rfl
  refine ⟨_, hu, ⟨rfl, hnow, hreports, hreports ▸ (map_reports hu).symm, ?actions, ?last⟩⟩
  case actions =>
    rw [heffects, Trace.actions_append, actions_countdownSteps]
    rfl
  case last => rw [heffects, List.getLast?_concat]

theorem exists_follow_cut (ha : Countdown.accepts n) (hl : ¬t.isCancelled token) (he : t.EarliestFor token c)
    (hge : t.now ≤ c) (hlt : c < t.now + n) :
    ∃ p, t.follow token (showCountdown n).effects = some p ∧ CountdownCut t token n c p := by
  have hspan := span?_showCountdown ha
  have hblock : .block ∉ (showCountdown n).effects := by
    intro hm
    rcases mem_showCountdown hm with ⟨_, heq⟩ | ⟨_, heq⟩ | heq <;> cases heq
  have hend : ∀ d, span? (showCountdown n).effects = some d → c < t.now + d := by
    intro d hd
    cases hspan.symm.trans hd
    exact hlt
  have ⟨done, e, rest, u, hes, hw, hu, hnow, _⟩ := follow_of_earliest he hl hge hblock hend
  have hreports : t.reports token (showCountdown n).effects = Countdown.shown t.now n ((c - t.now) / 1000 + 1) := by
    rw [showCountdown_of_accepts ha]
    exact reports_of_earliest hl he hge hlt
  exact ⟨_, hu, ⟨nofun, hnow, hreports, hreports ▸ (map_reports hu).symm, showCountdown_actsLast done e rest hes hw⟩⟩

end Station

namespace Interpreter

variable {i : Interpreter} {b : Bench} {line : String} {token : Token} {n c : Nat}

-- The line that says how long a countdown is.
theorem instruction?_countdown {target : String} (ht : Command.IsField target.toList) (hn : n < 2 ^ 64) :
    instruction? (Command.spaced ["SHOW_COUNTDOWN", target, Nat.repr n]) = some (.countdown n) := by
  have hname : Command.IsField "SHOW_COUNTDOWN".toList := by decide +kernel
  have hdigits : Command.IsField (Nat.repr n).toList := by
    rw [Text.repr_toList]
    exact Command.isField_of_digits Nat.toDigits_ne_nil fun _ => Nat.isDigit_of_mem_toDigits (by decide) (by decide)
  have hfields : ∀ w ∈ ["SHOW_COUNTDOWN", target, Nat.repr n], Command.IsField w.toList :=
    List.forall_mem_cons.2 ⟨hname, List.forall_mem_cons.2 ⟨ht, List.forall_mem_singleton.2 hdigits⟩⟩
  have hparse := Command.parse?_spaced hfields
  rw [instruction?_eq (Line.ofString_of_parse? hparse) rfl, (Command.gives_countdown _).ok n]
  · rfl
  · exact Command.duration_of_spells rfl (Text.spells_repr n) hn

end Interpreter

-- What is done on a line is what was done of its countdown, between the event that opens it and the one that closes it.
structure Outcome.Closes (b : Bench) (p : Progress) (closing : String → Event) (o : Outcome) : Prop where
  trace : ∃ text, o.trace =
    .report .main (.executing .showCountdown text) :: p.trace ++ [.report .main (closing text)]
  bench : o.bench = b.advance o.trace p.timeline

namespace Interpreter

variable {i : Interpreter} {b : Bench} {line : String} {token : Token} {n c : Nat} {p : Progress}

theorem exists_command_of_countdown (h : instruction? line = some (.countdown n)) :
    ∃ cmd, Line.ofString line = .command cmd ∧ Verb.ofName? cmd.name = some .showCountdown ∧
      ∀ (i : Interpreter) (input : List Typed), i.plan input cmd .showCountdown = i.station.countdown n := by
  have ⟨cmd, v, hc, hv, hinstr⟩ := exists_command_of_instruction h
  obtain rfl : .showCountdown = v := Command.verb_of_instruction hinstr
  exact ⟨cmd, hc, hv, fun i input => plan_of_instruction hc hv h⟩

theorem execute_countdown_refused (hs : i.station.showsCountdowns) (hl : ¬b.isCancelled token)
    (h : instruction? line = some (.countdown n)) (ha : ¬Countdown.accepts n) (trigger : Trigger) :
    ∃ o, i.execute b line token trigger = some o ∧ ¬o.execution.success ∧ o.bench = b := by
  have ⟨cmd, hc, hv, hplan⟩ := exists_command_of_countdown h
  have hfail : i.plan b.input cmd .showCountdown = .fail (.countdownOutOfRange n) := by
    rw [hplan, Station.countdown_of_shown hs, Station.showCountdown_of_not_accepts ha]
  exact ⟨_, execute_of_fail hl hc hv hfail trigger, nofun, rfl⟩

-- A countdown on a surface that was followed, to its end or not.
theorem execute_countdown_followed (hs : i.station.showsCountdowns) (hl : ¬b.isCancelled token)
    (h : instruction? line = some (.countdown n)) (ha : Countdown.accepts n)
    (hp : b.timeline.follow token (Station.showCountdown n).effects = some p) (trigger : Trigger) :
    ∃ o, i.execute b line token trigger = some o ∧ o.execution.success = p.finished ∧
      o.Closes b p fun text => if p.finished then .completed text else .cancelled text := by
  have ⟨cmd, hc, hv, hplan⟩ := exists_command_of_countdown h
  have hshown : i.plan b.input cmd .showCountdown = Station.showCountdown n := by
    rw [hplan, Station.countdown_of_shown hs]
  have hending : Ending.ofVerdict p.finished (i.plan b.input cmd .showCountdown).verdict =
      if p.finished then .completed else .cancelled := by
    rw [hshown, Station.showCountdown_of_accepts ha]
    rfl
  refine ⟨i.outcome b cmd .showCountdown trigger p, ?executed, ?success, ?closes⟩
  case executed =>
    rw [execute_of_command hl hc hv, runCommand_eq, hshown, hp]
    rfl
  all_goals
    simp only [outcome, hending]
    cases p.finished
  case success.false | success.true => rfl
  case closes.false | closes.true   => exact ⟨⟨cmd.text, rfl⟩, rfl⟩

theorem execute_countdown_plain (hs : ¬i.station.showsCountdowns) (hl : ¬b.isCancelled token)
    (h : instruction? line = some (.countdown n)) (hcalm : b.timeline.CalmUntil token (b.timeline.now + n))
    (trigger : Trigger) :
    ∃ o, i.execute b line token trigger = some o ∧ o.execution.success ∧
      o.bench.timeline.now = b.timeline.now + n ∧ o.trace.actions = [] := by
  have ⟨cmd, hc, hv, hplan⟩ := exists_command_of_countdown h
  have hwait : i.plan b.input cmd .showCountdown = ⟨[.wait n], .done⟩ := by
    rw [hplan, Station.countdown_of_plain hs]
  have hspan : Effect.span? (i.plan b.input cmd .showCountdown).effects = some n := by
    rw [hwait]
    rfl
  have hdone : (i.plan b.input cmd .showCountdown).verdict = .done := by rw [hwait]
  have ⟨u, ho, hsuccess, hu, hnow⟩ := execute_of_done hl hc hv hspan hdone hcalm trigger
  refine ⟨_, ho, hsuccess, (congrArg (·.now) hu).trans hnow, ?_⟩
  rw [outcome_actions, hwait]
  rfl

end Interpreter

-- A token with no flags is never cancelled.
theorem Timeline.not_isCancelled_nil (t : Timeline) : ¬t.isCancelled ⟨[]⟩ := by
  simp [isCancelled, Signals.isCancelled]

theorem Bench.call_of_follow {b : Bench} {plan : Plan} {p : Progress}
    (h : b.timeline.follow ⟨[]⟩ plan.effects = some p) :
    b.call plan = some (plan.verdict, p.trace, b.advance p.trace p.timeline) := by
  rw [call, h]
  rfl

-- A countdown on a surface is refused at once if it is too short or too long. Any other one that is left alone takes
-- its time to the millisecond, and one that is cut has shown all seconds that were begun, and is not entered in the
-- journal. The lines of a script come to the same. Where there is no surface, every duration is waited for.
theorem countdowns_keep_time (n : Nat) :
    (∀ b : Bench, b.call (Station.showCountdown n) = some (.failed (.countdownOutOfRange n), [], b) ↔
      ¬(1 ≤ n ∧ n ≤ 1200000)) ∧
    (1 ≤ n ∧ n ≤ 1200000 →
      (∀ b : Bench, ∃ p, b.call (Station.showCountdown n) = some (.done, p.trace, b.advance p.trace p.timeline) ∧
        Station.CountdownDone b.timeline ⟨[]⟩ n p) ∧
      ∀ (t : Timeline) (token : Token), ¬t.isCancelled token →
        (t.CalmUntil token (t.now + n) → ∃ p, t.follow token (Station.showCountdown n).effects = some p ∧
          Station.CountdownDone t token n p) ∧
        ∀ c, t.EarliestFor token c → t.now ≤ c → c < t.now + n →
          ∃ p, t.follow token (Station.showCountdown n).effects = some p ∧ Station.CountdownCut t token n c p) ∧
    (∀ target : String, Command.IsField target.toList → n < 2 ^ 64 →
      Interpreter.instruction? (Command.spaced ["SHOW_COUNTDOWN", target, Nat.repr n]) = some (.countdown n)) ∧
    ∀ (i : Interpreter) (b : Bench) (line : String) (token : Token) (trigger : Trigger),
      Interpreter.instruction? line = some (.countdown n) → ¬b.isCancelled token →
      (i.station.showsCountdowns → ¬(1 ≤ n ∧ n ≤ 1200000) →
        ∃ o, i.execute b line token trigger = some o ∧ ¬o.execution.success ∧ o.bench = b) ∧
      (i.station.showsCountdowns → 1 ≤ n ∧ n ≤ 1200000 →
        (b.timeline.CalmUntil token (b.timeline.now + n) →
          ∃ p o, i.execute b line token trigger = some o ∧ o.execution.success ∧ o.Closes b p .completed ∧
            Station.CountdownDone b.timeline token n p) ∧
        ∀ c, b.timeline.EarliestFor token c → b.timeline.now ≤ c → c < b.timeline.now + n →
          ∃ p o, i.execute b line token trigger = some o ∧ ¬o.execution.success ∧ o.Closes b p .cancelled ∧
            Station.CountdownCut b.timeline token n c p) ∧
      (¬i.station.showsCountdowns → b.timeline.CalmUntil token (b.timeline.now + n) →
        ∃ o, i.execute b line token trigger = some o ∧ o.execution.success ∧
          o.bench.timeline.now = b.timeline.now + n ∧ o.trace.actions = []) := by
  rw [← Countdown.accepts_iff]
  refine ⟨fun b => ⟨?accepts, ?refuses⟩, fun ha => ⟨fun b => ?called, fun t token hl => ⟨?calm, ?cut⟩⟩,
    fun _ => Interpreter.instruction?_countdown,
    fun i b line token trigger hi hl => ⟨fun hs ha => ?refusedLine, fun hs ha => ⟨?calmLine, ?cutLine⟩, ?plainLine⟩⟩
  case accepts =>
    intro hcall ha
    have ⟨p, hp, _⟩ := Station.exists_follow_done ha b.timeline.not_isCancelled_nil nofun
    rw [Bench.call_of_follow hp, Station.showCountdown_of_accepts ha] at hcall
    cases hcall
  case refuses =>
    intro ha
    rw [Station.showCountdown_of_not_accepts ha]
    rfl
  case called =>
    have ⟨p, hp, hdone⟩ := Station.exists_follow_done ha b.timeline.not_isCancelled_nil nofun
    exact ⟨p, by rw [Bench.call_of_follow hp, Station.showCountdown_of_accepts ha], hdone⟩
  case calm        => exact Station.exists_follow_done ha hl
  case cut         => exact fun c => Station.exists_follow_cut ha hl
  case refusedLine => exact Interpreter.execute_countdown_refused hs hl hi ha trigger
  case calmLine =>
    intro hcalm
    have ⟨p, hp, hdone⟩ := Station.exists_follow_done ha hl hcalm
    have ⟨o, ho, hsuccess, hcloses⟩ := Interpreter.execute_countdown_followed hs hl hi ha hp trigger
    simp only [hdone.finished, if_true] at hsuccess hcloses
    exact ⟨p, o, ho, hsuccess, hcloses, hdone⟩
  case cutLine =>
    intro c he hge hlt
    have ⟨p, hp, hcut⟩ := Station.exists_follow_cut ha hl he hge hlt
    have ⟨o, ho, hsuccess, hcloses⟩ := Interpreter.execute_countdown_followed hs hl hi ha hp trigger
    simp only [hcut.finished] at hsuccess hcloses
    exact ⟨p, o, ho, by simp [hsuccess], hcloses, hcut⟩
  case plainLine => exact fun hs hcalm => Interpreter.execute_countdown_plain hs hl hi hcalm trigger

-- Two seconds and a half, left alone, and cut in the second one.
theorem countdowns_keep_time_until_cut :
    let i : Interpreter := ⟨.ofSettings .instant, 100⟩
    let b : Bench := { timeline := { now := 40, signals := { opened := 1 }, schedule := [⟨1240, ⟨0⟩⟩] } }
    (∃ p : Progress, b.call (Station.showCountdown 2500) = some (.done, p.trace, b.advance p.trace p.timeline) ∧
      p.timeline.now = 2540 ∧ b.timeline.reports ⟨[]⟩ (Station.showCountdown 2500).effects =
        [(40, .countdown 3), (1040, .countdown 2), (2040, .countdown 1)]) ∧
    (∃ (p : Progress) (o : Outcome), i.execute b "SHOW_COUNTDOWN ^ T ^ 2500" ⟨[⟨0⟩]⟩ ⟨⟨0⟩⟩ = some o ∧
      ¬o.execution.success ∧ o.Closes b p .cancelled ∧ p.timeline.now = 1240 ∧
      p.trace.events .main = [.countdown 3, .countdown 2]) ∧
    b.call (Station.showCountdown 1200001) = some (.failed (.countdownOutOfRange 1200001), [], b) := by
  intro i b
  have ⟨_, haccepted, _, hlines⟩ := countdowns_keep_time 2500
  have hshown : Countdown.shown 40 2500 (2500 ⌈/⌉ 1000) =
      [(40, .countdown 3), (1040, .countdown 2), (2040, .countdown 1)] := by
    decide +kernel
  refine ⟨?done, ?cut, ((countdowns_keep_time 1200001).left b).2 (by decide)⟩
  case done =>
    have ⟨p, hcall, hdone⟩ := (haccepted (by decide)).left b
    exact ⟨p, hcall, hdone.now, hdone.reports.trans hshown⟩
  case cut =>
    have hline := hlines i b "SHOW_COUNTDOWN ^ T ^ 2500" ⟨[⟨0⟩]⟩ ⟨⟨0⟩⟩ (by decide +kernel) (by decide)
    have ⟨p, o, ho, hfails, hcloses, hcut⟩ :=
      (hline.right.left (by decide +kernel) (by decide)).right 1240 ⟨by decide, by decide⟩ (by decide) (by decide)
    have hevents : (Countdown.shown 40 2500 ((1240 - 40) / 1000 + 1)).map (·.2) = [.countdown 3, .countdown 2] := by
      decide +kernel
    exact ⟨p, o, ho, hfails, hcloses, hcut.now, hcut.events.trans hevents⟩

end StationScript
