import StationScript.Proofs.Interruption
import StationScript.Proofs.RowScopes

namespace StationScript

theorem Presenter.ask_input {p : Presenter} (h : p ≠ .terminal) (thread : Thread) (kind : DialogKind)
    (title message : String) (input input' : List Typed) :
    p.ask thread kind title message input = p.ask thread kind title message input' := by
  cases p
  case terminal => exact absurd rfl h
  all_goals rfl

-- Only the terminal looks at what the operator will type.
theorem Interpreter.plan_input {i : Interpreter} (h : i.station.presenter ≠ .terminal) (input input' : List Typed)
    (c : Command) (v : Verb) : i.plan input c v = i.plan input' c v := by
  unfold plan
  cases c.instruction v
  case error => rfl
  case ok instruction =>
    cases instruction
    case dialog kind title message =>
      simp only [Station.plan, Station.dialog, Presenter.ask_input h _ _ _ _ input input']
    all_goals rfl

namespace Bench

variable {b : Bench} {seen : Token}

theorem Ready.isCancelled_opening (h : b.Ready seen) :
    (b.withOpened (b.timeline.signals.opened + 1)).isCancelled ⟨b.timeline.signals.next :: seen.flags⟩ =
      b.isCancelled seen :=
  h.extends_next.isCancelled

-- A bench on which a token is live, and nothing will ever happen to it by itself.
structure Resting (seen : Token) (b : Bench) : Prop where
  idle  : b.timeline.schedule = []
  live  : ¬b.isCancelled seen
  ready : b.Ready seen

theorem Resting.enter {r : Runner} (h : b.Resting r.token) : (r.enter b).1.Resting (r.enter b).2.2 where
  idle  := h.idle
  live  := by
    have hsame : (r.enter b).1.isCancelled (r.enter b).2.2 = b.isCancelled r.token := h.ready.isCancelled_opening
    rw [hsame]
    exact h.live
  ready := Runner.Ready.enter h.ready

-- Nothing is to come but firings of one flag, and none of them is overdue.
def Awaits (b : Bench) (g : Flag) : Prop :=
  ∀ f ∈ b.timeline.schedule, f.flag = g ∧ b.timeline.now ≤ f.instant

end Bench

-- What a line comes to if it is left alone: how long it takes, whether it succeeds, all that takes place, and how it
-- ends.
def Interpreter.LeftAlone (i : Interpreter) (line : String) (d : Nat) (x : Execution) (trace : Trace)
    (ending : Ending) : Prop :=
  ∀ (b : Bench) (token : Token) (trigger : Trigger), ¬b.isCancelled token →
    (∀ f ∈ b.timeline.schedule, b.timeline.now + d ≤ f.instant) →
    i.execute b line token trigger =
      some ⟨x, trace, b.advance trace (ending.signal trigger { b.timeline with now := b.timeline.now + d })⟩

theorem Interpreter.exists_leftAlone {i : Interpreter} (hr : i.station.AlwaysReplies)
    (ht : i.station.presenter ≠ .terminal) (line : String) : ∃ d x trace ending, i.LeftAlone line d x trace ending := by
  have ⟨d, x, trace, ending, hexecute⟩ := execute_of_idle hr [] line
  exact ⟨d, x, trace, ending, fun b token trigger => hexecute b token trigger (plan_input ht _ _)⟩

-- What becomes of a line that nothing disturbs.
structure Fate where
  elapsed : Nat
  execution : Execution
  status : RowStatus
  actions : List Action
  -- Whether its run is cancelled afterwards.
  cancelled : Bool

-- The outcome of a row that met its fate.
structure RowOutcome.Meets (r : Runner) (b : Bench) (seen : Token) (row : Row) (fate : Fate) (o : RowOutcome) :
    Prop where
  record    : o.record = r.lineRecord b row fate.execution
  status    : o.status = fate.status
  actions   : o.trace.actions = fate.actions
  cancelled : o.bench.isCancelled seen = fate.cancelled
  now       : o.bench.timeline.now = b.timeline.now + fate.elapsed
  schedule  : o.bench.timeline.schedule = b.timeline.schedule
  ready     : o.bench.Ready seen

namespace Runner

theorem resting_open (i : Interpreter) (settings : RunnerSettings) (publisher : Publisher) (origin : Instant)
    (typed : List Typed) :
    (Runner.open i settings publisher origin { input := typed }).2.Resting
      (Runner.open i settings publisher origin { input := typed }).1.token :=
  ⟨rfl, Bool.false_ne_true, ready_open i settings publisher origin typed⟩

variable {r : Runner} {s : CancellationScope} {b : Bench} {seen : Token} {trigger : Trigger} {row : Row}

theorem rowOutcome_actions {token : Token} {o : Outcome} :
    (r.rowOutcome b token row o).trace.actions = o.trace.actions := by
  rw [rowOutcome, Trace.actions_append, publishLine_actions, List.append_nil]

-- The scope of a line, as the scope of the run sees it.
structure Within (s : CancellationScope) (trigger : Trigger) (seen : Token) (b inner : Bench) (t : Trigger)
    (token : Token) : Prop where
  opened    : ∃ opened, b.timeline.signals.opened ≤ opened ∧ inner = b.withOpened opened
  cancelled : inner.isCancelled token = b.isCancelled seen
  mem       : t.flag ∈ token.flags
  number    : t.flag.number < inner.timeline.signals.opened
  outer     : t.flag ∈ seen.flags ↔ s = .run

theorem lineScope_within (hs : r.settings.cancellationScope = s) (h : b.Ready seen)
    (ht : s = .run → trigger.flag ∈ seen.flags) :
    Within s trigger seen b (r.lineScope b trigger seen).1 (r.lineScope b trigger seen).2.1
      (r.lineScope b trigger seen).2.2 := by
  rw [lineScope, hs]
  cases s
  case run =>
    exact ⟨⟨_, Nat.le_refl _, rfl⟩, rfl, ht rfl, h.opened _ (ht rfl), fun _ => rfl, fun _ => ht rfl⟩
  case line =>
    exact ⟨⟨_, Nat.le_succ _, rfl⟩, h.isCancelled_opening, List.mem_cons_self .., Nat.lt_succ_self _,
      fun hm => absurd hm h.next_not_mem, nofun⟩

theorem row_of_leftAlone {d : Nat} {x : Execution} {trace : Trace} {ending : Ending}
    (h : r.interpreter.LeftAlone row.text d x trace ending) (hs : r.settings.cancellationScope = s)
    (hready : b.Ready seen) (ht : s = .run → trigger.flag ∈ seen.flags) (hl : b.isCancelled seen = false)
    (hidle : ∀ f ∈ b.timeline.schedule, b.timeline.now + d ≤ f.instant) :
    ∃ inner t token, Within s trigger seen b inner t token ∧ r.row b trigger seen row =
      some (r.rowOutcome inner token row ⟨x, trace, inner.advance trace
        (ending.signal t { inner.timeline with now := inner.timeline.now + d })⟩) := by
  have hw := lineScope_within hs hready ht
  obtain ⟨opened, _, hinner⟩ := hw.opened
  have ho := h (r.lineScope b trigger seen).1 (r.lineScope b trigger seen).2.2 (r.lineScope b trigger seen).2.1
    (Bool.eq_false_iff.1 (hw.cancelled.trans hl)) (by rwa [hinner])
  exact ⟨_, _, _, hw, by rw [row_eq, ho]; rfl⟩

-- Every line has its fate, under a cancelled run as well as under a live one. It is met unless something fires
-- meanwhile.
theorem exists_fate {i : Interpreter} (hr : i.station.AlwaysReplies) (ht : i.station.presenter ≠ .terminal)
    (s : CancellationScope) (line : String) (cancelled : Bool) :
    ∃ fate : Fate, (s = .line → fate.cancelled = cancelled) ∧
      ∀ (r : Runner) (b : Bench) (seen : Token) (trigger : Trigger) (row : Row), r.interpreter = i →
        r.settings.cancellationScope = s → row.text = line → b.Ready seen →
        (s = .run → trigger.flag ∈ seen.flags) → b.isCancelled seen = cancelled →
        (∀ f ∈ b.timeline.schedule, b.timeline.now + fate.elapsed ≤ f.instant) →
        ∃ o, r.row b trigger seen row = some o ∧ o.Meets r b seen row fate := by
  cases cancelled
  case true =>
    refine ⟨⟨0, ⟨false, none⟩, .cancelled, [], true⟩, fun _ => rfl, ?_⟩
    rintro r b seen trigger row rfl hs rfl hready htrigger hc -
    have hw := lineScope_within hs hready htrigger
    generalize hscope : r.lineScope b trigger seen = scope at hw
    obtain ⟨inner, t, token⟩ := scope
    obtain ⟨⟨opened, hle, rfl⟩, hcancelled, -⟩ := hw
    have hcancelled : (b.withOpened opened).isCancelled token = true := hcancelled.trans hc
    refine ⟨_, by rw [row_eq, hscope, Interpreter.execute_of_isCancelled hcancelled]; rfl, ?_⟩
    exact ⟨rfl, by simp [rowOutcome, RowStatus.of, hcancelled], rowOutcome_actions, hc, rfl, rfl,
      hready.withOpened hle⟩
  case false =>
    obtain ⟨d, x, trace, ending, halone⟩ := Interpreter.exists_leftAlone hr ht line
    cases ending
    case declined title =>
      -- The flag that is raised is that of the line's own scope, or that of the run.
      refine ⟨⟨d, x, .of x.success true, Trace.actions trace, decide (s = .run)⟩, by rintro rfl; rfl, ?_⟩
      rintro r b seen trigger row rfl hs rfl hready htrigger hl hidle
      obtain ⟨inner, t, token, hw, ho⟩ := row_of_leftAlone halone hs hready htrigger hl hidle
      obtain ⟨⟨opened, hle, rfl⟩, hcancelled, hmem, hnumber, houter⟩ := hw
      refine ⟨_, ho, rfl, ?_, rowOutcome_actions, ?_, rfl, rfl, ((hready.withOpened hle).advance trace _).fire hnumber⟩
      · exact congrArg (RowStatus.of x.success) (Timeline.isCancelled_fire.2 (.inl hmem))
      · let after := { (b.withOpened opened).timeline with now := b.timeline.now + d }
        have hlive : ¬after.isCancelled seen := Bool.eq_false_iff.1 hl
        have hfired : (after.fire t).isCancelled seen ↔ s = .run := by
          rw [Timeline.isCancelled_fire, or_iff_left hlive, houter]
        exact Bool.eq_iff_iff.2 (hfired.trans decide_eq_true_iff.symm)
    all_goals
      refine ⟨⟨d, x, .of x.success false, Trace.actions trace, false⟩, fun _ => rfl, ?_⟩
      rintro r b seen trigger row rfl hs rfl hready htrigger hl hidle
      obtain ⟨inner, t, token, hw, ho⟩ := row_of_leftAlone halone hs hready htrigger hl hidle
      obtain ⟨⟨opened, hle, rfl⟩, hcancelled, -⟩ := hw
      refine ⟨_, ho, rfl, ?_, rowOutcome_actions, hl, rfl, rfl, (hready.withOpened hle).advance trace _⟩
      exact congrArg (RowStatus.of x.success) (hcancelled.trans hl)

theorem lineScope_quiet :
    r.lineScope b.quiet trigger seen = ((r.lineScope b trigger seen).1.quiet, (r.lineScope b trigger seen).2) := by
  unfold lineScope
  split <;> rfl

-- A firing to come that the run observes disturbs a row if it comes before the row would end, and it raises its flag.
theorem row_disturbed {f : Firing} {g : Flag} {q : RowOutcome} (hr : r.interpreter.station.AlwaysReplies)
    (hawaits : b.Awaits g) (hg : g ∈ seen.flags) (hq : r.row b.quiet trigger seen row = some q)
    (hf : f ∈ b.timeline.schedule) (hlate : f.instant < q.bench.timeline.now) :
    ∃ o, r.row b trigger seen row = some o ∧ g ∈ o.bench.timeline.signals.raised := by
  rw [row_eq, lineScope_quiet] at hq
  obtain ⟨x, hx, rfl⟩ := Option.map_eq_some_iff.1 hq
  have ⟨opened, hinner⟩ := r.exists_lineScope_eq_withOpened b trigger seen
  have hsees : g ∈ (r.lineScope b trigger seen).2.2.flags := mem_lineScope_flags hg
  rw [row_eq]
  generalize r.lineScope b trigger seen = scope at hx hinner hsees
  obtain ⟨inner, t, token⟩ := scope
  obtain rfl : inner = b.withOpened opened := hinner
  have hl : ¬(b.withOpened opened).isCancelled token := by
    intro hc
    cases hx.symm.trans (Interpreter.execute_of_isCancelled (b := (b.withOpened opened).quiet) hc)
    exact absurd hlate (Nat.not_lt.2 (hawaits f hf).right)
  cases hnext : (b.withOpened opened).timeline.nextFor? token
  case none => exact absurd ((hawaits f hf).left ▸ hsees) (Timeline.nextFor?_eq_none_iff.1 hnext f hf)
  case some instant =>
    have hearliest := Timeline.nextFor?_eq_some_iff.1 hnext
    obtain ⟨first, hfirst, _, rfl⟩ := hearliest.scheduled
    have hle : first.instant ≤ f.instant := hearliest.least f hf ((hawaits f hf).left ▸ hsees)
    have hquiet : ∀ y, r.interpreter.execute (b.withOpened opened).quiet row.text token t = some y →
        first.instant < y.bench.timeline.now := by
      intro y hy
      cases hx.symm.trans hy
      exact Nat.lt_of_le_of_lt hle hlate
    have ⟨o, ho, _, _, _, hraised⟩ := Interpreter.execute_of_earliest hl hearliest (hawaits first hfirst).right
      (fun hstill => Interpreter.not_neverAnswers hr hstill.right) hquiet
    exact ⟨_, by rw [ho]; rfl, (hawaits first hfirst).left ▸ hraised first hfirst (Nat.le_refl _)⟩

end Runner

end StationScript
