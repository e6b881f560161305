import StationScript.Proofs.Lines

namespace StationScript

theorem Signals.opened_raise {s : Signals} {g : Flag} : (s.raise g).opened = s.opened := by
  unfold Signals.raise
  split <;> rfl

namespace Timeline

variable {t u : Timeline} {token seen : Token} {g : Flag} {n d limit : Nat} {es : List Effect}

-- A flag that was not raised, and that nothing scheduled will raise.
def Fresh (g : Flag) (t : Timeline) : Prop :=
  g ∉ t.signals.raised ∧ ∀ f ∈ t.schedule, f.flag ≠ g

theorem Fresh.firePending (h : t.Fresh g) : (t.firePending limit).Fresh g := by
  constructor
  · intro hr
    rcases mem_raised_firePending.1 hr with ⟨f, hf, -, he⟩ | hr
    · exact h.right f hf he
    · exact h.left hr
  · exact fun f hf => h.right f (mem_schedule_firePending.1 hf).left

-- A token that sees the flags of another one, and beyond these only flags that nobody raises.
structure Extends (token seen : Token) (t : Timeline) : Prop where
  all   : ∀ g ∈ seen.flags, g ∈ token.flags
  fresh : ∀ g ∈ token.flags, g ∈ seen.flags ∨ t.Fresh g

theorem Extends.firePending {now : Nat} (h : t.Extends token seen) :
    Extends token seen { t.firePending limit with now } where
  all := h.all
  fresh g hg := (h.fresh g hg).imp_right fun hf => hf.firePending

theorem Extends.isCancelled (h : t.Extends token seen) : t.isCancelled token = t.isCancelled seen := by
  rw [Bool.eq_iff_iff, Timeline.isCancelled, Timeline.isCancelled, Signals.isCancelled_iff,
    Signals.isCancelled_iff]
  constructor
  · rintro ⟨g, hg, hr⟩
    cases h.fresh g hg
    case inl hseen  => exact ⟨g, hseen, hr⟩
    case inr hfresh => exact absurd hr hfresh.left
  · rintro ⟨g, hg, hr⟩
    exact ⟨g, h.all g hg, hr⟩

theorem Extends.nextFor? (h : t.Extends token seen) : t.nextFor? token = t.nextFor? seen := by
  have hsame : t.schedule.filter (·.flag ∈ token.flags) = t.schedule.filter (·.flag ∈ seen.flags) := by
    apply List.filter_congr
    intro f hf
    rw [decide_eq_decide]
    constructor
    · exact fun hm => (h.fresh _ hm).resolve_right fun hfresh => hfresh.right f hf rfl
    · exact h.all _
  rw [Timeline.nextFor?, hsame, Timeline.nextFor?]

theorem Extends.wait (h : t.Extends token seen) : t.wait token n = t.wait seen n := by
  rw [Timeline.wait, Timeline.wait, h.isCancelled, cutBefore?, cutBefore?, h.nextFor?]

-- Effects go the same way under both tokens.
theorem Extends.follow (h : t.Extends token seen) : t.follow token es = t.follow seen es := by
  induction es generalizing t
  case nil => rfl
  case cons e rest ih =>
    cases e using Effect.byKind
    case wait n =>
      have hafter : (t.wait seen n).2.Extends token seen :=
        wait_preserves (fun _ _ _ h => h.firePending) h
      rw [follow_cons_wait, follow_cons_wait, h.wait, ih hafter]
    case signal => rw [Timeline.follow, Timeline.follow, waitForSignal?, waitForSignal?, h.isCancelled, h.nextFor?]
    case block => rfl
    case instant hi => rw [follow_cons_of_instant hi, follow_cons_of_instant hi, ih h]

structure Alike (seen : Token) (t u : Timeline) : Prop where
  now      : t.now = u.now
  schedule : t.schedule = u.schedule
  raised   : ∀ g ∈ seen.flags, g ∈ t.signals.raised ↔ g ∈ u.signals.raised

theorem Alike.firePending {now now' : Nat} (h : Alike seen t u) (hn : now = now') :
    Alike seen { t.firePending limit with now } { u.firePending limit with now := now' } where
  now := hn
  schedule := by simp only [Timeline.firePending, h.schedule]
  raised g hg := by
    have := h.raised g hg
    simp only [mem_raised_firePending, h.schedule, this]

theorem Alike.isCancelled (h : Alike seen t u) : t.isCancelled seen = u.isCancelled seen := by
  rw [Bool.eq_iff_iff, Timeline.isCancelled, Timeline.isCancelled, Signals.isCancelled_iff,
    Signals.isCancelled_iff]
  exact exists_congr fun g => and_congr_right fun hg => h.raised g hg

theorem Alike.wait (h : Alike seen t u) :
    (t.wait seen n).1 = (u.wait seen n).1 ∧ Alike seen (t.wait seen n).2 (u.wait seen n).2 := by
  have hcut : t.cutBefore? seen (t.now + n) = u.cutBefore? seen (u.now + n) := by
    rw [cutBefore?, cutBefore?, Timeline.nextFor?, Timeline.nextFor?, h.schedule, h.now]
  unfold Timeline.wait
  rw [h.isCancelled, hcut]
  split
  · exact ⟨rfl, h⟩
  · split
    · exact ⟨rfl, h.firePending (congrArg (max · _) h.now)⟩
    · rw [h.now]
      exact ⟨rfl, h.firePending rfl⟩

-- Effects that end by themselves go the same way on timelines that look alike.
theorem Alike.follow (h : Alike seen t u) (hd : Effect.span? es = some d) :
    ∃ done finished t' u', t.follow seen es = some ⟨done, finished, t'⟩ ∧
      u.follow seen es = some ⟨done, finished, u'⟩ ∧ Alike seen t' u' := by
  induction es generalizing t u d
  case nil => exact ⟨[], true, t, u, rfl, rfl, h⟩
  case cons e rest ih =>
    cases e using Effect.byKind
    case wait n =>
      obtain ⟨d', hd', -⟩ := Option.map_eq_some_iff.1 (Effect.span?_cons_wait ▸ hd)
      obtain ⟨hpassed, hafter⟩ := h.wait (n := n)
      rw [follow_cons_wait, follow_cons_wait, hpassed]
      split
      case isTrue =>
        obtain ⟨done, finished, t', u', ht, hu, hrest⟩ := ih hafter hd'
        exact ⟨.wait n :: done, finished, t', u', by rw [ht]; rfl, by rw [hu]; rfl, hrest⟩
      case isFalse => exact ⟨[], false, _, _, rfl, rfl, hafter⟩
    case signal => simp [Effect.span?, Effect.duration?] at hd
    case block => simp [Effect.span?, Effect.duration?] at hd
    case instant hi =>
      obtain ⟨done, finished, t', u', ht, hu, hrest⟩ := ih h (by rwa [Effect.span?_cons_of_instant hi] at hd)
      refine ⟨e :: done, finished, t', u', ?_, ?_, hrest⟩
      · rw [follow_cons_of_instant hi, ht]; rfl
      · rw [follow_cons_of_instant hi, hu]; rfl

-- Effects that take place at once leave the timeline as it is.
theorem follow_of_instant (h : ∀ e ∈ es, e.IsInstant) : t.follow token es = some ⟨es, true, t⟩ := by
  induction es
  case nil => rfl
  case cons e rest ih =>
    rw [follow_cons_of_instant (h e (List.mem_cons_self ..)), ih fun e' he' => h e' (List.mem_cons_of_mem _ he')]
    rfl

-- No flag is raised or scheduled whose scope was not opened yet.
def Sound (t : Timeline) : Prop :=
  ∀ g : Flag, t.signals.opened ≤ g.number → t.Fresh g

theorem opened_firePending : (t.firePending limit).signals.opened = t.signals.opened := by
  have hall : ∀ (gs : List Flag) (s : Signals), (s.raiseAll gs).opened = s.opened := by
    intro gs
    induction gs
    case nil => exact fun _ => rfl
    case cons g rest ih =>
      intro s
      rw [Signals.raiseAll, List.foldl_cons]
      exact (ih (s.raise g)).trans Signals.opened_raise
  exact hall _ _

theorem Sound.firePending {now : Nat} (h : t.Sound) : Sound { t.firePending limit with now } := by
  intro g hg
  have hold : t.signals.opened ≤ g.number := Nat.le_trans (Nat.le_of_eq opened_firePending.symm) hg
  exact (h g hold).firePending

end Timeline

namespace Bench

structure Alike (seen : Token) (a b : Bench) : Prop where
  timeline    : a.timeline.Alike seen b.timeline
  devices     : a.devices = b.devices
  lastReading : a.lastReading = b.lastReading
  input       : a.input = b.input

variable {a b : Bench} {seen : Token} {t u : Timeline} {trace : Trace}

theorem Alike.advance (h : a.Alike seen b) (ht : t.Alike seen u) :
    (a.advance trace t).Alike seen (b.advance trace u) where
  timeline    := ht
  devices     := congrArg (·.applyAll trace.changes) h.devices
  lastReading := congrArg (trace.captures.getLastD ·) h.lastReading
  input       := congrArg (·.drop trace.linesTaken) h.input

end Bench

-- A dialog was declined.
def Trace.Declines (t : Trace) : Prop :=
  ∃ title, .report .main (.declined title) ∈ t

theorem Ending.signal_of_not_declined {ending : Ending} {trigger : Trigger} {t : Timeline}
    (h : ∀ title, ending ≠ .declined title) : ending.signal trigger t = t := by
  cases ending <;> first | rfl | exact absurd rfl (h _)

theorem Ending.declined_mem_events {ending : Ending} {text title : String} :
    .declined title ∈ ending.events text ↔ ending = .declined title := by
  cases ending <;> simp [events, eq_comm]

namespace Interpreter

variable {i : Interpreter} {a b : Bench} {c : Command} {v : Verb} {input : List Typed} {line : String}
  {token seen : Token} {trigger : Trigger}

-- A line that is a question which the operator answers No.
def AnsweredNo (i : Interpreter) (input : List Typed) (line : String) : Prop :=
  ∃ instruction, instruction? line = some instruction ∧ i.station.AnsweredNo input instruction

theorem outcome_declines {p : Progress} (hp : ∀ e ∈ p.trace, e.IsPlain) :
    (i.outcome b c v trigger p).trace.Declines ↔
      ∃ title, Ending.ofVerdict p.finished (i.plan b.input c v).verdict = .declined title := by
  apply exists_congr
  intro title
  have hplain : .report .main (.declined title) ∉ p.trace := fun h => hp _ h
  simp [outcome, hplain, Ending.declined_mem_events]

theorem verdict_ne_declined (hc : Line.ofString line = .command c) (hv : Verb.ofName? c.name = some v)
    (h : ¬i.AnsweredNo input line) (title : String) : (i.plan input c v).verdict ≠ .declined title := by
  intro hdeclined
  unfold plan at hdeclined
  cases hi : c.instruction v
  case error => rw [hi] at hdeclined; cases hdeclined
  case ok instruction =>
    rw [hi] at hdeclined
    exact h ⟨instruction, by rw [instruction?_eq hc hv, hi]; rfl, Station.answeredNo_of_verdict hdeclined⟩

theorem ending_ne_declined (hc : Line.ofString line = .command c) (hv : Verb.ofName? c.name = some v)
    (h : ¬i.AnsweredNo input line) (finished : Bool) (title : String) :
    Ending.ofVerdict finished (i.plan input c v).verdict ≠ .declined title := by
  have hverdict := verdict_ne_declined hc hv h title
  cases finished
  case false => exact nofun
  case true =>
    intro hending
    cases hplan : (i.plan input c v).verdict <;> rw [hplan] at hending hverdict <;> cases hending
    exact hverdict rfl

-- A question that is answered No fails at once, and fires the trigger that the line was given.
theorem execute_of_answeredNo (h : i.AnsweredNo input line) :
    ∃ x trace, x.success = false ∧ Trace.Declines trace ∧
      ∀ (b : Bench) (token : Token) (trigger : Trigger), b.input = input → ¬b.isCancelled token →
        i.execute b line token trigger = some ⟨x, trace, b.advance trace (b.timeline.fire trigger)⟩ := by
  obtain ⟨instruction, hi, hno⟩ := h
  obtain ⟨c, v, hc, hv, hinstr⟩ := exists_command_of_instruction hi
  have hplan : i.plan input c v = i.station.plan i.settleDelay input instruction := by
    simp only [plan, hinstr]
  obtain ⟨heffects, title, hverdict⟩ := Station.plan_of_answeredNo i.settleDelay hno
  let p : Progress := ⟨(i.plan input c v).effects, true, {}⟩
  let o := i.outcome { input } c v ⟨⟨0⟩⟩ p
  have hending : Ending.ofVerdict true (i.plan input c v).verdict = .declined title := by
    rw [hplan, hverdict]
    rfl
  refine ⟨o.execution, o.trace, ?_, ?_, fun b token trigger hinput hl => ?_⟩
  · show (Ending.ofVerdict true (i.plan input c v).verdict).success = false
    rw [hending]
    rfl
  · refine (outcome_declines fun e he => ?_).2 ⟨title, hending⟩
    exact (heffects e (hplan ▸ he)).right
  · subst hinput
    have hfollow : b.timeline.follow token (i.plan b.input c v).effects = some ⟨_, true, b.timeline⟩ :=
      Timeline.follow_of_instant fun e he => (heffects e (hplan ▸ he)).left
    rw [execute_of_command hl hc hv, runCommand_eq, hfollow]
    simp only [Option.map_some, o, p, outcome, hending]
    rfl

-- Flags that nobody raises make no difference to a line.
theorem execute_of_extends (h : b.timeline.Extends token seen) :
    i.execute b line token trigger = i.execute b line seen trigger := by
  have hcancelled : b.isCancelled token = b.isCancelled seen := h.isCancelled
  have hrun (c : Command) (v : Verb) : i.runCommand b c v token trigger = i.runCommand b c v seen trigger := by
    rw [runCommand_eq, runCommand_eq, h.follow]
  simp only [execute, hcancelled, hrun]

-- Any other line goes the same way on benches that look alike to its token.
theorem execute_alike (hr : i.station.AlwaysReplies) (h : a.Alike seen b)
    (hno : ¬a.isCancelled seen → ¬i.AnsweredNo a.input line) (ta tb : Trigger) :
    ∃ o p, i.execute a line seen ta = some o ∧ i.execute b line seen tb = some p ∧
      o.execution = p.execution ∧ o.trace = p.trace ∧ ¬o.trace.Declines ∧ o.bench.Alike seen p.bench := by
  have hsame : a.isCancelled seen = b.isCancelled seen := h.timeline.isCancelled
  by_cases hl : a.isCancelled seen
  case pos =>
    refine ⟨_, _, execute_of_isCancelled hl, execute_of_isCancelled (hsame ▸ hl), rfl, rfl, ?_, h⟩
    simp [Trace.Declines]
  case neg =>
    have hl' : ¬b.isCancelled seen := hsame ▸ hl
    rcases execute_cases line with ⟨c, v, hc, hv⟩ | ⟨x, events, hevents, hx⟩
    case inr =>
      refine ⟨_, _, hx i a seen ta hl, hx i b seen tb hl', rfl, rfl, ?_, h⟩
      simpa [Trace.Declines, Bench.reportOnly] using hevents
    case inl =>
      obtain ⟨d, hd⟩ := exists_span (b := a) hr hc hv
      obtain ⟨done, finished, t, u, ht, hu, halike⟩ := h.timeline.follow hd
      have hending := ending_ne_declined hc hv (hno hl) finished
      rw [execute_of_command hl hc hv, execute_of_command hl' hc hv, runCommand_eq, runCommand_eq, ← h.input, ht, hu]
      refine ⟨_, _, rfl, rfl, ?_, ?_, ?_, ?_⟩
      · simp only [outcome, h.input]
      · simp only [outcome, h.input]
      · have hplain := fun e he => plan_isPlain hc hv (not_neverAnswers hr) e (Timeline.follow_subset ht e he)
        exact fun hdeclines => ((outcome_declines hplain).1 hdeclines).elim hending
      · simp only [outcome, ← h.input, Ending.signal_of_not_declined hending]
        exact h.advance halike

-- Such a line does nothing to the timeline but let firings happen and time pass.
theorem execute_preserves {p : Timeline → Prop} {o : Outcome}
    (hp : ∀ t limit now, p t → p { t.firePending limit with now })
    (hno : ¬b.isCancelled token → ¬i.AnsweredNo b.input line) (ho : i.execute b line token trigger = some o)
    (hb : p b.timeline) : p o.bench.timeline := by
  by_cases hl : b.isCancelled token
  case pos =>
    rw [execute_of_isCancelled hl] at ho
    cases ho
    exact hb
  case neg =>
    rcases execute_cases line with ⟨c, v, hc, hv⟩ | ⟨x, events, -, hx⟩
    case inr =>
      rw [hx i b token trigger hl] at ho
      cases ho
      exact hb
    case inl =>
      rw [execute_of_command hl hc hv, runCommand_eq] at ho
      obtain ⟨progress, hfollow, rfl⟩ := Option.map_eq_some_iff.1 ho
      have hafter := Timeline.follow_preserves hp hfollow hb
      have hending := ending_ne_declined hc hv (hno hl) progress.finished
      simpa only [outcome, Bench.advance, Ending.signal_of_not_declined hending] using hafter

end Interpreter

end StationScript
