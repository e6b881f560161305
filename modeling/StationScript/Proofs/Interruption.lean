import StationScript.Proofs.Lines

namespace StationScript

-- The bench with every firing called off.
def Bench.quiet (b : Bench) : Bench :=
  { b with timeline := b.timeline.clear }

namespace Interpreter

variable {i : Interpreter} {b : Bench} {c : Command} {v : Verb} {line : String} {token : Token}
  {trigger : Trigger}

-- Everything stands still once no thread but the calling one can show a dialog that is never answered.
def StandsStill (i : Interpreter) (b : Bench) (line : String) : Prop :=
  i.station.surface = none ∧ i.NeverAnswers b.input line

-- A command before whose end nothing fires goes as its plan says.
theorem runCommand_of_calm {d : Nat} (trigger : Trigger) (hl : ¬b.isCancelled token)
    (hd : Effect.span? (i.plan b.input c v).effects = some d)
    (hcalm : b.timeline.CalmUntil token (b.timeline.now + d)) :
    ∃ u, i.runCommand b c v token trigger =
        some (i.outcome b c v trigger ⟨(i.plan b.input c v).effects, true, u⟩) ∧
      u.now = b.timeline.now + d := by
  obtain ⟨u, hu, hnow, -⟩ := Timeline.follow_of_calm hd hl hcalm
  exact ⟨u, by rw [runCommand_eq, hu]; rfl, hnow⟩

-- Whatever is scheduled, a line whose dialog holds the thread for good does not end.
theorem execute_of_standsStill (hl : ¬b.isCancelled token) (h : i.StandsStill b line) :
    i.execute b line token trigger = none := by
  have ⟨_, hi, _⟩ := h.right
  have ⟨c, v, hc, hv, _⟩ := exists_command_of_instruction hi
  rw [execute_of_command hl hc hv, runCommand_eq, plan_of_neverAnswers hc hv h.right, h.left]
  rfl

-- The earliest firing that reaches the token cuts the line if it comes before the line would end. By then the
-- line has switched its output, if it switches one, and performed nothing else.
theorem execute_of_earliest {t : Nat} (hl : ¬b.isCancelled token) (he : b.timeline.EarliestFor token t)
    (hn : b.timeline.now ≤ t) (hs : ¬i.StandsStill b line)
    (hq : ∀ q, i.execute b.quiet line token trigger = some q → t < q.bench.timeline.now) :
    ∃ o, i.execute b line token trigger = some o ∧ o.execution.success = false ∧ o.bench.timeline.now = t ∧
      o.trace.actions = i.switching line ∧
      ∀ f ∈ b.timeline.schedule, f.instant ≤ t → f.flag ∈ o.bench.timeline.signals.raised := by
  rcases execute_cases line with ⟨c, v, hc, hv⟩ | ⟨x, events, -, hx⟩
  case inr =>
    -- A line without a command ends at once, so that no firing comes earlier.
    have hend : t < b.timeline.now := hq _ (hx i b.quiet token trigger hl)
    omega
  case inl =>
    have hlq : ¬b.quiet.isCancelled token := hl
    rw [execute_of_command hlq hc hv] at hq
    rw [execute_of_command hl hc hv]
    have hblock : .block ∉ (i.plan b.input c v).effects := by
      by_cases hnever : i.NeverAnswers b.input line
      case neg => exact fun h => plan_isPlain hc hv hnever _ h
      case pos =>
        -- With a thread of its own for the surface, a dialog that is never answered waits for a signal.
        have hsurface : i.station.surface ≠ none := fun h => hs ⟨h, hnever⟩
        rw [plan_of_neverAnswers hc hv hnever]
        simp [Option.isSome_iff_ne_none.2 hsurface]
    have hspan : ∀ d, Effect.span? (i.plan b.input c v).effects = some d → t < b.timeline.now + d := by
      intro d hd
      have ⟨u, hu, hnow⟩ := runCommand_of_calm (b := b.quiet) trigger hlq hd nofun
      have := hq _ hu
      rwa [outcome_now, hnow] at this
    have ⟨done, e, rest, u, hes, hw, hu, hnow, hr⟩ := Timeline.follow_of_earliest he hl hn hblock hspan
    refine ⟨i.outcome b c v trigger ⟨done, false, u⟩, ?_, rfl, outcome_now.trans hnow, ?_, hr⟩
    · rw [runCommand_eq, hu]; rfl
    · exact outcome_actions.trans (actions_of_cut hc hv hes hw)

-- A line before whose end nothing fires goes as if nothing would ever fire.
theorem execute_of_calm {q : Outcome} (hl : ¬b.isCancelled token)
    (hq : i.execute b.quiet line token trigger = some q)
    (hcalm : b.timeline.CalmUntil token q.bench.timeline.now) :
    ∃ o, i.execute b line token trigger = some o ∧ o.execution = q.execution ∧ o.trace = q.trace ∧
      o.bench.timeline.now = q.bench.timeline.now := by
  have hlq : ¬b.quiet.isCancelled token := hl
  rcases execute_cases line with ⟨c, v, hc, hv⟩ | ⟨x, events, -, hx⟩
  case inr =>
    rw [hx i b.quiet token trigger hlq] at hq
    cases hq
    exact ⟨_, hx i b token trigger hl, rfl, rfl, rfl⟩
  case inl =>
    rw [execute_of_command hlq hc hv] at hq
    rw [execute_of_command hl hc hv]
    cases hd : Effect.span? (i.plan b.input c v).effects
    case none =>
      -- The line ended although nothing fires, so it ends by itself.
      have hnone := Timeline.follow_eq_none (t := b.quiet.timeline) hd hlq nofun
      rw [runCommand_eq, show (i.plan b.quiet.input c v) = i.plan b.input c v from rfl, hnone] at hq
      cases hq
    case some d =>
      have ⟨u, hu, hnow⟩ := runCommand_of_calm (b := b.quiet) trigger hlq hd nofun
      cases hq.symm.trans hu
      rw [outcome_now, hnow] at hcalm
      have ⟨u', hu', hnow'⟩ := runCommand_of_calm trigger hl hd hcalm
      refine ⟨_, hu', rfl, rfl, ?_⟩
      rw [outcome_now, outcome_now, hnow, hnow']
      rfl

-- Success is never reported under a cancelled token.
theorem not_isCancelled_of_success {o : Outcome} (ho : i.execute b line token trigger = some o)
    (hs : o.execution.success) : ¬o.bench.isCancelled token := by
  by_cases hl : b.isCancelled token
  case pos =>
    rw [execute_of_isCancelled hl] at ho
    cases ho
    cases hs
  case neg =>
    rcases execute_cases line with ⟨c, v, hc, hv⟩ | ⟨x, events, -, hx⟩
    case inr =>
      rw [hx i b token trigger hl] at ho
      cases ho
      exact hl
    case inl =>
      rw [execute_of_command hl hc hv, runCommand_eq] at ho
      obtain ⟨p, hp, rfl⟩ := Option.map_eq_some_iff.1 ho
      have hlive := Timeline.not_isCancelled_of_follow hp (Ending.success_ofVerdict hs) hl
      -- A line that succeeds fires no trigger of its own.
      have hsignal := Ending.signal_of_success hs trigger p.timeline
      simpa only [Bench.isCancelled, outcome, Bench.advance, hsignal] using hlive

-- Cancelling a line is prompt and exact, whatever the line and the station. Under a cancelled token a line takes
-- no time and changes nothing. Under a live one it is interrupted exactly at the earliest firing that reaches the
-- token if that comes before the line would end by itself, and it runs as if nothing fired if not. The one thing
-- that no firing interrupts is a dialog that is never answered and is shown on the calling thread itself: such a
-- line never ends. Success always means that the token is live.
theorem execute_prompt_and_exact (i : Interpreter) (b : Bench) (line : String) (token : Token)
    (trigger : Trigger) (hs : ∀ f ∈ b.timeline.schedule, b.timeline.now < f.instant) :
    (b.isCancelled token → i.execute b line token trigger =
      some ⟨⟨false, none⟩, [.report .main (.lineSkipped (Text.trimmed line))], b⟩) ∧
    (¬b.isCancelled token →
      (¬i.StandsStill b line → ∀ t, b.timeline.EarliestFor token t →
        (∀ q, i.execute b.quiet line token trigger = some q → t < q.bench.timeline.now) →
        ∃ o, i.execute b line token trigger = some o ∧ o.execution.success = false ∧
          o.bench.timeline.now = t) ∧
      (∀ q, i.execute b.quiet line token trigger = some q →
        b.timeline.CalmUntil token q.bench.timeline.now →
        ∃ o, i.execute b line token trigger = some o ∧ o.execution = q.execution ∧ o.trace = q.trace ∧
          o.bench.timeline.now = q.bench.timeline.now) ∧
      (i.StandsStill b line → i.execute b line token trigger = none)) ∧
    ∀ o, i.execute b line token trigger = some o → o.execution.success → ¬o.bench.isCancelled token := by
  refine ⟨execute_of_isCancelled, fun hl => ⟨?earliest, ?calm, ?still⟩, ?success⟩
  case earliest =>
    intro hmoves t he hq
    obtain ⟨f, hf, -, rfl⟩ := he.scheduled
    obtain ⟨o, ho, hfail, hnow, -⟩ := execute_of_earliest hl he (Nat.le_of_lt (hs f hf)) hmoves hq
    exact ⟨o, ho, hfail, hnow⟩
  case calm    => exact fun q hq hcalm => execute_of_calm hl hq hcalm
  case still   => exact execute_of_standsStill hl
  case success => exact fun o ho hsucc => not_isCancelled_of_success ho hsucc

-- An operator on a thread of its own who never answers: the dialog is cut when the scope around the line fires.
theorem execute_hanging_dialog :
    let st := { Station.ofSettings .instant with
      presenter := .custom fun _ _ _ => .unanswered
      surface := some "ui" }
    let b : Bench := { timeline := { signals := { opened := 2 }, schedule := [⟨5, ⟨0⟩⟩] } }
    let line := "SHOW_DIALOG ^ UI ^ OK ^ T ^ M"
    ∃ o, (Interpreter.mk st 100).execute b line ⟨[⟨1⟩, ⟨0⟩]⟩ ⟨⟨1⟩⟩ = some o ∧
      o.execution.success = false ∧ o.bench.timeline.now = 5 := by
  intro st b line
  have h := execute_prompt_and_exact ⟨st, 100⟩ b line ⟨[⟨1⟩, ⟨0⟩]⟩ ⟨⟨1⟩⟩ (by decide)
  refine (h.right.left (by decide)).left (fun hstill => nomatch hstill.left) 5 ⟨by decide, by decide⟩ ?_
  -- Left alone, the dialog would stay open for good.
  have hq : (Interpreter.mk st 100).execute b.quiet line ⟨[⟨1⟩, ⟨0⟩]⟩ ⟨⟨1⟩⟩ = none := by
    decide +kernel
  simp [hq]

-- Without such a thread the dialog holds up the line itself, so that it is not interrupted although a firing reaches
-- its token while it would still be running.
theorem execute_not_prompt_without_surface :
    let st := { Station.ofSettings { dialog := .yes } with presenter := .custom fun _ _ _ => .unanswered }
    let i : Interpreter := ⟨st, 0⟩
    let b : Bench := { timeline := { signals := { opened := 1 }, schedule := [⟨2500, ⟨0⟩⟩] } }
    let line := "SHOW_DIALOG ^ OP ^ YES_NO ^ Check ^ Go?"
    (∀ f ∈ b.timeline.schedule, b.timeline.now < f.instant) ∧ ¬b.isCancelled ⟨[⟨0⟩]⟩ ∧
      b.timeline.EarliestFor ⟨[⟨0⟩]⟩ 2500 ∧ i.execute b.quiet line ⟨[⟨0⟩]⟩ ⟨⟨0⟩⟩ = none ∧
      ¬∃ o, i.execute b line ⟨[⟨0⟩]⟩ ⟨⟨0⟩⟩ = some o ∧ o.execution.success = false ∧
        o.bench.timeline.now = 2500 := by
  intro st i b line
  have hnever (b : Bench) : i.NeverAnswers b.input line :=
    ⟨.dialog .yesNo "Check" "Go?", by decide +kernel, rfl⟩
  have hsurface : i.station.surface = none := by decide +kernel
  have hnone : i.execute b line ⟨[⟨0⟩]⟩ ⟨⟨0⟩⟩ = none := execute_of_standsStill (by decide) ⟨hsurface, hnever b⟩
  have hquiet : i.execute b.quiet line ⟨[⟨0⟩]⟩ ⟨⟨0⟩⟩ = none :=
    execute_of_standsStill (by decide) ⟨hsurface, hnever b.quiet⟩
  refine ⟨by decide, by decide, ⟨by decide, by decide⟩, hquiet, ?_⟩
  rintro ⟨o, ho, -⟩
  cases hnone.symm.trans ho

end Interpreter

end StationScript
