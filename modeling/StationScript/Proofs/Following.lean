import StationScript.Plan
import StationScript.Proofs.Waiting

namespace StationScript

namespace Effect

-- How long an effect takes if nothing cuts it. There is no such time if it waits for a signal, or for ever.
def duration? : Effect → Option Nat
  | wait n => some n
  | waitForSignal | block => none
  | _ => some 0

-- How long a list of effects takes if nothing cuts it.
def span? : List Effect → Option Nat
  | [] => some 0
  | e :: rest => do return (← e.duration?) + (← span? rest)

-- An effect that a cancellation can cut.
def IsWait : Effect → Prop
  | wait _ | waitForSignal => True
  | _ => False

-- An effect that takes place at once.
def IsInstant : Effect → Prop
  | wait _ | waitForSignal | block => False
  | _ => True

-- For the clock there are four kinds of effects.
@[elab_as_elim]
theorem byKind {motive : Effect → Prop} (wait : ∀ n, motive (wait n)) (signal : motive waitForSignal)
    (block : motive block) (instant : ∀ e, e.IsInstant → motive e) (e : Effect) : motive e := by
  cases e
  case wait n        => exact wait n
  case waitForSignal => exact signal
  case block         => exact block
  all_goals exact instant _ trivial

theorem IsInstant.duration? {e : Effect} (h : e.IsInstant) : e.duration? = some 0 := by
  cases e <;> first | rfl | exact h.elim

theorem span?_cons_wait {n : Nat} {rest : List Effect} :
    span? (wait n :: rest) = (span? rest).map (n + ·) := by
  cases h : span? rest <;> simp [span?, Effect.duration?, h]

theorem span?_cons_of_instant {e : Effect} {rest : List Effect} (h : e.IsInstant) :
    span? (e :: rest) = span? rest := by
  cases hr : span? rest <;> simp [span?, h.duration?, hr]

end Effect

namespace Timeline

open Effect

variable {t : Timeline} {token : Token} {instant d : Nat} {e : Effect} {es : List Effect}

theorem follow_cons_wait {n : Nat} :
    t.follow token (.wait n :: es) =
      if (t.wait token n).1 then ((t.wait token n).2.follow token es).map (.after (.wait n))
      else some ⟨[], false, (t.wait token n).2⟩ :=
  rfl

theorem follow_cons_of_instant (h : e.IsInstant) :
    t.follow token (e :: es) = (t.follow token es).map (.after e) := by
  cases e <;> first | rfl | exact h.elim

-- Effects that end by themselves end, whatever is scheduled.
theorem exists_follow (hd : span? es = some d) : ∃ p, t.follow token es = some p := by
  induction es generalizing t d
  case nil => exact ⟨_, rfl⟩
  case cons e rest ih =>
    cases e using byKind
    case wait n =>
      obtain ⟨d', hd', -⟩ := Option.map_eq_some_iff.1 (span?_cons_wait ▸ hd)
      rw [follow_cons_wait]
      split
      case isTrue =>
        have ⟨p, hp⟩ := ih hd' (t := (t.wait token n).2)
        exact ⟨_, by rw [hp]; rfl⟩
      case isFalse => exact ⟨_, rfl⟩
    case signal => simp [span?, Effect.duration?] at hd
    case block => simp [span?, Effect.duration?] at hd
    case instant hi =>
      have ⟨p, hp⟩ := ih (t := t) (by rwa [span?_cons_of_instant hi] at hd)
      exact ⟨_, by rw [follow_cons_of_instant hi, hp]; rfl⟩

-- What takes place of some effects is all of them, or what stands before the wait that was cut.
theorem follow_split {p : Progress} (h : t.follow token es = some p) :
    p.finished = true ∧ p.trace = es ∨
      p.finished = false ∧ ∃ e rest, es = p.trace ++ e :: rest ∧ e.IsWait := by
  induction es generalizing t p
  case nil => cases h; exact .inl ⟨rfl, rfl⟩
  case cons e rest ih =>
    have hafter {u : Timeline} (hu : (u.follow token rest).map (.after e) = some p) :
        p.finished = true ∧ p.trace = e :: rest ∨
          p.finished = false ∧ ∃ e' rest', e :: rest = p.trace ++ e' :: rest' ∧ e'.IsWait := by
      obtain ⟨q, hq, rfl⟩ := Option.map_eq_some_iff.1 hu
      rcases ih hq with ⟨hf, htrace⟩ | ⟨hf, e', rest', hes, hw⟩
      · exact .inl ⟨hf, congrArg (e :: ·) htrace⟩
      · exact .inr ⟨hf, e', rest', congrArg (e :: ·) hes, hw⟩
    cases e using byKind
    case wait n =>
      rw [follow_cons_wait] at h
      split at h
      · exact hafter h
      · cases h; exact .inr ⟨rfl, .wait n, rest, rfl, trivial⟩
    case signal =>
      obtain ⟨u, -, rfl⟩ := Option.map_eq_some_iff.1 h
      exact .inr ⟨rfl, .waitForSignal, rest, rfl, trivial⟩
    case block => cases h
    case instant hi => exact hafter (follow_cons_of_instant hi ▸ h)

-- What took place of some effects was among them.
theorem follow_subset {p : Progress} (h : t.follow token es = some p) : ∀ e ∈ p.trace, e ∈ es := by
  rcases follow_split h with ⟨_, htrace⟩ | ⟨_, e, rest, hes, _⟩
  · exact fun e he => htrace ▸ he
  · exact fun e' he => hes ▸ List.mem_append_left _ he

-- What firings and the moving clock preserve is preserved while effects are followed.
theorem follow_preserves {motive : Timeline → Prop} {p : Progress}
    (hp : ∀ t limit now, motive t → motive { t.firePending limit with now })
    (h : t.follow token es = some p) (ht : motive t) : motive p.timeline := by
  induction es generalizing t p
  case nil => cases h; exact ht
  case cons e rest ih =>
    cases e using byKind
    case wait n =>
      have hw : motive (t.wait token n).2 := wait_preserves hp ht
      rw [follow_cons_wait] at h
      split at h
      · obtain ⟨q, hq, rfl⟩ := Option.map_eq_some_iff.1 h
        exact ih (p := q) hq hw
      · cases h; exact hw
    case signal =>
      obtain ⟨u, hu, rfl⟩ := Option.map_eq_some_iff.1 h
      exact waitForSignal?_preserves hp hu ht
    case block => cases h
    case instant hi =>
      rw [follow_cons_of_instant hi] at h
      obtain ⟨q, hq, rfl⟩ := Option.map_eq_some_iff.1 h
      exact ih (p := q) hq ht

-- A raised flag stays raised while effects are followed.
theorem follow_raised {p : Progress} {g : Flag} (h : t.follow token es = some p)
    (hg : g ∈ t.signals.raised) : g ∈ p.timeline.signals.raised :=
  follow_preserves (motive := fun t => g ∈ t.signals.raised)
    (fun _ _ _ hr => mem_raised_firePending.2 (.inr hr)) h hg

-- Effects that all took place left the token as live as it was.
theorem not_isCancelled_of_follow {p : Progress} (h : t.follow token es = some p) (hf : p.finished)
    (hl : ¬t.isCancelled token) : ¬p.timeline.isCancelled token := by
  induction es generalizing t p
  case nil => cases h; exact hl
  case cons e rest ih =>
    cases e using byKind
    case wait n =>
      rw [follow_cons_wait] at h
      split at h
      case isTrue hw =>
        obtain ⟨q, hq, rfl⟩ := Option.map_eq_some_iff.1 h
        exact ih (p := q) hq hf (not_isCancelled_of_wait hw)
      case isFalse => cases h; cases hf
    case signal =>
      obtain ⟨u, -, rfl⟩ := Option.map_eq_some_iff.1 h
      cases hf
    case block => cases h
    case instant hi =>
      rw [follow_cons_of_instant hi] at h
      obtain ⟨q, hq, rfl⟩ := Option.map_eq_some_iff.1 h
      exact ih (p := q) hq hf hl

-- Effects that were cut were cut by a cancellation.
theorem isCancelled_of_follow_cut {p : Progress} (h : t.follow token es = some p) (hf : p.finished = false) :
    p.timeline.isCancelled token := by
  induction es generalizing t p
  case nil => cases h; cases hf
  case cons e rest ih =>
    cases e using byKind
    case wait n =>
      rw [follow_cons_wait] at h
      split at h
      case isTrue =>
        obtain ⟨q, hq, rfl⟩ := Option.map_eq_some_iff.1 h
        exact ih (p := q) hq hf
      case isFalse hw =>
        cases h
        exact isCancelled_of_wait_cut (Bool.eq_false_iff.2 hw)
    case signal =>
      obtain ⟨u, hu, rfl⟩ := Option.map_eq_some_iff.1 h
      exact isCancelled_of_waitForSignal? hu
    case block => cases h
    case instant hi =>
      rw [follow_cons_of_instant hi] at h
      obtain ⟨q, hq, rfl⟩ := Option.map_eq_some_iff.1 h
      exact ih (p := q) hq hf

-- Effects during which no firing reaches the token all take place.
theorem follow_of_calm (hd : span? es = some d) (hl : ¬t.isCancelled token)
    (hc : t.CalmUntil token (t.now + d)) :
    ∃ u, t.follow token es = some ⟨es, true, u⟩ ∧ u.now = t.now + d ∧ ¬u.isCancelled token := by
  induction es generalizing t d
  case nil =>
    simp only [span?, Option.some.injEq] at hd
    exact ⟨t, rfl, by omega, hl⟩
  case cons e rest ih =>
    cases e using byKind
    case wait n =>
      obtain ⟨d', hd', rfl⟩ := Option.map_eq_some_iff.1 (span?_cons_wait ▸ hd)
      have hn : t.CalmUntil token (t.now + n) := fun f hf hm => by have := hc f hf hm; omega
      -- The wait ends as planned, and what is scheduled for later lies no nearer than before.
      have hl' := hn.not_isCancelled_moveTo hl
      have hc' : (t.moveTo (t.now + n)).CalmUntil token (t.now + n + d') :=
        CalmUntil.moveTo (by simpa [Nat.add_assoc] using hc)
      have ⟨u, hu, hnow, hlive⟩ := ih hd' hl' hc'
      refine ⟨u, ?_, by rw [hnow]; exact Nat.add_assoc .., hlive⟩
      simp [follow_cons_wait, wait_of_calm hl hn, hu, Progress.after]
    case signal => simp [span?, Effect.duration?] at hd
    case block => simp [span?, Effect.duration?] at hd
    case instant hi =>
      have ⟨u, hu, hrest⟩ := ih (by rwa [span?_cons_of_instant hi] at hd) hl hc
      exact ⟨u, by simp [follow_cons_of_instant hi, hu, Progress.after], hrest⟩

-- Effects during which nothing at all fires change nothing but the clock.
theorem follow_of_idle (hd : span? es = some d) (hl : ¬t.isCancelled token)
    (hi : ∀ f ∈ t.schedule, t.now + d ≤ f.instant) :
    t.follow token es = some ⟨es, true, { t with now := t.now + d }⟩ := by
  induction es generalizing t d
  case nil => cases hd; rfl
  case cons e rest ih =>
    cases e using byKind
    case wait n =>
      obtain ⟨d', hd', rfl⟩ := Option.map_eq_some_iff.1 (span?_cons_wait ▸ hd)
      have hn : ∀ f ∈ t.schedule, t.now + n ≤ f.instant := fun f hf => by have := hi f hf; omega
      have hwait := wait_of_calm hl fun f hf _ => hn f hf
      rw [moveTo_of_idle hn] at hwait
      have hrest := ih (t := { t with now := t.now + n }) hd' hl fun f hf => by
        have := hi f hf
        show t.now + n + d' ≤ f.instant
        omega
      simp [follow_cons_wait, hwait, hrest, Progress.after, Nat.add_assoc]
    case signal => simp [span?, Effect.duration?] at hd
    case block => simp [span?, Effect.duration?] at hd
    case instant hinstant =>
      have hrest := ih (by rwa [span?_cons_of_instant hinstant] at hd) hl hi
      simp [follow_cons_of_instant hinstant, hrest, Progress.after]

-- A firing that reaches the token before the effects are over cuts them at that instant, within a wait.
theorem follow_of_earliest (he : t.EarliestFor token instant) (hl : ¬t.isCancelled token)
    (hn : t.now ≤ instant) (hb : .block ∉ es) (hd : ∀ d, span? es = some d → instant < t.now + d) :
    ∃ done e rest u, es = done ++ e :: rest ∧ e.IsWait ∧ t.follow token es = some ⟨done, false, u⟩ ∧
      u.now = instant ∧ ∀ f ∈ t.schedule, f.instant ≤ instant → f.flag ∈ u.signals.raised := by
  induction es generalizing t
  case nil => exact absurd (hd 0 rfl) (by omega)
  case cons e rest ih =>
    have hb' : .block ∉ rest := fun h => hb (List.mem_cons_of_mem _ h)
    cases e using byKind
    case wait n =>
      by_cases hi : instant < t.now + n
      case pos =>
        refine ⟨[], .wait n, rest, t.cutAt instant, rfl, trivial, ?_, ?_, fun f => raised_cutAt⟩
        · simp [follow_cons_wait, wait_of_earliest hl he hi]
        · exact Nat.max_eq_right hn
      case neg =>
        replace hi : t.now + n ≤ instant := by omega
        have hcalm := he.calmUntil hi
        have hd' : ∀ d, span? rest = some d → instant < t.now + n + d := fun d h => by
          have := hd (n + d) (by rw [span?_cons_wait, h]; rfl)
          omega
        have ⟨done, e, rest', u, hes, hw, hu, hnow, hr⟩ :=
          ih (he.moveTo hi) (hcalm.not_isCancelled_moveTo hl) hi hb' hd'
        refine ⟨.wait n :: done, e, rest', u, by rw [hes]; rfl, hw, ?_, hnow, fun f hf hfi => ?_⟩
        · simp [follow_cons_wait, wait_of_calm hl hcalm, hu, Progress.after]
        · -- What happened during this wait stays so, and what did not happens by the cut.
          cases raised_moveTo (t.now + n) hf
          case inl h => exact follow_raised hu h
          case inr h => exact hr f h hfi
    case signal =>
      refine ⟨[], .waitForSignal, rest, t.cutAt instant, rfl, trivial, ?_, ?_, fun f => raised_cutAt⟩
      · simp [follow, waitForSignal?_of_earliest hl he]
      · exact Nat.max_eq_right hn
    case block => exact absurd (List.mem_cons_self ..) hb
    case instant hi =>
      have ⟨done, e, rest', u, hes, hw, hu, hrest⟩ :=
        ih he hl hn hb' (by simpa only [span?_cons_of_instant hi] using hd)
      refine ⟨_ :: done, e, rest', u, by rw [hes]; rfl, hw, ?_, hrest⟩
      simp [follow_cons_of_instant hi, hu, Progress.after]

-- Effects that never end by themselves do not end if no firing reaches the token.
theorem follow_eq_none (hd : span? es = none) (hl : ¬t.isCancelled token)
    (hn : ∀ f ∈ t.schedule, f.flag ∉ token.flags) : t.follow token es = none := by
  induction es generalizing t
  case nil => cases hd
  case cons e rest ih =>
    cases e using byKind
    case wait n =>
      have hcalm : t.CalmUntil token (t.now + n) := fun f hf hm => absurd hm (hn f hf)
      have hn' : ∀ f ∈ (t.moveTo (t.now + n)).schedule, f.flag ∉ token.flags :=
        fun f hf => hn f (mem_schedule_firePending.1 hf).1
      have hrest := ih (by simpa [span?_cons_wait] using hd) (hcalm.not_isCancelled_moveTo hl) hn'
      simp [follow_cons_wait, wait_of_calm hl hcalm, hrest]
    case signal => simp [follow, waitForSignal?_eq_none hl hn]
    case block => rfl
    case instant hi =>
      have hrest := ih (by rwa [span?_cons_of_instant hi] at hd) hl hn
      simp [follow_cons_of_instant hi, hrest]

end Timeline

end StationScript
