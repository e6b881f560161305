import StationScript.Proofs.Meaning
import StationScript.Proofs.Waiting
import StationScript.Scope.Race

namespace StationScript

open ScopeHistory

variable {α : Type} {history : ScopeHistory} {b b' : ScopeBook} {s s' : Signals} {f : Flag} {token : Token}
  {hd : Holding}
  {taken : ScopeStep} {name id : String} {n m now instant : Nat} {next : TimedStep} {later : List TimedStep}

namespace ScopeBook

theorem holdsTrigger_of_trigger? {trigger : Trigger} (h : b.trigger? name = some trigger) :
    b.holdsTrigger trigger.flag := by
  have ⟨hd, hget, htrigger⟩ := Option.bind_eq_some_iff.1 h
  have hmem : (name, hd) ∈ b.entries := by
    have ⟨before, after, heq, _⟩ := List.lookup_eq_some_iff.1 hget
    rw [heq]
    exact List.mem_append_right _ (List.mem_cons_self ..)
  exact List.any_eq_true.2 ⟨_, hmem, by simpa using htrigger⟩

theorem holdsTrigger_set (h : (b.set id hd).holdsTrigger f) : hd.trigger = some ⟨f⟩ ∨ b.holdsTrigger f := by
  simp only [holdsTrigger, set, List.any_cons, List.any_filter, Bool.or_eq_true, decide_eq_true_eq] at h
  refine h.imp_right fun h => ?_
  have ⟨e, he, hf⟩ := List.any_eq_true.1 h
  exact List.any_eq_true.2 ⟨e, he, (Bool.and_eq_true_iff.1 hf).right⟩

theorem holdsTrigger_of_get? (h : b.get? name = some hd) (ht : hd.trigger = some ⟨f⟩) : b.holdsTrigger f := by
  have htrigger : b.trigger? name = some ⟨f⟩ := Option.bind_eq_some_iff.2 ⟨hd, h, ht⟩
  exact holdsTrigger_of_trigger? htrigger

end ScopeBook

-- A flag that was not raised and that nobody can raise: its scope was opened, and its triggers were all given up.
structure Flag.Dead (f : Flag) (b : ScopeBook) (s : Signals) : Prop where
  unraised : f ∉ s.raised
  unheld   : ¬b.holdsTrigger f
  opened   : f.number < s.opened

-- Nobody gets hold of a trigger again that was given up by all.
theorem Flag.Dead.step (h : f.Dead b s) (hs : b.step s taken = some (b', s')) : f.Dead b' s' := by
  have hnew {id : String} {hd : Holding} (hd' : hd.trigger ≠ some ⟨f⟩) : ¬(b.set id hd).holdsTrigger f :=
    fun hheld => (ScopeBook.holdsTrigger_set hheld).elim hd' h.unheld
  have hnext : some (⟨s.next⟩ : Trigger) ≠ some ⟨f⟩ := by
    intro heq
    have := h.opened
    cases heq
    exact Nat.lt_irrefl _ this
  cases taken
  case scope id =>
    cases hs
    exact ⟨h.unraised, hnew hnext, Nat.lt_succ_of_lt h.opened⟩
  case never id =>
    cases hs
    exact ⟨h.unraised, hnew nofun, Nat.lt_succ_of_lt h.opened⟩
  case child id outer =>
    obtain ⟨_, -, hs⟩ := Option.bind_eq_some_iff.1 hs
    cases hs
    exact ⟨h.unraised, hnew hnext, Nat.lt_succ_of_lt h.opened⟩
  case clone id source =>
    obtain ⟨hd, hget, hs⟩ := Option.bind_eq_some_iff.1 hs
    cases hs
    exact ⟨h.unraised, hnew fun ht => h.unheld (ScopeBook.holdsTrigger_of_get? hget ht), h.opened⟩
  case dropTrigger id =>
    obtain ⟨hd, -, hs⟩ := Option.bind_eq_some_iff.1 hs
    cases hs
    exact ⟨h.unraised, hnew nofun, h.opened⟩
  case cancel id =>
    obtain ⟨trigger, ht, hs⟩ := Option.bind_eq_some_iff.1 hs
    cases hs
    have hother : f ≠ trigger.flag := fun heq => h.unheld (heq ▸ ScopeBook.holdsTrigger_of_trigger? ht)
    refine ⟨fun hr => ?_, h.unheld, ?_⟩
    · exact (Signals.mem_raise.1 hr).elim hother h.unraised
    · rw [Signals.fire, Signals.raise]
      split <;> exact h.opened

namespace Race

variable {r : Race α}

-- The watchers of a token, none of which was woken yet. Those that stand aside watch a dead flag.
structure Watches (r : Race α) (token : Token) (b : ScopeBook) (s : Signals) : Prop where
  flags : r.watchers.map (·.1) = token.flags
  state : ∀ f w, (f, w) ∈ r.watchers → w = .alert ∨ w = .aside ∧ f.Dead b s

theorem Watches.step (h : r.Watches token b s) (hs : b.step s taken = some (b', s')) : r.Watches token b' s' where
  flags := h.flags
  state f w hw := (h.state f w hw).imp_right fun ⟨haside, hdead⟩ => ⟨haside, hdead.step hs⟩

-- A watcher is woken if its flag was raised.
theorem look_eq_woken_iff {w : Watcher} (h : w = .alert ∨ w = .aside ∧ f.Dead b s) :
    w.look b s f = .woken ↔ f ∈ s.raised := by
  rcases h with rfl | ⟨rfl, hdead⟩
  · simp only [Watcher.look]
    split_ifs <;> simp_all
  · simpa [Watcher.look] using hdead.unraised

-- All watchers together tell whether the token is cancelled.
theorem Watches.isWoken_look (h : r.Watches token b s) : (r.look b s).isWoken = s.isCancelled token := by
  rw [Bool.eq_iff_iff, Signals.isCancelled_iff, ← h.flags]
  simp only [isWoken, look, List.any_map, List.any_eq_true, Function.comp_apply, decide_eq_true_eq, List.mem_map]
  constructor
  · rintro ⟨⟨f, w⟩, hw, hwoken⟩
    exact ⟨f, ⟨_, hw, rfl⟩, (look_eq_woken_iff (h.state f w hw)).1 hwoken⟩
  · rintro ⟨_, ⟨⟨f, w⟩, hw, rfl⟩, hr⟩
    exact ⟨_, hw, (look_eq_woken_iff (h.state f w hw)).2 hr⟩

-- As long as the token is live, a look leaves each watcher alert or sets it aside for good.
theorem Watches.look (h : r.Watches token b s) (hopened : ∀ f ∈ token.flags, f.number < s.opened)
    (hl : ¬s.isCancelled token) : (r.look b s).Watches token b s where
  flags := by rw [← h.flags]; simp [Race.look]
  state := by
    intro f w hw
    have ⟨⟨f', w'⟩, hw', heq⟩ := List.mem_map.1 hw
    cases heq
    have hmem : f ∈ token.flags := h.flags ▸ List.mem_map_of_mem hw'
    have hraised : f ∉ s.raised := fun hr => hl (Signals.isCancelled_iff.2 ⟨f, hmem, hr⟩)
    rcases h.state f w' hw' with rfl | ⟨rfl, hdead⟩
    · simp only [Watcher.look, if_neg hraised]
      split
      case isTrue => exact .inl rfl
      case isFalse hheld => exact .inr ⟨rfl, hraised, hheld, hopened f hmem⟩
    · exact .inr ⟨rfl, hdead⟩

end Race

-- The state after a step that somebody takes, if it is possible.
def ScopeBook.after (b : ScopeBook) (s : Signals) (taken : ScopeStep) : ScopeBook × Signals :=
  (b.step s taken).getD (b, s)

-- The flags that a step raises.
def ScopeBook.fires (b : ScopeBook) : ScopeStep → List Flag
  | .cancel id => ((b.trigger? id).map (·.flag)).toList
  | _ => []

-- The firings among the steps to come.
def ScopeBook.firings (b : ScopeBook) (s : Signals) : List TimedStep → List Firing
  | [] => []
  | next :: later =>
    (b.fires next.step).map (⟨next.instant, ·⟩) ++ (b.after s next.step).1.firings (b.after s next.step).2 later

-- The clock with the firings to come.
def ScopeBook.timeline (b : ScopeBook) (s : Signals) (now : Nat) (later : List TimedStep) : Timeline :=
  ⟨now, s, b.firings s later⟩

-- The steps to come are possible, and they are in order.
structure InOrder (history : ScopeHistory) (now : Nat) (later : List TimedStep) : Prop where
  ordered  : later.Pairwise (·.instant ≤ ·.instant)
  ahead    : ∀ e ∈ later, now ≤ e.instant
  possible : (run? ((later.map (·.step)).reverse ++ history)).isSome

namespace ScopeBook

-- Only a trigger that is fired raises a flag.
theorem raised_of_step (hs : b.step s taken = some (b', s')) (hquiet : ∀ id, taken ≠ .cancel id) :
    s'.raised = s.raised := by
  cases taken
  case scope => cases hs; rfl
  case never => cases hs; rfl
  case cancel id => exact absurd rfl (hquiet id)
  case child | clone | dropTrigger =>
    obtain ⟨_, _, hs⟩ := Option.bind_eq_some_iff.1 hs
    cases hs
    rfl

-- A step cancels a token if it raises one of its flags.
theorem isCancelled_after (hs : b.step s taken = some (b', s')) :
    s'.isCancelled token ↔ (∃ f ∈ b.fires taken, f ∈ token.flags) ∨ s.isCancelled token := by
  cases taken
  case cancel id =>
    obtain ⟨trigger, ht, hs⟩ := Option.bind_eq_some_iff.1 hs
    cases hs
    simp only [Signals.isCancelled_iff, Signals.fire, Signals.mem_raise, fires, ht]
    constructor
    · rintro ⟨g, hg, rfl | hr⟩
      · exact .inl ⟨_, List.mem_singleton_self _, hg⟩
      · exact .inr ⟨g, hg, hr⟩
    · rintro (⟨g, hg, hmem⟩ | ⟨g, hg, hr⟩)
      · exact ⟨g, hmem, .inl (List.mem_singleton.1 hg)⟩
      · exact ⟨g, hg, .inr hr⟩
  all_goals simp [Signals.isCancelled, raised_of_step hs (by simp), fires]

theorem after_eq (hs : b.step s taken = some (b', s')) : b.after s taken = (b', s') := by
  rw [after, hs, Option.getD_some]

theorem firings_cons (hs : b.step s next.step = some (b', s')) :
    b.firings s (next :: later) = (b.fires next.step).map (⟨next.instant, ·⟩) ++ b'.firings s' later := by
  rw [firings, after_eq hs]

-- A firing to come is no earlier than the step that it comes of.
theorem instant_of_mem_firings {g : Firing} (hg : g ∈ b.firings s later) : ∃ e ∈ later, e.instant = g.instant := by
  induction later generalizing b s
  case nil => cases hg
  case cons next later ih =>
    rw [firings] at hg
    cases List.mem_append.1 hg
    case inl hg =>
      obtain ⟨_, -, rfl⟩ := List.mem_map.1 hg
      exact ⟨next, List.mem_cons_self .., rfl⟩
    case inr hg =>
      have ⟨e, he, heq⟩ := ih hg
      exact ⟨e, List.mem_cons_of_mem _ he, heq⟩

end ScopeBook

namespace ScopeHistory

theorem exists_run_of_suffix {earlier : ScopeHistory} (he : earlier <:+ history) (h : (run? history).isSome) :
    ∃ b s, run? earlier = some (b, s) := by
  induction history
  case nil =>
    cases List.suffix_nil.1 he
    exact ⟨_, _, rfl⟩
  case cons taken rest ih =>
    have ⟨⟨b', s'⟩, hrun⟩ := Option.isSome_iff_exists.1 h
    cases List.suffix_cons_iff.1 he
    case inl heq => exact ⟨b', s', heq ▸ hrun⟩
    case inr he =>
      obtain ⟨_, hrest, -⟩ := Option.bind_eq_some_iff.1 hrun
      exact ih he (by rw [hrest]; rfl)

end ScopeHistory

namespace InOrder

theorem of_cons (h : InOrder history now (next :: later)) :
    InOrder (next.step :: history) next.instant later where
  ordered  := (List.pairwise_cons.1 h.ordered).right
  ahead    := (List.pairwise_cons.1 h.ordered).left
  possible := by simpa using h.possible

theorem exists_step (h : InOrder history now (next :: later)) (hrun : run? history = some (b, s)) :
    ∃ b' s', b.step s next.step = some (b', s') ∧ run? (next.step :: history) = some (b', s') := by
  have hsuffix : next.step :: history <:+ ((next :: later).map (·.step)).reverse ++ history := by
    simp [List.suffix_append]
  have ⟨b', s', hnext⟩ := exists_run_of_suffix hsuffix h.possible
  obtain ⟨⟨b₀, s₀⟩, h₀, hs⟩ := Option.bind_eq_some_iff.1 hnext
  cases hrun.symm.trans h₀
  exact ⟨b', s', hs, hnext⟩

theorem le_instant (h : InOrder history now later) {g : Firing} (hg : g ∈ b.firings s later) : now ≤ g.instant := by
  have ⟨e, he, heq⟩ := ScopeBook.instant_of_mem_firings hg
  exact heq ▸ h.ahead e he

end InOrder

-- At an instant somebody is going to fire a trigger of the scope, or of one around it.
def FiredAt (history : ScopeHistory) (later : List TimedStep) (n instant : Nat) : Prop :=
  ∃ before id after m, later = before ++ ⟨instant, .cancel id⟩ :: after ∧
    scope? ((before.map (·.step)).reverse ++ history) id = some m ∧ Within history n m

theorem firedAt_cons (hn : n < openings history) : FiredAt history (next :: later) n instant ↔
    (∃ id m, next = ⟨instant, .cancel id⟩ ∧ scope? history id = some m ∧ Within history n m) ∨
      FiredAt (next.step :: history) later n instant := by
  constructor
  · rintro ⟨before, id, after, m, heq, hm, hw⟩
    cases before
    case nil =>
      cases heq
      exact .inl ⟨id, m, rfl, hm, hw⟩
    case cons first before =>
      cases heq
      exact .inr ⟨before, id, after, m, rfl, by simpa using hm, (within_cons hn).2 hw⟩
  · rintro (⟨id, m, rfl, hm, hw⟩ | ⟨before, id, after, m, rfl, hm, hw⟩)
    · exact ⟨[], id, later, m, rfl, hm, hw⟩
    · exact ⟨next :: before, id, after, m, rfl, by simpa using hm, (within_cons hn).1 hw⟩

-- The flags that a step raises are those of the scope whose trigger it fires.
theorem ScopeHistory.Tracks.mem_fires (h : Tracks history b s) (hs : b.step s taken = some (b', s')) :
    f ∈ b.fires taken ↔ ∃ id, taken = .cancel id ∧ scope? history id = some f.number := by
  cases taken
  case cancel id =>
    obtain ⟨trigger, ht, -⟩ := Option.bind_eq_some_iff.1 hs
    have ⟨hd, hget, htrigger⟩ := Option.bind_eq_some_iff.1 ht
    have ⟨n, hn, hh⟩ := h.holds id hd hget
    have hnumber := hh.trigger trigger htrigger
    simp only [ScopeBook.fires, ht, Option.map_some, Option.toList_some, List.mem_singleton]
    constructor
    · rintro rfl
      exact ⟨id, rfl, by rw [hn, hnumber]⟩
    · rintro ⟨_, heq, hid⟩
      cases heq
      have hf : f.number = trigger.flag.number := by rw [hnumber, ← Option.some_inj, ← hid, hn]
      exact congrArg Flag.mk hf
  all_goals simp [ScopeBook.fires]

-- The firings to come that reach a token are those of the scopes around it.
theorem exists_firing_iff (h : InOrder history now later) (hrun : run? history = some (b, s))
    (hn : n < openings history) (htoken : ∀ f, f ∈ token.flags ↔ Within history n f.number) :
    (∃ g ∈ b.firings s later, g.flag ∈ token.flags ∧ g.instant = instant) ↔ FiredAt history later n instant := by
  induction later generalizing history b s now
  case nil => simp [ScopeBook.firings, FiredAt]
  case cons next later ih =>
    have ⟨b', s', hs, hrun'⟩ := h.exists_step hrun
    have hn' : n < openings (next.step :: history) := Nat.lt_of_lt_of_le hn (openings_le_cons ..)
    have htoken' f : f ∈ token.flags ↔ Within (next.step :: history) n f.number := by rw [htoken, within_cons hn]
    rw [firedAt_cons hn, ← ih h.of_cons hrun' hn' htoken', ScopeBook.firings_cons hs]
    simp only [List.mem_append, or_and_right, exists_or]
    refine or_congr_left ?_
    constructor
    · rintro ⟨g, hg, hmem, rfl⟩
      obtain ⟨f, hf, rfl⟩ := List.mem_map.1 hg
      have ⟨id, hid, hm⟩ := ((Tracks.of_run hrun).mem_fires hs).1 hf
      exact ⟨id, f.number, by cases next; cases hid; rfl, hm, (htoken f).1 hmem⟩
    · rintro ⟨id, m, rfl, hm, hw⟩
      have hf : ⟨m⟩ ∈ b.fires (.cancel id) := ((Tracks.of_run hrun).mem_fires hs).2 ⟨id, rfl, hm⟩
      exact ⟨⟨instant, ⟨m⟩⟩, List.mem_map.2 ⟨_, hf, rfl⟩, (htoken ⟨m⟩).2 hw, rfl⟩

namespace InOrder

theorem from_next (h : InOrder history now (next :: later)) : InOrder history next.instant (next :: later) :=
  ⟨h.ordered, List.forall_mem_cons.2 ⟨Nat.le_refl _, h.of_cons.ahead⟩, h.possible⟩

end InOrder

namespace ScopeBook

-- A step that raises no flag of a token leaves the next firing for it the next.
theorem nextFor?_of_not_fires (hs : b.step s next.step = some (b', s'))
    (hf : ∀ f ∈ b.fires next.step, f ∉ token.flags) :
    (b.timeline s now (next :: later)).nextFor? token = (b'.timeline s' instant later).nextFor? token := by
  have hnone : ((b.fires next.step).map (Firing.mk next.instant)).filter (·.flag ∈ token.flags) = [] := by
    simpa [List.filter_eq_nil_iff] using hf
  simp only [Timeline.nextFor?, timeline, firings_cons hs, List.filter_append, hnone, List.nil_append]

-- A step that raises a flag of a token is the next firing for it.
theorem nextFor?_of_fires (h : InOrder history now (next :: later)) (hs : b.step s next.step = some (b', s'))
    (hf : f ∈ b.fires next.step) (hmem : f ∈ token.flags) :
    (b.timeline s now (next :: later)).nextFor? token = some next.instant := by
  refine Timeline.nextFor?_eq_some_iff.2 ⟨⟨⟨next.instant, f⟩, ?_, hmem, rfl⟩, fun g hg _ => h.from_next.le_instant hg⟩
  rw [timeline, firings_cons hs]
  exact List.mem_append_left _ (List.mem_map.2 ⟨f, hf, rfl⟩)

end ScopeBook

namespace Race

variable {r : Race α}

theorem isDue_iff : r.isDue instant ↔ ∃ d, r.deadline? = some d ∧ d ≤ instant := by
  cases hd : r.deadline? <;> simp [isDue, hd]

theorem isDue_mono {later : Nat} (h : instant ≤ later) (hd : r.isDue instant) : r.isDue later := by
  have ⟨d, hd, hle⟩ := isDue_iff.1 hd
  exact isDue_iff.2 ⟨d, hd, Nat.le_trans hle h⟩

-- How a race ends that a firing may cut.
def endAt (r : Race α) : Option Nat → Option (WorkEnd α)
  | some instant => if r.isDue instant then r.rest? else some ⟨.cancelled, instant, true⟩
  | none => r.rest?

theorem endAt_of_isDue {first? : Option Nat} (h : ∀ instant, first? = some instant → r.isDue instant) :
    r.endAt first? = r.rest? := by
  cases first?
  case none         => rfl
  case some instant => exact if_pos (h instant rfl)

theorem settle?_of_isCancelled (h : r.Watches token b s) (hc : s.isCancelled token) :
    (r.look b s).settle? now = some ⟨.cancelled, now, r.begun⟩ := by
  rw [settle?, h.isWoken_look, if_pos hc]
  rfl

theorem settle?_of_live (h : r.Watches token b s) (hl : ¬s.isCancelled token)
    (hd : ∀ d, r.deadline? = some d → now ≤ d) :
    (r.look b s).settle? now = if r.isDue now then r.rest? else none := by
  have hdue : (r.look b s).isDue now = r.isDue now := rfl
  rw [settle?, h.isWoken_look, if_neg hl, hdue]
  split
  case isFalse => rfl
  case isTrue hnow =>
    have ⟨d, hd', hle⟩ := isDue_iff.1 hnow
    have heq : d = now := Nat.le_antisymm hle (hd d hd')
    rw [rest?, hd', heq]
    rfl

theorem run_of_isCancelled (h : r.Watches token b s) (hc : s.isCancelled token) :
    r.run b s now later = some ⟨.cancelled, now, r.begun⟩ := by
  cases later <;> simp [run, settle?_of_isCancelled h hc]

-- A race under a live token ends with the next firing that reaches the token, or with the work if that is done by
-- then.
theorem run_of_live (h : r.Watches token b s) (hl : ¬s.isCancelled token)
    (hopened : ∀ f ∈ token.flags, f.number < openings history) (hd : ∀ d, r.deadline? = some d → now ≤ d)
    (ho : InOrder history now later) (hrun : run? history = some (b, s)) :
    r.run b s now later = r.endAt ((b.timeline s now later).nextFor? token) := by
  induction later generalizing r history b s now
  case nil =>
    rw [run, settle?_of_live h hl hd]
    by_cases hnow : r.isDue now
    case pos =>
      rw [if_pos hnow, Option.or_self]
      rfl
    case neg =>
      rw [if_neg hnow, Option.none_or]
      rfl
  case cons next later ih =>
    have hdue_of {limit : Nat} (hlimit : r.isDue limit) (hle : ∀ g ∈ b.firings s (next :: later), limit ≤ g.instant) :
        r.endAt ((b.timeline s now (next :: later)).nextFor? token) = r.rest? := by
      refine endAt_of_isDue fun instant hnext => ?_
      have ⟨g, hg, _, heq⟩ := (Timeline.nextFor?_eq_some_iff.1 hnext).scheduled
      exact isDue_mono (heq ▸ hle g hg) hlimit
    rw [run, settle?_of_live h hl hd]
    by_cases hnow : r.isDue now
    case pos =>
      have ⟨d, hd', _⟩ := isDue_iff.1 hnow
      rw [if_pos hnow, hdue_of hnow fun g hg => ho.le_instant hg, rest?, hd']
      rfl
    case neg =>
      rw [if_neg hnow]
      by_cases hnext : r.isDue next.instant
      case pos =>
        rw [hdue_of hnext fun g hg => ho.from_next.le_instant hg]
        exact if_pos hnext
      case neg =>
        have ⟨b', s', hs, hrun'⟩ := ho.exists_step hrun
        have hlooked := (h.look ((Tracks.of_run hrun).opened ▸ hopened) hl).step hs
        have hwatches : Watches { r.look b s with begun := true } token b' s' := ⟨hlooked.flags, hlooked.state⟩
        simp only [if_neg hnext, hs, Option.getD_some]
        by_cases hc : s'.isCancelled token
        case pos =>
          rw [run_of_isCancelled hwatches hc]
          have ⟨f, hf, hmem⟩ := ((ScopeBook.isCancelled_after hs).1 hc).resolve_right hl
          rw [ScopeBook.nextFor?_of_fires ho hs hf hmem]
          exact (if_neg hnext).symm
        case neg =>
          have hopened' : ∀ f ∈ token.flags, f.number < openings (next.step :: history) :=
            fun f hf => Nat.lt_of_lt_of_le (hopened f hf) (openings_le_cons ..)
          have hd' : ∀ d, r.deadline? = some d → next.instant ≤ d := fun d hd' =>
            Nat.le_of_lt (Nat.lt_of_not_le fun hle => hnext (isDue_iff.2 ⟨d, hd', hle⟩))
          have hquiet : ∀ f ∈ b.fires next.step, f ∉ token.flags :=
            fun f hf hmem => hc ((ScopeBook.isCancelled_after hs).2 (.inl ⟨f, hf, hmem⟩))
          rw [ih hwatches hc hopened' hd' ho.of_cons hrun', ← ScopeBook.nextFor?_of_not_fires hs hquiet]
          rfl

end Race

-- The first firing to come that reaches a scope.
def FirstFiredAt (history : ScopeHistory) (later : List TimedStep) (n instant : Nat) : Prop :=
  FiredAt history later n instant ∧ ∀ other, FiredAt history later n other → instant ≤ other

-- The token of a scope that somebody holds after some steps, with steps to come.
structure Held (history : ScopeHistory) (b : ScopeBook) (s : Signals) (token : Token) (n now : Nat)
    (later : List TimedStep) : Prop where
  run    : run? history = some (b, s)
  opened : n < openings history
  flags  : ∀ f, f ∈ token.flags ↔ Within history n f.number
  later  : InOrder history now later

namespace Held

variable {work : Work α}

theorem of_token (hrun : run? history = some (b, s)) (ht : b.token? name = some token)
    (hn : scope? history name = some n) (ho : InOrder history now later) : Held history b s token n now later := by
  obtain ⟨hd, hget, rfl⟩ := Option.map_eq_some_iff.1 ht
  have ⟨_, hn', hh⟩ := (Tracks.of_run hrun).holds name hd hget
  cases hn.symm.trans hn'
  exact ⟨hrun, scope?_lt_openings hn, hh.token, ho⟩

-- A token has the flag of its own scope.
theorem flags_ne_nil (h : Held history b s token n now later) : token.flags ≠ [] :=
  List.ne_nil_of_mem ((h.flags ⟨n⟩).2 .refl)

-- A firing reaches the token just when somebody fires a trigger of its scope, or of one around it.
theorem firedAt_iff (h : Held history b s token n now later) : FiredAt history later n instant ↔
    ∃ g ∈ b.firings s later, g.flag ∈ token.flags ∧ g.instant = instant :=
  (exists_firing_iff h.later h.run h.opened h.flags).symm

theorem nextFor?_eq_some_iff (h : Held history b s token n now later) :
    (b.timeline s now later).nextFor? token = some instant ↔ FirstFiredAt history later n instant := by
  rw [Timeline.nextFor?_eq_some_iff]
  constructor
  · intro ⟨hscheduled, hleast⟩
    refine ⟨h.firedAt_iff.2 hscheduled, fun other hother => ?_⟩
    obtain ⟨g, hg, hmem, rfl⟩ := h.firedAt_iff.1 hother
    exact hleast g hg hmem
  · intro ⟨hscheduled, hleast⟩
    exact ⟨h.firedAt_iff.1 hscheduled, fun g hg hmem => hleast _ (h.firedAt_iff.2 ⟨g, hg, hmem, rfl⟩)⟩

theorem nextFor?_eq_none_iff (h : Held history b s token n now later) :
    (b.timeline s now later).nextFor? token = none ↔ ∀ t, ¬FiredAt history later n t := by
  rw [Timeline.nextFor?_eq_none_iff]
  constructor
  · intro hnone t ht
    obtain ⟨g, hg, hmem, -⟩ := h.firedAt_iff.1 ht
    exact hnone g hg hmem
  · exact fun hnone g hg hmem => hnone _ (h.firedAt_iff.2 ⟨g, hg, hmem, rfl⟩)

theorem le_of_nextFor? (h : Held history b s token n now later)
    (hnext : (b.timeline s now later).nextFor? token = some instant) : now ≤ instant := by
  have ⟨_, hg, _, heq⟩ := (Timeline.nextFor?_eq_some_iff.1 hnext).scheduled
  exact heq ▸ h.later.le_instant hg

-- Work that is set against the watchers of a token.
theorem race_eq (h : Held history b s token n now later) (work : Work α) :
    token.race work b s now later =
      Race.run ⟨token.flags.map (·, .alert), work.value, work.duration?.map (now + ·), false⟩ b s now later := by
  simp [Token.race, h.flags_ne_nil]

theorem watches (work : Work α) : Race.Watches
    ⟨token.flags.map (·, .alert), work.value, work.duration?.map (now + ·), false⟩ token b s where
  flags := by simp [Function.comp_def]
  state f w hw := by
    obtain ⟨_, -, heq⟩ := List.mem_map.1 hw
    exact .inl (Prod.mk.inj heq).right.symm

theorem race_of_isCancelled (h : Held history b s token n now later) (hc : s.isCancelled token) (work : Work α) :
    token.race work b s now later = some ⟨.cancelled, now, false⟩ := by
  rw [h.race_eq, Race.run_of_isCancelled (watches work) hc]

theorem race_of_live (h : Held history b s token n now later) (hl : ¬s.isCancelled token) (work : Work α) :
    token.race work b s now later =
      Race.endAt ⟨token.flags.map (·, .alert), work.value, work.duration?.map (now + ·), false⟩
        ((b.timeline s now later).nextFor? token) := by
  have hopened : ∀ f ∈ token.flags, f.number < openings history :=
    fun f hf => Nat.lt_of_le_of_lt ((h.flags f).1 hf).le h.opened
  have hdeadline : ∀ d, work.duration?.map (now + ·) = some d → now ≤ d := by
    intro d hd
    obtain ⟨_, -, rfl⟩ := Option.map_eq_some_iff.1 hd
    exact Nat.le_add_right ..
  rw [h.race_eq, Race.run_of_live (watches work) hl hopened hdeadline h.later h.run]

-- A firing that comes before the work is done cuts it.
theorem race_cut (h : Held history b s token n now later) (hl : ¬s.isCancelled token)
    (hf : FirstFiredAt history later n instant) (hd : ∀ d, work.duration? = some d → instant < now + d) :
    token.race work b s now later = some ⟨.cancelled, instant, true⟩ := by
  rw [h.race_of_live hl, h.nextFor?_eq_some_iff.2 hf]
  refine if_neg fun hdue => ?_
  have ⟨d, hd', hle⟩ := Race.isDue_iff.1 hdue
  obtain ⟨d, hwork, rfl⟩ := Option.map_eq_some_iff.1 hd'
  exact absurd hle (Nat.not_le.2 (hd d hwork))

-- Work is done if no firing comes before.
theorem race_done (h : Held history b s token n now later) (hl : ¬s.isCancelled token) {d : Nat}
    (hwork : work.duration? = some d) (hf : ∀ t, FiredAt history later n t → now + d ≤ t) :
    token.race work b s now later = some ⟨.done work.value, now + d, true⟩ := by
  rw [h.race_of_live hl, Race.endAt_of_isDue, Race.rest?, hwork]
  · rfl
  · intro t ht
    exact Race.isDue_iff.2 ⟨now + d, by rw [hwork]; rfl, hf t (h.nextFor?_eq_some_iff.1 ht).left⟩

-- Work that takes for ever goes on if no firing comes.
theorem race_eq_none (h : Held history b s token n now later) (hl : ¬s.isCancelled token)
    (hwork : work.duration? = none) (hf : ∀ t, ¬FiredAt history later n t) :
    token.race work b s now later = none := by
  rw [h.race_of_live hl, h.nextFor?_eq_none_iff.2 hf, Race.endAt, Race.rest?, hwork]
  rfl

-- If any firing comes before an instant, a first one does.
theorem exists_first (h : Held history b s token n now later) {limit : Nat}
    (hf : ¬∀ t, FiredAt history later n t → limit ≤ t) : ∃ t, FirstFiredAt history later n t ∧ t < limit := by
  push Not at hf
  have ⟨t, ht, hlt⟩ := hf
  cases hnext : (b.timeline s now later).nextFor? token
  case none => exact absurd ht (h.nextFor?_eq_none_iff.1 hnext t)
  case some first =>
    have hfirst := h.nextFor?_eq_some_iff.1 hnext
    exact ⟨first, hfirst, Nat.lt_of_le_of_lt (hfirst.right t ht) hlt⟩

theorem calmUntil (h : Held history b s token n now later) {limit : Nat}
    (hf : ∀ t, FiredAt history later n t → limit ≤ t) : (b.timeline s now later).CalmUntil token limit :=
  fun g hg hmem => hf _ (h.firedAt_iff.2 ⟨g, hg, hmem, rfl⟩)

end Held

-- The end of a wait by the clock: whether the whole time passed, and the instant.
def WorkEnd.ofWait (begun : Bool) : Bool × Timeline → WorkEnd Unit
  | (passed, t) => ⟨if passed then .done () else .cancelled, t.now, begun⟩

-- How the waits under the token of a scope end, from an instant on and while others take steps.
structure EndOnTime (history : ScopeHistory) (b : ScopeBook) (s : Signals) (token : Token) (n now : Nat)
    (later : List TimedStep) : Prop where
  -- There is a flag to watch, and nothing panics.
  watched    : token.flags ≠ []
  unpanicked : ∀ {α : Type} (work : Work α) e, token.race work b s now later = some e → e.result ≠ .panicked
  -- Under a cancelled token no work is begun, and no time passes.
  unbegun    : s.isCancelled token → ∀ {α : Type} (work : Work α),
    token.runUntilCancelled work b s now later = some ⟨.cancelled, now, false⟩
  sleptNot   : s.isCancelled token → ∀ d, token.sleep d b s now later = some ⟨.cancelled, now, false⟩
  signalled  : s.isCancelled token → token.cancelled b s now later = some ⟨.cancelled, now, false⟩
  -- Under a live token a sleep is cut by the first firing that reaches it, if that comes in time.
  sleptShort : ¬s.isCancelled token → ∀ t d, FirstFiredAt history later n t → t < now + d →
    token.sleep d b s now later = some ⟨.cancelled, t, true⟩
  slept      : ¬s.isCancelled token → ∀ d, (∀ t, FiredAt history later n t → now + d ≤ t) →
    token.sleep d b s now later = some ⟨.done (), now + d, true⟩
  signal     : ¬s.isCancelled token → ∀ t, FirstFiredAt history later n t →
    token.cancelled b s now later = some ⟨.cancelled, t, true⟩
  silence    : ¬s.isCancelled token → (∀ t, ¬FiredAt history later n t) → token.cancelled b s now later = none
  -- The clock, which knows of nothing but firings, says the same.
  byWait     : ∀ d, token.sleep d b s now later =
    some (.ofWait (!s.isCancelled token) ((b.timeline s now later).wait token d))
  bySignal   : (token.cancelled b s now later).map (·.instant) =
    ((b.timeline s now later).waitForSignal? token).map (·.now)

namespace Held

theorem sleep_eq_wait (h : Held history b s token n now later) (d : Nat) : token.sleep d b s now later =
    some (.ofWait (!s.isCancelled token) ((b.timeline s now later).wait token d)) := by
  by_cases hc : s.isCancelled token
  case pos => simp [Token.sleep, Token.runUntilCancelled, Timeline.wait, Timeline.isCancelled, ScopeBook.timeline, hc,
    WorkEnd.ofWait]
  case neg =>
    have hl : ¬(b.timeline s now later).isCancelled token := hc
    have hbegun : (!s.isCancelled token) = true := by simpa using hc
    rw [Token.sleep, Token.runUntilCancelled, if_neg hc, hbegun]
    by_cases hf : ∀ t, FiredAt history later n t → now + d ≤ t
    case pos =>
      have hwait := Timeline.wait_of_calm (n := d) hl (h.calmUntil hf)
      rw [h.race_done hc rfl hf, hwait]
      rfl
    case neg =>
      obtain ⟨t, hfirst, hlt⟩ := h.exists_first hf
      have hnext := h.nextFor?_eq_some_iff.2 hfirst
      have hwait := Timeline.wait_of_earliest (n := d) hl (Timeline.nextFor?_eq_some_iff.1 hnext) hlt
      have hnow : ((b.timeline s now later).cutAt t).now = t := Nat.max_eq_right (h.le_of_nextFor? hnext)
      rw [h.race_cut hc hfirst (by rintro _ ⟨⟩; exact hlt), hwait, WorkEnd.ofWait, hnow]
      rfl

theorem cancelled_eq_waitForSignal (h : Held history b s token n now later) :
    (token.cancelled b s now later).map (·.instant) =
      ((b.timeline s now later).waitForSignal? token).map (·.now) := by
  rw [Token.cancelled]
  by_cases hc : s.isCancelled token
  case pos =>
    have hcancelled : (b.timeline s now later).isCancelled token := hc
    rw [h.race_of_isCancelled hc, Timeline.waitForSignal?, if_pos hcancelled]
    rfl
  case neg =>
    have hl : ¬(b.timeline s now later).isCancelled token := hc
    cases hnext : (b.timeline s now later).nextFor? token
    case none =>
      rw [h.race_eq_none hc rfl (h.nextFor?_eq_none_iff.1 hnext),
        Timeline.waitForSignal?_eq_none hl (Timeline.nextFor?_eq_none_iff.1 hnext)]
      rfl
    case some t =>
      have hnow : ((b.timeline s now later).cutAt t).now = t := Nat.max_eq_right (h.le_of_nextFor? hnext)
      rw [h.race_cut hc (h.nextFor?_eq_some_iff.1 hnext) (by rintro _ ⟨⟩),
        Timeline.waitForSignal?_of_earliest hl (Timeline.nextFor?_eq_some_iff.1 hnext), Option.map_some,
        Option.map_some, hnow]

theorem race_unpanicked (h : Held history b s token n now later) (work : Work α) {e : WorkEnd α}
    (he : token.race work b s now later = some e) : e.result ≠ .panicked := by
  by_cases hc : s.isCancelled token
  case pos =>
    rw [h.race_of_isCancelled hc] at he
    cases he
    exact nofun
  case neg =>
    rw [h.race_of_live hc] at he
    have hrest {r : Race α} (hr : r.rest? = some e) : e.result ≠ .panicked := by
      obtain ⟨_, -, rfl⟩ := Option.map_eq_some_iff.1 hr
      exact nofun
    unfold Race.endAt at he
    split at he
    case h_2 => exact hrest he
    case h_1 =>
      split at he
      case isTrue => exact hrest he
      case isFalse => cases he; exact nofun

end Held

-- Every wait under a token that somebody holds ends when it should, however the scopes around it are nested, and
-- whichever triggers are fired, given up and copied in the meantime.
theorem waits_end_on_time (hrun : run? history = some (b, s)) (ht : b.token? name = some token)
    (hn : scope? history name = some n) (ho : InOrder history now later) :
    EndOnTime history b s token n now later := by
  have h := Held.of_token hrun ht hn ho
  have hlive (hl : ¬s.isCancelled token) {α : Type} (work : Work α) :
      token.runUntilCancelled work b s now later = token.race work b s now later := if_neg hl
  have hunbegun (hc : s.isCancelled token) {α : Type} (work : Work α) :
      token.runUntilCancelled work b s now later = some ⟨.cancelled, now, false⟩ := if_pos hc
  exact {
    watched    := h.flags_ne_nil
    unpanicked := fun work _ he => h.race_unpanicked work he
    unbegun    := hunbegun
    sleptNot   := fun hc _ => hunbegun hc _
    signalled  := fun hc => h.race_of_isCancelled hc _
    sleptShort := fun hl t d hf hlt => (hlive hl _).trans (h.race_cut hl hf (by rintro _ ⟨⟩; exact hlt))
    slept      := fun hl d hf => (hlive hl _).trans (h.race_done hl rfl hf)
    signal     := fun hl t hf => h.race_cut hl hf nofun
    silence    := fun hl hf => h.race_eq_none hl rfl hf
    byWait     := h.sleep_eq_wait
    bySignal   := h.cancelled_eq_waitForSignal }

-- A scope two levels deep. Its own trigger and the one around it are given up, and then the outermost one is fired.
theorem waits_end_on_time_past_drops :
    let history : ScopeHistory := [.child "c" "b", .child "b" "a", .scope "a"]
    let later : List TimedStep := [⟨3, .dropTrigger "c"⟩, ⟨5, .dropTrigger "b"⟩, ⟨7, .cancel "a"⟩]
    ∃ b s, run? history = some (b, s) ∧ b.token? "c" = some ⟨[⟨2⟩, ⟨1⟩, ⟨0⟩]⟩ ∧
      InOrder history 0 later ∧ EndOnTime history b s ⟨[⟨2⟩, ⟨1⟩, ⟨0⟩]⟩ 2 0 later ∧
      Token.sleep ⟨[⟨2⟩, ⟨1⟩, ⟨0⟩]⟩ 10 b s 0 later = some ⟨.cancelled, 7, true⟩ := by
  intro history later
  have ho : InOrder history 0 later := ⟨by decide, by decide, by decide⟩
  refine ⟨_, _, rfl, rfl, ho, ?_, by decide⟩
  exact waits_end_on_time rfl (show ScopeBook.token? _ "c" = _ from rfl) rfl ho

end StationScript
