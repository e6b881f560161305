import StationScript.Proofs.Lists
import StationScript.Proofs.Nesting

namespace StationScript

namespace ScopeBook

variable {b b' : ScopeBook} {s s' : Signals} {hd : Holding} {id name : String}

theorem get?_set : (b.set id hd).get? name = if name = id then some hd else b.get? name := by
  unfold get? set
  split
  case isTrue h  => simp [h]
  case isFalse h => simp [List.lookup_cons, beq_false_of_ne h, lookup_filter_ne h]

theorem token?_set : (b.set id hd).token? name = if name = id then some hd.token else b.token? name := by
  unfold token?
  rw [get?_set]
  split <;> rfl

end ScopeBook

namespace ScopeHistory

variable {history : ScopeHistory} {step : ScopeStep} {n m : Nat} {name id : String} {b b' : ScopeBook}
  {s s' : Signals} {hd : Holding}

-- The book and the flags after all steps. There is none if a step was not possible.
def run? : ScopeHistory → Option (ScopeBook × Signals)
  | [] => some ({}, {})
  | step :: earlier => do
    let (b, s) ← run? earlier
    b.step s step

-- The halves of a scope: the token carries the flags of all scopes around it, the trigger that of the scope.
structure Holds (history : ScopeHistory) (hd : Holding) (n : Nat) : Prop where
  token   : ∀ f, f ∈ hd.token.flags ↔ Within history n f.number
  trigger : ∀ t, hd.trigger = some t → t.flag.number = n

-- A book and its flags follow the steps that were taken.
structure Tracks (history : ScopeHistory) (b : ScopeBook) (s : Signals) : Prop where
  opened : s.opened = openings history
  raised : ∀ f, f ∈ s.raised ↔ Fired history f.number
  holds  : ∀ name hd, b.get? name = some hd → ∃ n, scope? history name = some n ∧ Holds history hd n

theorem Holds.cons (h : Holds history hd n) (hn : n < openings history) : Holds (step :: history) hd n where
  token f := (h.token f).trans (within_cons hn).symm
  trigger := h.trigger

theorem fired_cons_of_ne (hs : ∀ id, step ≠ .cancel id) : Fired (step :: history) n ↔ Fired history n := by
  simp [fired_cons, hs]

namespace Tracks

-- Opening a scope, inside another one or not.
theorem opening {trigger : Option Trigger} (h : Tracks history b s) (outer : Token)
    (ho : openings (step :: history) = openings history + 1) (hs : ∀ id, step ≠ .cancel id)
    (hname : ∀ name, scope? (step :: history) name =
      if name = id then some (openings history) else scope? history name)
    (hw : ∀ f : Flag, Within (step :: history) (openings history) f.number ↔
      f.number = openings history ∨ f ∈ outer.flags)
    (ht : ∀ t, trigger = some t → t.flag = s.next) :
    Tracks (step :: history) (b.set id ⟨⟨s.next :: outer.flags⟩, trigger⟩)
      { s with opened := s.opened + 1 } where
  opened := by rw [ho, ← h.opened]
  raised f := (h.raised f).trans (fired_cons_of_ne hs).symm
  holds := by
    intro name hd hget
    rw [hname]
    rw [ScopeBook.get?_set] at hget
    split at hget
    case isFalse hne =>
      have ⟨n, hn, hh⟩ := h.holds name hd hget
      exact ⟨n, by rwa [if_neg hne], hh.cons (scope?_lt_openings hn)⟩
    case isTrue heq =>
      cases hget
      refine ⟨openings history, if_pos heq, ?_, ?_⟩
      · intro f
        have hf : f = s.next ↔ f.number = openings history := by
          rw [← h.opened]
          exact ⟨fun he => he ▸ rfl, fun he => congrArg Flag.mk he⟩
        rw [hw, List.mem_cons, hf]
      · exact fun t he => by rw [ht t he]; exact h.opened

theorem clone {source : String} (h : Tracks history b s) (hget : b.get? source = some hd) :
    Tracks (.clone id source :: history) (b.set id hd) s where
  opened := h.opened
  raised f := (h.raised f).trans (fired_cons_of_ne (by simp)).symm
  holds := by
    intro name hd' hget'
    rw [ScopeBook.get?_set] at hget'
    split at hget'
    case isTrue heq =>
      cases hget'
      obtain ⟨n, hn, hh⟩ := h.holds source hd hget
      exact ⟨n, by rw [scope?, if_pos heq, hn], hh.cons (scope?_lt_openings hn)⟩
    case isFalse hne =>
      obtain ⟨n, hn, hh⟩ := h.holds name hd' hget'
      exact ⟨n, by rw [scope?, if_neg hne, hn], hh.cons (scope?_lt_openings hn)⟩

theorem cancel {trigger : Trigger} (h : Tracks history b s) (ht : b.trigger? id = some trigger) :
    Tracks (.cancel id :: history) b (s.fire trigger) where
  opened := by
    rw [Signals.fire, Signals.raise]
    split <;> exact h.opened
  raised f := by
    have ⟨hd, hget, htrigger⟩ := Option.bind_eq_some_iff.1 ht
    have ⟨n, hn, hh⟩ := h.holds id hd hget
    have hf : f = trigger.flag ↔ n = f.number := by
      rw [← hh.trigger trigger htrigger]
      exact ⟨fun he => he ▸ rfl, fun he => congrArg Flag.mk he.symm⟩
    rw [Signals.fire, Signals.mem_raise, fired_cons, h.raised, hf]
    simp [hn]
  holds name hd hget := by
    have ⟨n, hn, hh⟩ := h.holds name hd hget
    exact ⟨n, hn, hh.cons (scope?_lt_openings hn)⟩

theorem dropTrigger (h : Tracks history b s) (hget : b.get? id = some hd) :
    Tracks (.dropTrigger id :: history) (b.set id { hd with trigger := none }) s where
  opened := h.opened
  raised f := (h.raised f).trans (fired_cons_of_ne (by simp)).symm
  holds := by
    intro name hd' hget'
    rw [ScopeBook.get?_set] at hget'
    split at hget'
    case isTrue heq =>
      cases hget'
      have ⟨n, hn, hh⟩ := h.holds id hd hget
      exact ⟨n, heq ▸ hn, (hh.cons (scope?_lt_openings hn)).token, nofun⟩
    case isFalse hne =>
      have ⟨n, hn, hh⟩ := h.holds name hd' hget'
      exact ⟨n, hn, hh.cons (scope?_lt_openings hn)⟩

theorem cons (h : Tracks history b s) (hs : b.step s step = some (b', s')) : Tracks (step :: history) b' s' := by
  cases step
  case scope id =>
    cases hs
    exact h.opening ⟨[]⟩ rfl nofun (fun _ => rfl) (by simp [within_openings]) (by simp)
  case never id =>
    cases hs
    exact h.opening ⟨[]⟩ rfl nofun (fun _ => rfl) (by simp [within_openings]) (by simp)
  case child id outer =>
    have ⟨token, htoken, hs⟩ := Option.bind_eq_some_iff.1 hs
    cases hs
    obtain ⟨hd, hget, rfl⟩ := Option.map_eq_some_iff.1 htoken
    have ⟨k, hk, hh⟩ := h.holds outer hd hget
    exact h.opening hd.token rfl nofun (fun _ => rfl) (fun f => by rw [within_child hk, hh.token]) (by simp)
  case clone id source =>
    have ⟨hd, hget, hs⟩ := Option.bind_eq_some_iff.1 hs
    cases hs
    exact h.clone hget
  case cancel id =>
    have ⟨trigger, ht, hs⟩ := Option.bind_eq_some_iff.1 hs
    cases hs
    exact h.cancel ht
  case dropTrigger id =>
    have ⟨hd, hget, hs⟩ := Option.bind_eq_some_iff.1 hs
    cases hs
    exact h.dropTrigger hget

theorem of_run (h : run? history = some (b, s)) : Tracks history b s := by
  induction history generalizing b s
  case nil =>
    cases h
    exact ⟨rfl, fun f => ⟨nofun, fun ⟨_, _, hs, _⟩ => nomatch List.suffix_nil.1 hs⟩, nofun⟩
  case cons step earlier ih =>
    have ⟨⟨b₀, s₀⟩, h₀, hs⟩ := Option.bind_eq_some_iff.1 h
    exact (ih h₀).cons hs

end Tracks

theorem Fired.lt_openings (h : Fired history n) : n < openings history := by
  have ⟨earlier, id, hs, hn⟩ := h
  exact Nat.lt_of_lt_of_le (scope?_lt_openings hn) (openings_le_of_suffix ((List.suffix_cons ..).trans hs))

namespace Tracks

theorem scope?_isSome {token : Token} (h : Tracks history b s) (ht : b.token? name = some token) :
    ∃ n, scope? history name = some n := by
  obtain ⟨hd, hget, -⟩ := Option.map_eq_some_iff.1 ht
  obtain ⟨n, hn, -⟩ := h.holds name hd hget
  exact ⟨n, hn⟩

-- A token is cancelled if a trigger of its scope was fired, or one of a scope around it.
theorem isCancelled_iff {token : Token} (h : Tracks history b s) (ht : b.token? name = some token)
    (hn : scope? history name = some n) :
    s.isCancelled token ↔ ∃ m, Within history n m ∧ Fired history m := by
  obtain ⟨hd, hget, rfl⟩ := Option.map_eq_some_iff.1 ht
  have ⟨n', hn', hh⟩ := h.holds name hd hget
  cases hn.symm.trans hn'
  rw [Signals.isCancelled_iff]
  constructor
  · intro ⟨f, hf, hr⟩
    exact ⟨f.number, (hh.token f).1 hf, (h.raised f).1 hr⟩
  · intro ⟨m, hw, hm⟩
    exact ⟨⟨m⟩, (hh.token ⟨m⟩).2 hw, (h.raised ⟨m⟩).2 hm⟩

theorem isFired_iff {trigger : Trigger} (h : Tracks history b s) (ht : b.trigger? name = some trigger) :
    ∃ n, scope? history name = some n ∧ (s.isFired trigger ↔ Fired history n) := by
  have ⟨hd, hget, htrigger⟩ := Option.bind_eq_some_iff.1 ht
  have ⟨n, hn, hh⟩ := h.holds name hd hget
  refine ⟨n, hn, ?_⟩
  rw [Signals.isFired_iff, h.raised, hh.trigger trigger htrigger]

-- Firing a trigger reaches just the tokens of its scope and of those inside it.
theorem isCancelled_cancel {token : Token} (h : Tracks history b s)
    (hs : b.step s (.cancel id) = some (b', s')) (hn : scope? history id = some n)
    (ht : b'.token? name = some token) (hm : scope? history name = some m) :
    s'.isCancelled token ↔ s.isCancelled token ∨ Within history m n := by
  have hb : b' = b := by
    obtain ⟨_, -, hs⟩ := Option.bind_eq_some_iff.1 hs
    cases hs
    rfl
  subst hb
  have hlt := scope?_lt_openings hm
  rw [(h.cons hs).isCancelled_iff ht hm, h.isCancelled_iff ht hm]
  constructor
  · intro ⟨k, hw, hk⟩
    rw [within_cons hlt] at hw
    rcases fired_cons.1 hk with ⟨_, heq, hid⟩ | hk
    · cases heq
      cases hn.symm.trans hid
      exact .inr hw
    · exact .inl ⟨k, hw, hk⟩
  · rintro (⟨k, hw, hk⟩ | hw)
    · exact ⟨k, (within_cons hlt).2 hw, fired_cons.2 (.inr hk)⟩
    · exact ⟨n, (within_cons hlt).2 hw, fired_cons.2 (.inl ⟨id, rfl, hn⟩)⟩

-- A scope that is opened late is cancelled from the start if the one around it is.
theorem isCancelled_child {outer : String} (h : Tracks history b s)
    (hs : b.step s (.child id outer) = some (b', s')) :
    ∃ token inner, b.token? outer = some token ∧ b'.token? id = some inner ∧
      (s'.isCancelled inner ↔ s.isCancelled token) := by
  have ⟨token, ht, hs⟩ := Option.bind_eq_some_iff.1 hs
  cases hs
  refine ⟨token, ⟨s.next :: token.flags⟩, ht, by simp [ScopeBook.token?_set], ?_⟩
  have hnext : s.next ∉ s.raised := fun hr => by
    have := ((h.raised _).1 hr).lt_openings
    rw [← h.opened] at this
    exact Nat.lt_irrefl _ this
  simp [Signals.isCancelled_iff, hnext]

end Tracks

theorem isCancelled_step {token : Token} (hs : b.step s step = some (b', s')) (hc : s.isCancelled token) :
    s'.isCancelled token := by
  cases step
  case scope | never =>
    cases hs
    exact hc
  case cancel =>
    obtain ⟨_, -, hs⟩ := Option.bind_eq_some_iff.1 hs
    cases hs
    exact Signals.isCancelled_raise hc
  all_goals
    obtain ⟨_, -, hs⟩ := Option.bind_eq_some_iff.1 hs
    cases hs
    exact hc

-- However long a history goes on, a cancelled token stays cancelled.
theorem isCancelled_of_suffix {earlier : ScopeHistory} {b₀ : ScopeBook} {s₀ : Signals} {token : Token}
    (he : earlier <:+ history) (h₀ : run? earlier = some (b₀, s₀)) (h : run? history = some (b, s))
    (hc : s₀.isCancelled token) : s.isCancelled token := by
  induction history generalizing b s
  case nil =>
    cases List.suffix_nil.1 he
    cases h₀.symm.trans h
    exact hc
  case cons step rest ih =>
    cases List.suffix_cons_iff.1 he
    case inl heq =>
      subst heq
      cases h₀.symm.trans h
      exact hc
    case inr he =>
      have ⟨⟨b₁, s₁⟩, h₁, hs⟩ := Option.bind_eq_some_iff.1 h
      exact isCancelled_step hs (ih he h₁)

-- What cancellation means after the steps of a history.
structure Meaning (history : ScopeHistory) (b : ScopeBook) (s : Signals) : Prop where
  -- A token reports whether a trigger of its own scope or of one around it was fired.
  token : ∀ name token, b.token? name = some token →
    ∃ n, scope? history name = some n ∧ (s.isCancelled token ↔ ∃ m, Within history n m ∧ Fired history m)
  -- A trigger reports whether it was fired, by whichever copy.
  trigger : ∀ name trigger, b.trigger? name = some trigger →
    ∃ n, scope? history name = some n ∧ (s.isFired trigger ↔ Fired history n)
  -- What was cancelled once stays so.
  monotone : ∀ earlier b₀ s₀ token, earlier <:+ history → run? earlier = some (b₀, s₀) →
    s₀.isCancelled token → s.isCancelled token
  -- Firing a trigger cancels what lies in its scope and nothing else.
  reach : ∀ id n b' s', b.step s (.cancel id) = some (b', s') → scope? history id = some n →
    ∀ name token m, b'.token? name = some token → scope? history name = some m →
      (s'.isCancelled token ↔ s.isCancelled token ∨ Within history m n)
  -- A scope opened after the firing is reached as well.
  late : ∀ id outer b' s', b.step s (.child id outer) = some (b', s') →
    ∃ token inner, b.token? outer = some token ∧ b'.token? id = some inner ∧
      (s'.isCancelled inner ↔ s.isCancelled token)
  -- Neither a scope around another one nor one beside it lies in it.
  outward : ∀ n m, Nested history n m → ¬Within history m n
  sideways : ∀ n m k, Nested history n k → Nested history m k → n ≠ m → ¬Within history m n
  -- A clone is the same token.
  clone : ∀ id source b' s', b.step s (.clone id source) = some (b', s') →
    s' = s ∧ b'.token? id = b.token? source
  -- Giving a trigger up cancels nothing and changes no token.
  drop : ∀ id b' s', b.step s (.dropTrigger id) = some (b', s') →
    s' = s ∧ ∀ name, b'.token? name = b.token? name

-- Whatever steps are taken, in whatever order, cancellation means what it should.
theorem meaning_of_run (h : run? history = some (b, s)) : Meaning history b s where
  token name token ht := by
    have ⟨n, hn⟩ := (Tracks.of_run h).scope?_isSome ht
    exact ⟨n, hn, (Tracks.of_run h).isCancelled_iff ht hn⟩
  trigger _ _ ht := (Tracks.of_run h).isFired_iff ht
  monotone _ _ _ _ he h₀ hc := isCancelled_of_suffix he h₀ h hc
  reach _ _ _ _ hs hn _ _ _ ht hm := (Tracks.of_run h).isCancelled_cancel hs hn ht hm
  late _ _ _ _ hs := (Tracks.of_run h).isCancelled_child hs
  outward _ _ h := h.not_within
  sideways _ _ _ h h' hne := h.not_within_sibling h' hne
  clone id source b' s' hs := by
    have ⟨hd, hget, hs⟩ := Option.bind_eq_some_iff.1 hs
    cases hs
    exact ⟨rfl, by rw [ScopeBook.token?_set, if_pos rfl, ScopeBook.token?, hget]; rfl⟩
  drop id b' s' hs := by
    have ⟨hd, hget, hs⟩ := Option.bind_eq_some_iff.1 hs
    cases hs
    refine ⟨rfl, fun name => ?_⟩
    rw [ScopeBook.token?_set]
    split
    case isTrue heq  => rw [heq, ScopeBook.token?, hget]; rfl
    case isFalse hne => rfl

-- A scope that is opened inside a cancelled one.
theorem meaning_of_late_child :
    ∃ b s, run? [.child "b" "a", .cancel "a", .scope "a"] = some (b, s) ∧
      Meaning [.child "b" "a", .cancel "a", .scope "a"] b s ∧ b.token? "b" = some ⟨[⟨1⟩, ⟨0⟩]⟩ :=
  ⟨_, _, rfl, meaning_of_run rfl, rfl⟩

end ScopeHistory

end StationScript
