import StationScript.Timeline

namespace StationScript.Timeline

variable {t : Timeline} {token : Token} {n instant limit : Nat}

-- The earliest firing to come that raises a flag of the token: the flag of the token's own scope or that of
-- a scope around it.
structure EarliestFor (t : Timeline) (token : Token) (instant : Nat) : Prop where
  scheduled : ∃ f ∈ t.schedule, f.flag ∈ token.flags ∧ f.instant = instant
  least     : ∀ f ∈ t.schedule, f.flag ∈ token.flags → instant ≤ f.instant

-- No firing to come reaches the token before an instant.
def CalmUntil (t : Timeline) (token : Token) (limit : Nat) : Prop :=
  ∀ f ∈ t.schedule, f.flag ∈ token.flags → limit ≤ f.instant

theorem nextFor?_eq_some_iff : t.nextFor? token = some instant ↔ t.EarliestFor token instant := by
  simp only [nextFor?, List.min?_eq_some_iff, List.mem_map, List.mem_filter, decide_eq_true_eq]
  constructor
  · intro ⟨⟨f, ⟨hf, hm⟩, hi⟩, hl⟩
    exact ⟨⟨f, hf, hm, hi⟩, fun g hg hgm => hl _ ⟨g, ⟨hg, hgm⟩, rfl⟩⟩
  · intro ⟨⟨f, hf, hm, hi⟩, hl⟩
    refine ⟨⟨f, ⟨hf, hm⟩, hi⟩, ?_⟩
    rintro _ ⟨g, ⟨hg, hgm⟩, rfl⟩
    exact hl g hg hgm

theorem nextFor?_eq_none_iff : t.nextFor? token = none ↔ ∀ f ∈ t.schedule, f.flag ∉ token.flags := by
  simp [nextFor?, List.filter_eq_nil_iff]

theorem EarliestFor.calmUntil (h : t.EarliestFor token instant) (hl : limit ≤ instant) :
    t.CalmUntil token limit :=
  fun f hf hm => Nat.le_trans hl (h.least f hf hm)

theorem isCancelled_fire {trigger : Trigger} :
    (t.fire trigger).isCancelled token ↔ trigger.flag ∈ token.flags ∨ t.isCancelled token := by
  simp only [fire, Signals.fire, isCancelled, Signals.isCancelled_iff, Signals.mem_raise]
  constructor
  · rintro ⟨g, hg, rfl | hr⟩
    · exact .inl hg
    · exact .inr ⟨g, hg, hr⟩
  · rintro (hm | ⟨g, hg, hr⟩)
    · exact ⟨_, hm, .inl rfl⟩
    · exact ⟨g, hg, .inr hr⟩

theorem mem_schedule_firePending {f : Firing} :
    f ∈ (t.firePending limit).schedule ↔ f ∈ t.schedule ∧ limit ≤ f.instant := by
  simp [firePending]

theorem mem_raised_firePending {g : Flag} :
    g ∈ (t.firePending limit).signals.raised ↔
      (∃ f ∈ t.schedule, f.instant < limit ∧ f.flag = g) ∨ g ∈ t.signals.raised := by
  simp [firePending, Signals.mem_raiseAll, and_assoc]

theorem isCancelled_firePending :
    (t.firePending limit).isCancelled token ↔
      (∃ f ∈ t.schedule, f.instant < limit ∧ f.flag ∈ token.flags) ∨ t.isCancelled token := by
  simp only [isCancelled, Signals.isCancelled_iff, mem_raised_firePending]
  constructor
  · rintro ⟨g, hg, ⟨f, hf, hi, rfl⟩ | hr⟩
    · exact .inl ⟨f, hf, hi, hg⟩
    · exact .inr ⟨g, hg, hr⟩
  · rintro (⟨f, hf, hi, hm⟩ | ⟨g, hg, hr⟩)
    · exact ⟨f.flag, hm, .inl ⟨f, hf, hi, rfl⟩⟩
    · exact ⟨g, hg, .inr hr⟩

theorem CalmUntil.not_isCancelled_moveTo (h : t.CalmUntil token limit) (hl : ¬t.isCancelled token) :
    ¬(t.moveTo limit).isCancelled token := by
  intro hc
  obtain ⟨f, hf, hi, hm⟩ | hc := isCancelled_firePending.1 hc
  · exact absurd hi (Nat.not_lt.2 (h f hf hm))
  · exact hl hc

-- What stays scheduled when time passes is as early as before.
theorem CalmUntil.moveTo {later : Nat} (h : t.CalmUntil token later) :
    (t.moveTo limit).CalmUntil token later :=
  fun f hf hm => h f (mem_schedule_firePending.1 hf).1 hm

theorem EarliestFor.moveTo (h : t.EarliestFor token instant) (hl : limit ≤ instant) :
    (t.moveTo limit).EarliestFor token instant where
  scheduled := by
    have ⟨f, hf, hm, hi⟩ := h.scheduled
    exact ⟨f, mem_schedule_firePending.2 ⟨hf, hi ▸ hl⟩, hm, hi⟩
  least := fun f hf hm => h.least f (mem_schedule_firePending.1 hf).1 hm

-- Time that passes before anything happens changes nothing but the clock.
theorem moveTo_of_idle (h : ∀ f ∈ t.schedule, limit ≤ f.instant) : t.moveTo limit = { t with now := limit } := by
  have hnone : t.schedule.filter (·.instant < limit) = [] :=
    List.filter_eq_nil_iff.2 fun f hf => by simpa using h f hf
  have hall : (t.schedule.filter fun f => !(f.instant < limit)) = t.schedule :=
    List.filter_eq_self.2 fun f hf => by simpa using h f hf
  simp only [moveTo, firePending, hnone, hall]
  rfl

theorem wait_of_calm (hl : ¬t.isCancelled token) (hc : t.CalmUntil token (t.now + n)) :
    t.wait token n = (true, t.moveTo (t.now + n)) := by
  have hcut : t.cutBefore? token (t.now + n) = none := by
    simp only [cutBefore?, Option.filter_eq_none_iff, decide_eq_true_eq, Nat.not_lt]
    intro instant h
    have ⟨f, hf, hm, hi⟩ := (nextFor?_eq_some_iff.1 h).scheduled
    exact hi ▸ hc f hf hm
  simp [wait, hl, hcut]

theorem wait_of_earliest (hl : ¬t.isCancelled token) (he : t.EarliestFor token instant)
    (hi : instant < t.now + n) : t.wait token n = (false, t.cutAt instant) := by
  have hcut : t.cutBefore? token (t.now + n) = some instant := by
    simp [cutBefore?, nextFor?_eq_some_iff.2 he, hi]
  simp [wait, hl, hcut]

theorem waitForSignal?_of_earliest (hl : ¬t.isCancelled token) (he : t.EarliestFor token instant) :
    t.waitForSignal? token = some (t.cutAt instant) := by
  simp [waitForSignal?, hl, nextFor?_eq_some_iff.2 he]

theorem waitForSignal?_eq_none (hl : ¬t.isCancelled token) (hn : ∀ f ∈ t.schedule, f.flag ∉ token.flags) :
    t.waitForSignal? token = none := by
  simp [waitForSignal?, hl, nextFor?_eq_none_iff.2 hn]

-- A wait that passed left the token as live as it was.
theorem not_isCancelled_of_wait (h : (t.wait token n).1 = true) : ¬(t.wait token n).2.isCancelled token := by
  unfold wait at h ⊢
  split at h
  · cases h
  · rename_i hl
    simp only [hl]
    split at h
    · cases h
    · rename_i hcut
      -- No firing that reaches the token comes before the wait is over.
      have hcalm : t.CalmUntil token (t.now + n) := by
        intro f hf hm
        cases hnext : t.nextFor? token
        case none => exact absurd hm (nextFor?_eq_none_iff.1 hnext f hf)
        case some instant =>
          have hle := (nextFor?_eq_some_iff.1 hnext).least f hf hm
          simp [cutBefore?, hnext] at hcut
          omega
      simpa [hcut] using hcalm.not_isCancelled_moveTo hl

-- A wait that was cut is over before its time, as long as nothing scheduled is overdue.
theorem now_lt_of_wait_cut (hl : ¬t.isCancelled token) (hs : ∀ f ∈ t.schedule, t.now ≤ f.instant)
    (h : (t.wait token n).1 = false) : (t.wait token n).2.now < t.now + n := by
  unfold wait at h ⊢
  rw [if_neg hl] at h ⊢
  split at h
  case h_2 => cases h
  case h_1 instant hcut =>
    have ⟨hnext, hlt⟩ := Option.filter_eq_some_iff.1 hcut
    have ⟨f, hf, _, hi⟩ := (nextFor?_eq_some_iff.1 hnext).scheduled
    have hnow := hs f hf
    have hlt : instant < t.now + n := of_decide_eq_true hlt
    show max t.now instant < t.now + n
    omega

-- When a wait was cut, everything scheduled until then has happened.
theorem raised_cutAt {f : Firing} (hf : f ∈ t.schedule) (hi : f.instant ≤ instant) :
    f.flag ∈ (t.cutAt instant).signals.raised :=
  mem_raised_firePending.2 (.inl ⟨f, hf, Nat.lt_succ_of_le hi, rfl⟩)

theorem raised_moveTo {f : Firing} (limit : Nat) (hf : f ∈ t.schedule) :
    f.flag ∈ (t.moveTo limit).signals.raised ∨ f ∈ (t.moveTo limit).schedule := by
  by_cases hi : f.instant < limit
  · exact .inl (mem_raised_firePending.2 (.inl ⟨f, hf, hi, rfl⟩))
  · exact .inr (mem_schedule_firePending.2 ⟨hf, Nat.not_lt.1 hi⟩)

theorem isCancelled_cutAt (h : t.EarliestFor token instant) : (t.cutAt instant).isCancelled token := by
  have ⟨f, hf, hm, hi⟩ := h.scheduled
  exact Signals.isCancelled_iff.2 ⟨f.flag, hm, raised_cutAt hf (Nat.le_of_eq hi)⟩

-- A wait that was cut left its token cancelled.
theorem isCancelled_of_wait_cut (h : (t.wait token n).1 = false) : (t.wait token n).2.isCancelled token := by
  unfold wait at h ⊢
  split at h
  case isTrue hc => rwa [if_pos hc]
  case isFalse hl =>
    rw [if_neg hl]
    split at h
    case h_2 => cases h
    case h_1 instant hcut => exact isCancelled_cutAt (nextFor?_eq_some_iff.1 (Option.filter_eq_some_iff.1 hcut).left)

theorem isCancelled_of_waitForSignal? {u : Timeline} (hu : t.waitForSignal? token = some u) :
    u.isCancelled token := by
  unfold waitForSignal? at hu
  split at hu
  case isTrue hc => cases hu; exact hc
  case isFalse =>
    obtain ⟨instant, hnext, rfl⟩ := Option.map_eq_some_iff.1 hu
    exact isCancelled_cutAt (nextFor?_eq_some_iff.1 hnext)

-- All that a wait does, however it ends, is to let firings happen and to move the clock.
theorem wait_preserves {motive : Timeline → Prop}
    (hp : ∀ t limit now, motive t → motive { t.firePending limit with now }) (h : motive t) :
    motive (t.wait token n).2 := by
  unfold wait
  split
  · exact h
  · split <;> exact hp _ _ _ h

theorem waitForSignal?_preserves {motive : Timeline → Prop} {u : Timeline}
    (hp : ∀ t limit now, motive t → motive { t.firePending limit with now })
    (hu : t.waitForSignal? token = some u) (h : motive t) : motive u := by
  unfold waitForSignal? at hu
  split at hu
  · cases hu; exact h
  · obtain ⟨instant, -, rfl⟩ := Option.map_eq_some_iff.1 hu
    exact hp _ _ _ h

end StationScript.Timeline
