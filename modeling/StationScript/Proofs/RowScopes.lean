import StationScript.Proofs.Alike
import StationScript.Proofs.Course

namespace StationScript

namespace Bench

variable {a b : Bench} {seen : Token} {g : Flag}

-- The bench with other flags raised.
def withRaised (b : Bench) (raised : List Flag) : Bench :=
  { b with timeline := { b.timeline with signals := { b.timeline.signals with raised } } }

-- All flags belong to scopes that were opened, so that those of a new scope are fresh.
structure Ready (seen : Token) (b : Bench) : Prop where
  sound  : b.timeline.Sound
  opened : ∀ g ∈ seen.flags, g.number < b.timeline.signals.opened

theorem Alike.withOpened {m n : Nat} (h : a.Alike seen b) : (a.withOpened m).Alike seen (b.withOpened n) where
  timeline    := ⟨h.timeline.now, h.timeline.schedule, h.timeline.raised⟩
  devices     := h.devices
  lastReading := h.lastReading
  input       := h.input

theorem Alike.refl (b : Bench) : b.Alike seen b :=
  ⟨⟨rfl, rfl, fun _ _ => .rfl⟩, rfl, rfl, rfl⟩

-- To a token that sees no flags everything else must look alike still.
theorem Alike.blind (h : a.Alike seen b) : a.Alike ⟨[]⟩ b where
  timeline    := ⟨h.timeline.now, h.timeline.schedule, nofun⟩
  devices     := h.devices
  lastReading := h.lastReading
  input       := h.input

theorem Ready.withOpened {opened : Nat} (h : b.Ready seen) (ho : b.timeline.signals.opened ≤ opened) :
    (b.withOpened opened).Ready seen where
  sound g hg  := h.sound g (Nat.le_trans ho hg)
  opened g hg := Nat.lt_of_lt_of_le (h.opened g hg) ho

theorem Ready.next_fresh (h : b.Ready seen) : b.timeline.Fresh b.timeline.signals.next :=
  h.sound _ (Nat.le_refl _)

theorem Ready.extends_next (h : b.Ready seen) :
    b.timeline.Extends ⟨b.timeline.signals.next :: seen.flags⟩ seen where
  all _ hg := List.mem_cons_of_mem _ hg
  fresh g hg := by
    cases List.mem_cons.1 hg
    case inl heq => exact .inr (heq ▸ h.next_fresh)
    case inr hm  => exact .inl hm

theorem Ready.next_not_mem (h : b.Ready seen) : b.timeline.signals.next ∉ seen.flags :=
  fun hm => Nat.lt_irrefl _ (h.opened _ hm)

-- Nothing but the clock has moved on.
theorem Ready.advance (h : b.Ready seen) (trace : Trace) (now : Nat) :
    (b.advance trace { b.timeline with now }).Ready seen :=
  ⟨h.sound, h.opened⟩

theorem Ready.fire (h : b.Ready seen) (hg : g.number < b.timeline.signals.opened) :
    Ready seen { b with timeline := b.timeline.fire ⟨g⟩ } := by
  have hopened : (b.timeline.signals.raise g).opened = b.timeline.signals.opened := Signals.opened_raise
  constructor
  case sound =>
    intro f hf
    have hle : b.timeline.signals.opened ≤ f.number := hopened ▸ hf
    have hfresh := h.sound f hle
    refine ⟨fun hr => ?_, hfresh.right⟩
    rcases Signals.mem_raise.1 hr with heq | hr
    · have heq : f = g := heq
      exact absurd hg (by rw [← heq]; omega)
    · exact hfresh.left hr
  case opened => exact fun f hf => Nat.lt_of_lt_of_eq (h.opened f hf) hopened.symm

end Bench

-- Outcomes of a row that look alike to a token.
structure RowOutcome.Alike (seen : Token) (o p : RowOutcome) : Prop where
  record : o.record = p.record
  status : o.status = p.status
  trace  : o.trace = p.trace
  bench  : o.bench.Alike seen p.bench

theorem RowOutcome.Alike.blind {seen : Token} {o p : RowOutcome} (h : o.Alike seen p) : o.Alike ⟨[]⟩ p where
  record := h.record
  status := h.status
  trace  := h.trace
  bench  := h.bench.blind

-- The row was a dialog, and the operator declined it.
def RowOutcome.Declined (o : RowOutcome) : Prop :=
  o.trace.Declines

namespace Runner

variable {r : Runner} {s s' : CancellationScope} {a b : Bench} {ta tb trigger : Trigger} {seen : Token} {row : Row}
  {rows : List Row} {o p : RowOutcome} {os ps : List RowOutcome}

-- The runner with a given scope, which no failure stops.
def under (r : Runner) (scope : CancellationScope) : Runner :=
  { r with settings := { cancellationScope := scope, stopOnFailure := false } }

-- The scope of a line sees what the scope of the run sees, and nothing more that could happen.
theorem lineScope_under (h : b.Ready seen) (r : Runner) (s : CancellationScope) (trigger : Trigger) :
    ∃ opened, b.timeline.signals.opened ≤ opened ∧
      ((r.under s).lineScope b trigger seen).1 = b.withOpened opened ∧
      (b.withOpened opened).timeline.Extends ((r.under s).lineScope b trigger seen).2.2 seen := by
  cases s
  case run => exact ⟨_, Nat.le_refl _, rfl, fun _ hg => hg, fun _ hg => .inl hg⟩
  case line => exact ⟨_, Nat.le_succ _, rfl, h.extends_next.all, h.extends_next.fresh⟩

theorem rowOutcome_declines {token : Token} {o : Outcome} :
    (r.rowOutcome b token row o).trace.Declines ↔ o.trace.Declines := by
  have hpublish (record : LineRecord) (title : String) :
      .report .main (.declined title) ∉ r.publishLine record := by
    unfold publishLine
    split <;> simp
  apply exists_congr
  intro title
  simp [rowOutcome, hpublish]

-- A row that is not declined goes as its line would under the scope of the run.
theorem row_of_not_answeredNo (h : b.Ready seen) (s : CancellationScope) (trigger : Trigger)
    (hno : ¬b.isCancelled seen → ¬r.interpreter.AnsweredNo b.input row.text) :
    ∃ opened inner, b.timeline.signals.opened ≤ opened ∧ (r.under s).row b trigger seen row =
      (r.interpreter.execute (b.withOpened opened) row.text seen inner).map (r.rowOutcome b seen row) := by
  have ⟨opened, hle, hbench, hextends⟩ := lineScope_under h r s trigger
  refine ⟨opened, ((r.under s).lineScope b trigger seen).2.1, hle, ?_⟩
  rw [row_eq, hbench]
  show (r.interpreter.execute _ _ _ _).map _ = _
  rw [Interpreter.execute_of_extends hextends]
  apply Option.map_congr
  intro o ho
  -- The flag of the line's own scope is still fresh after the line.
  have hafter : o.bench.timeline.Extends ((r.under s).lineScope b trigger seen).2.2 seen :=
    Interpreter.execute_preserves (b := b.withOpened opened) (fun _ _ _ h => h.firePending) hno ho hextends
  have hcancelled : o.bench.isCancelled ((r.under s).lineScope b trigger seen).2.2 = o.bench.isCancelled seen :=
    hafter.isCancelled
  simp only [rowOutcome, hcancelled]
  rfl

theorem Ready.execute {line : String} {o : Outcome} (h : b.Ready seen)
    (hno : ¬b.isCancelled seen → ¬r.interpreter.AnsweredNo b.input line)
    (ho : r.interpreter.execute b line seen trigger = some o) : o.bench.Ready seen := by
  let p (t : Timeline) := t.Sound ∧ ∀ g ∈ seen.flags, g.number < t.signals.opened
  have hp (t : Timeline) (limit now : Nat) (ht : p t) : p { t.firePending limit with now } :=
    ⟨ht.left.firePending, fun g hg => Timeline.opened_firePending (t := t) ▸ ht.right g hg⟩
  have ⟨hsound, hopened⟩ := Interpreter.execute_preserves hp hno ho ⟨h.sound, h.opened⟩
  exact ⟨hsound, hopened⟩

-- Whatever the scopes, a row that is not declined goes the same way on benches that look alike.
theorem row_alike (hr : r.interpreter.station.AlwaysReplies) (ha : a.Ready seen) (hb : b.Ready seen)
    (h : a.Alike seen b) (hno : ¬a.isCancelled seen → ¬r.interpreter.AnsweredNo a.input row.text)
    (s s' : CancellationScope) (ta tb : Trigger) :
    ∃ o p, (r.under s).row a ta seen row = some o ∧ (r.under s').row b tb seen row = some p ∧
      ¬p.Declined ∧ o.Alike seen p ∧ o.bench.Ready seen ∧ p.bench.Ready seen := by
  have hno' : ¬b.isCancelled seen → ¬r.interpreter.AnsweredNo b.input row.text := by
    have hsame : a.isCancelled seen = b.isCancelled seen := h.timeline.isCancelled
    rwa [← hsame, ← h.input]
  have ⟨m, ia, hm, hrowa⟩ := row_of_not_answeredNo ha s ta hno
  have ⟨n, ib, hn, hrowb⟩ := row_of_not_answeredNo hb s' tb hno'
  have ⟨o, p, ho, hp, hexecution, htrace, hdeclines, hbench⟩ :=
    Interpreter.execute_alike hr (h.withOpened (m := m) (n := n)) hno ia ib
  have hrecord : r.lineRecord a row o.execution = r.lineRecord b row p.execution := by
    simp only [lineRecord, instant, h.timeline.now, hexecution]
  refine ⟨_, _, by rw [hrowa, ho]; rfl, by rw [hrowb, hp]; rfl, ?_, ⟨hrecord, ?_, ?_, hbench⟩, ?_, ?_⟩
  · rwa [RowOutcome.Declined, rowOutcome_declines, ← htrace]
  · have hsame : o.bench.isCancelled seen = p.bench.isCancelled seen := hbench.timeline.isCancelled
    simp only [rowOutcome, hexecution, hsame]
  · simp only [rowOutcome, htrace, hrecord]
  · exact Ready.execute (ha.withOpened hm) hno ho
  · exact Ready.execute (hb.withOpened hn) hno' hp

-- A new runner has its own scope, and nothing happened yet.
theorem ready_open (i : Interpreter) (settings : RunnerSettings) (publisher : Publisher) (origin : Instant)
    (typed : List Typed) :
    (Runner.open i settings publisher origin { input := typed }).2.Ready
      (Runner.open i settings publisher origin { input := typed }).1.token where
  sound _ _   := ⟨nofun, nofun⟩
  opened _ hg := List.mem_singleton.1 hg ▸ Nat.zero_lt_one

theorem Ready.enter (h : b.Ready r.token) : (r.enter b).1.Ready (r.enter b).2.2 where
  sound g hg := h.sound g (Nat.le_of_succ_le hg)
  opened g hg := by
    cases List.mem_cons.1 hg
    case inl heq => exact heq ▸ Nat.lt_succ_self _
    case inr hm  => exact Nat.lt_succ_of_lt (h.opened g hm)

-- The outcome of a row that was declined by raising a flag.
def declinedRow (r : Runner) (b : Bench) (row : Row) (x : Execution) (trace : Trace) (g : Flag) : RowOutcome where
  record := r.lineRecord b row x
  status := .cancelled
  trace := trace ++ r.publishLine (r.lineRecord b row x)
  bench := b.advance trace (b.timeline.fire ⟨g⟩)

-- A declined row raises the flag of the run under one scope, and a flag of its own under the other.
theorem row_of_answeredNo {input : List Typed} (seen : Token) (hno : r.interpreter.AnsweredNo input row.text) :
    ∃ x trace, Trace.Declines trace ∧ ∀ (b : Bench) (trigger : Trigger),
      b.input = input → ¬b.isCancelled seen → b.Ready seen →
      (trigger.flag ∈ seen.flags →
        (r.under .run).row b trigger seen row = some (r.declinedRow b row x trace trigger.flag)) ∧
      (r.under .line).row b trigger seen row = some
        (r.declinedRow (b.withOpened (b.timeline.signals.opened + 1)) row x trace b.timeline.signals.next) := by
  have ⟨x, trace, hfail, hdeclines, hexecute⟩ := Interpreter.execute_of_answeredNo hno
  -- With the flag raised that the line was given, its token is cancelled.
  have hstatus (b : Bench) (token : Token) (g : Flag) (hg : g ∈ token.flags) :
      r.rowOutcome b token row ⟨x, trace, b.advance trace (b.timeline.fire ⟨g⟩)⟩ =
        r.declinedRow b row x trace g := by
    have hc : (b.advance trace (b.timeline.fire ⟨g⟩)).isCancelled token := Timeline.isCancelled_fire.2 (.inl hg)
    simp only [rowOutcome, declinedRow, hfail, hc]
    rfl
  refine ⟨x, trace, hdeclines, fun b trigger hinput hl hb => ⟨?run, ?line⟩⟩
  case run =>
    intro ht
    have ho := hexecute b seen trigger hinput hl
    have hrow : (r.under .run).row b trigger seen row =
        (r.interpreter.execute b row.text seen trigger).map (r.rowOutcome b seen row) := row_eq
    rw [hrow, ho]
    exact congrArg some (hstatus b seen trigger.flag ht)
  case line =>
    let b₁ := b.withOpened (b.timeline.signals.opened + 1)
    let inner : Token := ⟨b.timeline.signals.next :: seen.flags⟩
    have hl₁ : ¬b₁.isCancelled inner := by
      have hsame : b₁.isCancelled inner = b.isCancelled seen := hb.extends_next.isCancelled
      rwa [hsame]
    have ho := hexecute b₁ inner ⟨b.timeline.signals.next⟩ hinput hl₁
    have hrow : (r.under .line).row b trigger seen row =
        (r.interpreter.execute b₁ row.text inner ⟨b.timeline.signals.next⟩).map (r.rowOutcome b₁ inner row) :=
      row_eq
    rw [hrow, ho]
    exact congrArg some (hstatus b₁ inner _ (List.mem_cons_self ..))

theorem declinedRow_declined {x : Execution} {trace : Trace} {g : Flag} (h : trace.Declines) :
    (r.declinedRow b row x trace g).Declined :=
  h.imp fun _ hm => List.mem_append_left _ hm

-- A flag that a token does not see makes no difference to it.
theorem declinedRow_alike {x : Execution} {trace : Trace} {g g' : Flag} (h : a.Alike seen b)
    (hg : g ∉ seen.flags) (hg' : g' ∉ seen.flags) :
    (r.declinedRow a row x trace g).Alike seen (r.declinedRow b row x trace g') := by
  have hrecord : r.lineRecord a row x = r.lineRecord b row x := by
    simp only [lineRecord, instant, h.timeline.now]
  refine ⟨hrecord, rfl, ?_, h.advance ⟨h.timeline.now, h.timeline.schedule, fun f hf => ?_⟩⟩
  · simp only [declinedRow, hrecord]
  · have hne : f ≠ g := fun he => hg (he ▸ hf)
    have hne' : f ≠ g' := fun he => hg' (he ▸ hf)
    simp only [Timeline.fire, Signals.fire, Signals.mem_raise, hne, hne', h.timeline.raised f hf]

theorem Ready.declinedRow (h : b.Ready seen) (r : Runner) (row : Row) (x : Execution) (trace : Trace) :
    (r.declinedRow (b.withOpened (b.timeline.signals.opened + 1)) row x trace
      b.timeline.signals.next).bench.Ready seen := by
  have hopened : (b.withOpened (b.timeline.signals.opened + 1)).Ready seen := h.withOpened (Nat.le_succ _)
  exact (hopened.advance trace b.timeline.now).fire (Nat.lt_succ_self _)

-- Under a scope for each line, all rows go the same way on benches that look alike.
theorem row_alike_line (hr : r.interpreter.station.AlwaysReplies) (ha : a.Ready seen) (hb : b.Ready seen)
    (h : a.Alike seen b) (ta tb : Trigger) (row : Row) :
    ∃ o p, (r.under .line).row a ta seen row = some o ∧ (r.under .line).row b tb seen row = some p ∧
      o.Alike seen p ∧ o.bench.Ready seen ∧ p.bench.Ready seen := by
  by_cases hno : ¬a.isCancelled seen ∧ r.interpreter.AnsweredNo a.input row.text
  case neg =>
    have ⟨o, p, ho, hp, _, halike, hready⟩ :=
      row_alike hr ha hb h (fun hl hanswer => hno ⟨hl, hanswer⟩) .line .line ta tb
    exact ⟨o, p, ho, hp, halike, hready⟩
  case pos =>
    have ⟨hl, hno⟩ := hno
    have hl' : ¬b.isCancelled seen := by
      have hsame : a.isCancelled seen = b.isCancelled seen := h.timeline.isCancelled
      rwa [← hsame]
    have ⟨x, trace, _, hrow⟩ := row_of_answeredNo seen hno
    refine ⟨_, _, (hrow a ta rfl hl ha).right, (hrow b tb h.input.symm hl' hb).right, ?_, ?_, ?_⟩
    · exact declinedRow_alike h.withOpened ha.next_not_mem hb.next_not_mem
    · exact Ready.declinedRow ha ..
    · exact Ready.declinedRow hb ..

-- What it means that a row was declined.
theorem declined_iff (hr : r.interpreter.station.AlwaysReplies) (hb : b.Ready seen)
    (hp : (r.under .line).row b trigger seen row = some p) :
    p.Declined ↔ ¬b.isCancelled seen ∧ r.interpreter.AnsweredNo b.input row.text := by
  constructor
  · intro hd
    by_contra hno
    have hno : ¬b.isCancelled seen → ¬r.interpreter.AnsweredNo b.input row.text :=
      fun hl hanswer => hno ⟨hl, hanswer⟩
    have ⟨_, p', _, hp', hnd, _⟩ := row_alike hr hb hb (.refl b) hno .line .line trigger trigger
    cases hp.symm.trans hp'
    exact hnd hd
  · intro ⟨hl, hno⟩
    have ⟨x, trace, hdeclines, hrow⟩ := row_of_answeredNo seen hno
    cases hp.symm.trans (hrow b trigger rfl hl hb).right
    exact declinedRow_declined hdeclines

theorem row_alike_of_not_declined (hr : r.interpreter.station.AlwaysReplies) (ha : a.Ready seen)
    (hb : b.Ready seen) (h : a.Alike seen b) (ta : Trigger) (hp : (r.under .line).row b tb seen row = some p)
    (hd : ¬p.Declined) :
    ∃ o, (r.under .run).row a ta seen row = some o ∧ o.Alike seen p ∧
      o.bench.Ready seen ∧ p.bench.Ready seen := by
  have hno : ¬a.isCancelled seen → ¬r.interpreter.AnsweredNo a.input row.text := by
    have hsame : a.isCancelled seen = b.isCancelled seen := h.timeline.isCancelled
    rw [hsame, h.input]
    exact fun hl hanswer => hd ((declined_iff hr hb hp).2 ⟨hl, hanswer⟩)
  have ⟨o, p', ho, hp', _, halike, hready⟩ := row_alike hr ha hb h hno .run .line ta tb
  cases hp.symm.trans hp'
  exact ⟨o, ho, halike, hready⟩

-- A declined row looks the same under both scopes. It cancels the run under one of them. Under the other it
-- changes nothing that later rows can see.
theorem row_alike_of_declined (hr : r.interpreter.station.AlwaysReplies) (ha : a.Ready seen) (hb : b.Ready seen)
    (h : a.Alike seen b) (ht : ta.flag ∈ seen.flags) (hp : (r.under .line).row b tb seen row = some p)
    (hd : p.Declined) :
    ∃ o, (r.under .run).row a ta seen row = some o ∧ o.Alike ⟨[]⟩ p ∧ o.bench.isCancelled seen ∧
      p.bench.Ready seen ∧ (p.bench.withRaised b.timeline.signals.raised).Ready seen ∧
      p.bench.Alike seen (p.bench.withRaised b.timeline.signals.raised) := by
  have ⟨hl, hno⟩ := (declined_iff hr hb hp).1 hd
  have hl' : ¬a.isCancelled seen := by
    have hsame : a.isCancelled seen = b.isCancelled seen := h.timeline.isCancelled
    rwa [hsame]
  have ⟨x, trace, _, hrow⟩ := row_of_answeredNo seen hno
  cases hp.symm.trans (hrow b tb rfl hl hb).right
  have hready := Ready.declinedRow hb r row x trace
  refine ⟨_, (hrow a ta h.input hl' ha).left ht, ?alike, ?cancelled, hready, ⟨?sound, hready.opened⟩, ?unseen⟩
  case alike =>
    have hblind : a.Alike ⟨[]⟩ (b.withOpened (b.timeline.signals.opened + 1)) := h.blind.withOpened (m := _)
    exact declinedRow_alike hblind nofun nofun
  case cancelled => exact Timeline.isCancelled_fire.2 (.inl ht)
  case sound =>
    intro g hg
    have hfresh := hready.sound g hg
    exact ⟨fun hr => hfresh.left (Signals.mem_raise.2 (.inr hr)), hfresh.right⟩
  case unseen =>
    refine ⟨⟨rfl, rfl, fun g hg => ?_⟩, rfl, rfl, rfl⟩
    have hne : g ≠ b.timeline.signals.next := fun he => hb.next_not_mem (he ▸ hg)
    exact ⟨fun hr => (Signals.mem_raise.1 hr).resolve_left hne, fun hr => Signals.mem_raise.2 (.inr hr)⟩

end Runner

end StationScript
