import Mathlib.Data.Set.Insert
import StationScript.Proofs.Instructions
import StationScript.Proofs.Sessions

namespace StationScript

namespace Timeline

variable {t u v : Timeline} {own own' : Set Flag} {g : Flag} {limit now : Nat} {token : Token}

-- A firing of the flag was scheduled, and took place between the two states.
def Happened (t u : Timeline) (g : Flag) : Prop :=
  ∃ f ∈ t.schedule, f ∉ u.schedule ∧ f.flag = g

-- Between the two states the firings that took place raised flags, and otherwise exactly these flags were raised.
structure Raises (own : Set Flag) (t u : Timeline) : Prop where
  opened   : t.signals.opened ≤ u.signals.opened
  schedule : ∀ f ∈ u.schedule, f ∈ t.schedule
  raised   : ∀ g, g ∈ u.signals.raised ↔ g ∈ t.signals.raised ∨ t.Happened u g ∨ g ∈ own

theorem not_happened_of_schedule_eq (h : u.schedule = t.schedule) : ¬t.Happened u g := by
  rintro ⟨f, hf, hgone, _⟩
  exact hgone (h ▸ hf)

theorem Fresh.not_happened (h : t.Fresh g) : ¬t.Happened u g :=
  fun ⟨f, hf, _, heq⟩ => h.right f hf heq

namespace Raises

-- States that differ in the clock only, or in the scopes that are opened.
theorem of_raised_eq (hopened : t.signals.opened ≤ u.signals.opened) (hschedule : u.schedule = t.schedule)
    (hraised : u.signals.raised = t.signals.raised) : t.Raises ∅ u where
  opened       := hopened
  schedule _ h := hschedule ▸ h
  raised g     := by simp [hraised, not_happened_of_schedule_eq hschedule]

theorem refl (t : Timeline) : t.Raises ∅ t :=
  of_raised_eq (Nat.le_refl _) rfl rfl

theorem congr (h : t.Raises own u) (hsame : ∀ g, g ∈ own ↔ g ∈ own') : t.Raises own' u where
  opened   := h.opened
  schedule := h.schedule
  raised g := by rw [h.raised, hsame]

theorem happened_trans (h : t.Raises own u) (h' : u.Raises own' v) :
    t.Happened v g ↔ t.Happened u g ∨ u.Happened v g := by
  constructor
  · rintro ⟨f, hf, hgone, heq⟩
    by_cases hkept : f ∈ u.schedule
    case pos => exact .inr ⟨f, hkept, hgone, heq⟩
    case neg => exact .inl ⟨f, hf, hkept, heq⟩
  · rintro (⟨f, hf, hgone, heq⟩ | ⟨f, hf, hgone, heq⟩)
    · exact ⟨f, hf, fun hm => hgone (h'.schedule f hm), heq⟩
    · exact ⟨f, h.schedule f hf, hgone, heq⟩

theorem trans (h : t.Raises own u) (h' : u.Raises own' v) : t.Raises (own ∪ own') v where
  opened       := Nat.le_trans h.opened h'.opened
  schedule f m := h.schedule f (h'.schedule f m)
  raised g     := by
    rw [h'.raised, h.raised, h.happened_trans h', Set.mem_union]
    grind

theorem firePending (t : Timeline) (limit now : Nat) : t.Raises ∅ { t.firePending limit with now } where
  opened       := Nat.le_of_eq opened_firePending.symm
  schedule f h := (mem_schedule_firePending.1 h).left
  raised g     := by
    have hhappened : t.Happened { t.firePending limit with now } g ↔
        ∃ f ∈ t.schedule, f.instant < limit ∧ f.flag = g := by
      refine exists_congr fun f => and_congr_right fun hf => and_congr_left fun _ => ?_
      rw [mem_schedule_firePending, not_and, Nat.not_le]
      exact ⟨fun h => h hf, fun h _ => h⟩
    rw [mem_raised_firePending, hhappened, or_comm]
    simp

theorem fire (t : Timeline) (trigger : Trigger) : t.Raises {trigger.flag} (t.fire trigger) where
  opened       := Nat.le_of_eq Signals.opened_raise.symm
  schedule _ h := h
  raised g     := by
    have hhappened : ¬t.Happened (t.fire trigger) g := not_happened_of_schedule_eq rfl
    have hraised : g ∈ (t.fire trigger).signals.raised ↔ g = trigger.flag ∨ g ∈ t.signals.raised := Signals.mem_raise
    rw [hraised, or_comm, Set.mem_singleton_iff]
    simp only [hhappened, false_or]

-- What was raised stays so.
theorem kept (h : t.Raises own u) (hg : g ∈ t.signals.raised) : g ∈ u.signals.raised :=
  (h.raised g).2 (.inl hg)

theorem isCancelled (h : t.Raises own u) (hc : t.isCancelled token) : u.isCancelled token := by
  have ⟨g, hg, hr⟩ := Signals.isCancelled_iff.1 hc
  exact Signals.isCancelled_iff.2 ⟨g, hg, h.kept hr⟩

-- A token that observes none of the flags is cancelled by the firings that took place.
theorem isCancelled_iff (h : t.Raises own u) (hown : ∀ g ∈ own, g ∉ token.flags) :
    u.isCancelled token ↔ t.isCancelled token ∨ ∃ g ∈ token.flags, t.Happened u g := by
  have hraised : ∀ g ∈ token.flags, (g ∈ u.signals.raised ↔ g ∈ t.signals.raised ∨ t.Happened u g) := by
    intro g hg
    have hnot : g ∉ own := fun hmem => hown g hmem hg
    simp only [h.raised, hnot, or_false]
  rw [Timeline.isCancelled, Timeline.isCancelled, Signals.isCancelled_iff, Signals.isCancelled_iff]
  grind

-- A flag that nobody could have raised otherwise is raised by one's own doing.
theorem own_of_fresh (h : t.Raises own u) (hfresh : t.Fresh g) (hg : g ∈ u.signals.raised) : g ∈ own := by
  rcases (h.raised g).1 hg with hraised | hhappened | hown
  · exact absurd hraised hfresh.left
  · exact absurd hhappened hfresh.not_happened
  · exact hown

end Raises

end Timeline

open Timeline in
theorem Bench.Ready.of_raises {b c : Bench} {seen : Token} {own : Set Flag} (h : b.Ready seen)
    (hr : b.timeline.Raises own c.timeline) (hown : ∀ g ∈ own, g.number < c.timeline.signals.opened) :
    c.Ready seen where
  sound g hg := by
    have hfresh := h.sound g (Nat.le_trans hr.opened hg)
    refine ⟨fun hraised => ?_, fun f hf => hfresh.right f (hr.schedule f hf)⟩
    exact Nat.not_lt_of_le hg (hown g (hr.own_of_fresh hfresh hraised))
  opened g hg := Nat.lt_of_lt_of_le (h.opened g hg) hr.opened

theorem DialogKind.ofKeyword?_eq_yesNo_iff {s : String} : ofKeyword? s = some .yesNo ↔ s = "YES_NO" := by
  unfold ofKeyword?
  split <;> simp_all

namespace Command

variable {c : Command} {v : Verb} {kind : DialogKind} {title message : String}

theorem dialog_eq_ok_iff : c.dialog = .ok (.dialog kind title message) ↔
    ∃ keyword, c.parameter? 0 = some keyword ∧ c.parameter? 1 = some title ∧ c.parameter? 2 = some message ∧
      DialogKind.ofKeyword? (Text.upper keyword) = some kind := by
  unfold dialog required
  cases c.parameter? 0 <;> cases c.parameter? 1 <;> cases c.parameter? 2 <;> simp [bind, Except.bind]
  split <;> simp_all [and_comm, and_assoc]

-- No other verb asks anything.
theorem instruction_eq_dialog_iff : c.instruction v = .ok (.dialog kind title message) ↔
    v = .showDialog ∧ c.dialog = .ok (.dialog kind title message) := by
  constructor
  · intro h
    obtain rfl : .showDialog = v := verb_of_instruction h
    exact ⟨rfl, h⟩
  · rintro ⟨rfl, h⟩
    exact h

end Command

namespace Interpreter

variable {i : Interpreter} {b : Bench} {line : String} {token : Token} {trigger : Trigger} {o : Outcome}

-- The line is executed, and is a complete question by a dialog, whose type may be spelled in any case. The answer to it
-- is No.
structure Declines (i : Interpreter) (b : Bench) (line : String) (token : Token) : Prop where
  live  : ¬b.isCancelled token
  asked : ∃ (c : Command) (type title message : String), Line.ofString line = .command c ∧ c.name = "SHOW_DIALOG" ∧
    c.parameter? 0 = some type ∧ c.parameter? 1 = some title ∧ c.parameter? 2 = some message ∧
    Text.upper type = "YES_NO" ∧
    (i.station.presenter.ask i.station.dialogThread .yesNo title message b.input).reply = .answered .no

theorem declines_iff : i.Declines b line token ↔ ¬b.isCancelled token ∧ i.AnsweredNo b.input line := by
  constructor
  · rintro ⟨hlive, c, type, title, message, hc, hname, htype, htitle, hmessage, hkind, hreply⟩
    have hv : Verb.ofName? c.name = some .showDialog := Verb.ofName?_eq_some_iff.2 hname
    have hdialog : c.dialog = .ok (.dialog .yesNo title message) :=
      Command.dialog_eq_ok_iff.2 ⟨type, htype, htitle, hmessage, DialogKind.ofKeyword?_eq_yesNo_iff.2 hkind⟩
    have hinstr : c.instruction .showDialog = .ok (.dialog .yesNo title message) :=
      Command.instruction_eq_dialog_iff.2 ⟨rfl, hdialog⟩
    exact ⟨hlive, .dialog .yesNo title message, by rw [instruction?_eq hc hv, hinstr]; rfl, hreply⟩
  · rintro ⟨hlive, instruction, hsaid, hno⟩
    have ⟨c, v, hc, hv, hinstr⟩ := exists_command_of_instruction hsaid
    refine ⟨hlive, ?_⟩
    cases instruction
    case dialog kind title message =>
      cases kind
      case ok => exact hno.elim
      case yesNo =>
        have ⟨hshow, hdialog⟩ := Command.instruction_eq_dialog_iff.1 hinstr
        have ⟨type, htype, htitle, hmessage, hkind⟩ := Command.dialog_eq_ok_iff.1 hdialog
        have hname : c.name = "SHOW_DIALOG" := Verb.ofName?_eq_some_iff.1 (hshow ▸ hv)
        exact ⟨c, type, title, message, hc, hname, htype, htitle, hmessage,
          DialogKind.ofKeyword?_eq_yesNo_iff.1 hkind, hno⟩
    all_goals exact hno.elim

theorem execute_of_declines (h : i.Declines b line token) (trigger : Trigger) :
    ∃ o, i.execute b line token trigger = some o ∧ o.execution.success = false ∧ o.trace.Declines ∧
      o.bench.timeline = b.timeline.fire trigger := by
  have ⟨hlive, hno⟩ := declines_iff.1 h
  have ⟨x, trace, hfails, hdeclines, hexecute⟩ := execute_of_answeredNo hno
  exact ⟨_, hexecute b token trigger rfl hlive, hfails, hdeclines, rfl⟩

-- A line raises the flag that it was given if it is declined, and none otherwise.
theorem execute_raises (ho : i.execute b line token trigger = some o) :
    b.timeline.Raises {g | i.Declines b line token ∧ g = trigger.flag} o.bench.timeline := by
  by_cases hd : i.Declines b line token
  case pos =>
    have ⟨_, ho', _, _, hfire⟩ := execute_of_declines hd trigger
    cases ho.symm.trans ho'
    rw [hfire]
    exact (Timeline.Raises.fire b.timeline trigger).congr fun g => by simp [hd]
  case neg =>
    have hstep (u : Timeline) (limit now : Nat) (h : b.timeline.Raises ∅ u) :
        b.timeline.Raises ∅ { u.firePending limit with now } :=
      (h.trans (.firePending u limit now)).congr fun g => by simp
    have hno : ¬b.isCancelled token → ¬i.AnsweredNo b.input line := fun hlive hno => hd (declines_iff.2 ⟨hlive, hno⟩)
    exact (execute_preserves hstep hno ho (.refl b.timeline)).congr fun g => by simp [hd]

end Interpreter

namespace Runner

variable {r : Runner} {b : Bench} {trigger : Trigger} {token : Token} {row : Row} {rows : List Row} {o : RowOutcome}
  {os : List RowOutcome} {n : Nat} {g : Flag}

-- The bench and the scope under which the row at some position runs, from those under which the first row does.
def scopeAt (r : Runner) (trigger : Trigger) (token : Token) (b : Bench) (os : List RowOutcome) (n : Nat) :
    Bench × Trigger × Token :=
  r.lineScope (lastBench b (os.take n)) trigger token

-- The row at this position was taken, and is a question that the operator answered No.
def DeclinesAt (r : Runner) (trigger : Trigger) (token : Token) (b : Bench) (rows : List Row) (os : List RowOutcome)
    (n : Nat) : Prop :=
  ∃ row, rows[n]? = some row ∧ n < os.length ∧
    r.interpreter.Declines (r.scopeAt trigger token b os n).1 row.text (r.scopeAt trigger token b os n).2.2

-- The flags of the scopes in which a question was answered No.
def declinedFlags (r : Runner) (trigger : Trigger) (token : Token) (b : Bench) (rows : List Row)
    (os : List RowOutcome) : Set Flag :=
  {g | ∃ n, r.DeclinesAt trigger token b rows os n ∧ g = (r.scopeAt trigger token b os n).2.1.flag}

theorem declinesAt_zero : r.DeclinesAt trigger token b (row :: rows) (o :: os) 0 ↔
    r.interpreter.Declines (r.lineScope b trigger token).1 row.text (r.lineScope b trigger token).2.2 := by
  simp [DeclinesAt, scopeAt, lastBench]

theorem declinesAt_succ : r.DeclinesAt trigger token b (row :: rows) (o :: os) (n + 1) ↔
    r.DeclinesAt trigger token o.bench rows os n := by
  simp [DeclinesAt, scopeAt, lastBench]

theorem mem_declinedFlags_cons : g ∈ r.declinedFlags trigger token b (row :: rows) (o :: os) ↔
    r.DeclinesAt trigger token b (row :: rows) (o :: os) 0 ∧ g = (r.lineScope b trigger token).2.1.flag ∨
      g ∈ r.declinedFlags trigger token o.bench rows os := by
  unfold declinedFlags
  rw [Set.mem_ofPred, ← Nat.or_exists_add_one]
  simp only [declinesAt_succ]
  rfl

theorem declinedFlags_nil : r.declinedFlags trigger token b rows [] = ∅ := by
  simp [declinedFlags, DeclinesAt]

theorem lineScope_raises : b.timeline.Raises ∅ (r.lineScope b trigger token).1.timeline := by
  unfold lineScope
  split
  · exact .refl b.timeline
  · exact .of_raised_eq (Nat.le_succ _) rfl rfl

-- A line is given the trigger of the run, or that of a scope that was opened for it.
theorem lineScope_trigger (r : Runner) (b : Bench) (trigger : Trigger) (token : Token) :
    (r.lineScope b trigger token).2.1 = trigger ∨
      (r.lineScope b trigger token).2.1.flag = b.timeline.signals.next ∧
        (r.lineScope b trigger token).1.timeline.signals.opened = b.timeline.signals.opened + 1 := by
  unfold lineScope
  split
  · exact .inl rfl
  · exact .inr ⟨rfl, rfl⟩

-- It observes the scope of the run, and beyond this its own at most.
theorem mem_lineScope_flags_cases (h : g ∈ (r.lineScope b trigger token).2.2.flags) :
    g ∈ token.flags ∨ g = b.timeline.signals.next := by
  unfold lineScope at h
  split at h
  · exact .inl h
  · exact (List.mem_cons.1 h).symm

theorem row_raises (ho : r.row b trigger token row = some o) (later : List Row) (os : List RowOutcome) :
    b.timeline.Raises {g | r.DeclinesAt trigger token b (row :: later) (o :: os) 0 ∧
      g = (r.lineScope b trigger token).2.1.flag} o.bench.timeline := by
  obtain ⟨x, hx, rfl⟩ := exists_execute_of_row ho
  refine (lineScope_raises.trans (Interpreter.execute_raises hx)).congr fun g => ?_
  simp [declinesAt_zero]

-- The flags that are raised by rows are those of scopes in which a question was answered No.
theorem course_raises (hos : r.course trigger token b rows = some os) :
    b.timeline.Raises (r.declinedFlags trigger token b rows os) (lastBench b os).timeline := by
  induction rows generalizing b os
  case nil =>
    cases hos
    rw [declinedFlags_nil]
    exact .refl b.timeline
  case cons row rest ih =>
    have ⟨o, ho, hcases⟩ := course_cons_cases hos
    rcases hcases with ⟨_, rfl⟩ | ⟨_, later, hlater, rfl⟩
    case inl =>
      refine (row_raises ho rest []).congr fun g => ?_
      rw [mem_declinedFlags_cons, declinedFlags_nil]
      simp
    case inr => exact ((row_raises ho rest later).trans (ih hlater)).congr fun g => mem_declinedFlags_cons.symm

theorem opened_le_of_row (ho : r.row b trigger token row = some o) :
    (r.lineScope b trigger token).1.timeline.signals.opened ≤ o.bench.timeline.signals.opened := by
  obtain ⟨x, hx, rfl⟩ := exists_execute_of_row ho
  exact (Interpreter.execute_raises hx).opened

-- These scopes are that of the run, and others that were opened for rows.
theorem number_of_mem_declinedFlags (hos : r.course trigger token b rows = some os)
    (hg : g ∈ r.declinedFlags trigger token b rows os) :
    g = trigger.flag ∨
      b.timeline.signals.opened ≤ g.number ∧ g.number < (lastBench b os).timeline.signals.opened := by
  induction rows generalizing b os
  case nil =>
    cases hos
    rw [declinedFlags_nil] at hg
    exact hg.elim
  case cons row rest ih =>
    have ⟨o, ho, hcases⟩ := course_cons_cases hos
    have hscope := opened_le_of_row ho
    have hfirst {last : Bench} (hlast : o.bench.timeline.signals.opened ≤ last.timeline.signals.opened)
        (hg : g = (r.lineScope b trigger token).2.1.flag) :
        g = trigger.flag ∨ b.timeline.signals.opened ≤ g.number ∧ g.number < last.timeline.signals.opened := by
      rcases r.lineScope_trigger b trigger token with hrun | ⟨hnext, hopened⟩
      case inl => exact .inl (hg.trans (congrArg _ hrun))
      case inr =>
        have hnumber : g.number = b.timeline.signals.opened := congrArg (·.number) (hg.trans hnext)
        exact .inr ⟨by omega, by omega⟩
    rcases hcases with ⟨_, rfl⟩ | ⟨_, later, hlater, rfl⟩
    case inl =>
      rw [mem_declinedFlags_cons, declinedFlags_nil] at hg
      exact hfirst (Nat.le_refl _) (hg.resolve_right id).right
    case inr =>
      rcases mem_declinedFlags_cons.1 hg with hg | hg
      case inl => exact hfirst (course_raises hlater).opened hg.right
      case inr =>
        have hopened := (row_raises ho rest later).opened
        exact (ih hlater hg).imp_right fun ⟨hle, hlt⟩ => ⟨Nat.le_trans hopened hle, hlt⟩

-- A row that counts as cancelled without being declined is under a scope that was cancelled before, or from outside.
theorem isCancelled_of_row {later : List Row} (hb : b.Ready token) (ho : r.row b trigger token row = some o)
    (hno : ¬r.DeclinesAt trigger token b (row :: later) (o :: os) 0) (hs : o.status = .cancelled) :
    o.bench.isCancelled token := by
  have hraises := row_raises ho later os
  obtain ⟨x, hx, rfl⟩ := exists_execute_of_row ho
  have hc : x.bench.isCancelled (r.lineScope b trigger token).2.2 := by
    unfold rowOutcome RowStatus.of at hs
    split at hs
    · cases hs
    · split at hs
      case isTrue hc => exact hc
      case isFalse   => cases hs
  have ⟨g, hg, hr⟩ := Signals.isCancelled_iff.1 hc
  rcases mem_lineScope_flags_cases hg with hg | rfl
  case inl => exact Signals.isCancelled_iff.2 ⟨g, hg, hr⟩
  case inr =>
    -- Nobody else knows of the scope that was opened for the row.
    exact absurd (hraises.own_of_fresh hb.next_fresh hr).left hno

theorem isCancelled_of_course (hb : b.Ready token) (hos : r.course trigger token b rows = some os)
    (hno : ∀ n, ¬r.DeclinesAt trigger token b rows os n) (hs : .cancelled ∈ os.map (·.status)) :
    (lastBench b os).isCancelled token := by
  induction rows generalizing b os
  case nil => cases hos; cases hs
  case cons row rest ih =>
    have ⟨o, ho, hcases⟩ := course_cons_cases hos
    rcases hcases with ⟨_, rfl⟩ | ⟨_, later, hlater, rfl⟩
    case inl => exact isCancelled_of_row hb ho (hno 0) (List.mem_singleton.1 hs).symm
    case inr =>
      rcases List.mem_cons.1 hs with hs | hs
      case inl =>
        have hc : o.bench.isCancelled token := isCancelled_of_row hb ho (hno 0) hs.symm
        exact (course_raises hlater).isCancelled hc
      case inr =>
        have hready : o.bench.Ready token :=
          hb.of_raises (row_raises ho rest later) fun g hg => absurd hg.left (hno 0)
        exact ih (b := o.bench) hready hlater (fun n hn => hno (n + 1) (declinesAt_succ.2 hn)) hs

-- The row of a run at this position is a question that the operator answered No.
def RunDeclinesAt (r : Runner) (b : Bench) (rows : List Row) (os : List RowOutcome) (n : Nat) : Prop :=
  r.DeclinesAt (r.enter b).2.1 (r.enter b).2.2 (r.enter b).1 rows os n

variable {lines : List String} {selection : List Nat} {q : RunOutcome} {b₀ : Bench}

-- The flags that a run raises are of scopes that it opens.
theorem run_raises (hq : r.run b lines selection = some q) :
    ∃ own : Set Flag, b.timeline.Raises own q.bench.timeline ∧
      ∀ g ∈ own, b.timeline.signals.opened ≤ g.number ∧ g.number < q.bench.timeline.signals.opened := by
  obtain ⟨os, hos, rfl⟩ := exists_course_of_run hq
  have henter : b.timeline.Raises ∅ (r.enter b).1.timeline := .of_raised_eq (Nat.le_succ _) rfl rfl
  replace hos : r.course (r.enter b).2.1 (r.enter b).2.2 (r.enter b).1 (Row.select lines selection) = some os := hos
  have hcourse := course_raises hos
  refine ⟨_, henter.trans hcourse, fun g hg => ?_⟩
  rw [Set.empty_union] at hg
  have hopened : (r.enter b).1.timeline.signals.opened = b.timeline.signals.opened + 1 := rfl
  have hle := hcourse.opened
  rw [hopened] at hle
  rcases number_of_mem_declinedFlags hos hg with rfl | ⟨hge, hlt⟩
  · exact ⟨Nat.le_refl _, hle⟩
  · exact ⟨Nat.le_of_succ_le hge, hlt⟩

theorem run_cancelled (htoken : r.token = ⟨[r.abort.flag]⟩) (hb : b.Ready r.token)
    (hq : r.run b lines selection = some q) (hcancelled : q.summary.cancelled ≠ 0) :
    q.bench.timeline.signals.isFired r.abort ∨
      ∃ os n, r.runCourse b (Row.select lines selection) = some os ∧
        r.RunDeclinesAt b (Row.select lines selection) os n := by
  obtain ⟨os, hos, rfl⟩ := exists_course_of_run hq
  by_cases hno : ∀ n, ¬r.RunDeclinesAt b (Row.select lines selection) os n
  case neg =>
    obtain ⟨n, hn⟩ := not_forall_not.1 hno
    exact .inr ⟨os, n, hos, hn⟩
  case pos =>
    have htally : RunSummary.tally (os.map (·.status)) = _ := RunSummary.foldl_count
    have hcount : (os.map (·.status)).count .cancelled ≠ 0 := by
      simpa [report, htally] using hcancelled
    have hmem : .cancelled ∈ os.map (·.status) := List.count_pos_iff.1 (Nat.pos_of_ne_zero hcount)
    obtain ⟨g, hg, hr⟩ := Signals.isCancelled_iff.1 (isCancelled_of_course (Ready.enter hb) hos hno hmem)
    rcases List.mem_cons.1 hg with rfl | hg
    case inl =>
      -- Nobody else knows of the scope of the run.
      have hfresh : (r.enter b).1.timeline.Fresh b.timeline.signals.next := hb.next_fresh
      obtain ⟨n, hn, _⟩ := (course_raises hos).own_of_fresh hfresh hr
      exact absurd hn (hno n)
    case inr =>
      rw [htoken] at hg
      exact .inl (Signals.isFired_iff.2 (List.mem_singleton.1 hg ▸ hr))

theorem Session.ready (htoken : r.token = ⟨[r.abort.flag]⟩) (h₀ : b₀.Ready r.token) (h : r.Session b₀ b) :
    b.Ready r.token := by
  have hmem : r.abort.flag ∈ r.token.flags := htoken ▸ List.mem_singleton_self _
  induction h
  case start => exact h₀
  case run hrun ih =>
    have ⟨_, hraises, hown⟩ := run_raises hrun
    exact ih.of_raises hraises fun g hg => (hown g hg).right
  case abort ih        => exact ih.fire (ih.opened _ hmem)
  case planAbort ih    => exact Ready.withAbort ih hmem (some _)
  case callOff ih      => exact ih.quiet
  case pass instant _ _ ih => exact ih.of_raises (.firePending _ instant instant) fun _ hg => hg.elim

-- What cancels. A line fires the trigger that it was given if it is a question answered No, and no trigger otherwise.
-- So a run never fires the abort by itself, and none of its rows counts as cancelled unless the abort came or some
-- question was answered No.
theorem only_declined_questions_cancel :
    (∀ (i : Interpreter) (b : Bench) (line : String) (token : Token) (trigger : Trigger),
      (i.Declines b line token → ∃ o, i.execute b line token trigger = some o ∧ o.execution.success = false ∧
        o.bench.timeline = b.timeline.fire trigger) ∧
      ∀ o, i.execute b line token trigger = some o →
        b.timeline.Raises {g | i.Declines b line token ∧ g = trigger.flag} o.bench.timeline ∧
        ∀ other : Token, trigger.flag ∉ other.flags → (o.bench.isCancelled other ↔
          b.isCancelled other ∨ ∃ g ∈ other.flags, b.timeline.Happened o.bench.timeline g)) ∧
    ∀ (i : Interpreter) (settings : RunnerSettings) (publisher : Publisher) (origin : Instant) (typed : List Typed)
      (r : Runner) (b₀ b : Bench) (lines : List String) (selection : List Nat) (q : RunOutcome),
      Runner.open i settings publisher origin { input := typed } = (r, b₀) → r.Session b₀ b →
      r.run b lines selection = some q →
      (q.bench.timeline.signals.isFired r.abort ↔
        b.timeline.signals.isFired r.abort ∨ b.timeline.Happened q.bench.timeline r.abort.flag) ∧
      (q.summary.cancelled ≠ 0 → q.bench.timeline.signals.isFired r.abort ∨
        ∃ os n, r.runCourse b (Row.select lines selection) = some os ∧
          r.RunDeclinesAt b (Row.select lines selection) os n) := by
  refine ⟨fun i b line token trigger => ⟨fun hd => ?fires, fun o ho => ?only⟩, ?runs⟩
  case fires =>
    have ⟨o, ho, hfails, _, hfire⟩ := Interpreter.execute_of_declines hd trigger
    exact ⟨o, ho, hfails, hfire⟩
  case only =>
    have hraises := Interpreter.execute_raises ho
    exact ⟨hraises, fun other hother => hraises.isCancelled_iff fun g hg => hg.right ▸ hother⟩
  case runs =>
    intro i settings publisher origin typed r b₀ b lines selection q hopen hsession hq
    have ⟨_, _, htoken, hnew⟩ := of_open hopen
    have hb : b.Ready r.token := hsession.ready htoken hnew.ready
    refine ⟨?abort, run_cancelled htoken hb hq⟩
    have ⟨own, hraises, hown⟩ := run_raises hq
    have hold : r.abort.flag.number < b.timeline.signals.opened := hb.opened _ (htoken ▸ List.mem_singleton_self _)
    have hnot : r.abort.flag ∉ own := fun hmem => Nat.not_lt_of_le (hown _ hmem).left hold
    rw [Signals.isFired_iff, Signals.isFired_iff, hraises.raised]
    simp only [hnot, or_false]

-- A question in lower case is answered No, under a scope for each line.
theorem only_declined_questions_cancel_of_no :
    let i : Interpreter := ⟨.ofSettings { dialog := .no }, 100⟩
    let (r, b) := Runner.open i ⟨.line, false⟩ .accepting ⟨0⟩ {}
    let line := "SHOW_DIALOG ^ UI ^ yes_no ^ T ^ M"
    (∃ o, i.execute b line ⟨[⟨7⟩]⟩ ⟨⟨7⟩⟩ = some o ∧ o.bench.timeline.signals.raised = [⟨7⟩] ∧
      o.bench.isCancelled r.token = false) ∧
    ∃ q, r.run b [line, "WAIT ^ T ^ 7"] [] = some q ∧ q.summary.cancelled = 1 ∧ q.summary.succeeded = 1 ∧
      ¬q.bench.timeline.signals.isFired r.abort ∧
      ∃ os n, r.runCourse b (Row.select [line, "WAIT ^ T ^ 7"] []) = some os ∧
        r.RunDeclinesAt b (Row.select [line, "WAIT ^ T ^ 7"] []) os n := by
  let i : Interpreter := ⟨.ofSettings { dialog := .no }, 100⟩
  let r := (Runner.open i ⟨.line, false⟩ .accepting ⟨0⟩ {}).1
  let b := (Runner.open i ⟨.line, false⟩ .accepting ⟨0⟩ {}).2
  let line := "SHOW_DIALOG ^ UI ^ yes_no ^ T ^ M"
  have ⟨hlines, hruns⟩ := only_declined_questions_cancel
  constructor
  case left =>
    have hasked : i.Declines b line ⟨[⟨7⟩]⟩ := by
      refine ⟨by decide +kernel, ⟨"SHOW_DIALOG", "UI", ["yes_no", "T", "M"], line, none⟩, "yes_no", "T", "M", ?_⟩
      decide +kernel
    have ⟨o, ho, _, hfire⟩ := (hlines i b line ⟨[⟨7⟩]⟩ ⟨⟨7⟩⟩).left hasked
    have hraised : (b.timeline.fire ⟨⟨7⟩⟩).signals.raised = [⟨7⟩] := by decide +kernel
    have hlive : o.bench.isCancelled r.token = false := by
      rw [Bench.isCancelled, hfire]
      decide +kernel
    exact ⟨o, ho, by rw [hfire, hraised], hlive⟩
  case right =>
    have hend : (r.run b [line, "WAIT ^ T ^ 7"] []).map
        (fun q => (q.summary.cancelled, q.summary.succeeded, q.bench.timeline.signals.isFired r.abort)) =
          some (1, 1, false) := by
      decide +kernel
    have ⟨q, hq, heq⟩ := Option.map_eq_some_iff.1 hend
    simp only [Prod.mk.injEq] at heq
    have ⟨hcancelled, hsucceeded, hfired⟩ := heq
    have hlive : ¬q.bench.timeline.signals.isFired r.abort := by simp [hfired]
    have ⟨_, hcause⟩ := hruns i ⟨.line, false⟩ .accepting ⟨0⟩ [] r b b [line, "WAIT ^ T ^ 7"] [] q rfl .start hq
    exact ⟨q, hq, hcancelled, hsucceeded, hlive, (hcause (by simp [hcancelled])).resolve_left hlive⟩

end Runner

end StationScript
