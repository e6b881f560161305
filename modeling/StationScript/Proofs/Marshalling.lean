import StationScript.Proofs.Abort
import StationScript.Proofs.Alike
import StationScript.Proofs.Notices
import StationScript.Proofs.Submissions

namespace StationScript

-- What a dialog reports by itself.
def Event.OfDialog : Event → Prop
  | dialogAnswered _ _ _ | answerRejected => True
  | _ => False

theorem Event.OfDialog.ofStation {e : Event} (h : e.OfDialog) : e.OfStation := by
  cases e <;> trivial

def Effect.OfDialog : Effect → Prop
  | report _ e => e.OfDialog
  | _ => False

theorem Effect.OfDevice.not_ofDialog {e : Effect} (h : e.OfDevice) : ¬e.OfDialog := by
  cases e
  case report thread event =>
    cases thread
    case surface => exact h.elim
    case main =>
      cases event
      case dialogAnswered | answerRejected => exact h.elim
      all_goals exact id
  all_goals exact id

namespace Trace

-- A trace with dialogs on a surface thread, and the trace with these dialogs on the main thread.
inductive Marshals (thread : String) : Trace → Trace → Prop
  | nil : Marshals thread [] []
  | same {e : Effect} {t u : Trace} (h : ¬e.OfDialog) (rest : Marshals thread t u) : Marshals thread (e :: t) (e :: u)
  | moved {e : Event} {t u : Trace} (h : e.OfDialog) (rest : Marshals thread t u) :
    Marshals thread (.report .surface e :: t) (.report .main e :: u)
  -- A panic is noted on the surface thread, and the command hears of a dropped request.
  | panicked {t u : Trace} (text : String) (rest : Marshals thread t u) :
    Marshals thread
      (.report .surface (.surfacePanicked thread) ::
        .report .main (.commandFailed text (CommandError.surfaceUnavailable thread).message) :: t)
      (.report .main (.handlerPanicked text) :: u)

namespace Marshals

variable {thread : String} {t t' u u' : Trace}

theorem refl (h : ∀ e ∈ t, ¬e.OfDialog) : t.Marshals thread t := by
  induction t
  case nil => exact .nil
  case cons e rest ih =>
    have ⟨he, hrest⟩ := List.forall_mem_cons.1 h
    exact .same he (ih hrest)

theorem append (h : t.Marshals thread u) (h' : t'.Marshals thread u') : Marshals thread (t ++ t') (u ++ u') := by
  induction h
  case nil                => exact h'
  case same he _ ih       => exact .same he ih
  case moved he _ ih      => exact .moved he ih
  case panicked text _ ih => exact .panicked text ih

theorem flatMap {os ps : List RowOutcome} {related : RowOutcome → RowOutcome → Prop} {f g : RowOutcome → Trace}
    (h : List.Forall₂ related os ps) (hrow : ∀ o p, related o p → (f o).Marshals thread (g p)) :
    Marshals thread (os.flatMap f) (ps.flatMap g) := by
  induction h
  case nil          => exact .nil
  case cons ho _ ih => exact (hrow _ _ ho).append ih

-- What comes of no event is the same.
theorem filterMap_eq {α : Type} {f : Effect → Option α} (h : t.Marshals thread u)
    (hreport : ∀ reporter e, f (.report reporter e) = none) : t.filterMap f = u.filterMap f := by
  induction h
  case nil         => rfl
  case same ih     => rw [List.filterMap_cons, List.filterMap_cons, ih]
  case moved ih    => simpa [hreport] using ih
  case panicked ih => simpa [hreport] using ih

theorem changes_eq (h : t.Marshals thread u) : t.changes = u.changes :=
  h.filterMap_eq fun _ _ => rfl

theorem actions_eq (h : t.Marshals thread u) : t.actions = u.actions :=
  h.filterMap_eq fun _ _ => rfl

theorem captures_eq (h : t.Marshals thread u) : t.captures = u.captures :=
  h.filterMap_eq fun _ _ => rfl

theorem linesTaken_eq (h : t.Marshals thread u) : t.linesTaken = u.linesTaken := by
  have hcons (e : Effect) (t : Trace) : linesTaken (e :: t) = e.linesTaken + t.linesTaken := rfl
  induction h
  case nil         => rfl
  case same ih     => rw [hcons, hcons, ih]
  case moved ih    => rw [hcons, hcons, ih]; rfl
  case panicked ih => rw [hcons, hcons, hcons, ih]; simp [Effect.linesTaken]

-- The main thread tells the same of rows, if in other words.
theorem told_eq (h : t.Marshals thread u) : t.told = u.told := by
  have hcons (e : Effect) (t : Trace) : told (e :: t) = told [e] ++ t.told := told_append (t := [e])
  induction h
  case nil               => rfl
  case same e t u _ _ ih => rw [hcons e t, hcons e u, ih]
  case moved e t u he _ ih =>
    have hmain : told [.report .main e] = [] := by simp [told, events, Effect.event?, he.ofStation.told?]
    rw [hcons (.report .surface e) t, hcons (.report .main e) u, hmain, ih]
    rfl
  case panicked t u text _ ih =>
    rw [hcons (.report .surface _), hcons (.report .main _) t, hcons (.report .main _) u, ih]
    rfl

theorem errors_eq (h : t.Marshals thread u) : t.errors = u.errors := by
  rw [Trace.errors_eq, Trace.errors_eq, h.told_eq]

theorem advance_eq (h : t.Marshals thread u) (b : Bench) (timeline : Timeline) :
    b.advance t timeline = b.advance u timeline := by
  rw [Bench.advance, Bench.advance, h.changes_eq, h.captures_eq, h.linesTaken_eq]

end Marshals

end Trace

-- A presenter does not care on which thread it shows a dialog.
theorem Presenter.ask_marshals (p : Presenter) (thread : String) (kind : DialogKind) (title message : String)
    (input : List Typed) :
    (p.ask .surface kind title message input).reply = (p.ask .main kind title message input).reply ∧
      Trace.Marshals thread (p.ask .surface kind title message input).effects
        (p.ask .main kind title message input).effects := by
  cases p
  case scripted => exact ⟨rfl, .same id (.moved trivial .nil)⟩
  case custom   => exact ⟨rfl, .nil⟩
  case terminal =>
    simp only [ask]
    induction input
    case nil => exact ⟨rfl, .same id .nil⟩
    case cons line rest ih =>
      cases line
      case binary => exact ⟨rfl, .same id (.same id .nil)⟩
      case text line =>
        rw [Terminal.ask, Terminal.ask]
        cases Terminal.answer? kind line
        case some answer => exact ⟨rfl, .same id (.same id .nil)⟩
        case none        => exact ⟨ih.left, .same id (.same id (.moved trivial ih.right))⟩

-- Plans of a station with a surface thread, and of one without.
inductive Plan.Marshals (thread : String) : Plan → Plan → Prop
  | alike {es fs : List Effect} (v : Verdict) (h : Trace.Marshals thread es fs) : Marshals thread ⟨es, v⟩ ⟨fs, v⟩
  | panicked {es fs : List Effect} (h : Trace.Marshals thread es fs) :
    Marshals thread ⟨es ++ [.report .surface (.surfacePanicked thread)], .failed (.surfaceUnavailable thread)⟩
      ⟨fs, .panicked⟩

theorem Plan.Marshals.after {thread : String} {p q : Plan} {es fs : List Effect} (h : p.Marshals thread q)
    (hfirst : Trace.Marshals thread es fs) : (p.after es).Marshals thread (q.after fs) := by
  cases h
  case alike v h => exact .alike v (hfirst.append h)
  case panicked h =>
    simp only [Plan.after, ← List.append_assoc]
    exact .panicked (hfirst.append h)

namespace Station

variable {st : Station} {thread : String} {kind : DialogKind} {title message : String} {reply : Reply} {delay : Nat}
  {input : List Typed} {instruction : Instruction}

-- The station with dialogs on another thread, or on none of their own.
def withSurface (st : Station) (surface : Option String) : Station :=
  { st with surface }

theorem withSurface_alwaysReplies (h : st.AlwaysReplies) (surface : Option String) :
    (st.withSurface surface).AlwaysReplies := by
  have hreply (here there : Thread) (kind : DialogKind) (title message : String) (input : List Typed) :
      (st.presenter.ask here kind title message input).reply =
        (st.presenter.ask there kind title message input).reply := by
    have hsame := (st.presenter.ask_marshals "" kind title message input).left
    cases here <;> cases there <;> first | rfl | exact hsame | exact hsame.symm
  intro input instruction hnever
  cases instruction
  case dialog kind title message => exact h input (.dialog kind title message) ((hreply ..).trans hnever)
  all_goals exact hnever

theorem ofReply_marshals (h : reply ≠ .unanswered) :
    ((st.withSurface (some thread)).ofReply kind title reply).Marshals thread
      ((st.withSurface none).ofReply kind title reply) := by
  cases reply
  case answered answer => cases kind <;> cases answer <;> exact .alike _ .nil
  case failed          => exact .alike _ .nil
  case panicked        => exact .panicked .nil
  case unanswered      => contradiction

theorem plan_of_not_dialog (hd : ∀ kind title message, instruction ≠ .dialog kind title message)
    (surface : Option String) :
    (st.withSurface surface).plan delay input instruction = st.plan delay input instruction := by
  cases instruction
  case dialog kind title message => exact absurd rfl (hd kind title message)
  all_goals rfl

theorem not_ofDialog_of_not_dialog (hd : ∀ kind title message, instruction ≠ .dialog kind title message) :
    ∀ e ∈ (st.plan delay input instruction).effects, ¬e.OfDialog := by
  cases instruction
  case dialog kind title message => exact absurd rfl (hd kind title message)
  case read channel              => simp [plan, read, lookUp, Plan.andThen, Effect.OfDialog, Event.OfDialog]
  all_goals exact fun e he => (plan_ofDevice he trivial).not_ofDialog

theorem dialog_marshals (h : st.AlwaysReplies) (thread : String) (kind : DialogKind) (title message : String)
    (input : List Typed) :
    ((st.withSurface (some thread)).dialog kind title message input).Marshals thread
      ((st.withSurface none).dialog kind title message input) := by
  have ⟨hreply, heffects⟩ := st.presenter.ask_marshals thread kind title message input
  have hanswered : (st.presenter.ask .surface kind title message input).reply ≠ .unanswered :=
    withSurface_alwaysReplies h (some thread) input (.dialog kind title message)
  have hdialog (surface : Option String) : (st.withSurface surface).dialog kind title message input =
      Plan.after (st.presenter.ask (st.withSurface surface).dialogThread kind title message input).effects
        ((st.withSurface surface).ofReply kind title
          (st.presenter.ask (st.withSurface surface).dialogThread kind title message input).reply) := rfl
  have hmain : (st.withSurface none).dialogThread = .main := rfl
  rw [hdialog, hdialog, hmain, ← hreply]
  exact (ofReply_marshals hanswered).after heffects

end Station

-- The job that shows a dialog.
def Reply.job : Reply → Job (Except CommandError Answer)
  | answered answer => .run fun _ => .ok answer
  | failed e        => .run fun _ => .error e
  | panicked        => .panic
  | unanswered      => .hold

-- How a command ends that asked for a dialog and got a response.
def Ending.ofResponse (kind : DialogKind) (title : String) : Response (Except CommandError Answer) → Ending
  | .value (.ok answer) => .ofVerdict true (Station.ofAnswer title kind answer).verdict
  | .value (.error e)   => .failed e
  | .dropped thread     => .failed (.surfaceUnavailable thread)
  | .cancelled          => .cancelled

section

open Exchange

variable {x : Exchange (Except CommandError Answer)} {thread : String} {token : Token} {st : Station}

-- What the thread has reported when the response to a request has come.
theorem events_of_request (hrest : x.AtRest) (hs : x.surface.Serves thread x.jobs)
    (job : Job (Except CommandError Answer)) :
    ((accept x.surface job).release x.jobs.length).events = x.surface.events ++ job.events thread := by
  cases job <;>
    simp [accept, Surface.take, Surface.release, hrest.idle, hrest.done, hs.submitted, hs.named, Job.events]

-- What a dialog comes to on a surface thread is what a request to that thread comes to: the thread reports the same,
-- and the command ends the same way, at the same time.
theorem Station.follow_ofReply (hsurface : st.surface = some thread) (hrest : x.AtRest)
    (hs : x.surface.Serves thread x.jobs) (hl : ¬x.clock.isCancelled token) (kind : DialogKind) (title : String)
    (reply : Reply) :
    ((x.clock.follow token (st.ofReply kind title reply).effects).map fun p =>
        (p.trace, Ending.ofVerdict p.finished (st.ofReply kind title reply).verdict, p.timeline)) =
      (x.surface.invoke x.clock token reply.job).map fun (response, clock, s) =>
        ((s.events.drop x.surface.events.length).map (.report .surface), .ofResponse kind title response, clock) := by
  have hevents := events_of_request hrest hs
  rw [invoke_eq hrest hs, if_neg hl]
  cases reply
  case answered answer =>
    simp only [Reply.job, Job.response?, Option.map_some, hevents, List.drop_left, Ending.ofResponse]
    cases kind <;> cases answer <;> rfl
  case failed e =>
    simp only [Reply.job, Job.response?, Option.map_some, hevents, List.drop_left, Ending.ofResponse]
    rfl
  case panicked =>
    simp only [Reply.job, Job.response?, Option.map_some, hevents, List.drop_left, Ending.ofResponse, ofReply, hsurface]
    rfl
  case unanswered =>
    simp only [ofReply, hsurface, Timeline.follow, Reply.job, Job.response?, Option.map_map, Function.comp_def, hevents,
      List.drop_left, Ending.ofResponse]
    rfl

end

-- The outcomes of a line with dialogs on a surface thread, and without.
structure Outcome.Marshals (thread : String) (o p : Outcome) : Prop where
  execution : o.execution = p.execution
  trace     : o.trace.Marshals thread p.trace
  bench     : o.bench = p.bench

theorem Bench.reportOnly_marshals {thread : String} {events : List Event} (h : ∀ e ∈ events, ¬e.OfDialog) (b : Bench)
    (x : Execution) : (b.reportOnly x events).Marshals thread (b.reportOnly x events) := by
  refine ⟨rfl, .refl fun e he => ?_, rfl⟩
  obtain ⟨event, hevent, rfl⟩ := List.mem_map.1 he
  exact h event hevent

theorem Ending.not_ofDialog (ending : Ending) (text : String) :
    ∀ e ∈ (ending.events text).map (Effect.report .main), ¬e.OfDialog := by
  cases ending <;> simp [events, Effect.OfDialog, Event.OfDialog]

namespace Interpreter

variable {i j : Interpreter} {b : Bench} {c : Command} {v : Verb} {line thread : String} {token : Token}
  {trigger : Trigger} {input : List Typed}

def withSurface (i : Interpreter) (surface : Option String) : Interpreter :=
  { i with station := i.station.withSurface surface }

-- The plan of a command is that of a dialog, which takes no time, or has nothing to do with the surface.
theorem plan_marshals (h : i.station.AlwaysReplies) (thread : String) (input : List Typed) (c : Command) (v : Verb) :
    (((i.withSurface (some thread)).plan input c v).Marshals thread ((i.withSurface none).plan input c v) ∧
      ∀ surface, ∀ e ∈ ((i.withSurface surface).plan input c v).effects, e.IsInstant) ∨
    (∀ surface, (i.withSurface surface).plan input c v = i.plan input c v) ∧
      ∀ e ∈ (i.plan input c v).effects, ¬e.OfDialog := by
  cases hinstr : c.instruction v
  case error =>
    refine .inr ⟨fun surface => ?_, ?_⟩
    · simp only [plan, hinstr]
    · simp [plan, hinstr, Plan.fail]
  case ok instruction =>
    simp only [plan, hinstr]
    by_cases hd : ∃ kind title message, instruction = .dialog kind title message
    case neg =>
      have hd : ∀ kind title message, instruction ≠ .dialog kind title message := fun _ _ _ he => hd ⟨_, _, _, he⟩
      exact .inr ⟨Station.plan_of_not_dialog hd, Station.not_ofDialog_of_not_dialog hd⟩
    case pos =>
      obtain ⟨kind, title, message, rfl⟩ := hd
      refine .inl ⟨Station.dialog_marshals h thread kind title message input, fun surface e he => ?_⟩
      exact (Station.dialog_effects (Station.withSurface_alwaysReplies h surface _ _) e he).left

-- What a command comes to under plans that get equally far and have the same verdict.
theorem outcome_marshals {p q : Progress} (htrace : p.trace.Marshals thread q.trace)
    (hfinished : p.finished = q.finished) (htimeline : p.timeline = q.timeline)
    (hverdict : (i.plan b.input c v).verdict = (j.plan b.input c v).verdict) :
    (i.outcome b c v trigger p).Marshals thread (j.outcome b c v trigger q) := by
  have hopen : Trace.Marshals thread [.report .main (.executing v c.text)] [.report .main (.executing v c.text)] :=
    .same id .nil
  have hall := (hopen.append htrace).append
    (.refl (Ending.not_ofDialog (.ofVerdict q.finished (j.plan b.input c v).verdict) c.text))
  refine ⟨?execution, ?trace, ?bench⟩
  case execution => simp only [outcome, hfinished, hverdict, htrace.captures_eq]
  case trace     => simpa only [outcome, hfinished, hverdict] using hall
  case bench     => simpa only [outcome, hfinished, hverdict, htimeline] using hall.advance_eq b _

-- What it comes to if its presenter panics.
theorem outcome_marshals_of_panic {es fs : Trace} {t : Timeline} (htrace : es.Marshals thread fs)
    (hi : (i.plan b.input c v).verdict = .failed (.surfaceUnavailable thread))
    (hj : (j.plan b.input c v).verdict = .panicked) :
    (i.outcome b c v trigger ⟨es ++ [.report .surface (.surfacePanicked thread)], true, t⟩).Marshals thread
      (j.outcome b c v trigger ⟨fs, true, t⟩) := by
  have hopen : Trace.Marshals thread [.report .main (.executing v c.text)] [.report .main (.executing v c.text)] :=
    .same id .nil
  have hall := (hopen.append htrace).append (.panicked c.text .nil)
  have hcaptures : Trace.captures (es ++ [.report .surface (.surfacePanicked thread)]) = Trace.captures fs := by
    rw [Trace.captures_append, htrace.captures_eq]
    exact List.append_nil _
  replace hi : Ending.ofVerdict true (i.plan b.input c v).verdict = .failed (.surfaceUnavailable thread) := by
    rw [hi]
    rfl
  replace hj : Ending.ofVerdict true (j.plan b.input c v).verdict = .panicked := by
    rw [hj]
    rfl
  refine ⟨?execution, ?trace, ?bench⟩
  case execution => simp only [outcome, hi, hj, hcaptures, Ending.success]
  case trace     => simpa [outcome, hi, hj, Ending.events] using hall
  case bench     => simpa [outcome, hi, hj, Ending.events, Ending.signal] using hall.advance_eq b t

theorem runCommand_marshals (h : i.station.AlwaysReplies) :
    Option.Rel (Outcome.Marshals thread) ((i.withSurface (some thread)).runCommand b c v token trigger)
      ((i.withSurface none).runCommand b c v token trigger) := by
  rw [runCommand_eq, runCommand_eq]
  rcases plan_marshals h thread b.input c v with ⟨hplan, hinstant⟩ | ⟨hplan, hsame⟩
  case inl =>
    rw [Timeline.follow_of_instant (hinstant _), Timeline.follow_of_instant (hinstant _)]
    generalize hp : (i.withSurface (some thread)).plan b.input c v = p,
      hq : (i.withSurface none).plan b.input c v = q at hplan
    cases hplan
    case alike es fs v htrace =>
      exact .some (outcome_marshals htrace rfl rfl (by rw [hp, hq]))
    case panicked es fs htrace =>
      exact .some (outcome_marshals_of_panic htrace (by rw [hp]) (by rw [hq]))
  case inr =>
    rw [hplan, hplan]
    cases hp : b.timeline.follow token (i.plan b.input c v).effects
    case none => exact .none
    case some p =>
      have htrace : p.trace.Marshals thread p.trace := .refl fun e he => hsame e (Timeline.follow_subset hp e he)
      exact .some (outcome_marshals htrace rfl rfl (by rw [hplan, hplan]))

theorem execute_marshals (h : i.station.AlwaysReplies) :
    Option.Rel (Outcome.Marshals thread) ((i.withSurface (some thread)).execute b line token trigger)
      ((i.withSurface none).execute b line token trigger) := by
  by_cases hl : b.isCancelled token
  case pos =>
    rw [execute_of_isCancelled hl, execute_of_isCancelled hl]
    exact .some ⟨rfl, .same id .nil, rfl⟩
  case neg =>
    rw [execute, execute, if_neg hl, if_neg hl]
    cases Line.ofString line
    case command c =>
      cases hv : Verb.ofName? c.name
      case some v => simpa only [hv] using runCommand_marshals h
      case none =>
        simp only [hv]
        exact .some (b.reportOnly_marshals (by simp [Event.OfDialog]) _)
    case malformed => exact .some (b.reportOnly_marshals (by simp [Line.warnings, Event.OfDialog]) _)
    case blank     => exact .some (b.reportOnly_marshals (by simp [Line.warnings]) _)

end Interpreter

-- The outcomes of a row with dialogs on a surface thread, and without.
structure RowOutcome.Marshals (thread : String) (o p : RowOutcome) : Prop where
  record : o.record = p.record
  status : o.status = p.status
  trace  : o.trace.Marshals thread p.trace
  bench  : o.bench = p.bench

namespace Runner

variable {r : Runner} {b : Bench} {trigger : Trigger} {token : Token} {thread : String} {row : Row}
  {os ps : List RowOutcome} {o p : RowOutcome}

def withSurface (r : Runner) (surface : Option String) : Runner :=
  { r with interpreter := r.interpreter.withSurface surface }

theorem publishLine_not_ofDialog {record : LineRecord} : ∀ e ∈ r.publishLine record, ¬e.OfDialog := by
  unfold publishLine
  split <;> simp [Effect.OfDialog, Event.OfDialog]

theorem publishSummary_not_ofDialog {summary : RunSummary} : ∀ e ∈ r.publishSummary summary, ¬e.OfDialog := by
  unfold publishSummary
  split <;> simp [Effect.OfDialog, Event.OfDialog]

theorem warnings_not_ofDialog {lines : List String} {selection : List Nat} :
    ∀ e ∈ (Row.warnings lines selection).map (Effect.report .main), ¬e.OfDialog := by
  intro e he
  obtain ⟨event, hevent, rfl⟩ := List.mem_map.1 he
  obtain ⟨_, _, rfl⟩ := List.mem_map.1 hevent
  exact id

theorem row_marshals (h : r.interpreter.station.AlwaysReplies) :
    Option.Rel (RowOutcome.Marshals thread) ((r.withSurface (some thread)).row b trigger token row)
      ((r.withSurface none).row b trigger token row) := by
  rw [row_eq, row_eq]
  refine rel_map_of_rel (Interpreter.execute_marshals h) fun x y hxy => ⟨?record, ?status, ?trace, hxy.bench⟩
  case record => simp only [rowOutcome, hxy.execution]; rfl
  case status => simp only [rowOutcome, hxy.execution, hxy.bench]; rfl
  case trace  =>
    simp only [rowOutcome, hxy.execution]
    exact hxy.trace.append (.refl publishLine_not_ofDialog)

theorem rowTrace_marshals (h : o.Marshals thread p) :
    ((r.withSurface (some thread)).rowTrace o).Marshals thread ((r.withSurface none).rowTrace p) := by
  rw [rowTrace, rowTrace, h.status, h.record]
  refine h.trace.append (.refl fun e he => ?_)
  have hstop := List.mem_ite_nil_right.1 he
  rw [List.mem_singleton.1 hstop.right]
  exact id

end Runner

-- How a run with dialogs on a surface thread relates to one without.
structure RunOutcome.Marshals (thread : String) (q u : RunOutcome) : Prop where
  records : q.records = u.records
  summary : q.summary = u.summary
  actions : q.trace.actions = u.trace.actions
  -- With the bench, the devices, the last reading, the clock and the input are the same.
  bench   : q.bench = u.bench
  errors  : q.trace.errors = u.trace.errors
  trace   : q.trace.Marshals thread u.trace

namespace Runner

variable {r : Runner} {b : Bench} {thread : String} {os ps : List RowOutcome}

theorem report_marshals (h : List.Forall₂ (RowOutcome.Marshals thread) os ps) (lines : List String)
    (selection : List Nat) :
    ((r.withSurface (some thread)).report b lines selection os).Marshals thread
      ((r.withSurface none).report b lines selection ps) := by
  have hstart : ((r.withSurface (some thread)).enter b).1 = ((r.withSurface none).enter b).1 := rfl
  have hlast : lastBench ((r.withSurface (some thread)).enter b).1 os = lastBench ((r.withSurface none).enter b).1 ps :=
    lastBench_of_forall₂ (motive := (· = ·)) h hstart fun _ _ ho => ho.bench
  have hstatuses : os.map (·.status) = ps.map (·.status) := map_eq_of_forall₂ h fun _ _ ho => ho.status
  have hsummary : ((r.withSurface (some thread)).report b lines selection os).summary =
      ((r.withSurface none).report b lines selection ps).summary := by
    simp only [report, hlast, hstatuses]
    rfl
  have htrace : ((r.withSurface (some thread)).report b lines selection os).trace.Marshals thread
      ((r.withSurface none).report b lines selection ps).trace := by
    simp only [report, hlast, hstatuses]
    have hrows := Trace.Marshals.flatMap h fun _ _ => rowTrace_marshals (r := r)
    refine .append ?warnings (.append (.append (.append ?opening hrows) ?closing) (.refl ?published))
    case warnings  => exact .refl warnings_not_ofDialog
    case opening   => exact .same id .nil
    case closing   => exact .same id .nil
    case published => exact publishSummary_not_ofDialog
  exact ⟨map_eq_of_forall₂ h fun _ _ ho => ho.record, hsummary, htrace.actions_eq, hlast, htrace.errors_eq, htrace⟩

open Exchange in
-- With a presenter that always replies, be it by a panic, a run on a station with a surface thread agrees with one
-- without, whatever the script, the settings and the abort. Only the thread on which dialogs report and the words about
-- a panic differ. For the station a dialog on that thread is what a request to the thread comes to.
theorem run_marshalled (r : Runner) (h : r.interpreter.station.AlwaysReplies) (thread : String) :
    (∀ (b : Bench) (lines : List String) (selection : List Nat),
      ∃ q u, (r.withSurface (some thread)).run b lines selection = some q ∧
        (r.withSurface none).run b lines selection = some u ∧ q.Marshals thread u) ∧
    ∀ (clock : Timeline) (x : Exchange (Except CommandError Answer)) (token : Token) (kind : DialogKind)
      (title : String) (reply : Reply),
      Steps (initial thread clock) x → x.AtRest → ¬x.clock.isCancelled token →
      let plan := (r.withSurface (some thread)).interpreter.station.ofReply kind title reply
      ((x.clock.follow token plan.effects).map fun p =>
          (p.trace, Ending.ofVerdict p.finished plan.verdict, p.timeline)) =
        (x.surface.invoke x.clock token reply.job).map fun (response, clock, s) =>
          ((s.events.drop x.surface.events.length).map (.report .surface), .ofResponse kind title response, clock) := by
  refine ⟨fun b lines selection => ?runs, fun clock x token kind title reply hsteps hrest hl => ?requests⟩
  case requests =>
    exact Station.follow_ofReply rfl hrest (hsteps.serves (Surface.Serves.initial thread)) hl kind title reply
  case runs =>
    have hcourse : Option.Rel (List.Forall₂ (RowOutcome.Marshals thread))
        ((r.withSurface (some thread)).runCourse b (Row.select lines selection))
        ((r.withSurface none).runCourse b (Row.select lines selection)) :=
      course_rel_course (fun _ row row' (heq : row = row') => heq ▸ row_marshals h)
        (fun _ _ ho => ⟨ho.status.symm, ho.bench.symm⟩) (fun _ => rfl) (List.forall₂_refl _)
    have ⟨ps, hps⟩ := exists_runCourse (r := r.withSurface none) (Station.withSurface_alwaysReplies h none) b
      (Row.select lines selection)
    rw [hps] at hcourse
    generalize hos : (r.withSurface (some thread)).runCourse b (Row.select lines selection) = x at hcourse
    cases hcourse
    case some os hrows =>
      exact ⟨_, _, by rw [run_eq, hos]; rfl, by rw [run_eq, hps]; rfl, report_marshals hrows lines selection⟩

-- A dialog at which the presenter panics, one that is answered, and a wait that is cut by the abort.
theorem run_marshalled_past_panic :
    let presenter : Presenter := .custom fun _ title _ => if title = "Fault" then .panicked else .answered .yes
    let (r, b) := Runner.open ⟨{ Station.ofSettings {} with presenter }, 100⟩ {} .accepting ⟨0⟩ {}
    let lines := ["SHOW_DIALOG ^ OPERATOR ^ OK ^ Fault ^ Look", "SHOW_DIALOG ^ OPERATOR ^ YES_NO ^ Lens ^ Ready?",
      "WAIT ^ T ^ 7", "WAIT ^ T ^ 7"]
    let clock : Timeline := {}
    (∃ q u, (r.withSurface (some "surface")).run (r.planAbort b 5) lines [] = some q ∧
      (r.withSurface none).run (r.planAbort b 5) lines [] = some u ∧ q.Marshals "surface" u ∧
      q.summary.failed = 1 ∧ q.summary.cancelled = 2 ∧ q.summary.elapsed = 5 ∧
      q.trace.events .surface = [.surfacePanicked "surface"] ∧ u.trace.events .surface = []) ∧
    some ([Effect.report .surface (.surfacePanicked "surface")], Ending.failed (.surfaceUnavailable "surface"), clock) =
      (Surface.invoke { name := "surface" } clock ⟨[]⟩ Reply.panicked.job).map fun (response, clock, s) =>
        (s.events.map (Effect.report .surface), .ofResponse .ok "Fault" response, clock) := by
  let presenter : Presenter := .custom fun _ title _ => if title = "Fault" then .panicked else .answered .yes
  let r := (Runner.open ⟨{ Station.ofSettings {} with presenter }, 100⟩ {} .accepting ⟨0⟩ {}).1
  let b := (Runner.open ⟨{ Station.ofSettings {} with presenter }, 100⟩ {} .accepting ⟨0⟩ {}).2
  let lines := ["SHOW_DIALOG ^ OPERATOR ^ OK ^ Fault ^ Look", "SHOW_DIALOG ^ OPERATOR ^ YES_NO ^ Lens ^ Ready?",
    "WAIT ^ T ^ 7", "WAIT ^ T ^ 7"]
  have hreplies : r.interpreter.station.AlwaysReplies := by
    intro input instruction hnever
    cases instruction
    case dialog kind title message =>
      have hreply : (if title = "Fault" then Reply.panicked else .answered .yes) = .unanswered := hnever
      split at hreply <;> cases hreply
    all_goals exact hnever
  have ⟨hruns, hrequests⟩ := run_marshalled r hreplies "surface"
  have ⟨q, u, hq, hu, hmarshals⟩ := hruns (r.planAbort b 5) lines []
  have hqsummary : ((r.withSurface (some "surface")).run (r.planAbort b 5) lines []).map
      (fun q => (q.summary.failed, q.summary.cancelled, q.summary.elapsed, q.trace.events .surface)) =
        some (1, 2, 5, [.surfacePanicked "surface"]) := by
    decide +kernel
  have husurface : ((r.withSurface none).run (r.planAbort b 5) lines []).map (·.trace.events .surface) = some [] := by
    decide +kernel
  rw [hq] at hqsummary
  rw [hu] at husurface
  simp only [Option.map_some, Option.some.injEq, Prod.mk.injEq] at hqsummary husurface
  have ⟨hfailed, hcancelled, helapsed, hsurface⟩ := hqsummary
  refine ⟨⟨q, u, hq, hu, hmarshals, hfailed, hcancelled, helapsed, hsurface, husurface⟩, ?_⟩
  exact hrequests {} (.initial "surface" {}) ⟨[]⟩ .ok "Fault" .panicked .refl ⟨nofun, rfl, rfl⟩ nofun

end Runner

end StationScript
