import StationScript.Proofs.Atomicity
import StationScript.Proofs.Causes
import StationScript.Proofs.PlainText

namespace StationScript

open Text (nextLine readLines withoutEnd)

namespace Text

variable {cs : List Char}

theorem trim_dropReturn (cs : List Char) : trim (dropReturn cs) = trim cs := by
  unfold dropReturn
  split
  case isFalse => rfl
  case isTrue h =>
    have hreturn : ∀ c ∈ ['\r'], isBlank c := List.forall_mem_singleton.2 rfl
    rw [← trim_append_blank hreturn, List.dropLast_append_getLast? _ h]

-- The end of a line is white space.
theorem trim_withoutEnd (cs : List Char) : trim (withoutEnd cs) = trim cs := by
  unfold withoutEnd
  split
  case isFalse => rfl
  case isTrue h =>
    have hfeed : ∀ c ∈ ['\n'], isBlank c := List.forall_mem_singleton.2 rfl
    rw [trim_dropReturn, ← trim_append_blank hfeed, List.dropLast_append_getLast? _ h]

theorem nextLine_append (cs : List Char) : (nextLine cs).1 ++ (nextLine cs).2 = cs := by
  rw [nextLine, List.append_assoc, List.take_append_drop, List.takeWhile_append_dropWhile]

theorem typed_ofList (cs : List Char) :
    Typed.lines (String.ofList cs) = (readLines cs).map fun line => .text (String.ofList line) := by
  rw [Typed.lines, Text.lines, ← readLines_eq, String.toList_ofList, List.map_map]
  rfl

end Text

namespace Terminal

-- What the operator is asked.
structure Question where
  kind : DialogKind
  title : String
  message : String

def Question.text (q : Question) : String :=
  question q.kind q.title q.message

-- What a line decides, if it is a word for yes or no. White space around it and the case of ASCII letters do not
-- matter.
inductive Decides (line : String) : Answer → Prop
  | yes (h : (Text.trimmed line).map Char.toLower ∈ ["y", "yes"]) : Decides line .yes
  | no (h : (Text.trimmed line).map Char.toLower ∈ ["n", "no"]) : Decides line .no

-- A dialog on the text that was not read yet, round by round. Every round shows the question and reads up to a line
-- feed, or to the end of the text. If there is nothing left to read, the dialog is given up.
inductive Converses (thread : Thread) (q : Question) : (typed : List Char) → Showing → (left : List Char) → Prop
  | closed : Converses thread q [] ⟨[.prompt q.text], .failed (.inputClosed q.title)⟩ []
  | answered {typed : List Char} {a : Answer} (hne : typed ≠ [])
    (h : answer? q.kind (String.ofList (nextLine typed).1) = some a) :
    Converses thread q typed ⟨[.prompt q.text, .takeLine], .answered a⟩ (nextLine typed).2
  | rejected {typed left : List Char} {s : Showing} (hne : typed ≠ [])
    (h : answer? q.kind (String.ofList (nextLine typed).1) = none)
    (hrest : Converses thread q (nextLine typed).2 s left) :
    Converses thread q typed (s.after [.prompt q.text, .takeLine, .report thread .answerRejected]) left

-- Dialogs one after another, each on the text that the one before left.
inductive ConverseAll (thread : Thread) : List Question → (typed : List Char) → List Showing → (left : List Char) → Prop
  | nil (typed : List Char) : ConverseAll thread [] typed [] typed
  | cons {q : Question} {qs : List Question} {typed left last : List Char} {s : Showing} {ss : List Showing}
    (h : Converses thread q typed s left) (hrest : ConverseAll thread qs left ss last) :
    ConverseAll thread (q :: qs) typed (s :: ss) last

-- The lines that a dialog takes out of those that are there, and what comes of it.
inductive Serves (thread : Thread) (q : Question) : (taken left : List Typed) → Showing → Prop
  -- One line confirms, whatever it says.
  | confirmed {line : String} {left : List Typed} {s : Showing} (hkind : q.kind = .ok)
    (hreply : s.reply = .answered .ok) (hwarned : Trace.events s.effects thread = []) :
    Serves thread q [.text line] left s
  -- A question takes lines up to the first that decides it, and warns of each one before.
  | decided {rejected : List String} {left : List Typed} {line : String} {a : Answer} {s : Showing}
    (hkind : q.kind = .yesNo) (hrejected : ∀ r ∈ rejected, ∀ a, ¬Decides r a) (hline : Decides line a)
    (hreply : s.reply = .answered a)
    (hwarned : Trace.events s.effects thread = List.replicate rejected.length .answerRejected) :
    Serves thread q (rejected.map .text ++ [.text line]) left s
  -- Where no line decides, or none is there to confirm, all are taken, and there is an error instead of an answer.
  | closed {taken : List String} {s : Showing} (hkind : q.kind = .ok → taken = [])
    (hrejected : ∀ r ∈ taken, ∀ a, ¬Decides r a) (hreply : s.reply = .failed (.inputClosed q.title))
    (hwarned : Trace.events s.effects thread = List.replicate taken.length .answerRejected) :
    Serves thread q (taken.map .text) [] s
  -- A line that is no text is taken as well, with an error.
  | unreadable {rejected : List String} {left : List Typed} {s : Showing} (hkind : q.kind = .ok → rejected = [])
    (hrejected : ∀ r ∈ rejected, ∀ a, ¬Decides r a) (hreply : s.reply = .failed .inputNotText)
    (hwarned : Trace.events s.effects thread = List.replicate rejected.length .answerRejected) :
    Serves thread q (rejected.map .text ++ [.binary]) left s

-- The lines that dialogs take one after another. What is left by one is there for those behind it.
inductive Shares (thread : Thread) : List Question → List (List Typed) → List Showing → (left : List Typed) → Prop
  | nil (left : List Typed) : Shares thread [] [] [] left
  | cons {q : Question} {qs : List Question} {taken left : List Typed} {parts : List (List Typed)} {s : Showing}
    {ss : List Showing} (h : Serves thread q taken (parts.flatten ++ left) s) (hrest : Shares thread qs parts ss left) :
    Shares thread (q :: qs) (taken :: parts) (s :: ss) left

variable {thread : Thread} {q : Question} {line : String} {a : Answer}

theorem answer?_yesNo_eq_some_iff : answer? .yesNo line = some a ↔ Decides line a := by
  constructor
  · unfold answer?
    intro h
    split at h
    case h_1 hkind => cases hkind
    case h_2 hword | h_3 hword =>
      cases h
      exact .yes (by simp [hword])
    case h_4 hword | h_5 hword =>
      cases h
      exact .no (by simp [hword])
    case h_6 => cases h
  · rintro (h | h)
    all_goals
      simp only [List.mem_cons, List.not_mem_nil, or_false] at h
      rcases h with h | h <;> simp [answer?, h]

theorem answer?_yesNo_eq_none_iff : answer? .yesNo line = none ↔ ∀ a, ¬Decides line a := by
  simp only [Option.eq_none_iff_forall_ne_some, ne_eq, answer?_yesNo_eq_some_iff]

-- The end of a line does not matter to its answer.
theorem answer?_withoutEnd (kind : DialogKind) (cs : List Char) :
    answer? kind (String.ofList (withoutEnd cs)) = answer? kind (String.ofList cs) := by
  have htrimmed : Text.trimmed (String.ofList (withoutEnd cs)) = Text.trimmed (String.ofList cs) := by
    simp only [Text.trimmed, String.toList_ofList, Text.trim_withoutEnd]
  simp only [answer?, htrimmed]

theorem linesTaken_after (s : Showing) (event : Event) (text : String) :
    Trace.linesTaken (s.after [.prompt text, .takeLine, .report thread event]).effects =
      Trace.linesTaken s.effects + 1 := by
  rw [Showing.after, Trace.linesTaken_append, Nat.add_comm]
  rfl

theorem events_after (s : Showing) (event : Event) (text : String) :
    Trace.events (s.after [.prompt text, .takeLine, .report thread event]).effects thread =
      event :: Trace.events s.effects thread := by
  rw [Showing.after, Trace.events_append]
  simp [Trace.events, Effect.event?, List.filterMap_cons]

def Question.ask (q : Question) (thread : Thread) (typed : List Typed) : Showing :=
  Terminal.ask thread q.kind q.title q.message typed

variable {taken left typed : List Typed} {s : Showing}

theorem Question.ask_of_answer (h : answer? q.kind line = some a) :
    q.ask thread (.text line :: typed) = ⟨[.prompt q.text, .takeLine], .answered a⟩ := by
  rw [ask, Terminal.ask, h]
  rfl

theorem Question.ask_of_rejected (h : answer? q.kind line = none) :
    q.ask thread (.text line :: typed) =
      (q.ask thread typed).after [.prompt q.text, .takeLine, .report thread .answerRejected] := by
  rw [ask, Terminal.ask, h]
  rfl

-- A line that decides nothing is taken in front of the others, with one warning more.
theorem Serves.rejected (hkind : q.kind = .yesNo) (hline : ∀ a, ¬Decides line a) (h : Serves thread q taken left s) :
    Serves thread q (.text line :: taken) left
      (s.after [.prompt q.text, .takeLine, .report thread .answerRejected]) := by
  have hevents : Trace.events (s.after [.prompt q.text, .takeLine, .report thread .answerRejected]).effects thread =
      .answerRejected :: Trace.events s.effects thread :=
    events_after s .answerRejected q.text
  cases h
  case confirmed hok _ _ => cases hkind.symm.trans hok
  case decided rejected last a _ hrejected hlast hreply hwarned =>
    rw [hwarned] at hevents
    rw [← List.cons_append, ← List.map_cons]
    exact .decided hkind (List.forall_mem_cons.2 ⟨hline, hrejected⟩) hlast hreply hevents
  case closed _ hrejected hreply hwarned =>
    rw [hwarned] at hevents
    rw [← List.map_cons]
    exact .closed (fun hok => nomatch hkind.symm.trans hok) (List.forall_mem_cons.2 ⟨hline, hrejected⟩) hreply hevents
  case unreadable _ hrejected hreply hwarned =>
    rw [hwarned] at hevents
    rw [← List.cons_append, ← List.map_cons]
    exact .unreadable (fun hok => nomatch hkind.symm.trans hok) (List.forall_mem_cons.2 ⟨hline, hrejected⟩) hreply
      hevents

theorem serves_ask (thread : Thread) (q : Question) (typed : List Typed) :
    Serves thread q (typed.take (Trace.linesTaken (q.ask thread typed).effects))
      (typed.drop (Trace.linesTaken (q.ask thread typed).effects)) (q.ask thread typed) := by
  induction typed
  case nil =>
    rw [List.take_nil, List.drop_nil]
    exact .closed (fun _ => rfl) (List.forall_mem_nil _) rfl rfl
  case cons line rest ih =>
    cases line
    case binary =>
      have hunreadable : Serves thread q (([] : List String).map .text ++ [.binary]) rest
          ⟨[.prompt q.text, .takeLine], .failed .inputNotText⟩ :=
        .unreadable (fun _ => rfl) (List.forall_mem_nil _) rfl rfl
      exact hunreadable
    case text line =>
      cases ha : answer? q.kind line
      case some a =>
        rw [Question.ask_of_answer ha]
        cases hkind : q.kind <;> rw [hkind] at ha
        case ok =>
          cases ha
          exact .confirmed hkind rfl rfl
        case yesNo =>
          have hdecided : Serves thread q (([] : List String).map .text ++ [.text line]) rest
              ⟨[.prompt q.text, .takeLine], .answered a⟩ :=
            .decided hkind (List.forall_mem_nil _) (answer?_yesNo_eq_some_iff.1 ha) rfl rfl
          exact hdecided
      case none =>
        have hkind : q.kind = .yesNo := by
          cases hkind : q.kind
          case ok    => rw [hkind] at ha; cases ha
          case yesNo => rfl
        rw [Question.ask_of_rejected ha, linesTaken_after]
        exact ih.rejected hkind (answer?_yesNo_eq_none_iff.1 (hkind ▸ ha))

variable {qs : List Question} {cs ds : List Char} {s' : Showing} {ss ss' : List Showing} {left' : List Char}

-- The lines of the text that was not read yet are what is typed from now on.
theorem exists_converses (thread : Thread) (q : Question) (cs : List Char) :
    ∃ ds, ds <:+ cs ∧ Converses thread q cs (q.ask thread (Typed.lines (.ofList cs))) ds ∧
      Typed.lines (.ofList ds) =
        (Typed.lines (.ofList cs)).drop (Trace.linesTaken (q.ask thread (Typed.lines (.ofList cs))).effects) := by
  simp only [Text.typed_ofList]
  fun_induction readLines cs
  case case1 => exact ⟨[], List.suffix_rfl, .closed, by rw [Text.readLines_nil]; rfl⟩
  case case2 c cs ih =>
    have hne : c :: cs ≠ [] := List.cons_ne_nil c cs
    have hsuffix : (nextLine (c :: cs)).2 <:+ c :: cs := ⟨_, Text.nextLine_append (c :: cs)⟩
    rw [List.map_cons]
    cases ha : answer? q.kind (.ofList (nextLine (c :: cs)).1)
    case some a =>
      rw [Question.ask_of_answer (by rwa [answer?_withoutEnd])]
      exact ⟨_, hsuffix, .answered hne ha, rfl⟩
    case none =>
      have ⟨ds, hds, hconverses, hleft⟩ := ih
      rw [Question.ask_of_rejected (by rwa [answer?_withoutEnd]), linesTaken_after, List.drop_succ_cons]
      exact ⟨ds, hds.trans hsuffix, .rejected hne ha hconverses, hleft⟩

-- What was read and what was typed leave no choice.
theorem Converses.deterministic (h : Converses thread q cs s ds) {es : List Char} (h' : Converses thread q cs s' es) :
    s = s' ∧ ds = es := by
  induction h generalizing s' es
  case closed =>
    cases h'
    case closed          => exact ⟨rfl, rfl⟩
    case answered hne _  => exact absurd rfl hne
    case rejected hne _ _ => exact absurd rfl hne
  case answered hne ha =>
    cases h'
    case closed            => exact absurd rfl hne
    case answered _ ha'    => cases ha.symm.trans ha'; exact ⟨rfl, rfl⟩
    case rejected _ ha' _  => cases ha.symm.trans ha'
  case rejected hne ha _ ih =>
    cases h'
    case closed              => exact absurd rfl hne
    case answered _ ha'      => cases ha.symm.trans ha'
    case rejected _ _ hrest' =>
      obtain ⟨rfl, rfl⟩ := ih hrest'
      exact ⟨rfl, rfl⟩

-- Dialogs one after another, on the lines that are left by those before, with what is left by the last.
def askAll (thread : Thread) : List Question → List Typed → List Showing × List Typed
  | [], typed => ([], typed)
  | q :: qs, typed =>
    let rest := askAll thread qs (typed.drop (Trace.linesTaken (q.ask thread typed).effects))
    (q.ask thread typed :: rest.1, rest.2)

theorem exists_converseAll (thread : Thread) (qs : List Question) (cs : List Char) :
    ∃ ds, ds <:+ cs ∧ ConverseAll thread qs cs (askAll thread qs (Typed.lines (.ofList cs))).1 ds ∧
      Typed.lines (.ofList ds) = (askAll thread qs (Typed.lines (.ofList cs))).2 := by
  induction qs generalizing cs
  case nil => exact ⟨cs, List.suffix_rfl, .nil cs, rfl⟩
  case cons q qs ih =>
    have ⟨ds, hds, hfirst, hleft⟩ := exists_converses thread q cs
    have ⟨es, hes, hrest, hlast⟩ := ih ds
    rw [hleft] at hrest hlast
    exact ⟨es, hes.trans hds, .cons hfirst hrest, hlast⟩

theorem ConverseAll.deterministic (h : ConverseAll thread qs cs ss ds) {es : List Char}
    (h' : ConverseAll thread qs cs ss' es) : ss = ss' ∧ ds = es := by
  induction h generalizing ss' es
  case nil => cases h'; exact ⟨rfl, rfl⟩
  case cons hfirst _ ih =>
    cases h'
    case cons hfirst' hrest' =>
      obtain ⟨rfl, rfl⟩ := hfirst.deterministic hfirst'
      obtain ⟨rfl, rfl⟩ := ih hrest'
      exact ⟨rfl, rfl⟩

-- Every line is taken by one dialog, or left by all of them.
theorem shares_askAll (thread : Thread) (qs : List Question) (typed : List Typed) :
    ∃ parts : List (List Typed), typed = parts.flatten ++ (askAll thread qs typed).2 ∧
      Shares thread qs parts (askAll thread qs typed).1 (askAll thread qs typed).2 := by
  induction qs generalizing typed
  case nil => exact ⟨[], rfl, .nil typed⟩
  case cons q qs ih =>
    have hfirst := serves_ask thread q typed
    have hsplit := List.take_append_drop (Trace.linesTaken (q.ask thread typed).effects) typed
    have ⟨parts, hrest, hshares⟩ := ih (typed.drop (Trace.linesTaken (q.ask thread typed).effects))
    rw [hrest] at hfirst
    refine ⟨_ :: parts, ?_, .cons hfirst hshares⟩
    rw [List.flatten_cons, List.append_assoc]
    exact hsplit.symm.trans (congrArg _ hrest)

end Terminal

open Terminal

def Terminal.Question.instruction (q : Question) : Instruction :=
  .dialog q.kind q.title q.message

-- What becomes of a line that asks at the terminal, and the lines that it takes.
structure Outcome.Asked (i : Interpreter) (b : Bench) (trigger : Trigger) (q : Question) (taken : List Typed)
    (s : Showing) (o : Outcome) : Prop where
  input    : b.input = taken ++ o.bench.input
  serves   : Serves i.station.dialogThread q taken o.bench.input s
  shown    : s.effects <:+: o.trace
  success  : o.execution.success ↔ s.reply = .answered .ok ∨ s.reply = .answered .yes
  -- Only the answer No cancels anything.
  timeline : o.bench.timeline = if s.reply = .answered .no then b.timeline.fire trigger else b.timeline
  refused  : ∀ e, s.reply = .failed e → ∃ text, o.trace.closing? = some (.commandFailed text e.message)

namespace Trace

theorem linesTaken_eq_zero {t : Trace} (h : .takeLine ∉ t) : t.linesTaken = 0 := by
  induction t
  case nil => rfl
  case cons e rest ih =>
    have hzero : e.linesTaken = 0 := by
      cases e
      case takeLine => exact absurd (List.mem_cons_self ..) h
      all_goals rfl
    rw [linesTaken, List.foldr_cons, hzero, Nat.zero_add]
    exact ih fun he => h (List.mem_cons_of_mem _ he)

end Trace

namespace Station

variable {st : Station} {delay : Nat} {typed taken left : List Typed} {instruction : Instruction} {q : Question}
  {kind : DialogKind} {title message : String}

theorem alwaysReplies_of_terminal (hp : st.presenter = .terminal) : st.AlwaysReplies := by
  intro typed instruction h
  cases instruction
  case dialog =>
    simp only [NeverAnswers, hp] at h
    exact Presenter.terminal_ask_ne_unanswered h
  all_goals exact h

theorem ask_of_terminal (hp : st.presenter = .terminal) (thread : Thread) (kind : DialogKind)
    (title message : String) (typed : List Typed) :
    st.presenter.ask thread kind title message typed = Question.ask ⟨kind, title, message⟩ thread typed := by
  rw [hp]
  rfl

-- The plan shows the question, and ends as the reply says.
theorem plan_of_serves (hp : st.presenter = .terminal) (delay : Nat)
    (h : Serves st.dialogThread q taken left (q.ask st.dialogThread typed)) :
    (st.plan delay typed q.instruction).effects = (q.ask st.dialogThread typed).effects ∧
      (((q.ask st.dialogThread typed).reply = .answered .ok ∨ (q.ask st.dialogThread typed).reply = .answered .yes) ∧
          (st.plan delay typed q.instruction).verdict = .done ∨
        (q.ask st.dialogThread typed).reply = .answered .no ∧
          (st.plan delay typed q.instruction).verdict = .declined q.title ∨
        ∃ e, (q.ask st.dialogThread typed).reply = .failed e ∧
          (st.plan delay typed q.instruction).verdict = .failed e) := by
  have hplan : st.plan delay typed q.instruction =
      (st.ofReply q.kind q.title (q.ask st.dialogThread typed).reply).after (q.ask st.dialogThread typed).effects := by
    simp only [plan, Question.instruction, dialog, ask_of_terminal hp]
  rw [hplan]
  cases h
  case confirmed hkind hreply _ =>
    rw [hreply, hkind]
    exact ⟨List.append_nil _, .inl ⟨.inl rfl, rfl⟩⟩
  case decided hkind _ hline hreply _ =>
    rw [hreply, hkind]
    cases hline
    case yes => exact ⟨List.append_nil _, .inl ⟨.inr rfl, rfl⟩⟩
    case no  => exact ⟨List.append_nil _, .inr (.inl ⟨rfl, rfl⟩)⟩
  case closed _ _ hreply _ | unreadable _ _ hreply _ =>
    rw [hreply]
    exact ⟨List.append_nil _, .inr (.inr ⟨_, rfl, rfl⟩)⟩

-- Nothing but a dialog takes what is typed.
theorem takeLine_not_mem_plan (h : ∀ q : Question, instruction ≠ q.instruction) :
    .takeLine ∉ (st.plan delay typed instruction).effects := by
  cases instruction
  case dialog kind title message => exact absurd rfl (h ⟨kind, title, message⟩)
  case read                      => simp [plan, read, lookUp, Plan.andThen]
  all_goals exact fun he => plan_ofDevice he trivial

end Station

namespace Interpreter

variable {i : Interpreter} {b : Bench} {line : String} {token : Token} {trigger : Trigger} {o : Outcome} {q : Question}

theorem execute_input (ho : i.execute b line token trigger = some o) :
    o.bench.input = b.input.drop o.trace.linesTaken := by
  by_cases hl : b.isCancelled token
  case pos => rw [execute_of_isCancelled hl] at ho; cases ho; rfl
  case neg =>
    rcases outcome_cases hl ho with ⟨_, rfl⟩ | ⟨c, _, _, rfl⟩ | ⟨c, v, p, _, _, _, rfl⟩
    · simp [Bench.reportOnly]
    · rfl
    · rfl

theorem execute_input_of_no_dialog (h : ∀ q : Question, instruction? line ≠ some q.instruction)
    (ho : i.execute b line token trigger = some o) : o.bench.input = b.input := by
  have htake : .takeLine ∉ o.trace := by
    intro he
    rcases mem_trace_of_execute ho he with ⟨_, heq⟩ | ⟨instruction, hi, hplan⟩
    · cases heq
    · exact Station.takeLine_not_mem_plan (fun q heq => h q (heq ▸ hi)) hplan
  rw [execute_input ho, Trace.linesTaken_eq_zero htake, List.drop_zero]

-- A line whose plan takes no time is closed as the plan ends.
theorem exists_execute_of_instant {c : Command} {v : Verb} (hl : ¬b.isCancelled token)
    (hc : Line.ofString line = .command c) (hv : Verb.ofName? c.name = some v)
    (hinstant : ∀ e ∈ (i.plan b.input c v).effects, e.IsInstant) (trigger : Trigger) :
    let ending := Ending.ofVerdict true (i.plan b.input c v).verdict
    ∃ o, i.execute b line token trigger = some o ∧
      o.trace = .report .main (.executing v c.text) :: (i.plan b.input c v).effects ++
        (ending.events c.text).map (.report .main) ∧
      o.execution.success = ending.success ∧ o.bench.timeline = ending.signal trigger b.timeline ∧
      o.trace.closing? = some (ending.closing c.text) := by
  intro ending
  let p : Progress := ⟨(i.plan b.input c v).effects, true, b.timeline⟩
  have ho : i.execute b line token trigger = some (i.outcome b c v trigger p) := by
    rw [execute_of_command hl hc hv, runCommand_eq, Timeline.follow_of_instant hinstant]
    rfl
  exact ⟨_, ho, rfl, rfl, rfl, outcome_closing?⟩

-- A plan with a dialog ends as the reply to it says, and fires the trigger only for the answer No.
theorem ending_of_serves {taken left typed : List Typed} (hp : i.station.presenter = .terminal) (delay : Nat)
    (h : Serves i.station.dialogThread q taken left (q.ask i.station.dialogThread typed)) :
    let reply := (q.ask i.station.dialogThread typed).reply
    let ending := Ending.ofVerdict true (i.station.plan delay typed q.instruction).verdict
    (ending.success ↔ reply = .answered .ok ∨ reply = .answered .yes) ∧
      (∀ trigger (t : Timeline), ending.signal trigger t = if reply = .answered .no then t.fire trigger else t) ∧
      ∀ e, reply = .failed e → ending = .failed e := by
  intro reply ending
  rcases (Station.plan_of_serves hp delay h).right with ⟨hreply, hverdict⟩ | ⟨hreply, hverdict⟩ | ⟨e, hreply, hverdict⟩
  case inl =>
    have hending : ending = .completed := congrArg (Ending.ofVerdict true) hverdict
    have hno : reply ≠ .answered .no := by
      intro hno
      rcases hreply with hreply | hreply <;> cases hreply.symm.trans hno
    refine ⟨iff_of_true (congrArg Ending.success hending) hreply, fun _ _ => ?_, fun e he => ?_⟩
    · rw [hending, if_neg hno]
      rfl
    · rcases hreply with hreply | hreply <;> cases hreply.symm.trans he
  case inr.inl =>
    have hending : ending = .declined q.title := congrArg (Ending.ofVerdict true) hverdict
    have hreply : reply = .answered .no := hreply
    refine ⟨by rw [hending, hreply]; simp [Ending.success], fun _ _ => ?_, fun e he => ?_⟩
    · rw [hending, if_pos hreply]
      rfl
    · cases hreply.symm.trans he
  case inr.inr =>
    have hending : ending = .failed e := congrArg (Ending.ofVerdict true) hverdict
    have hreply : reply = .failed e := hreply
    refine ⟨by rw [hending, hreply]; simp [Ending.success], fun _ _ => ?_, fun e' he => ?_⟩
    · rw [hending, hreply, if_neg nofun]
      rfl
    · cases hreply.symm.trans he
      exact hending

theorem exists_execute_asked (hp : i.station.presenter = .terminal) (hl : ¬b.isCancelled token)
    (hi : instruction? line = some q.instruction) (trigger : Trigger) :
    ∃ taken o, i.execute b line token trigger = some o ∧
      o.Asked i b trigger q taken (q.ask i.station.dialogThread b.input) := by
  have ⟨c, v, hc, hv, _⟩ := exists_command_of_instruction hi
  have hplan : i.plan b.input c v = i.station.plan i.settleDelay b.input q.instruction :=
    plan_of_instruction hc hv hi
  have hserves := serves_ask i.station.dialogThread q b.input
  have ⟨hsucceeds, hfires, hfails⟩ := ending_of_serves hp i.settleDelay hserves
  have heffects := (Station.plan_of_serves hp i.settleDelay hserves).left
  rw [← hplan] at hsucceeds hfires hfails heffects
  have hinstant : ∀ e ∈ (i.plan b.input c v).effects, e.IsInstant := by
    rw [heffects]
    exact fun e he => (Presenter.terminal_ask_effects e he).left
  have ⟨o, ho, htrace, hsuccess, htimeline, hclosing⟩ := exists_execute_of_instant hl hc hv hinstant trigger
  rw [heffects] at htrace
  generalize q.ask i.station.dialogThread b.input = s at *
  have hopening : Trace.linesTaken (.report .main (.executing v c.text) :: s.effects) = Trace.linesTaken s.effects :=
    Nat.zero_add _
  have hleft : o.bench.input = b.input.drop (Trace.linesTaken s.effects) := by
    rw [execute_input ho, htrace, Trace.linesTaken_append, Trace.linesTaken_reports, Nat.add_zero, hopening]
  have hinput : b.input = b.input.take (Trace.linesTaken s.effects) ++ o.bench.input := by
    rw [hleft, List.take_append_drop]
  rw [← hleft] at hserves
  have hshown : s.effects <:+: o.trace := ⟨[_], _, htrace.symm⟩
  refine ⟨_, o, ho, ⟨hinput, hserves, hshown, ?success, htimeline.trans (hfires _ _), ?refused⟩⟩
  case success => rwa [hsuccess]
  case refused =>
    intro e he
    rw [hclosing, hfails e he]
    exact ⟨c.text, rfl⟩

end Interpreter

namespace Terminal

variable {thread : Thread} {q : Question} {taken left : List Typed} {s : Showing} {a : Answer}

-- A question is answered Yes or No by a line that says so.
theorem Serves.exists_decides (h : Serves thread q taken left s) (hkind : q.kind = .yesNo)
    (hreply : s.reply = .answered a) : ∃ line, .text line ∈ taken ∧ Decides line a := by
  cases h
  case confirmed hok _ _ => cases hkind.symm.trans hok
  case decided hline hreply' _ =>
    cases hreply.symm.trans hreply'
    exact ⟨_, List.mem_append_right _ (List.mem_singleton_self _), hline⟩
  case closed hreply' _ | unreadable hreply' _ => cases hreply.symm.trans hreply'

end Terminal

namespace Interpreter

variable {i : Interpreter} {b : Bench} {line : String} {token : Token} {trigger : Trigger} {o : Outcome}

theorem execute_input_isSuffix (ho : i.execute b line token trigger = some o) : o.bench.input <:+ b.input := by
  rw [execute_input ho]
  exact List.drop_suffix _ _

-- No line is declined at the terminal unless the operator types No.
theorem exists_decides_of_declines (hp : i.station.presenter = .terminal) (h : i.Declines b line token) :
    ∃ typed, .text typed ∈ b.input ∧ Decides typed .no := by
  have ⟨_, _, _, title, message, _, _, _, _, _, _, hreply⟩ := h
  rw [Station.ask_of_terminal hp] at hreply
  have ⟨typed, htaken, hno⟩ :=
    (serves_ask i.station.dialogThread ⟨.yesNo, title, message⟩ b.input).exists_decides rfl hreply
  exact ⟨typed, List.mem_of_mem_take htaken, hno⟩

end Interpreter

namespace Runner

variable {r : Runner} {b b₀ : Bench} {trigger : Trigger} {token : Token} {row : Row} {rows : List Row} {o : RowOutcome}
  {os : List RowOutcome} {n : Nat}

theorem lineScope_input : (r.lineScope b trigger token).1.input = b.input := by
  unfold lineScope
  split <;> rfl

theorem row_input_isSuffix (ho : r.row b trigger token row = some o) : o.bench.input <:+ b.input := by
  obtain ⟨x, hx, rfl⟩ := exists_execute_of_row ho
  have hinput : (r.lineScope b trigger token).1.input = b.input := lineScope_input
  rw [← hinput]
  exact Interpreter.execute_input_isSuffix hx

-- Rows take what is typed from the front.
theorem course_input_isSuffix (hos : r.course trigger token b rows = some os) (n : Nat) :
    (lastBench b (os.take n)).input <:+ b.input := by
  induction rows generalizing b os n
  case nil =>
    cases hos
    rw [List.take_nil]
    exact List.suffix_rfl
  case cons row rest ih =>
    have ⟨o, ho, hcases⟩ := course_cons_cases hos
    cases n
    case zero => exact List.suffix_rfl
    case succ n =>
      rcases hcases with ⟨_, rfl⟩ | ⟨_, later, hlater, rfl⟩
      · rw [List.take_succ_cons, List.take_nil]
        exact row_input_isSuffix ho
      · exact (ih hlater n).trans (row_input_isSuffix ho)

theorem run_input_isSuffix {lines : List String} {selection : List Nat} {q : RunOutcome}
    (hq : r.run b lines selection = some q) : q.bench.input <:+ b.input := by
  obtain ⟨os, hos, rfl⟩ := exists_course_of_run hq
  have hsuffix := course_input_isSuffix hos os.length
  rwa [List.take_length] at hsuffix

theorem exists_decides_of_declinesAt (hp : r.interpreter.station.presenter = .terminal)
    (hos : r.runCourse b rows = some os) (h : r.RunDeclinesAt b rows os n) :
    ∃ typed, .text typed ∈ b.input ∧ Decides typed .no := by
  have ⟨_, _, _, hd⟩ := h
  have ⟨typed, htyped, hno⟩ := Interpreter.exists_decides_of_declines hp hd
  rw [scopeAt, lineScope_input] at htyped
  exact ⟨typed, (course_input_isSuffix hos n).subset htyped, hno⟩

end Runner

-- Dialogs at the terminal share out what the operator types. Of whatever text, each takes the next line to confirm, or
-- the lines up to the first that decides a question, and what is left is there for the next dialog. Lines are neither
-- lost nor read twice, and where the text ends first there is an error. So it goes for every line of a script that
-- asks, whereas no other line takes anything. The end of the input cancels nothing: that takes an abort, or a No.
theorem typed_lines_are_shared_out :
    (∀ (thread : Thread) (qs : List Question) (text : String), ∃ ss parts left,
      ConverseAll thread qs text.toList ss left ∧
      (∀ ss' left', ConverseAll thread qs text.toList ss' left' → ss = ss' ∧ left = left') ∧
      askAll thread qs (Typed.lines text) = (ss, Typed.lines (.ofList left)) ∧
      Typed.lines text = parts.flatten ++ Typed.lines (.ofList left) ∧
      Shares thread qs parts ss (Typed.lines (.ofList left))) ∧
    Event.answerRejected.level = .warn ∧
    (∀ (i : Interpreter) (b : Bench) (line : String) (token : Token) (trigger : Trigger),
      i.station.presenter = .terminal → ¬b.isCancelled token →
      (∀ q : Question, Interpreter.instruction? line = some q.instruction →
        ∃ taken o, i.execute b line token trigger = some o ∧
          o.Asked i b trigger q taken (q.ask i.station.dialogThread b.input)) ∧
      ((∀ q : Question, Interpreter.instruction? line ≠ some q.instruction) →
        ∃ o, i.execute b line token trigger = some o ∧ o.bench.input = b.input)) ∧
    ∀ (i : Interpreter) (settings : RunnerSettings) (publisher : Publisher) (origin : Instant) (typed : List Typed)
      (r : Runner) (b₀ b : Bench) (lines : List String) (selection : List Nat),
      Runner.open i settings publisher origin { input := typed } = (r, b₀) → i.station.presenter = .terminal →
      r.Session b₀ b → ∃ taken q, r.run b lines selection = some q ∧ b.input = taken ++ q.bench.input ∧
        (q.summary.cancelled ≠ 0 →
          q.bench.timeline.signals.isFired r.abort ∨ ∃ line, .text line ∈ b.input ∧ Decides line .no) := by
  refine ⟨?dialogs, rfl, ?lines, ?runs⟩
  case dialogs =>
    intro thread qs text
    have ⟨left, _, hconverse, hleft⟩ := exists_converseAll thread qs text.toList
    have ⟨parts, hparts, hshares⟩ := shares_askAll thread qs (Typed.lines text)
    rw [String.ofList_toList] at hconverse hleft
    rw [← hleft] at hparts hshares
    exact ⟨_, parts, left, hconverse, fun _ _ => hconverse.deterministic, Prod.ext rfl hleft.symm, hparts, hshares⟩
  case lines =>
    intro i b line token trigger hp hl
    refine ⟨fun q hi => Interpreter.exists_execute_asked hp hl hi trigger, fun hnone => ?_⟩
    have ⟨o, ho⟩ := Interpreter.exists_execute (Station.alwaysReplies_of_terminal hp) b line token trigger
    exact ⟨o, ho, Interpreter.execute_input_of_no_dialog hnone ho⟩
  case runs =>
    intro i settings publisher origin typed r b₀ b lines selection hopen hp hsession
    obtain ⟨rfl, _, htoken, hnew⟩ := Runner.of_open hopen
    have ⟨os, hos⟩ := Runner.exists_runCourse (Station.alwaysReplies_of_terminal hp) b (Row.select lines selection)
    have hq : r.run b lines selection = some (r.report b lines selection os) := by
      rw [Runner.run_eq, hos]
      rfl
    have ⟨taken, htaken⟩ := Runner.run_input_isSuffix hq
    refine ⟨taken, _, hq, htaken.symm, fun hcancelled => ?_⟩
    rcases Runner.run_cancelled htoken (hsession.ready htoken hnew.ready) hq hcancelled with hfired | ⟨os', n, hos', hn⟩
    · exact .inl hfired
    · exact .inr (Runner.exists_decides_of_declinesAt hp hos' hn)

-- A question in mixed case is answered after a line that is not understood, and the input ends under the next one.
theorem typed_lines_are_shared_out_until_closed :
    let confirm : Question := ⟨.ok, "A", "Go on"⟩
    let ask : Question := ⟨.yesNo, "B", "Sure?"⟩
    let text := " \r\nmaybe\n\tYES \r\nn o"
    let i : Interpreter := ⟨.ofSettings { dialog := .prompt }, 100⟩
    let (r, b) := Runner.open i ⟨.run, false⟩ .accepting ⟨0⟩ { input := Typed.lines text }
    (∃ ss parts left, Typed.lines text = parts.flatten ++ left ∧
      Shares .main [confirm, ask, ask, confirm] parts ss left ∧
      ss.map (·.reply) =
        [.answered .ok, .answered .yes, .failed (.inputClosed "B"), .failed (.inputClosed "A")]) ∧
    (∃ taken o, i.execute b "SHOW_DIALOG ^ UI ^ yes_no ^ B ^ Sure?" r.token ⟨⟨7⟩⟩ = some o ∧
      o.Asked i b ⟨⟨7⟩⟩ ask taken (ask.ask .main b.input) ∧ o.execution.success ∧ o.bench.input = [.text "n o"]) ∧
    ∃ taken q, r.run b ["SHOW_DIALOG ^ UI ^ YES_NO ^ B ^ Sure?", "SHOW_DIALOG ^ UI ^ YES_NO ^ B ^ Sure?"] [] = some q ∧
      b.input = taken ++ q.bench.input ∧ q.summary.failed = 1 ∧ q.summary.cancelled = 0 := by
  intro confirm ask text i
  have hasked : Interpreter.instruction? "SHOW_DIALOG ^ UI ^ yes_no ^ B ^ Sure?" = some ask.instruction := by
    decide +kernel
  have hp : i.station.presenter = .terminal := Station.ofSettings_presenter _
  let r := (Runner.open i ⟨.run, false⟩ .accepting ⟨0⟩ { input := Typed.lines text }).1
  let b := (Runner.open i ⟨.run, false⟩ .accepting ⟨0⟩ { input := Typed.lines text }).2
  have ⟨hdialogs, _, hlines, hruns⟩ := typed_lines_are_shared_out
  refine ⟨?dialogs, ?line, ?run⟩
  case dialogs =>
    have ⟨ss, parts, left, _, _, hask, hparts, hshares⟩ := hdialogs .main [confirm, ask, ask, confirm] text
    have hreplies : (askAll .main [confirm, ask, ask, confirm] (Typed.lines text)).1.map (·.reply) =
        [.answered .ok, .answered .yes, .failed (.inputClosed "B"), .failed (.inputClosed "A")] := by
      decide +kernel
    rw [hask] at hreplies
    exact ⟨ss, parts, _, hparts, hshares, hreplies⟩
  case line =>
    have ⟨taken, o, ho, hasks⟩ := (hlines i b _ r.token ⟨⟨7⟩⟩ hp (by decide +kernel)).left ask hasked
    have hend : (i.execute b "SHOW_DIALOG ^ UI ^ yes_no ^ B ^ Sure?" r.token ⟨⟨7⟩⟩).map
        (fun o => (o.execution.success, o.bench.input)) = some (true, [.text "n o"]) := by
      decide +kernel
    rw [ho] at hend
    have hthread : i.station.dialogThread = .main := by decide +kernel
    rw [hthread] at hasks
    exact ⟨taken, o, ho, hasks, by simpa using hend⟩
  case run =>
    have ⟨taken, q, hq, htaken, _⟩ := hruns i ⟨.run, false⟩ .accepting ⟨0⟩ (Typed.lines text) r b b
      ["SHOW_DIALOG ^ UI ^ YES_NO ^ B ^ Sure?", "SHOW_DIALOG ^ UI ^ YES_NO ^ B ^ Sure?"] [] rfl hp .start
    have hend : (r.run b ["SHOW_DIALOG ^ UI ^ YES_NO ^ B ^ Sure?", "SHOW_DIALOG ^ UI ^ YES_NO ^ B ^ Sure?"] []).map
        (fun q => (q.summary.failed, q.summary.cancelled)) = some (1, 0) := by
      decide +kernel
    rw [hq] at hend
    exact ⟨taken, q, hq, htaken, by simpa using hend⟩

end StationScript
