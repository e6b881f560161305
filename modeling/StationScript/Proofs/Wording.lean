import Mathlib.Logic.Relation
import StationScript.Proofs.Accounts
import StationScript.Proofs.Fields

namespace StationScript

open Text

-- The fields of two commands are the same.
structure Command.SaysSame (c d : Command) : Prop where
  name       : c.name = d.name
  target     : c.target = d.target
  parameters : c.parameters = d.parameters

-- Neither line is a command, or both are and have the same fields.
def Synonymous (l m : String) : Prop :=
  Option.Rel Command.SaysSame (Command.parse? l) (Command.parse? m)

namespace Command

variable {c d : Command} {cs ds ws : List Char} {l m : String}

theorem SaysSame.instruction_eq (h : c.SaysSame d) (v : Verb) : c.instruction v = d.instruction v := by
  have ⟨_, _, _, _, _⟩ := c
  have ⟨_, _, _, _, _⟩ := d
  have ⟨hname, htarget, hparameters⟩ := h
  cases hname
  cases htarget
  cases hparameters
  cases v <;> rfl

theorem SaysSame.describe_eq (h : c.SaysSame d) (success : Bool) (output : Option String) :
    Execution.describe ⟨success, some { c with output }⟩ = Execution.describe ⟨success, some { d with output }⟩ := by
  cases success
  case false => rfl
  case true  => simp only [Execution.describe, Command.parameter?, h.name, h.parameters]

-- The fields of a line.
def said (line : List Char) : List (List Char) :=
  fields (beforeComment line)

-- A separator takes a line apart, unless it stands in a comment.
theorem said_append_cons (cs ds : List Char) :
    said (cs ++ '^' :: ds) = said cs ++ if Uncommented cs then said ds else [] := by
  by_cases h : Uncommented cs
  case pos =>
    rw [if_pos h, said, said, beforeComment_append_cons h (by decide), fields_append, beforeComment_of_uncommented h]
    rfl
  case neg => rw [if_neg h, List.append_nil, said, beforeComment_append_of_commented h]; rfl

theorem said_cons (ds : List Char) : said ('^' :: ds) = said ds :=
  said_append_cons [] ds

theorem said_blank_append (h : ∀ c ∈ ws, isBlank c) (cs : List Char) : said (ws ++ cs) = said cs := by
  rw [said, beforeComment_blank_append h, fields_blank_append h]
  rfl

theorem uncommented_append_blank (h : ∀ c ∈ ws, isBlank c) : Uncommented (cs ++ ws) ↔ Uncommented cs :=
  ⟨fun hcs => hcs.of_isInfix (List.prefix_append ..).isInfix, fun hcs => hcs.append_blank h⟩

theorem said_append_blank (h : ∀ c ∈ ws, isBlank c) (cs : List Char) : said (cs ++ ws) = said cs := by
  by_cases hcs : Uncommented cs
  case pos =>
    rw [said, said, beforeComment_of_uncommented (hcs.append_blank h), fields_append_blank h,
      beforeComment_of_uncommented hcs]
  case neg => rw [said, beforeComment_append_of_commented hcs]; rfl

theorem said_comment (h : cs.getLast? ≠ some '/') (comment : List Char) : said (cs ++ marker ++ comment) = said cs := by
  by_cases hcs : Uncommented cs
  case pos =>
    rw [said, said, beforeComment_comment (hcs.concat_slash h), beforeComment_of_uncommented hcs]
  case neg =>
    rw [List.append_assoc, said, beforeComment_append_of_commented hcs]
    rfl

-- A change to a line that makes no difference.
inductive Edit : (line changed : List Char) → Prop
  | indentation {ws : List Char} (h : ∀ c ∈ ws, isBlank c) (cs : List Char) : Edit (ws ++ cs) cs
  | trailing {ws : List Char} (h : ∀ c ∈ ws, isBlank c) (cs : List Char) : Edit (cs ++ ws) cs
  -- White space on either side of a separator.
  | beforeMark {ws : List Char} (h : ∀ c ∈ ws, isBlank c) (cs ds : List Char) :
    Edit (cs ++ ws ++ '^' :: ds) (cs ++ '^' :: ds)
  | afterMark {ws : List Char} (h : ∀ c ∈ ws, isBlank c) (cs ds : List Char) :
    Edit (cs ++ '^' :: (ws ++ ds)) (cs ++ '^' :: ds)
  -- An empty field, between others, at the start of a line, and at its end.
  | emptyField (cs ds : List Char) : Edit (cs ++ '^' :: '^' :: ds) (cs ++ '^' :: ds)
  | emptyFirst (cs : List Char) : Edit ('^' :: cs) cs
  | emptyLast (cs : List Char) : Edit (cs ++ ['^']) cs
  -- Another comment, and none. Behind a slash, the comment would start with that.
  | comment (cs text other : List Char) : Edit (cs ++ marker ++ text) (cs ++ marker ++ other)
  | uncomment {cs : List Char} (h : cs.getLast? ≠ some '/') (text : List Char) : Edit (cs ++ marker ++ text) cs

theorem Edit.said_eq (h : Edit cs ds) : said cs = said ds := by
  cases h
  case indentation ws h     => exact said_blank_append h ds
  case trailing ws h        => exact said_append_blank h ds
  case beforeMark ws h _ ds => simp only [said_append_cons, said_append_blank h, uncommented_append_blank h]
  case afterMark ws h _ ds  => rw [said_append_cons, said_append_cons, said_blank_append h]
  case emptyField _ ds      => rw [said_append_cons, said_append_cons, said_cons]
  case emptyFirst           => exact said_cons ds
  case emptyLast =>
    have hnil : said [] = [] := rfl
    simp [said_append_cons, hnil]
  case comment cs text other =>
    have hcs : ¬Uncommented (cs ++ marker) := fun h => h ⟨cs, [], by simp⟩
    rw [said, said, beforeComment_append_of_commented hcs, beforeComment_append_of_commented hcs]
  case uncomment text h => exact said_comment h text

end Command

open Command

-- One line comes from the other by changes that make no difference, in whatever order and direction.
def Respelled (l m : String) : Prop :=
  Relation.EqvGen Edit l.toList m.toList

section

variable {l m : String}

theorem Respelled.said_eq (h : Respelled l m) : said l.toList = said m.toList := by
  unfold Respelled at h
  generalize l.toList = cs, m.toList = ds at h
  induction h
  case rel h              => exact h.said_eq
  case refl               => rfl
  case symm ih            => exact ih.symm
  case trans first second => exact first.trans second

theorem synonymous_of_said_eq (h : said l.toList = said m.toList) : Synonymous l m := by
  unfold Synonymous
  have hcode : fields (Line.code l) = fields (Line.code m) := h
  cases hl : parse? l <;> cases hm : parse? m
  case none.none => exact .none
  case some.some c d =>
    have hc := (parse?_eq_some_iff.1 hl).left
    have hd := (parse?_eq_some_iff.1 hm).left
    have hwords : c.name :: c.target :: c.parameters = d.name :: d.target :: d.parameters :=
      List.map_injective_iff.2 (fun _ _ => String.toList_injective) (hc.symm.trans (hcode.trans hd))
    simp only [List.cons.injEq] at hwords
    exact .some ⟨hwords.left, hwords.right.left, hwords.right.right⟩
  -- Whether a line is a command can be told from the number of its fields.
  case none.some d =>
    have hnone : parse? m = none := parse?_eq_none_iff.2 (hcode ▸ parse?_eq_none_iff.1 hl)
    cases hnone.symm.trans hm
  case some.none c =>
    have hnone : parse? l = none := parse?_eq_none_iff.2 (hcode ▸ parse?_eq_none_iff.1 hm)
    cases hnone.symm.trans hl

theorem Respelled.synonymous (h : Respelled l m) : Synonymous l m :=
  synonymous_of_said_eq h.said_eq

end

namespace Event

def isMalformedLine : Event → Bool
  | malformedLine _ => true
  | _ => false

-- An event without the text of the line that it is about. The warning about text without a command is left out.
def wordless? : Event → Option Event
  | malformedLine _         => none
  | lineSkipped _           => some (lineSkipped "")
  | executing verb _        => some (executing verb "")
  | completed _             => some (completed "")
  | cancelled _             => some (cancelled "")
  | commandFailed _ reason  => some (commandFailed "" reason)
  | handlerPanicked _       => some (handlerPanicked "")
  | lineUnpublished line _  => some (lineUnpublished line "")
  | e                       => some e

theorem wordless?_level (e : Event) :
    e.wordless?.map Event.level = if e.isMalformedLine then none else some e.level := by
  cases e <;> rfl

end Event

def LineRecord.wordless (record : LineRecord) : LineRecord :=
  { record with commandText := "" }

def Effect.wordless? : Effect → Option Effect
  | report thread e        => e.wordless?.map (report thread)
  | publish (.line r)      => some (publish (.line r.wordless))
  | e                      => some e

namespace Trace

variable {t u : Trace}

def wordless (t : Trace) : Trace :=
  t.filterMap Effect.wordless?

-- The levels of the events, but for the warnings about text without a command.
def levels (t : Trace) (thread : Thread) : List Level :=
  ((t.events thread).filter (!·.isMalformedLine)).map Event.level

theorem wordless_append (t u : Trace) : wordless (t ++ u) = t.wordless ++ u.wordless :=
  List.filterMap_append

-- What comes neither of events nor of publications can be told without the text of lines.
theorem filterMap_wordless {α : Type} {f : Effect → Option α} (hreport : ∀ thread e, f (.report thread e) = none)
    (hpublish : ∀ x, f (.publish x) = none) : t.wordless.filterMap f = t.filterMap f := by
  have hone : ∀ e : Effect, e.wordless?.bind f = f e := by
    intro e
    cases e
    case report thread e => cases h : e.wordless? <;> simp [Effect.wordless?, h, hreport]
    case publish x       => cases x <;> simp [Effect.wordless?, hpublish]
    all_goals rfl
  rw [wordless, List.filterMap_filterMap]
  exact congrArg (List.filterMap · t) (funext hone)

theorem changes_wordless (t : Trace) : t.wordless.changes = t.changes :=
  filterMap_wordless (fun _ _ => rfl) fun _ => rfl

theorem actions_wordless (t : Trace) : t.wordless.actions = t.actions :=
  filterMap_wordless (fun _ _ => rfl) fun _ => rfl

theorem captures_wordless (t : Trace) : t.wordless.captures = t.captures :=
  filterMap_wordless (fun _ _ => rfl) fun _ => rfl

theorem linesTaken_wordless (t : Trace) : t.wordless.linesTaken = t.linesTaken := by
  have hone (e : Effect) : linesTaken (wordless [e]) = linesTaken [e] := by
    cases e
    case report thread e =>
      cases h : e.wordless? <;> simp [wordless, Effect.wordless?, linesTaken, Effect.linesTaken, h]
    case publish x => cases x <;> rfl
    all_goals rfl
  induction t
  case nil => rfl
  case cons e rest ih =>
    rw [← List.singleton_append, wordless_append, linesTaken_append, linesTaken_append, hone, ih]

theorem events_wordless (t : Trace) (thread : Thread) :
    t.wordless.events thread = (t.events thread).filterMap Event.wordless? := by
  have hone : ∀ e : Effect, e.wordless?.bind (Effect.event? thread) = (e.event? thread).bind Event.wordless? := by
    intro e
    cases e
    case report reporter e =>
      by_cases hr : reporter = thread <;> cases h : e.wordless? <;> simp [Effect.wordless?, Effect.event?, hr, h]
    case publish x => cases x <;> rfl
    all_goals rfl
  rw [events, wordless, List.filterMap_filterMap, events, List.filterMap_filterMap]
  exact congrArg (List.filterMap · t) (funext hone)

theorem levels_eq (t : Trace) (thread : Thread) : t.levels thread = (t.wordless.events thread).map Event.level := by
  rw [levels, events_wordless]
  induction t.events thread
  case nil => rfl
  case cons e rest ih =>
    have hlevel := e.wordless?_level
    cases h : e.wordless? <;> cases hm : e.isMalformedLine <;> simp_all

end Trace

-- Where the same is done and typed, the bench is the same afterwards.
theorem Bench.advance_congr {b : Bench} {t u : Trace} {timeline : Timeline} (h : t.wordless = u.wordless) :
    b.advance t timeline = b.advance u timeline := by
  simp only [advance, ← t.changes_wordless, ← t.captures_wordless, ← t.linesTaken_wordless, h, u.changes_wordless,
    u.captures_wordless, u.linesTaken_wordless]

-- The outcomes of lines that say the same.
structure Outcome.Reworded (o p : Outcome) : Prop where
  success     : p.execution.success = o.execution.success
  description : p.execution.describe = o.execution.describe
  trace       : p.trace.wordless = o.trace.wordless
  bench       : p.bench = o.bench

namespace Interpreter

variable {i : Interpreter} {b : Bench} {c d : Command} {v : Verb} {l m : String} {token : Token} {trigger : Trigger}

theorem wordless_closing (ending : Ending) (text : String) :
    Trace.wordless ((ending.events text).map (.report .main)) =
      Trace.wordless ((ending.events "").map (.report .main)) := by
  cases ending <;> rfl

theorem outcome_bench {p : Progress} : (i.outcome b c v trigger p).bench =
    b.advance (i.outcome b c v trigger p).trace
      (Ending.signal trigger (Ending.ofVerdict p.finished (i.plan b.input c v).verdict) p.timeline) :=
  rfl

theorem plan_eq_of_saysSame (h : c.SaysSame d) (input : List Typed) (v : Verb) :
    i.plan input c v = i.plan input d v := by
  simp only [plan, h.instruction_eq]

-- Where the plan is the same, the text of the command shows in events only.
theorem outcome_wordless (hplan : i.plan b.input c v = i.plan b.input d v) (p : Progress) :
    (i.outcome b d v trigger p).trace.wordless = (i.outcome b c v trigger p).trace.wordless := by
  simp only [outcome, hplan, Trace.wordless_append]
  rw [wordless_closing _ c.text, wordless_closing _ d.text]
  rfl

theorem outcome_bench_congr (hplan : i.plan b.input c v = i.plan b.input d v) (p : Progress) :
    (i.outcome b d v trigger p).bench = (i.outcome b c v trigger p).bench := by
  rw [outcome_bench, outcome_bench, hplan]
  exact Bench.advance_congr (outcome_wordless hplan p)

theorem outcome_reworded (h : c.SaysSame d) (p : Progress) :
    (i.outcome b c v trigger p).Reworded (i.outcome b d v trigger p) := by
  have hplan : i.plan b.input c v = i.plan b.input d v := plan_eq_of_saysSame h b.input v
  refine ⟨?success, ?description, outcome_wordless hplan p, outcome_bench_congr hplan p⟩
  case success => simp only [outcome, hplan]
  case description =>
    simp only [outcome, hplan]
    exact (h.describe_eq _ _).symm

theorem execute_of_parse?_eq_none (hl : ¬b.isCancelled token) (h : parse? l = none) :
    i.execute b l token trigger = some (b.reportOnly ⟨true, none⟩ (Line.ofString l).warnings) := by
  have hcommand : (Line.ofString l).command? = none := h
  cases hline : Line.ofString l
  case command c => rw [hline] at hcommand; cases hcommand
  all_goals
    simp only [execute, hl, hline]
    rfl

theorem execute_of_parse?_eq_some (hl : ¬b.isCancelled token) (h : parse? l = some c) :
    i.execute b l token trigger =
      match Verb.ofName? c.name with
      | some v => (b.timeline.follow token (i.plan b.input c v).effects).map (i.outcome b c v trigger)
      | none   => some (b.reportOnly ⟨false, some c⟩ [.unknownCommand c.name]) := by
  have hcommand : (Line.ofString l).command? = some c := h
  cases hline : Line.ofString l
  case command c' =>
    rw [hline] at hcommand
    cases hcommand
    simp only [execute, hl, hline, runCommand_eq]
    rfl
  all_goals rw [hline] at hcommand; cases hcommand

theorem wordless_warnings (line : Line) : Trace.wordless (line.warnings.map (.report .main)) = [] := by
  cases line <;> rfl

-- Lines that say the same go the same way.
theorem execute_reworded (h : Synonymous l m) :
    Option.Rel Outcome.Reworded (i.execute b l token trigger) (i.execute b m token trigger) := by
  by_cases hl : b.isCancelled token
  case pos =>
    rw [execute_of_isCancelled hl, execute_of_isCancelled hl]
    exact .some ⟨rfl, rfl, rfl, rfl⟩
  case neg =>
    unfold Synonymous at h
    cases hc : parse? l <;> cases hd : parse? m <;> rw [hc, hd] at h <;> cases h
    case none.none.none =>
      rw [execute_of_parse?_eq_none hl hc, execute_of_parse?_eq_none hl hd]
      exact .some ⟨rfl, rfl, (wordless_warnings _).trans (wordless_warnings _).symm, rfl⟩
    case some.some.some c d h =>
      -- The verb goes by the name, and the plan by the target and the parameters.
      simp only [execute_of_parse?_eq_some hl hc, execute_of_parse?_eq_some hl hd, ← h.name]
      cases Verb.ofName? c.name
      case none => exact .some ⟨rfl, rfl, rfl, rfl⟩
      case some v =>
        simp only [← plan_eq_of_saysSame h b.input v]
        cases b.timeline.follow token (i.plan b.input c v).effects
        case none   => exact .none
        case some p => exact .some (outcome_reworded h p)

end Interpreter

-- Rows at the same position that say the same.
structure Row.SaysSame (row row' : Row) : Prop where
  index : row.index = row'.index
  text  : Synonymous row.text row'.text

-- Whether the publisher takes a record has nothing to do with the text of the line.
def Publisher.IsBlind (p : Publisher) : Prop :=
  ∀ record : LineRecord, (p.line record).isSome = (p.line record.wordless).isSome

-- The outcomes of rows that say the same.
structure RowOutcome.Reworded (publisher : Publisher) (o p : RowOutcome) : Prop where
  record  : p.record.wordless = o.record.wordless
  status  : p.status = o.status
  actions : p.trace.actions = o.trace.actions
  trace   : publisher.IsBlind → p.trace.wordless = o.trace.wordless
  bench   : p.bench = o.bench

namespace Row

variable {xs ys : List String}

theorem ofLines_saysSame (h : List.Forall₂ Synonymous xs ys) :
    List.Forall₂ SaysSame (ofLines xs) (ofLines ys) := by
  unfold ofLines
  generalize 0 = start
  induction h generalizing start
  case nil => exact .nil
  case cons hline _ ih => exact .cons ⟨rfl, hline⟩ (ih (start + 1))

theorem select_saysSame (h : List.Forall₂ Synonymous xs ys) (selection : List Nat) :
    List.Forall₂ SaysSame (select xs selection) (select ys selection) := by
  unfold select
  split
  · exact ofLines_saysSame h
  · refine List.rel_filter (fun row row' hrow => ?_) (ofLines_saysSame h)
    simp only [hrow.index]

theorem warnings_eq (h : List.Forall₂ Synonymous xs ys) (selection : List Nat) :
    warnings xs selection = warnings ys selection := by
  rw [warnings, warnings, h.length_eq]

end Row

namespace Runner

variable {r : Runner} {b : Bench} {trigger : Trigger} {token : Token} {row row' : Row} {os ps : List RowOutcome}
  {o p : RowOutcome} {xs ys : List String}

theorem publishLine_wordless (hblind : r.publisher.IsBlind) {record record' : LineRecord}
    (h : record'.wordless = record.wordless) :
    Trace.wordless (r.publishLine record') = Trace.wordless (r.publishLine record) := by
  have hrefused : (r.publisher.line record').isSome = (r.publisher.line record).isSome := by
    rw [hblind, h, ← hblind]
  have hnumber : record'.number = record.number := congrArg (·.number) h
  unfold publishLine
  cases hp : r.publisher.line record' <;> cases hq : r.publisher.line record <;> simp [hp, hq] at hrefused
  case none.none => simp [Trace.wordless, Effect.wordless?, h]
  case some.some => simp [Trace.wordless, Effect.wordless?, Event.wordless?, h, hnumber]

theorem rowOutcome_reworded (h : row.SaysSame row') {q u : Outcome} (ho : q.Reworded u) :
    (r.rowOutcome b token row q).Reworded r.publisher (r.rowOutcome b token row' u) := by
  have hrecord : (r.lineRecord b row' u.execution).wordless = (r.lineRecord b row q.execution).wordless := by
    simp only [lineRecord, LineRecord.wordless, Row.number, h.index, ho.success, ho.description]
  refine ⟨hrecord, ?status, ?actions, fun hblind => ?trace, ho.bench⟩
  case status  => simp only [rowOutcome, ho.success, ho.bench]
  case actions =>
    simp only [rowOutcome, Trace.actions_append, publishLine_actions]
    rw [← u.trace.actions_wordless, ho.trace, q.trace.actions_wordless]
  case trace =>
    simp only [rowOutcome, Trace.wordless_append]
    rw [ho.trace, publishLine_wordless hblind hrecord]

theorem row_reworded (h : row.SaysSame row') :
    Option.Rel (RowOutcome.Reworded r.publisher) (r.row b trigger token row) (r.row b trigger token row') := by
  rw [row_eq, row_eq]
  exact rel_map_of_rel (Interpreter.execute_reworded h.text) fun _ _ => rowOutcome_reworded h

theorem rowTrace_wordless (h : o.Reworded r.publisher p) (hblind : r.publisher.IsBlind) :
    (r.rowTrace o).wordless = (r.rowTrace p).wordless := by
  have hnumber : p.record.number = o.record.number := congrArg (·.number) h.record
  rw [rowTrace, rowTrace, Trace.wordless_append, Trace.wordless_append, h.trace hblind, h.status, hnumber]

end Runner

-- How the run of a script relates to that of another one, of which each line says the same.
structure RunOutcome.Reworded (publisher : Publisher) (q u : RunOutcome) : Prop where
  -- The records agree on all but the texts of lines.
  records : u.records.map LineRecord.wordless = q.records.map LineRecord.wordless
  summary : u.summary = q.summary
  actions : u.trace.actions = q.trace.actions
  bench   : u.bench = q.bench
  -- The events agree likewise, unless the publisher makes a difference by the texts that it is handed.
  trace   : publisher.IsBlind → u.trace.wordless = q.trace.wordless
  levels  : publisher.IsBlind → ∀ thread, u.trace.levels thread = q.trace.levels thread

namespace Runner

variable {r : Runner} {b : Bench} {os ps : List RowOutcome} {xs ys : List String}

theorem flatMap_rowTrace_wordless (h : List.Forall₂ (RowOutcome.Reworded r.publisher) os ps)
    (hblind : r.publisher.IsBlind) :
    Trace.wordless (os.flatMap r.rowTrace) = Trace.wordless (ps.flatMap r.rowTrace) := by
  have hrows : os.map (fun o => (r.rowTrace o).wordless) = ps.map fun o => (r.rowTrace o).wordless :=
    map_eq_of_forall₂ h fun _ _ ho => rowTrace_wordless ho hblind
  calc Trace.wordless (os.flatMap r.rowTrace)
    _ = os.flatMap fun o => (r.rowTrace o).wordless := List.filterMap_flatMap
    _ = ps.flatMap fun o => (r.rowTrace o).wordless := by rw [List.flatMap_def, hrows, ← List.flatMap_def]
    _ = Trace.wordless (ps.flatMap r.rowTrace)      := List.filterMap_flatMap.symm

theorem report_reworded (hlines : List.Forall₂ Synonymous xs ys) (selection : List Nat)
    (h : List.Forall₂ (RowOutcome.Reworded r.publisher) os ps) :
    (r.report b xs selection os).Reworded r.publisher (r.report b ys selection ps) := by
  have hlast : lastBench (r.enter b).1 os = lastBench (r.enter b).1 ps :=
    lastBench_of_forall₂ (motive := (· = ·)) h rfl fun _ _ ho => ho.bench.symm
  have hstatuses : os.map (·.status) = ps.map (·.status) := map_eq_of_forall₂ h fun _ _ ho => ho.status.symm
  have hsummary : (r.report b ys selection ps).summary = (r.report b xs selection os).summary := by
    simp only [report, hlast, hstatuses]
  have htrace (hblind : r.publisher.IsBlind) :
      (r.report b ys selection ps).trace.wordless = (r.report b xs selection os).trace.wordless := by
    have hrows := flatMap_rowTrace_wordless h hblind
    have hlen : (Row.select xs selection).length = (Row.select ys selection).length :=
      (Row.select_saysSame hlines selection).length_eq
    simp only [report, Trace.wordless_append, hrows, hlen, hlast, hstatuses, Row.warnings_eq hlines]
  refine ⟨?records, hsummary, ?actions, hlast.symm, htrace, fun hblind thread => ?levels⟩
  case records =>
    rw [report, report, List.map_map, List.map_map]
    exact (map_eq_of_forall₂ h fun _ _ ho => ho.record.symm).symm
  case actions =>
    rw [report_actions, report_actions]
    exact (flatMap_actions_congr h fun _ _ ho => ho.actions.symm).symm
  case levels => rw [Trace.levels_eq, Trace.levels_eq, htrace hblind]

-- A run depends on each line only through the fields of the command that it says, if it says one. Comments, white space
-- and empty fields make no difference.
theorem run_depends_on_fields (r : Runner) (b : Bench) (selection : List Nat) :
    (∀ xs ys, List.Forall₂ Synonymous xs ys →
      Option.Rel (RunOutcome.Reworded r.publisher) (r.run b xs selection) (r.run b ys selection)) ∧
    ∀ l m, Respelled l m → Synonymous l m := by
  refine ⟨fun xs ys hlines => ?_, fun _ _ => Respelled.synonymous⟩
  have hcourse : Option.Rel (List.Forall₂ (RowOutcome.Reworded r.publisher)) (r.runCourse b (Row.select xs selection))
      (r.runCourse b (Row.select ys selection)) :=
    course_rel (fun _ _ _ => row_reworded) (fun _ _ ho => ⟨ho.status, ho.bench⟩)
      (Row.select_saysSame hlines selection)
  rw [run_eq, run_eq]
  exact rel_map_of_rel hcourse fun _ _ => report_reworded hlines selection

-- A wait of which the line is respelled, and text without a command in place of an empty line. The warning about that
-- text is all that is different.
theorem run_depends_on_fields_but_warns :
    let (r, b) := Runner.open ⟨.ofSettings {}, 100⟩ {} .accepting ⟨0⟩ {}
    ∃ q u, r.run b ["  WAIT ^ T ^ 7// settle", "DO"] [] = some q ∧ r.run b ["WAIT ^ T ^ 7", ""] [] = some u ∧
      q.Reworded r.publisher u ∧ r.publisher.IsBlind ∧ u.summary.elapsed = 7 ∧
      (q.trace.events .main).length = (u.trace.events .main).length + 1 := by
  let r := (Runner.open ⟨.ofSettings {}, 100⟩ {} .accepting ⟨0⟩ {}).1
  let b := (Runner.open ⟨.ofSettings {}, 100⟩ {} .accepting ⟨0⟩ {}).2
  have ⟨hruns, hlines⟩ := run_depends_on_fields r b []
  have hindentation : Edit "  WAIT ^ T ^ 7// settle".toList "WAIT ^ T ^ 7// settle".toList :=
    @Edit.indentation [' ', ' '] (List.all_eq_true.1 rfl) _
  have hcomment : Edit "WAIT ^ T ^ 7// settle".toList "WAIT ^ T ^ 7".toList :=
    @Edit.uncomment "WAIT ^ T ^ 7".toList (by decide) " settle".toList
  have hwait : Synonymous "  WAIT ^ T ^ 7// settle" "WAIT ^ T ^ 7" :=
    hlines _ _ (.trans _ _ _ (.rel _ _ hindentation) (.rel _ _ hcomment))
  have hdo : parse? "DO" = none ∧ parse? "" = none := by decide
  have hblank : Synonymous "DO" "" := by
    rw [Synonymous, hdo.left, hdo.right]
    exact .none
  have hrel := hruns _ _ (.cons hwait (.cons hblank .nil))
  have hq : (r.run b ["  WAIT ^ T ^ 7// settle", "DO"] []).map (fun q => (q.trace.events .main).length) = some 5 := by
    decide +kernel
  have hu : (r.run b ["WAIT ^ T ^ 7", ""] []).map
      (fun u => ((u.trace.events .main).length, u.summary.elapsed)) = some (4, 7) := by
    decide +kernel
  have ⟨q, hq, hlen⟩ := Option.map_eq_some_iff.1 hq
  have ⟨u, hu, heq⟩ := Option.map_eq_some_iff.1 hu
  rw [hq, hu] at hrel
  cases hrel
  case some hreworded =>
    have ⟨hlen', helapsed⟩ := Prod.ext_iff.1 heq
    exact ⟨q, u, hq, hu, hreworded, fun _ => rfl, helapsed, hlen.trans (congrArg (· + 1) hlen').symm⟩

end Runner

end StationScript
