import Mathlib.Data.List.TakeWhile
import StationScript.CommandLine.Invocation
import StationScript.Proofs.Saving

namespace StationScript

namespace Text

variable {cs p : List Char}

theorem linesOfPieces_ended (hp : '\n' ∉ p) :
    linesOfPieces (split '\n' (p ++ '\n' :: cs)) = dropReturn p :: linesOfPieces (split '\n' cs) := by
  rw [split_append_mark hp]
  rfl

theorem linesOfPieces_last (hp : '\n' ∉ p) : linesOfPieces (split '\n' p) = if p.isEmpty then [] else [p] := by
  rw [split_of_not_mem hp]
  rfl

-- The next line of an input, up to its line feed if there is one, and what is left.
def nextLine (cs : List Char) : List Char × List Char :=
  (cs.takeWhile (· != '\n') ++ (cs.dropWhile (· != '\n')).take 1, (cs.dropWhile (· != '\n')).drop 1)

-- A line without its end. In front of a line feed a carriage return belongs to the end as well.
def withoutEnd (line : List Char) : List Char :=
  if line.getLast? = some '\n' then dropReturn line.dropLast else line

theorem length_nextLine_lt (h : cs ≠ []) : (nextLine cs).2.length < cs.length := by
  have hle : (cs.dropWhile (· != '\n')).length ≤ cs.length := (List.dropWhile_sublist _).length_le
  have hpos : 0 < cs.length := List.length_pos_iff.2 h
  rw [nextLine, List.length_drop]
  omega

-- The lines of an input that is taken in line by line until nothing is left.
def readLines : List Char → List (List Char)
  | [] => []
  | c :: cs => withoutEnd (nextLine (c :: cs)).1 :: readLines (nextLine (c :: cs)).2
termination_by cs => cs.length
decreasing_by exact length_nextLine_lt (List.cons_ne_nil c cs)

theorem readLines_nil : readLines [] = [] := by
  rw [readLines]

theorem readLines_of_ne (h : cs ≠ []) : readLines cs = withoutEnd (nextLine cs).1 :: readLines (nextLine cs).2 := by
  cases cs
  case nil    => exact absurd rfl h
  case cons _ => rw [readLines]

theorem nextLine_ended (hp : '\n' ∉ p) : nextLine (p ++ '\n' :: cs) = (p ++ ['\n'], cs) := by
  have hall : ∀ c ∈ p, (c != '\n') = true := fun c hc => bne_iff_ne.2 fun heq => hp (heq ▸ hc)
  simp [nextLine, List.takeWhile_append_of_pos hall, List.dropWhile_append_of_pos hall]

theorem nextLine_last (hp : '\n' ∉ p) : nextLine p = (p, []) := by
  have hall : ∀ c ∈ p, (c != '\n') = true := fun c hc => bne_iff_ne.2 fun heq => hp (heq ▸ hc)
  simp [nextLine, List.takeWhile_eq_self_iff.2 hall, List.dropWhile_eq_nil_iff.2 hall]

-- Taking an input in line by line gives the lines of the whole text.
theorem readLines_eq (cs : List Char) : readLines cs = linesOfPieces (split '\n' cs) := by
  induction cs using byParts '\n'
  case single p hp =>
    rw [linesOfPieces_last hp]
    cases p
    case nil => rw [readLines_nil]; rfl
    case cons c rest =>
      have hend : (c :: rest).getLast? ≠ some '\n' := fun h => hp (List.mem_of_getLast? h)
      rw [readLines, nextLine_last hp, withoutEnd, if_neg hend, readLines]
      rfl
  case step p cs hp ih =>
    rw [readLines_of_ne (by simp), nextLine_ended hp, linesOfPieces_ended hp, ih]
    simp [withoutEnd]

inductive Terminator
  | lineFeed
  | returnAndLineFeed
  deriving DecidableEq, Repr

def Terminator.text : Terminator → String
  | lineFeed          => "\n"
  | returnAndLineFeed => "\r\n"

-- A text in which lines are written down one after another, each with a terminator of its own. The last one need not
-- have any unless it is empty.
inductive Written : List String → String → Prop
  | nothing : Written [] ""
  | last (line : String) (h : line ≠ "") : Written [line] line
  | ended {lines : List String} {text : String} (line : String) (t : Terminator) (h : Written lines text) :
    Written (line :: lines) (line ++ t.text ++ text)

-- A text that stays one line, whatever terminator it is given.
structure IsLine (line : String) : Prop where
  noLineFeed  : '\n' ∉ line.toList
  noReturnEnd : line.toList.getLast? ≠ some '\r'

instance (line : String) : Decidable (IsLine line) :=
  decidable_of_iff ('\n' ∉ line.toList ∧ line.toList.getLast? ≠ some '\r')
    ⟨fun ⟨h₁, h₂⟩ => ⟨h₁, h₂⟩, fun ⟨h₁, h₂⟩ => ⟨h₁, h₂⟩⟩

theorem dropReturn_of_ne (h : cs.getLast? ≠ some '\r') : dropReturn cs = cs :=
  if_neg h

theorem dropReturn_concat : dropReturn (cs ++ ['\r']) = cs := by
  simp [dropReturn]

theorem linesOfPieces_terminated {line : String} (h : IsLine line) (t : Terminator) (cs : List Char) :
    linesOfPieces (split '\n' (line.toList ++ t.text.toList ++ cs)) = line.toList :: linesOfPieces (split '\n' cs) := by
  cases t
  case lineFeed =>
    have htext : line.toList ++ Terminator.lineFeed.text.toList ++ cs = line.toList ++ '\n' :: cs := by
      simp [Terminator.text]
    rw [htext, linesOfPieces_ended h.noLineFeed, dropReturn_of_ne h.noReturnEnd]
  case returnAndLineFeed =>
    have htext : line.toList ++ Terminator.returnAndLineFeed.text.toList ++ cs =
        (line.toList ++ ['\r']) ++ '\n' :: cs := by
      simp [Terminator.text]
    have hline : '\n' ∉ line.toList ++ ['\r'] := by simpa using h.noLineFeed
    rw [htext, linesOfPieces_ended hline, dropReturn_concat]

-- The pieces of a text between line feeds give the lines that were written down.
theorem linesOfPieces_of_written {lines : List String} {text : String} (h : Written lines text)
    (hlines : ∀ line ∈ lines, IsLine line) : linesOfPieces (split '\n' text.toList) = lines.map String.toList := by
  induction h
  case nothing => rfl
  case last line hne =>
    have ⟨hline, _⟩ := List.forall_mem_singleton.1 hlines
    have hempty : line.toList.isEmpty = false := by simpa using hne
    rw [linesOfPieces_last hline, hempty]
    rfl
  case ended line t _ ih =>
    have ⟨hline, hrest⟩ := List.forall_mem_cons.1 hlines
    rw [String.toList_append, String.toList_append, linesOfPieces_terminated hline, ih hrest]
    rfl

theorem ofList_map_toList (lines : List String) : (lines.map String.toList).map String.ofList = lines := by
  rw [List.map_map]
  exact List.map_id'' (fun _ => String.ofList_toList) lines

theorem lines_of_written {lines : List String} {text : String} (h : Written lines text)
    (hlines : ∀ line ∈ lines, IsLine line) : Text.lines text = lines := by
  rw [Text.lines, linesOfPieces_of_written h hlines, ofList_map_toList]

end Text

namespace Script

variable {a : Access} {path text : String}

theorem open_of_plain (hread : a.read path = .ok text) (hplain : isDocument path = false) :
    Script.open a path = .ok (ofPlainText text, []) := by
  simp [Script.open, hplain, readFile, hread, Except.mapError, bind, Except.bind, pure, Except.pure]

end Script

-- What is typed as a text is read as its lines.
theorem Typed.mapM_text?_lines (s : String) : (Typed.lines s).mapM Typed.text? = some (Text.lines s) := by
  have hone : Typed.text? ∘ Typed.text = (pure : String → Option String) := rfl
  rw [Typed.lines, List.mapM_map, hone]
  simpa using List.mapM_pure (m := Option) (l := Text.lines s) (f := id)

namespace Invocation

variable {v w : Invocation} {source path text : String} {lines : List String}

theorem load_input (h : v.input = Typed.lines text) : v.load "-" = .ok { lines := Text.lines text } := by
  rw [load, if_pos rfl, h, Typed.mapM_text?_lines]

theorem load_of_open (hpath : path ≠ "-") (h : Script.open v.files path = .ok ({ commands := lines }, [])) :
    v.load path = .ok { lines, input := v.input } := by
  rw [load, if_neg hpath, h]

-- Two calls that run a script from different places and are alike otherwise, but for what is typed.
structure RunsAlike (v w : Invocation) (source path : String) : Prop where
  files       : w.files = v.files
  environment : w.environment = v.environment
  origin      : w.origin = v.origin
  arguments   : ∃ (a : Arguments) (select : List Nat) (dialog : Option String) (stop : Bool) (form : LogForm),
    Arguments.ofList v.arguments = .ok { a with task := .run source select dialog stop form } ∧
    Arguments.ofList w.arguments = .ok { a with task := .run path select dialog stop form }

-- They come to the same if they load the same.
theorem RunsAlike.report_eq (h : v.RunsAlike w source path) (hload : w.load path = v.load source) :
    w.report = v.report := by
  obtain ⟨a, select, dialog, stop, form, hv, hw⟩ := h.arguments
  have hperform (settings : Settings) : w.perform settings (.run path select dialog stop form) =
      v.perform settings (.run source select dialog stop form) := by
    simp only [perform, h.origin, hload]
  simp only [report, hv, hw, obey, settingsPath, h.files, h.environment, hperform]

end Invocation

-- Every way of loading a script gives the lines that were written down, whichever way each of them is ended: from a
-- file that is not named as a document, from standard input, where lines are taken in one by one, and from a document
-- in which they were saved. So a script runs alike from a file and from standard input.
theorem lines_are_loaded_alike {lines : List String} {text : String} (h : Text.Written lines text)
    (hlines : ∀ line ∈ lines, Text.IsLine line) :
    (Text.readLines text.toList).map String.ofList = lines ∧
    (∀ (a : Access) path, a.read path = .ok text → Path.extension? path ∉ [some "script", some "json"] →
      Script.open a path = .ok (⟨"1.0", lines⟩, [])) ∧
    (∀ (v w : Invocation) path, v.RunsAlike w "-" path → v.input = Typed.lines text → w.files.read path = .ok text →
      path ≠ "-" → Path.extension? path ∉ [some "script", some "json"] →
      v.load "-" = .ok { lines } ∧ w.load path = .ok { lines, input := w.input } ∧
        (w.input = [] → w.report = v.report)) ∧
    (∀ (f f' : Files) path, Script.save ⟨"1.0", lines⟩ f path = .ok f' → Path.extension? path = some "script" →
      Script.open f'.access path = .ok (⟨"1.0", lines⟩, [])) ∧
    ∀ (a : Access) path, a.read path = .ok (Script.render ⟨"1.0", lines⟩) → Path.extension? path = some "script" →
      Script.open a path = .ok (⟨"1.0", lines⟩, []) := by
  have hread : Text.lines text = lines := Text.lines_of_written h hlines
  have hopen (a : Access) (path : String) (hfile : a.read path = .ok text)
      (hname : Path.extension? path ∉ [some "script", some "json"]) :
      Script.open a path = .ok (⟨"1.0", lines⟩, []) := by
    have hplain : Script.isDocument path = false := by simpa [Script.isDocument] using hname
    rw [Script.open_of_plain hfile hplain, Script.ofPlainText, hread]
    rfl
  have hdocument (a : Access) (path : String) (hfile : a.read path = .ok (Script.render ⟨"1.0", lines⟩))
      (hname : Path.extension? path = some "script") : Script.open a path = .ok (⟨"1.0", lines⟩, []) :=
    Script.open_of_document hfile (by simp [Script.isDocument, hname])
  refine ⟨?input, hopen, ?runs, fun f f' path hsave => hdocument _ path (Script.read_of_save hsave), hdocument⟩
  case input => rw [Text.readLines_eq, ← Text.lines, hread]
  case runs =>
    intro v w path hruns hinput hfile hpath hname
    have hload : v.load "-" = .ok { lines } := hread ▸ Invocation.load_input hinput
    have hload' := Invocation.load_of_open (v := w) hpath (hopen _ _ hfile hname)
    refine ⟨hload, hload', fun hempty => hruns.report_eq ?_⟩
    rw [hload, hload', hempty]

-- Both terminators, an empty line, a carriage return within a line, and a last line without a terminator. The file is
-- next to the working directory, and the document is saved under an absolute path.
theorem lines_are_loaded_alike_past_mixed_ends :
    let lines := ["SET_OUTPUT ^ UV_PLC1 // \r on", "", "READ ^ A", "WAIT ^ T ^ 7"]
    let text := "SET_OUTPUT ^ UV_PLC1 // \r on" ++ "\r\n" ++ ("" ++ "\n" ++ ("READ ^ A" ++ "\r\n" ++ "WAIT ^ T ^ 7"))
    let files : Files := ⟨[(["home", "a.script.txt"], .text text)], ["home", "work"]⟩
    let v : Invocation := { arguments := ["run", "-"], files := files.access, input := Typed.lines text, origin := ⟨0⟩ }
    let w : Invocation := { v with arguments := ["run", "../a.script.txt"], input := [] }
    (Text.readLines text.toList).map String.ofList = lines ∧
      Script.open files.access "../a.script.txt" = .ok (⟨"1.0", lines⟩, []) ∧ v.load "-" = .ok { lines } ∧
      w.report = v.report ∧
      ∃ f', Script.save ⟨"1.0", lines⟩ files "/home/a.script" = .ok f' ∧
        Script.open f'.access "/home/a.script" = .ok (⟨"1.0", lines⟩, []) := by
  intro lines text files v w
  have hwritten : Text.Written lines text :=
    .ended _ .returnAndLineFeed (.ended _ .lineFeed (.ended _ .returnAndLineFeed (.last _ (by decide))))
  have ⟨hinput, hopen, hruns, hsaved, _⟩ := lines_are_loaded_alike hwritten (by decide)
  have hfile : files.access.read "../a.script.txt" = .ok text := by rfl
  have hname : Path.extension? "../a.script.txt" ∉ [some "script", some "json"] := by decide
  have halike : v.RunsAlike w "-" "../a.script.txt" :=
    ⟨rfl, rfl, rfl, { task := .commands }, [], none, false, .grid, by rfl, by rfl⟩
  have ⟨hload, _, hreport⟩ := hruns v w _ halike rfl hfile (by decide) hname
  let f' : Files := ⟨(["home", "a.script"], .text (Script.render ⟨"1.0", lines⟩)) :: files.entries, ["home", "work"]⟩
  have hsave : Script.save ⟨"1.0", lines⟩ files "/home/a.script" = .ok f' := by rfl
  exact ⟨hinput, hopen _ _ hfile hname, hload, hreport rfl, f', hsave, hsaved _ _ _ hsave (by decide)⟩

end StationScript
