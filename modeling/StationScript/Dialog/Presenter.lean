import StationScript.CommandError
import StationScript.Effect
import StationScript.Text.Blank
import StationScript.Text.Lines

namespace StationScript

inductive Reply
  | answered (answer : Answer)
  | failed (e : CommandError)
  | panicked
  | unanswered
  deriving DecidableEq, Repr

-- A dialog as it was shown: the effects of showing it, and the reply.
structure Showing where
  effects : List Effect
  reply : Reply
  deriving DecidableEq, Repr

namespace Showing

def after (first : List Effect) (s : Showing) : Showing :=
  { s with effects := first ++ s.effects }

end Showing

-- A line of standard input, without its end.
inductive Typed
  | text (line : String)
  -- The bytes of the line are no text.
  | binary
  deriving DecidableEq, Repr

namespace Typed

def text? : Typed → Option String
  | text line => some line
  | binary => none

def lines (s : String) : List Typed :=
  (Text.lines s).map text

end Typed

namespace Terminal

-- What the operator sees before the cursor.
def question (kind : DialogKind) (title message : String) : String :=
  "\n[" ++ title ++ "] " ++ message ++
    match kind with
    | .ok => "\nPress Enter to continue: "
    | .yesNo => "\n(y/n): "

-- The answer that a typed line gives, if it gives one.
def answer? (kind : DialogKind) (line : String) : Option Answer :=
  match kind, (Text.trimmed line).map Char.toLower with
  | .ok, _ => some .ok
  | .yesNo, "y" | .yesNo, "yes" => some .yes
  | .yesNo, "n" | .yesNo, "no" => some .no
  | .yesNo, _ => none

-- Asks until a line answers. The lines are those that the operator types from now on; the end of the input
-- is no answer, and neither is a line that cannot be read.
def ask (thread : Thread) (kind : DialogKind) (title message : String) : List Typed → Showing
  | [] => ⟨[.prompt (question kind title message)], .failed (.inputClosed title)⟩
  | .binary :: _ => ⟨[.prompt (question kind title message), .takeLine], .failed .inputNotText⟩
  | .text line :: rest =>
    match answer? kind line with
    | some answer => ⟨[.prompt (question kind title message), .takeLine], .answered answer⟩
    | none =>
      (Terminal.ask thread kind title message rest).after
        [.prompt (question kind title message), .takeLine, .report thread .answerRejected]

end Terminal

-- Who shows the dialogs of a station.
inductive Presenter
  -- Answers by a fixed policy, and enters every dialog in the journal.
  | scripted (policy : DialogPolicy)
  | terminal
  -- Replies in a way of its own, and enters nothing in the journal.
  | custom (reply : DialogKind → (title message : String) → Reply)

namespace Presenter

-- Shows a dialog on a thread. The input is what the operator will type.
def ask (p : Presenter) (thread : Thread) (kind : DialogKind) (title message : String)
    (input : List Typed) : Showing :=
  match p with
  | scripted policy =>
    let answer := policy.answer kind
    ⟨[.record (.dialog kind title), .report thread (.dialogAnswered title message answer)], .answered answer⟩
  | terminal => Terminal.ask thread kind title message input
  | custom reply => ⟨[], reply kind title message⟩

def ofPolicy : DialogPolicy → Presenter
  | .prompt => terminal
  | policy => scripted policy

end Presenter

end StationScript
