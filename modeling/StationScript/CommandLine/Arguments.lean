import StationScript.CommandLine.Console
import StationScript.Text.Numeral
import StationScript.Text.Split

namespace StationScript

inductive Task
  -- Run the lines of a script, or those with the given numbers.
  | run (script : String) (select : List Nat) (dialog : Option String) (stopOnFailure : Bool) (form : LogForm)
  -- Report unknown commands in a script without running it.
  | check (script : String)
  | commands
  deriving DecidableEq, Repr

structure Arguments where
  settingsPath : Option String := none
  logLevel : Option String := none
  task : Task
  deriving DecidableEq, Repr

inductive Stop
  | usage
  | help
  | version
  deriving DecidableEq, Repr

-- The options, and what asks for help or the version.
inductive OptionName
  | settings
  | logLevel
  | select
  | dialog
  | stopOnFailure
  | json
  | pretty
  | help
  | version
  deriving DecidableEq, Repr

namespace OptionName

def long : OptionName → String
  | settings => "config"
  | logLevel => "log-level"
  | select => "select"
  | dialog => "dialog"
  | stopOnFailure => "stop-on-failure"
  | json => "json"
  | pretty => "pretty"
  | help => "help"
  | version => "version"

def short? : OptionName → Option Char
  | settings => some 'c'
  | help => some 'h'
  | version => some 'V'
  | _ => none

def takesValue : OptionName → Bool
  | settings | logLevel | select | dialog => true
  | _ => false

end OptionName

-- Where arguments stand: in front of the task, or behind the one that they belong to.
inductive Section
  | program
  | run
  | check
  | commands
  deriving DecidableEq, Repr

namespace Section

def options : Section → List OptionName
  | program => [.settings, .logLevel, .help, .version]
  | run => [.settings, .logLevel, .help, .select, .dialog, .stopOnFailure, .json, .pretty]
  | check | commands => [.settings, .logLevel, .help]

def long? (s : Section) (name : String) : Option OptionName :=
  s.options.find? (·.long == name)

def short? (s : Section) (c : Char) : Option OptionName :=
  s.options.find? (·.short? == some c)

def takesScript : Section → Bool
  | run | check => true
  | program | commands => false

def ofWord? : String → Option Section
  | "run" => some run
  | "check" => some check
  | "commands" => some commands
  | _ => none

end Section

structure Choices where
  settingsPath : Option String := none
  logLevel : Option String := none
  select : List Nat := []
  dialog : Option String := none
  stopOnFailure : Bool := false
  json : Bool := false
  pretty : Bool := false
  script : Option String := none
  deriving DecidableEq, Repr

namespace Choices

-- The numbers between commas.
def numbers? (s : String) : Option (List Nat) :=
  (Text.split ',' s.toList).mapM fun piece => Text.natural? (String.ofList piece)

-- A choice that was made before is not made again.
def once {α : Type} (before : Option α) (c : Choices) : Except Stop Choices :=
  if before.isSome then .error .usage else .ok c

def flagOnce (before : Bool) (c : Choices) : Except Stop Choices :=
  if before then .error .usage else .ok c

-- Makes the choice of an option. Only numbers may be given more than once.
def set (c : Choices) (name : OptionName) (value : String) : Except Stop Choices :=
  match name with
  | .settings => once c.settingsPath { c with settingsPath := some value }
  | .logLevel => once c.logLevel { c with logLevel := some value }
  | .dialog => once c.dialog { c with dialog := some value }
  | .stopOnFailure => flagOnce c.stopOnFailure { c with stopOnFailure := true }
  | .json => flagOnce c.json { c with json := true }
  | .pretty => flagOnce c.pretty { c with pretty := true }
  | .select =>
    match numbers? value with
    | some l => .ok { c with select := c.select ++ l }
    | none => .error .usage
  | .help => .error .help
  | .version => .error .version

def setScript (c : Choices) (s : Section) (script : String) : Except Stop Choices :=
  if s.takesScript then once c.script { c with script := some script } else .error .usage

end Choices

inductive Argument
  | word (s : String)
  -- What follows is no option, whatever it looks like.
  | separator
  | long (name : String) (value : Option String)
  | short (letters : List Char)
  deriving DecidableEq, Repr

def Argument.ofString (s : String) : Argument :=
  match s.toList with
  | ['-', '-'] => separator
  | '-' :: '-' :: rest =>
    let value := (rest.dropWhile (· ≠ '=')).tail
    long (String.ofList (rest.takeWhile (· ≠ '='))) (if rest.contains '=' then some (String.ofList value) else none)
  | ['-'] => word s
  | '-' :: letters => short letters
  | _ => word s

-- The outcome of letters behind a single mark: choices, and the option that still needs a value.
abbrev Pending :=
  Choices × Option OptionName

-- Makes the choices of letters. A letter whose option takes a value takes the rest for it, if there is one.
def readLetters (s : Section) (c : Choices) : List Char → Except Stop Pending
  | [] => .ok (c, none)
  | letter :: rest =>
    match s.short? letter with
    | none => .error .usage
    | some name =>
      if name.takesValue then
        match rest with
        | [] => .ok (c, some name)
        | '=' :: value => (c.set name (String.ofList value)).map (·, none)
        | value => (c.set name (String.ofList value)).map (·, none)
      else do readLetters s (← c.set name "") rest

def readLong (s : Section) (c : Choices) (name : String) (value : Option String) : Except Stop Pending :=
  match s.long? name, value with
  | none, _ => .error .usage
  | some name, none => if name.takesValue then .ok (c, some name) else (c.set name "").map (·, none)
  | some name, some value => if name.takesValue then (c.set name value).map (·, none) else .error .usage

-- Reads the arguments of a section, up to the word that names a task. An option that still needs a value takes
-- the next argument, if that is a word.
def readSection (s : Section) (c : Choices) (pending : Option OptionName) :
    List String → Except Stop (Choices × List String)
  | [] => if pending.isSome then .error .usage else .ok (c, [])
  | arg :: rest =>
    match Argument.ofString arg, pending with
    | .word value, some name => do readSection s (← c.set name value) none rest
    | _, some _ => .error .usage
    | .word word, none =>
      if s = .program then .ok (c, word :: rest)
      else do readSection s (← c.setScript s word) none rest
    | .separator, none => do
      let c ← rest.foldlM (·.setScript s ·) c
      .ok (c, [])
    | .long name value, none => do
      let (c, pending) ← readLong s c name value
      readSection s c pending rest
    | .short letters, none => do
      let (c, pending) ← readLetters s c letters
      readSection s c pending rest

def Choices.task? (c : Choices) : Section → Option Task
  | .program => none
  | .run =>
    c.script.map fun script =>
      .run script c.select c.dialog c.stopOnFailure
        (if c.pretty then .prettyJson else if c.json then .json else .grid)
  | .check => c.script.map .check
  | .commands => some .commands

def helpOn (topic : List String) : Stop :=
  match topic with
  | [] | ["help"] => .help
  | [word] => if (Section.ofWord? word).isSome then .help else .usage
  | _ => .usage

def Arguments.ofList (args : List String) : Except Stop Arguments := do
  let (outer, rest) ← readSection .program {} none args
  match rest with
  | [] => .error .usage
  | word :: rest =>
    match Section.ofWord? word with
    | none => .error (if word = "help" then helpOn rest else .usage)
    | some s =>
      let (inner, _) ← readSection s {} none rest
      match inner.task? s with
      | none => .error .usage
      | some task =>
        .ok {
          settingsPath := inner.settingsPath <|> outer.settingsPath
          logLevel := inner.logLevel <|> outer.logLevel
          task }

end StationScript
