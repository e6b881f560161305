import StationScript.Event
import StationScript.Text.Blank
import StationScript.Text.Numeral
import StationScript.Text.Split

namespace StationScript

-- The verbosity that a level's name or number stands for; nothing is logged with verbosity zero.
def Level.verbosity? (s : String) : Option Nat :=
  match Text.natural? s with
  | some n => if n ≤ 5 then some n else none
  | none =>
    [("off", 0), ("error", 1), ("warn", 2), ("info", 3), ("debug", 4), ("trace", 5)].lookup (s.map Char.toLower)

structure Directive where
  -- Where the names of the parts that the directive applies to start with this; without it, to all.
  target : Option String := none
  verbosity : Nat := 5
  deriving DecidableEq, Repr

inductive DirectiveFault
  | invalid
  | level
  deriving DecidableEq, Repr

def DirectiveFault.message : DirectiveFault → String
  | invalid => "invalid filter directive"
  | level =>
    "error parsing level filter: expected one of \"off\", \"error\", \"warn\", \"info\", \"debug\", " ++
      "\"trace\", or a number 0-5"

namespace Directive

def starts (c : Char) : Bool :=
  c.isAlphanum || 0x80 ≤ c.toNat || c == '-' || c == ':' || c == '_'

-- Reads a directive: a level, a target, or a target with a level behind an equals sign. What is said about
-- spans applies to nothing, since there are none.
def ofText (s : String) : Except DirectiveFault (Option Directive) :=
  match Text.trim s.toList with
  | [] => .ok (some {})
  | c :: rest =>
    if (c :: rest).contains '[' then .ok none
    else if !starts c then .error .invalid
    else
      let name := String.ofList ((c :: rest).takeWhile (· ≠ '='))
      match (c :: rest).dropWhile (· ≠ '=') with
      | [] =>
        match Level.verbosity? name with
        | some verbosity => .ok (some { verbosity })
        | none => .ok (some { target := name })
      | [_] => .ok (some { target := name })
      | _ :: level =>
        match Level.verbosity? (String.ofList level) with
        | some verbosity => .ok (some { target := name, verbosity })
        | none => .error .level

def applies (d : Directive) (source : String) : Bool :=
  d.target.all fun t => t.toList.isPrefixOf source.toList

-- How much a directive tells about where it applies.
def weight (d : Directive) : Nat :=
  (d.target.map fun t => t.length + 1).getD 0

end Directive

structure LogFilter where
  directives : List Directive
  deriving DecidableEq, Repr

namespace LogFilter

-- The filter that holds where no directive is given.
def errorsOnly : LogFilter :=
  ⟨[{ verbosity := Level.error.verbosity }]⟩

-- The filter that holds where nothing is said about the log.
def standard : LogFilter :=
  ⟨[{ verbosity := Level.info.verbosity }]⟩

-- The directive that decides on the events of a part of the program. Of equal ones the last counts.
def decisive? (f : LogFilter) (source : String) : Option Directive :=
  (f.directives.filter (·.applies source)).foldl
    (fun best d => if best.all (·.weight ≤ d.weight) then some d else best) none

def shows (f : LogFilter) (e : Event) : Bool :=
  (f.decisive? e.source).any fun d => e.level.verbosity ≤ d.verbosity

-- The texts between commas, without those that are empty.
def pieces (s : String) : List String :=
  ((Text.split ',' s.toList).filter (!·.isEmpty)).map String.ofList

def ofDirectives (given : Bool) (l : List (Option Directive)) : LogFilter :=
  if given then ⟨l.filterMap id⟩ else errorsOnly

-- A directive that is passed over, as the operator is told.
def complaint (piece : String) (f : DirectiveFault) : String :=
  "ignoring `" ++ piece ++ "`: " ++ f.message ++ "\n"

-- Reads a filter. Directives with faults are passed over, each with a complaint.
def ofText (s : String) : LogFilter × List String :=
  let read := (pieces s).map fun piece => (piece, Directive.ofText piece)
  let l := read.filterMap fun (_, r) => r.toOption
  let complaints := read.filterMap fun (piece, r) =>
    match r with
    | .ok _ => none
    | .error f => some (complaint piece f)
  (ofDirectives (!l.isEmpty) l, complaints)

-- Reads a filter in which no directive has a fault.
def ofText? (s : String) : Option LogFilter :=
  ((pieces s).mapM fun piece => (Directive.ofText piece).toOption).map fun l => ofDirectives (!l.isEmpty) l

-- The filter that was asked for, and complaints about it. A filter from the environment counts where no other
-- is given, if it has no fault.
def choose (given environment : Option String) : LogFilter × List String :=
  match given with
  | some s => ofText s
  | none => ((environment.bind ofText?).getD standard, [])

end LogFilter

end StationScript
