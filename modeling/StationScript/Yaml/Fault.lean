import StationScript.Found

namespace StationScript.Yaml

inductive Step
  | field (name : String)
  -- To the value of an entry whose key is no plain text.
  | entry
  | item (index : Nat)
  deriving DecidableEq, Repr

-- The way to a node, the last step first.
abbrev Path :=
  List Step

def Path.text : Path → String
  | [] => ""
  | .item index :: rest => Path.text rest ++ "[" ++ Nat.repr index ++ "]"
  | .field name :: rest => below rest ++ name
  | .entry :: rest => below rest ++ "?"
where
  below (rest : Path) : String :=
    if rest.isEmpty then "" else Path.text rest ++ "."

inductive Reason
  | malformed
  -- Aliases are followed too often for the size of the document.
  | repetition
  | invalidType (found : Found) (expected : String)
  | invalidValue (found : Found) (expected : String)
  | unknownVariant (name : String) (choices : List String)
  | missingField (name : String)
  | duplicateField (name : String)
  deriving DecidableEq, Repr

def wording : Found.Wording :=
  ⟨"unit value", Double.plainText⟩

def ticked (s : String) : String :=
  "`" ++ s ++ "`"

def choicesText : List String → String
  | [a, b] => ticked a ++ " or " ++ ticked b
  | [a] => ticked a
  | choices => "one of " ++ ", ".intercalate (choices.map ticked)

def Reason.message : Reason → String
  | malformed => "malformed document"
  | repetition => "repetition limit exceeded"
  | invalidType found expected => "invalid type: " ++ found.describe wording ++ ", expected " ++ expected
  | invalidValue found expected => "invalid value: " ++ found.describe wording ++ ", expected " ++ expected
  | unknownVariant name choices => "unknown variant " ++ ticked name ++ ", expected " ++ choicesText choices
  | missingField name => "missing field " ++ ticked name
  | duplicateField name => "duplicate field " ++ ticked name

-- Whether the reason is about the text and not about a node.
def Reason.isOfText : Reason → Bool
  | malformed | repetition => true
  | _ => false

structure Fault where
  path : Path
  reason : Reason
  deriving DecidableEq, Repr

def Fault.message (f : Fault) : String :=
  if f.reason.isOfText || f.path.isEmpty then f.reason.message
  else f.path.text ++ ": " ++ f.reason.message

end StationScript.Yaml
