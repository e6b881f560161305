import StationScript.Yaml.Gap

namespace StationScript.Yaml

-- The characters of a plain value up to white space or to a mark that ends it. A colon right in front of a
-- bracket mark is refused within brackets.
def plainWord (bracketed : Bool) : List Char → Option (List Char)
  | [] => some []
  | c :: rest =>
    if isSpace c || isBreak c then some []
    else if bracketed && c == ':' && rest.head?.any (fun d => isBracketMark d || d == '?') then none
    else if c == ':' && gapAhead rest || bracketed && isBracketMark c then some []
    else (c :: ·) <$> plainWord bracketed rest

-- A plain value: its text, whether lines broke behind its last word, and what follows.
structure PlainEnd where
  text : List Char := []
  broken : Bool
  after : Cursor

-- Reads words and gaps for as long as they belong to one value. Outside of brackets it ends with the first
-- line that does not reach the margin.
def readPlain (fuel : Nat) (bracketed : Bool) (margin : Nat) (gap : Gap) (c : Cursor) : Option PlainEnd :=
  match fuel with
  | 0 => none
  | fuel + 1 =>
    if c.atSeparator || c.rest.head? == some '#' then some { broken := gap.broken, after := c }
    else do
      let word ← plainWord bracketed c.rest
      let after := c.skip word.length
      if word.isEmpty then some { broken := gap.broken, after }
      else if !gapAhead after.rest || after.rest.isEmpty then some ⟨gap.text ++ word, false, after⟩
      else
        let (next, after) ← Gap.readFrom margin {} after
        if !bracketed && after.column < margin then some ⟨gap.text ++ word, next.broken, after⟩
        else
          let e ← readPlain fuel bracketed margin next after
          some { e with text := gap.text ++ word ++ e.text }

end StationScript.Yaml
