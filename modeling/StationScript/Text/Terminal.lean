import StationScript.Text.Quoted

namespace StationScript.Text

-- The steering characters that fit seven bits: escape, bell, backspace, form feed and delete.
def steering : List Char :=
  ['\x1B', '\x07', '\x08', '\x0C', '\x7F']

-- How a character is shown.
def terminalChar (c : Char) : List Char :=
  if steering.contains c then
    let digits := hexDigits c.toNat
    ['\\', 'x'] ++ List.replicate (2 - digits.length) '0' ++ digits
  else if 0x80 ≤ c.toNat ∧ c.toNat ≤ 0x9F then ['\\', 'u', '\x7b'] ++ hexDigits c.toNat ++ ['\x7d']
  else [c]

def terminalSafe (s : String) : String :=
  String.ofList (s.toList.flatMap terminalChar)

end StationScript.Text
