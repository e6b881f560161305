import StationScript.Json.Fault
import StationScript.Text.Quoted

namespace StationScript.Json

-- A character of a literal. Quotation marks, backslashes and control characters are escaped, and nothing else
-- is.
def writeChar (c : Char) : List Char :=
  match c with
  | '"' => ['\\', '"']
  | '\\' => ['\\', '\\']
  | '\x08' => ['\\', 'b']
  | '\x0c' => ['\\', 'f']
  | '\n' => ['\\', 'n']
  | '\r' => ['\\', 'r']
  | '\t' => ['\\', 't']
  | c =>
    if c.toNat < 0x20 then
      ['\\', 'u', '0', '0', Nat.digitChar (c.toNat / 16), Nat.digitChar (c.toNat % 16)]
    else [c]

def writeBody (cs : List Char) : List Char :=
  cs.flatMap writeChar

def literal (s : String) : String :=
  String.ofList ('"' :: writeBody s.toList ++ ['"'])

def hexValue? (c : Char) : Option Nat :=
  if '0' ≤ c ∧ c ≤ '9' then some (c.toNat - '0'.toNat)
  else if 'a' ≤ c ∧ c ≤ 'f' then some (c.toNat - 'a'.toNat + 10)
  else if 'A' ≤ c ∧ c ≤ 'F' then some (c.toNat - 'A'.toNat + 10)
  else none

-- The number that the next four hexadecimal digits spell.
def hexFour (cs : List Char) : Except Fault Nat :=
  let value? : Option Nat :=
    match cs with
    | a :: b :: c :: d :: _ => do
      return ((16 * (← hexValue? a) + (← hexValue? b)) * 16 + (← hexValue? c)) * 16 + (← hexValue? d)
    | _ => none
  match value? with
  | some n => .ok n
  | none => if byteLength cs < 4 then .error (.atEnd .stringEnd) else .error (.ahead 4 cs .escape)

-- The character that a surrogate pair stands for.
def joinSurrogates (high low : Nat) : Char :=
  Char.ofNat (0x10000 + (high - 0xD800) * 0x400 + (low - 0xDC00))

-- The second half of a surrogate pair, of which the first half was read.
def lowSurrogate (high : Nat) (cs : List Char) : Except Fault Char :=
  match cs with
  | '\\' :: 'u' :: rest => do
    let low ← hexFour rest
    if low < 0xDC00 ∨ 0xDFFF < low then .error (.before (rest.drop 4) .surrogate)
    else .ok (joinSurrogates high low)
  | '\\' :: [] | [] => .error (.atEnd .stringEnd)
  | '\\' :: rest => .error (.ahead 1 rest .escapeEnd)
  | cs => .error (.ahead 1 cs .escapeEnd)

-- The character that an escape by number stands for, behind its `u`, and how many characters the escape has
-- with that `u`.
def unicode (cs : List Char) : Except Fault (Char × Nat) := do
  let n ← hexFour cs
  if 0xDC00 ≤ n ∧ n ≤ 0xDFFF then .error (.before (cs.drop 4) .surrogate)
  else if 0xD800 ≤ n ∧ n ≤ 0xDBFF then (lowSurrogate n (cs.drop 4)).map (·, 11)
  else .ok (Char.ofNat n, 5)

-- The character that an escape stands for, behind its backslash, and how many characters the escape has.
def escape (cs : List Char) : Except Fault (Char × Nat) :=
  match cs with
  | [] => .error (.atEnd .stringEnd)
  | '"' :: _ => .ok ('"', 1)
  | '\\' :: _ => .ok ('\\', 1)
  | '/' :: _ => .ok ('/', 1)
  | 'b' :: _ => .ok ('\x08', 1)
  | 'f' :: _ => .ok ('\x0c', 1)
  | 'n' :: _ => .ok ('\n', 1)
  | 'r' :: _ => .ok ('\r', 1)
  | 't' :: _ => .ok ('\t', 1)
  | 'u' :: rest => unicode rest
  | cs => .error (.ahead 1 cs .escape)

-- The text of a literal behind its opening mark, and what follows the closing one.
def readBody (cs : List Char) : Except Fault (List Char × List Char) :=
  match cs with
  | [] => .error (.atEnd .stringEnd)
  | '"' :: rest => .ok ([], rest)
  | '\\' :: rest => do
    let (c, n) ← escape rest
    let (text, after) ← readBody (rest.drop n)
    return (c :: text, after)
  | c :: rest => do
    if c.toNat < 0x20 then .error (.before rest .controlCharacter)
    else
      let (text, after) ← readBody rest
      return (c :: text, after)
termination_by cs.length
decreasing_by
  all_goals simp only [List.length_cons, List.length_drop]; omega

-- Steps over a literal behind its opening mark, without asking which characters its escapes stand for.
def skipBody (cs : List Char) : Except Fault (List Char) :=
  match cs with
  | [] => .error (.atEnd .stringEnd)
  | '"' :: rest => .ok rest
  | '\\' :: 'u' :: rest => do
    let _ ← hexFour rest
    skipBody (rest.drop 4)
  | '\\' :: c :: rest =>
    if ['"', '\\', '/', 'b', 'f', 'n', 'r', 't'].contains c then skipBody rest
    else .error (.ahead 1 (c :: rest) .escape)
  | '\\' :: [] => .error (.atEnd .stringEnd)
  | c :: rest => if c.toNat < 0x20 then .error (.before (c :: rest) .controlCharacter) else skipBody rest
termination_by cs.length
decreasing_by
  all_goals simp only [List.length_cons, List.length_drop]; omega

theorem hexValue?_digitChar {n : Nat} (h : n < 16) : hexValue? (Nat.digitChar n) = some n := by
  have : ∀ m : Fin 16, hexValue? (Nat.digitChar m) = some m.val := by decide
  exact this ⟨n, h⟩

theorem hexFour_digitChars {n : Nat} (h : n < 0x20) (rest : List Char) :
    hexFour ('0' :: '0' :: Nat.digitChar (n / 16) :: Nat.digitChar (n % 16) :: rest) = .ok n := by
  have h1 := hexValue?_digitChar (show n / 16 < 16 by omega)
  have h2 := hexValue?_digitChar (show n % 16 < 16 by omega)
  have h0 : hexValue? '0' = some 0 := by decide
  have : n / 16 * 16 + n % 16 = n := by omega
  simp [hexFour, h0, h1, h2, this]

theorem readBody_plain {c : Char} {rest : List Char} (hq : c ≠ '"') (hb : c ≠ '\\') (hc : ¬ c.toNat < 0x20) :
    readBody (c :: rest) = (readBody rest).map fun r => (c :: r.1, r.2) := by
  rw [readBody]
  · simp only [if_neg hc]
    cases readBody rest <;> rfl
  · exact hq
  · exact hb

theorem readBody_escape {cs : List Char} {c : Char} {n : Nat} (h : escape cs = .ok (c, n)) :
    readBody ('\\' :: cs) = (readBody (cs.drop n)).map fun r => (c :: r.1, r.2) := by
  rw [readBody, h]
  cases hr : readBody (cs.drop n) <;> simp [bind, Except.bind, hr, Except.map, pure, Except.pure]

theorem readBody_writeChar (c : Char) (rest : List Char) :
    readBody (writeChar c ++ rest) = (readBody rest).map fun r => (c :: r.1, r.2) := by
  unfold writeChar
  split
  iterate 7 exact readBody_escape (n := 1) rfl
  · rename_i h1 h2 h3 h4 h5 h6 h7
    split
    · rename_i hc
      refine readBody_escape (n := 5) ?_
      change unicode ('0' :: '0' :: Nat.digitChar (c.toNat / 16) :: Nat.digitChar (c.toNat % 16) :: rest) = _
      rw [unicode, hexFour_digitChars hc]
      have h8 : ¬ (0xDC00 ≤ c.toNat ∧ c.toNat ≤ 0xDFFF) := by omega
      have h9 : ¬ (0xD800 ≤ c.toNat ∧ c.toNat ≤ 0xDBFF) := by omega
      simp [bind, Except.bind, h8, h9]
    · rename_i hc
      exact readBody_plain h1 h2 hc

theorem readBody_writeBody (cs rest : List Char) : readBody (writeBody cs ++ '"' :: rest) = .ok (cs, rest) := by
  induction cs with
  | nil => simp [writeBody, readBody]
  | cons c cs ih =>
    simp only [writeBody, List.flatMap_cons, List.append_assoc] at ih ⊢
    rw [readBody_writeChar, ih]
    rfl

end StationScript.Json
