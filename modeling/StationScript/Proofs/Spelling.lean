import StationScript.Proofs.Commands
import StationScript.Proofs.Durations
import StationScript.Proofs.Wording

namespace StationScript

open Command

namespace Text

variable {s t : String} {f : Char → Char}

-- The same text but for the case of ASCII letters.
def SameLetters (s t : String) : Prop :=
  s.toList.map Char.toLower = t.toList.map Char.toLower

instance (s t : String) : Decidable (SameLetters s t) :=
  inferInstanceAs (Decidable (s.toList.map Char.toLower = t.toList.map Char.toLower))

theorem toNat_toUpper (c : Char) :
    c.toUpper.toNat = if 97 ≤ c.toNat ∧ c.toNat ≤ 122 then c.toNat - 32 else c.toNat := by
  unfold Char.toUpper
  simp only [UInt32.le_iff_toNat_le]
  split
  case isFalse h => exact (if_neg h).symm
  case isTrue h =>
    have hrange : 97 ≤ c.toNat ∧ c.toNat ≤ 122 := h
    have hsum : (c.val + ('A'.val - 'a'.val)).toNat = (c.toNat + 4294967264) % 4294967296 := UInt32.toNat_add ..
    rw [if_pos hrange]
    exact hsum.trans (by omega)

theorem toNat_toLower (c : Char) :
    c.toLower.toNat = if 65 ≤ c.toNat ∧ c.toNat ≤ 90 then c.toNat + 32 else c.toNat := by
  unfold Char.toLower
  simp only [UInt32.le_iff_toNat_le, ge_iff_le]
  split
  case isFalse h => exact (if_neg h).symm
  case isTrue h =>
    have hrange : 65 ≤ c.toNat ∧ c.toNat ≤ 90 := h
    have hsum : (c.val + ('a'.val - 'A'.val)).toNat = (c.toNat + 32) % 4294967296 := UInt32.toNat_add ..
    rw [if_pos hrange]
    exact hsum.trans (by omega)

theorem toUpper_toLower (c : Char) : c.toLower.toUpper = c.toUpper := by
  rw [← Char.toNat_inj, toNat_toUpper, toNat_toUpper, toNat_toLower]
  grind

theorem SameLetters.upper_eq (h : SameLetters s t) : upper s = upper t := by
  have hcomp : Char.toUpper ∘ Char.toLower = Char.toUpper := funext toUpper_toLower
  have hupper (s : String) : (upper s).toList = (s.toList.map Char.toLower).map Char.toUpper := by
    rw [upper, String.toList_map, List.map_map, hcomp]
  apply String.toList_injective
  rw [hupper, hupper, h]

-- No letter is white space.
theorem isBlank_toUpper (c : Char) : isBlank c.toUpper = isBlank c := by
  simp only [isBlank, blankRanges, toNat_toUpper, List.any_cons, List.any_nil]
  grind

theorem trim_map (hf : ∀ c, isBlank (f c) = isBlank c) (cs : List Char) : trim (cs.map f) = (trim cs).map f := by
  have hcomp : isBlank ∘ f = isBlank := funext hf
  simp only [trim, trimStart, trimEnd, ← List.map_reverse, List.dropWhile_map, hcomp]

theorem upper_trimmed (s : String) : upper (trimmed s) = trimmed (upper s) := by
  apply String.toList_injective
  simp only [upper, trimmed_toList, String.toList_map, trim_map isBlank_toUpper]

end Text

theorem Component.resolve?_of_sameLetters {s t : String} (h : Text.SameLetters s t) : resolve? s = resolve? t := by
  have htrimmed : Text.upper (Text.trimmed s) = Text.upper (Text.trimmed t) := by
    rw [Text.upper_trimmed, Text.upper_trimmed, h.upper_eq]
  rw [Text.upper, Text.upper] at htrimmed
  rw [resolve?, resolve?, htrimmed]

namespace Verb

variable {name : String} {v : Verb}

-- How many parameters the verb reads.
def arity : Verb → Nat
  | setOutput | clearOutput | read => 0
  | showDialog => 3
  | _ => 1

-- The keywords of the verbs that have one for their first parameter.
def keywords : Verb → List String
  | slide                  => ["ACTIVATE", "DEACTIVATE"]
  | laserCurrent           => ["HIGH", "LOW"]
  | laserPower | tecPower  => ["ON", "OFF"]
  | showDialog             => ["OK", "YES_NO"]
  | _                      => []

theorem ofName?_eq_none (h : name ∉ all.map Verb.name) : ofName? name = none := by
  rw [ofName?, List.find?_eq_none]
  intro v hv heq
  exact h (List.mem_map.2 ⟨v, hv, beq_iff_eq.1 heq⟩)

end Verb

namespace Command

variable {c d : Command} {v : Verb} {l p : String}

-- What a command means hangs on its target and on the parameters that its verb reads.
theorem instruction_congr (htarget : c.target = d.target) (h : ∀ k < v.arity, c.parameter? k = d.parameter? k) :
    c.instruction v = d.instruction v := by
  cases v
  case showDialog =>
    simp only [instruction, dialog, required, h 0 (by decide), h 1 (by decide), h 2 (by decide)]
  case setOutput | clearOutput | read => simp only [instruction, htarget]
  all_goals simp only [instruction, destination, choice, duration, required, htarget, h 0 (by decide)]

-- A keyword is read in upper case.
theorem choice_eq {α : Type} (c : Command) (what : String) (choices : List (String × α)) :
    c.choice what choices = match (c.parameter? 0).map Text.upper with
      | some keyword => ((choices.lookup keyword).map Except.ok).getD (.error (.invalidParameter what keyword))
      | none         => .error (.missingParameter 0 what) := by
  unfold choice required
  cases c.parameter? 0
  case none => rfl
  case some p =>
    simp only [bind, Except.bind, Option.map_some]
    cases choices.lookup (Text.upper p) <;> rfl

theorem dialog_toOption (c : Command) : c.dialog.toOption =
    ((c.parameter? 0).map Text.upper).bind fun keyword =>
      (c.parameter? 1).bind fun title => (c.parameter? 2).bind fun message =>
        (DialogKind.ofKeyword? keyword).map (.dialog · title message) := by
  unfold dialog required
  cases c.parameter? 0 <;> cases c.parameter? 1 <;> cases c.parameter? 2
  case some.some.some keyword title message =>
    simp only [bind, Except.bind, Option.map_some, Option.bind_some]
    cases DialogKind.ofKeyword? (Text.upper keyword) <;> rfl
  all_goals rfl

theorem destination_toOption (c : Command) : c.destination.toOption =
    (Component.resolve? c.target).bind fun component => (c.parameter? 0).map (.move component) := by
  unfold destination required
  cases Component.resolve? c.target <;> cases c.parameter? 0 <;> rfl

-- A keyword makes no difference by its case.
theorem instruction_toOption_of_keyword (hv : v.keywords ≠ []) (htarget : c.target = d.target)
    (hkeyword : (c.parameter? 0).map Text.upper = (d.parameter? 0).map Text.upper)
    (hrest : ∀ k, c.parameter? (k + 1) = d.parameter? (k + 1)) :
    (c.instruction v).toOption = (d.instruction v).toOption := by
  cases v <;> try exact absurd rfl hv
  case showDialog => simp only [instruction, dialog_toOption, hkeyword, hrest]
  all_goals simp only [instruction, choice_eq, hkeyword, htarget]

theorem choice_of_not_mem {α : Type} {what : String} {choices : List (String × α)} (hp : c.parameter? 0 = some p)
    (h : Text.upper p ∉ choices.map (·.1)) :
    c.choice what choices = .error (.invalidParameter what (Text.upper p)) := by
  have hnone : choices.lookup (Text.upper p) = none := by
    rw [List.lookup_eq_none_iff]
    intro choice hchoice
    exact bne_iff_ne.2 fun heq => h (List.mem_map.2 ⟨choice, hchoice, heq.symm⟩)
  simp only [choice_eq, hp, Option.map_some, hnone]
  rfl

theorem dialog_of_not_mem (hp : c.parameter? 0 = some p) (h : Text.upper p ∉ Verb.showDialog.keywords) :
    c.dialog.toOption = none := by
  have hnone : DialogKind.ofKeyword? (Text.upper p) = none := by
    unfold DialogKind.ofKeyword?
    split <;> simp_all [Verb.keywords]
  simp [dialog_toOption, hp, hnone]

-- A word that is no keyword gives no instruction.
theorem exists_error_of_not_mem_keywords (hv : v.keywords ≠ []) (hp : c.parameter? 0 = some p)
    (h : Text.upper p ∉ v.keywords) : ∃ e, c.instruction v = .error e := by
  cases v <;> try exact absurd rfl hv
  case showDialog =>
    have hnone : (c.instruction .showDialog).toOption = none := dialog_of_not_mem hp h
    cases hinstr : c.instruction .showDialog
    case error e => exact ⟨e, rfl⟩
    case ok      => rw [hinstr] at hnone; cases hnone
  all_goals exact ⟨_, choice_of_not_mem hp h⟩

theorem exists_parameter {k : Nat} (h : k < c.parameters.length) : ∃ p, c.parameter? k = some p :=
  ⟨_, List.getElem?_eq_getElem h⟩

-- A keyword gives one, where nothing else is missing.
theorem isSome_of_mem_keywords (hcomplete : v.arity ≤ c.parameters.length) (hp : c.parameter? 0 = some p)
    (h : Text.upper p ∈ v.keywords) : (c.instruction v).toOption.isSome := by
  cases v
  case slide | laserCurrent | laserPower | tecPower =>
    simp only [Verb.keywords, List.mem_cons, List.not_mem_nil, or_false] at h
    rcases h with h | h <;> simp only [instruction, choice_eq, hp, Option.map_some, h] <;> rfl
  case showDialog =>
    have hlength : 3 ≤ c.parameters.length := hcomplete
    obtain ⟨title, htitle⟩ := exists_parameter (Nat.lt_of_lt_of_le (by decide : 1 < 3) hlength)
    obtain ⟨message, hmessage⟩ := exists_parameter (Nat.lt_of_lt_of_le (by decide : 2 < 3) hlength)
    simp only [Verb.keywords, List.mem_cons, List.not_mem_nil, or_false] at h
    rcases h with h | h <;>
      simp only [instruction, dialog_toOption, hp, htitle, hmessage, Option.map_some, Option.bind_some, h] <;> rfl
  all_goals cases h

-- Commands of one name that mean the same, or both mean nothing.
structure Agrees (c d : Command) : Prop where
  name        : c.name = d.name
  instruction : ∀ v, c.name = v.name → (c.instruction v).toOption = (d.instruction v).toOption

theorem agrees_equivalence : Equivalence Agrees where
  refl _ := ⟨rfl, fun _ _ => rfl⟩
  symm h := ⟨h.name.symm, fun v hv => (h.instruction v (h.name.trans hv)).symm⟩
  trans hc hd :=
    ⟨hc.name.trans hd.name, fun v hv => (hc.instruction v hv).trans (hd.instruction v (hc.name.symm.trans hv))⟩

-- Another spelling of a command.
inductive Variation : Command → Command → Prop
  -- Commands with the same fields, of lines with other spacing or comments.
  | wording {c d : Command} (h : c.SaysSame d) : Variation c d
  | keyword {c : Command} {v : Verb} {written rewritten : String} {rest : List String} (hname : c.name = v.name)
    (hv : v.keywords ≠ []) (hp : c.parameters = written :: rest) (h : Text.SameLetters written rewritten) :
    Variation c { c with parameters := rewritten :: rest }
  | target {c : Command} {target : String} (hname : c.name = "MOVE") (h : Text.SameLetters c.target target) :
    Variation c { c with target }
  | underscore {c : Command} {target : String} (hname : c.name = "MOVE")
    (h : (c.target, target) ∈ [("HEXAPOD_LEFT", "HEXAPODLEFT"), ("HEXAPOD_RIGHT", "HEXAPODRIGHT")]) :
    Variation c { c with target }
  -- More parameters, behind all those that the verb reads.
  | surplus {c : Command} {v : Verb} (hname : c.name = v.name) (h : v.arity ≤ c.parameters.length)
    (more : List String) : Variation c { c with parameters := c.parameters ++ more }

theorem agrees_of_verb (hname : c.name = d.name) (hv : c.name = v.name)
    (h : (c.instruction v).toOption = (d.instruction v).toOption) : c.Agrees d :=
  ⟨hname, fun _ hw => Verb.name_injective (hv.symm.trans hw) ▸ h⟩

theorem agrees_of_resolve? (hname : c.name = "MOVE") (hd : d.name = c.name)
    (h : Component.resolve? c.target = Component.resolve? d.target) (hpoint : c.parameter? 0 = d.parameter? 0) :
    c.Agrees d := by
  have hmove : (c.instruction .move).toOption = (d.instruction .move).toOption := by
    simp only [instruction, destination_toOption, h, hpoint]
  exact agrees_of_verb (v := .move) hd.symm hname hmove

theorem Variation.agrees (h : Variation c d) : c.Agrees d := by
  cases h
  case wording h => exact ⟨h.name, fun v _ => by rw [h.instruction_eq]⟩
  case keyword v written rewritten rest hname hv hp h =>
    refine agrees_of_verb rfl hname (instruction_toOption_of_keyword hv rfl ?_ fun k => ?_)
    · simp [parameter?, hp, h.upper_eq]
    · simp [parameter?, hp]
  case target hname h => exact agrees_of_resolve? hname rfl (Component.resolve?_of_sameLetters h) rfl
  case underscore target hname h =>
    refine agrees_of_resolve? hname rfl ?_ rfl
    simp only [List.mem_cons, Prod.mk.injEq, List.not_mem_nil, or_false] at h
    have hleft : Component.resolve? "HEXAPOD_LEFT" = Component.resolve? "HEXAPODLEFT" := by decide +kernel
    have hright : Component.resolve? "HEXAPOD_RIGHT" = Component.resolve? "HEXAPODRIGHT" := by decide +kernel
    rcases h with ⟨hc, rfl⟩ | ⟨hc, rfl⟩
    · exact hc ▸ hleft
    · exact hc ▸ hright
  case surplus v hname h more =>
    have hsame : c.instruction v = instruction { c with parameters := c.parameters ++ more } v :=
      instruction_congr rfl fun k hk => (List.getElem?_append_left (Nat.lt_of_lt_of_le hk h)).symm
    exact agrees_of_verb rfl hname (by rw [hsame])

theorem agrees_of_eqvGen (h : Relation.EqvGen Variation c d) : c.Agrees d :=
  agrees_equivalence.eqvGen_iff.1 (h.mono fun _ _ => Variation.agrees)

-- What is added to a line behind another separator is at most more parameters, or part of its comment.
theorem exists_parse?_append (h : parse? l = some c) (tail : String) :
    ∃ d more, parse? (l ++ "^" ++ tail) = some d ∧ d.name = c.name ∧ d.target = c.target ∧
      d.parameters = c.parameters ++ more := by
  have hsaid : ∃ more, said (l ++ "^" ++ tail).toList = said l.toList ++ more := by
    have htext : (l ++ "^" ++ tail).toList = l.toList ++ '^' :: tail.toList := by simp
    exact ⟨_, htext ▸ said_append_cons l.toList tail.toList⟩
  have ⟨more, hsaid⟩ := hsaid
  have hfields : fields (Line.code l) = (c.name :: c.target :: c.parameters).map String.toList :=
    (parse?_eq_some_iff.1 h).left
  let d : Command := {
    name := c.name
    target := c.target
    parameters := c.parameters ++ more.map String.ofList
    text := String.ofList (Text.trim (Line.code (l ++ "^" ++ tail))) }
  have hd : parse? (l ++ "^" ++ tail) = some d := by
    refine parse?_eq_some_iff.2 ⟨?_, String.toList_ofList, rfl⟩
    have hcode : fields (Line.code (l ++ "^" ++ tail)) = fields (Line.code l) ++ more := hsaid
    rw [hcode, hfields]
    simp [d, Function.comp_def]
  exact ⟨d, _, hd, rfl, rfl, rfl⟩

end Command

-- Nothing tells two outcomes apart but the texts of events.
structure Outcome.SameEffect (o p : Outcome) : Prop where
  success : p.execution.success = o.execution.success
  output  : p.execution.output = o.execution.output
  actions : p.trace.actions = o.trace.actions
  -- The clock with its scopes, the devices, the last reading, and what the operator has yet to type.
  bench   : p.bench = o.bench

-- The same comes of two lines at every station, whoever cancels what and when.
def Interchangeable (l m : String) : Prop :=
  ∀ (i : Interpreter) (b : Bench) (token : Token) (trigger : Trigger),
    Option.Rel Outcome.SameEffect (i.execute b l token trigger) (i.execute b m token trigger)

-- Nothing comes of a line but these events, whatever the station is.
def Rejected (line : String) (x : Execution) (events : List Event) : Prop :=
  ∀ (i : Interpreter) (b : Bench) (token : Token) (trigger : Trigger), ¬b.isCancelled token →
    i.execute b line token trigger = some (b.reportOnly x events)

namespace Interpreter

variable {i : Interpreter} {b : Bench} {c d : Command} {v : Verb} {l m : String} {token : Token} {trigger : Trigger}

theorem outcome_sameEffect (hplan : i.plan b.input c v = i.plan b.input d v) (p : Progress) :
    (i.outcome b c v trigger p).SameEffect (i.outcome b d v trigger p) where
  success := by simp only [outcome, hplan]
  output  := rfl
  actions := by rw [outcome_actions, outcome_actions]
  bench   := outcome_bench_congr hplan p

theorem plan_of_toOption (h : (c.instruction v).toOption = (d.instruction v).toOption) (input : List Typed) :
    i.plan input c v = i.plan input d v ∨
      ∃ e e', i.plan input c v = .fail e ∧ i.plan input d v = .fail e' := by
  cases hc : c.instruction v <;> cases hd : d.instruction v <;> rw [hc, hd] at h <;> cases h
  case error.error.refl e e' => exact .inr ⟨e, e', plan_of_error hc input, plan_of_error hd input⟩
  case ok.ok.refl            => exact .inl ((plan_of_ok hc input).trans (plan_of_ok hd input).symm)

theorem execute_sameEffect (hc : parse? l = some c) (hd : parse? m = some d) (h : c.Agrees d) :
    Option.Rel Outcome.SameEffect (i.execute b l token trigger) (i.execute b m token trigger) := by
  by_cases hl : b.isCancelled token
  case pos =>
    rw [execute_of_isCancelled hl, execute_of_isCancelled hl]
    exact .some ⟨rfl, rfl, rfl, rfl⟩
  case neg =>
    cases hv : Verb.ofName? c.name
    case none =>
      have houtput : d.output = c.output :=
        (parse?_eq_some_iff.1 hd).right.right.trans (parse?_eq_some_iff.1 hc).right.right.symm
      simp only [execute_of_parse?_eq_some hl hc, execute_of_parse?_eq_some hl hd, ← h.name, hv]
      exact .some ⟨rfl, houtput, rfl, rfl⟩
    case some v =>
      have hname : c.name = v.name := Verb.ofName?_eq_some_iff.1 hv
      rcases plan_of_toOption (h.instruction v hname) b.input with hplan | ⟨e, e', he, he'⟩
      case inl =>
        simp only [execute_of_parse?_eq_some hl hc, execute_of_parse?_eq_some hl hd, ← h.name, hv]
        rw [← hplan]
        cases b.timeline.follow token (i.plan b.input c v).effects
        case none   => exact .none
        case some p => exact .some (outcome_sameEffect hplan p)
      -- Either line is refused, if for another reason.
      case inr =>
        rw [execute_of_fail hl (Line.ofString_of_parse? hc) hv he,
          execute_of_fail hl (Line.ofString_of_parse? hd) (h.name ▸ hv) he']
        exact .some ⟨rfl, rfl, rfl, rfl⟩

end Interpreter

section

variable {c d : Command} {v : Verb} {l p : String}

theorem interchangeable_append (h : parse? l = some c) (hname : c.name = v.name)
    (hcomplete : v.arity ≤ c.parameters.length) (tail : String) : Interchangeable l (l ++ "^" ++ tail) := by
  intro i b token trigger
  have ⟨d, more, hd, hdname, hdtarget, hdparameters⟩ := exists_parse?_append h tail
  have hsurplus : Variation c { c with parameters := c.parameters ++ more } := .surplus hname hcomplete more
  have hwording : Variation { c with parameters := c.parameters ++ more } d :=
    .wording ⟨hdname.symm, hdtarget.symm, hdparameters.symm⟩
  exact Interpreter.execute_sameEffect h hd (agrees_equivalence.trans hsurplus.agrees hwording.agrees)

theorem rejected_of_unknown (h : parse? l = some c) (hname : c.name ∉ Verb.all.map Verb.name) :
    Rejected l ⟨false, some c⟩ [.unknownCommand c.name] := by
  intro i b token trigger hl
  rw [Interpreter.execute_of_parse?_eq_some hl h, Verb.ofName?_eq_none hname]

theorem exists_rejected_of_not_keyword (h : parse? l = some c) (hname : c.name = v.name) (hv : v.keywords ≠ [])
    (hp : c.parameter? 0 = some p) (hword : Text.upper p ∉ v.keywords) :
    ∃ e : CommandError, Rejected l ⟨false, some { c with output := none }⟩
      [.executing v c.text, .commandFailed c.text e.message] := by
  have ⟨e, he⟩ := exists_error_of_not_mem_keywords hv hp hword
  refine ⟨e, fun i b token trigger hl => ?_⟩
  exact Interpreter.execute_of_fail hl (Line.ofString_of_parse? h) (Verb.ofName?_eq_some_iff.2 hname)
    (Interpreter.plan_of_error he b.input) trigger

end

-- The case of keywords and of the targets of moves makes no difference to anything but the texts of events, nor does
-- what stands behind the parameters that a command needs. A name in another spelling is unknown, and a word that is
-- no keyword in upper case is refused before the station is asked for anything, whereas one that is a keyword is read.
theorem spelling_makes_no_difference :
    (∀ l m c d, parse? l = some c → parse? m = some d → Relation.EqvGen Variation c d → Interchangeable l m) ∧
    -- Fields make up a line.
    (∀ l c d, parse? l = some c → Relation.EqvGen Variation c d → (∀ w ∈ d.words, IsField w.toList) →
      Interchangeable l (spaced d.words)) ∧
    (∀ l c (v : Verb) tail, parse? l = some c → c.name = v.name → v.arity ≤ c.parameters.length →
      Interchangeable l (l ++ "^" ++ tail)) ∧
    (∀ l c, parse? l = some c → c.name ∉ Verb.all.map Verb.name → Rejected l ⟨false, some c⟩ [.unknownCommand c.name]) ∧
    ∀ l c (v : Verb) p, parse? l = some c → c.name = v.name → v.keywords ≠ [] → c.parameter? 0 = some p →
      (Text.upper p ∉ v.keywords → ∃ e : CommandError, Rejected l ⟨false, some { c with output := none }⟩
        [.executing v c.text, .commandFailed c.text e.message]) ∧
      (Text.upper p ∈ v.keywords → v.arity ≤ c.parameters.length → (Interpreter.instruction? l).isSome) := by
  have hvaried : ∀ l m c d, parse? l = some c → parse? m = some d → Relation.EqvGen Variation c d →
      Interchangeable l m :=
    fun _ _ _ _ hc hd h _ _ _ _ => Interpreter.execute_sameEffect hc hd (agrees_of_eqvGen h)
  refine ⟨hvaried, ?fields, fun _ _ _ tail hc hname h => interchangeable_append hc hname h tail,
    fun _ _ => rejected_of_unknown, ?words⟩
  case fields =>
    intro l c d hc h hwords
    exact hvaried l _ c _ hc (parse?_spaced hwords) (h.trans _ _ _ (.rel _ _ (.wording ⟨rfl, rfl, rfl⟩)))
  case words =>
    intro l c v p hc hname hv hp
    refine ⟨exists_rejected_of_not_keyword hc hname hv hp, fun hword hcomplete => ?_⟩
    rw [Interpreter.instruction?_eq (Line.ofString_of_parse? hc) (Verb.ofName?_eq_some_iff.2 hname)]
    exact isSome_of_mem_keywords hcomplete hp hword

-- A target without its underscore, in mixed case, a keyword in mixed case, and a line with more behind it. A name in
-- lower case is unknown, and a Kelvin sign is no letter of a keyword.
theorem spelling_makes_no_difference_but_for_names :
    Interchangeable "MOVE ^ hexapodLeft ^ P" "MOVE ^ HEXAPOD_LEFT ^ P" ∧
    Interchangeable "LASER_POWER ^ T ^ oN" "LASER_POWER ^ T ^ ON // lit" ∧
    Interchangeable "READ ^ X" "READ ^ X^ Y // ^ Z" ∧
    Rejected "read ^ X" ⟨false, some ⟨"read", "X", [], "read ^ X", none⟩⟩ [.unknownCommand "read"] ∧
    ∃ e : CommandError, Rejected "SHOW_DIALOG ^ T ^ O\u212A ^ A ^ B"
      ⟨false, some ⟨"SHOW_DIALOG", "T", ["O\u212A", "A", "B"], "SHOW_DIALOG ^ T ^ O\u212A ^ A ^ B", none⟩⟩
      [.executing .showDialog "SHOW_DIALOG ^ T ^ O\u212A ^ A ^ B",
        .commandFailed "SHOW_DIALOG ^ T ^ O\u212A ^ A ^ B" e.message] := by
  have ⟨hvaried, hspaced, happend, hunknown, hword⟩ := spelling_makes_no_difference
  refine ⟨?target, ?keyword, ?surplus, ?name, ?kelvin⟩
  case target =>
    let c : Command := ⟨"MOVE", "hexapodLeft", ["P"], "MOVE ^ hexapodLeft ^ P", none⟩
    let d : Command := { c with target := "HEXAPOD_LEFT" }
    have hletters : Text.SameLetters "hexapodLeft" "HEXAPODLEFT" := by decide +kernel
    have hcase : Variation c { c with target := "HEXAPODLEFT" } := .target rfl hletters
    have hunderscore : Variation d { c with target := "HEXAPODLEFT" } := .underscore rfl (by decide +kernel)
    have hline : spaced d.words = "MOVE ^ HEXAPOD_LEFT ^ P" := by decide +kernel
    rw [← hline]
    exact hspaced _ c d (by decide +kernel) (.trans _ _ _ (.rel _ _ hcase) (.symm _ _ (.rel _ _ hunderscore)))
      (by decide +kernel)
  case keyword =>
    let c : Command := ⟨"LASER_POWER", "T", ["oN"], "LASER_POWER ^ T ^ oN", none⟩
    let d : Command := ⟨"LASER_POWER", "T", ["ON"], "LASER_POWER ^ T ^ ON", none⟩
    have hcase : Variation c { c with parameters := ["ON"] } :=
      .keyword (v := .laserPower) rfl (by decide) rfl (by decide +kernel)
    have hwording : Variation { c with parameters := ["ON"] } d := .wording ⟨rfl, rfl, rfl⟩
    exact hvaried _ _ c d (by decide +kernel) (by decide +kernel) (.trans _ _ _ (.rel _ _ hcase) (.rel _ _ hwording))
  case surplus =>
    have hline : "READ ^ X" ++ "^" ++ " Y // ^ Z" = "READ ^ X^ Y // ^ Z" := by decide +kernel
    rw [← hline]
    exact happend "READ ^ X" ⟨"READ", "X", [], "READ ^ X", none⟩ .read " Y // ^ Z" (by decide +kernel) rfl (by decide)
  case name =>
    exact hunknown _ ⟨"read", "X", [], "read ^ X", none⟩ (by decide +kernel) (by decide +kernel)
  case kelvin =>
    let line := "SHOW_DIALOG ^ T ^ O\u212A ^ A ^ B"
    have hkelvin := hword line ⟨"SHOW_DIALOG", "T", ["O\u212A", "A", "B"], line, none⟩ .showDialog "O\u212A"
      (by decide +kernel) rfl (by decide) rfl
    exact hkelvin.left (by decide +kernel)

end StationScript
