import StationScript.Interpreter
import StationScript.Proofs.Lists

namespace StationScript

theorem LaserAction.text_injective {a b : LaserAction} (h : a.text = b.text) : a = b := by
  cases a <;> cases b <;> first | rfl | exact absurd h (by decide)

namespace Action

variable {a b : Action} {c d : Component} {k l : DialogKind} {m n : Nat} {p q s : String} {f g : Bool}

@[simp] theorem text_setOutput : (setOutput s).text = "set_output " ++ s := rfl
@[simp] theorem text_clearOutput : (clearOutput s).text = "clear_output " ++ s := rfl
@[simp] theorem text_activateSlide : (activateSlide s).text = "activate_slide " ++ s := rfl
@[simp] theorem text_deactivateSlide : (deactivateSlide s).text = "deactivate_slide " ++ s := rfl
@[simp] theorem text_move : (move c p).text = "move " ++ c.name ++ " " ++ p := rfl
@[simp] theorem text_laser {action : LaserAction} : (laser action).text = action.text := rfl
@[simp] theorem text_read : (read s).text = "read " ++ s := rfl
@[simp] theorem text_countdown : (countdown n).text = "countdown " ++ Nat.repr n := rfl
@[simp] theorem text_dialog : (dialog k s).text = "dialog " ++ k.name ++ " '" ++ s ++ "'" := rfl
@[simp] theorem text_probe : (probe c p f).text =
    "probe " ++ Nat.repr c.index ++ " " ++ p ++ (if f then " true" else " false") := rfl

-- The word with which an entry begins.
def heading : Action → String
  | setOutput _                   => "set_output"
  | clearOutput _                 => "clear_output"
  | activateSlide _               => "activate_slide"
  | deactivateSlide _             => "deactivate_slide"
  | move _ _                      => "move"
  | laser .tecOn | laser .tecOff  => "tec"
  | laser _                       => "laser"
  | read _                        => "read"
  | countdown _                   => "countdown"
  | dialog _ _                    => "dialog"
  | probe _ _ _                   => "probe"

theorem takeWhile_text (a : Action) : a.text.toList.takeWhile (· != ' ') = a.heading.toList := by
  cases a
  case laser action => cases action <;> decide
  all_goals simp [heading]

theorem heading_eq_of_text_eq (h : a.text = b.text) : a.heading = b.heading := by
  have hword : a.heading.toList = b.heading.toList := by
    rw [← takeWhile_text, ← takeWhile_text, h]
  exact String.toList_injective hword

theorem repr_injective (h : Nat.repr m = Nat.repr n) : m = n := by
  have hvalue := congrArg (fun s => Nat.ofDigitChars 10 s.toList 0) h
  simpa using hvalue

-- No component has a blank in its name, so that the point is what stands behind the next blank.
theorem move_injective (h : (move c p).text = (move d q).text) : move c p = move d q := by
  have h := congrArg String.toList h
  cases c <;> cases d <;> simp [Component.name, String.toList_inj] at h ⊢ <;> exact h

-- The last letters tell whether a confirmation was asked for, and the digit behind the first blank tells the
-- component. What is left is the point.
theorem probe_injective (h : (probe c p f).text = (probe d q g).text) : probe c p f = probe d q g := by
  have hend := congrArg (fun s : String => s.toList.reverse) h
  have hf : f = g := by cases f <;> cases g <;> first | rfl | simp at hend
  subst hf
  have h := congrArg String.toList h
  have hone : Nat.toDigits 10 1 = ['1'] := rfl
  have htwo : Nat.toDigits 10 2 = ['2'] := rfl
  have hthree : Nat.toDigits 10 3 = ['3'] := rfl
  cases c <;> cases d <;> simp [Component.index, String.toList_inj, hone, htwo, hthree] at h ⊢ <;> exact h

-- Two actions with one text are the same action.
theorem text_injective (h : a.text = b.text) : a = b := by
  have hword := heading_eq_of_text_eq h
  cases a <;> cases b
  case laser.laser         => exact congrArg laser (LaserAction.text_injective h)
  case move.move           => exact move_injective h
  case probe.probe         => exact probe_injective h
  case countdown.countdown => exact congrArg countdown (repr_injective (by simpa using h))
  case dialog.dialog k _ l _ =>
    have h := congrArg String.toList h
    cases k <;> cases l <;> simp [DialogKind.name, String.toList_inj] at h ⊢ <;> exact h
  case setOutput.setOutput | clearOutput.clearOutput | activateSlide.activateSlide
    | deactivateSlide.deactivateSlide | read.read => simpa using h
  -- Entries of different kinds begin with different words.
  all_goals first | (simp [heading] at hword; done) | (cases ‹LaserAction› <;> simp [heading] at hword)

end Action

-- The step of a device that an entry tells of.
def Action.change? : Action → Option Change
  | setOutput name       => some (.output name true)
  | clearOutput name     => some (.output name false)
  | activateSlide name   => some (.slide name true)
  | deactivateSlide name => some (.slide name false)
  | move component point => some (.position component point)
  | laser action         => some action.change
  | read _ | countdown _ | dialog _ _ | probe _ _ _ => none

namespace Devices

variable {d : Devices} {a on off : Action} {state : Devices → Bool} {actions : List Action} {c : Component}
  {n p : String}

-- The devices after the step, if any, that an entry tells of.
def enter (d : Devices) (a : Action) : Devices :=
  d.applyAll a.change?.toList

-- The devices as a whole journal tells of them.
def retold (actions : List Action) : Devices :=
  ({} : Devices).applyAll (actions.filterMap Action.change?)

theorem retold_append {more : List Action} :
    retold (actions ++ more) = (retold actions).applyAll (more.filterMap Action.change?) := by
  simp [retold, applyAll]

theorem retold_concat : retold (actions ++ [a]) = (retold actions).enter a := by
  rw [retold_append, enter]
  cases h : a.change? <;> simp [h]

-- Something about the devices that one entry turns on, another one turns off, and no other entry touches.
structure IsSwitch (on off : Action) (state : Devices → Bool) : Prop where
  fresh   : state {} = false
  turnOn  : ∀ d, state (enter d on) = true
  turnOff : ∀ d, state (enter d off) = false
  other   : ∀ d a, a ≠ on → a ≠ off → state (enter d a) = state d

-- What a switch stands at is what the last entry about it says.
theorem IsSwitch.lastOf (h : IsSwitch on off state) (hne : on ≠ off) (actions : List Action) :
    state (retold actions) = true ↔
      LastOf (fun e => e = on.text ∨ e = off.text) (actions.map Action.text) on.text := by
  induction actions using List.reverseRecOn
  case nil => simp [retold, applyAll, h.fresh, not_lastOf_nil]
  case append_singleton actions a ih =>
    rw [retold_concat, List.map_append, List.map_singleton]
    by_cases hon : a = on
    case pos => rw [hon, h.turnOn, lastOf_concat_of_kind (.inl rfl)]; simp
    case neg =>
      by_cases hoff : a = off
      case pos =>
        rw [hoff, h.turnOff, lastOf_concat_of_kind (.inr rfl)]
        simpa using fun he => hne (Action.text_injective he).symm
      case neg =>
        have hother : ¬(a.text = on.text ∨ a.text = off.text) := fun he =>
          he.elim (fun he => hon (Action.text_injective he)) (fun he => hoff (Action.text_injective he))
        rw [h.other _ a hon hoff, lastOf_concat_of_not_kind hother, ih]

theorem isSwitch_output (n : String) : IsSwitch (.setOutput n) (.clearOutput n) (·.isSet n) where
  fresh := rfl
  turnOn d := by simp [enter, Action.change?, applyAll, apply, turn, isSet]
  turnOff d := by simp [enter, Action.change?, applyAll, apply, turn, isSet]
  other d a hon hoff := by
    cases a <;> simp [enter, Action.change?, applyAll, apply, turn, isSet] at hon hoff ⊢
    case setOutput m => simp [Ne.symm hon]
    case clearOutput m => simp [Ne.symm hoff]
    case laser action => cases action <;> rfl

theorem isSwitch_slide (n : String) : IsSwitch (.activateSlide n) (.deactivateSlide n) (·.isActive n) where
  fresh := rfl
  turnOn d := by simp [enter, Action.change?, applyAll, apply, turn, isActive]
  turnOff d := by simp [enter, Action.change?, applyAll, apply, turn, isActive]
  other d a hon hoff := by
    cases a <;> simp [enter, Action.change?, applyAll, apply, turn, isActive] at hon hoff ⊢
    case activateSlide m => simp [Ne.symm hon]
    case deactivateSlide m => simp [Ne.symm hoff]
    case laser action => cases action <;> rfl

-- What the laser driver does is a switch of the station if it is one among the actions of the driver.
theorem isSwitch_laser {on off : LaserAction} {state : LaserState → Bool} (hfresh : state {} = false)
    (hon : ∀ d : Devices, state (d.apply on.change).laser = true)
    (hoff : ∀ d : Devices, state (d.apply off.change).laser = false)
    (hother : ∀ (d : Devices) a, a ≠ on → a ≠ off → state (d.apply a.change).laser = state d.laser) :
    IsSwitch (.laser on) (.laser off) (state ·.laser) where
  fresh := hfresh
  turnOn := hon
  turnOff := hoff
  other d a hne hne' := by
    cases a
    case laser action => exact hother d action (fun he => hne (he ▸ rfl)) fun he => hne' (he ▸ rfl)
    all_goals rfl

theorem isSwitch_highCurrent : IsSwitch (.laser .highCurrent) (.laser .lowCurrent) (·.laser.highCurrent) :=
  isSwitch_laser rfl (fun _ => rfl) (fun _ => rfl) fun _ a _ _ => by cases a <;> first | rfl | contradiction

theorem isSwitch_laserOn : IsSwitch (.laser .laserOn) (.laser .laserOff) (·.laser.laserOn) :=
  isSwitch_laser rfl (fun _ => rfl) (fun _ => rfl) fun _ a _ _ => by cases a <;> first | rfl | contradiction

theorem isSwitch_tecOn : IsSwitch (.laser .tecOn) (.laser .tecOff) (·.laser.tecOn) :=
  isSwitch_laser rfl (fun _ => rfl) (fun _ => rfl) fun _ a _ _ => by cases a <;> first | rfl | contradiction

theorem position?_position {point : String} : (d.apply (.position c point)).position? c = some point := by
  simp [apply, position?]

theorem position?_of_ne {change : Change} (h : ∀ point, change ≠ .position c point) :
    (d.apply change).position? c = d.position? c := by
  cases change
  case position c' point =>
    have hc : c ≠ c' := fun he => h point (he ▸ rfl)
    simp [apply, position?, List.lookup_cons, beq_false_of_ne hc, lookup_filter_ne hc]
  all_goals rfl

theorem position?_enter_of_ne (h : ∀ point, a ≠ .move c point) : (d.enter a).position? c = d.position? c := by
  cases a
  case move c' point =>
    have hne (p : String) : Change.position c' point ≠ .position c p := fun he => h p (by cases he; rfl)
    exact position?_of_ne hne
  case laser action  => cases action <;> rfl
  all_goals rfl

-- An axis stands at the point of the last entry about it.
theorem position?_eq_some_iff :
    (retold actions).position? c = some p ↔
      LastOf (fun e => ∃ q, e = (Action.move c q).text) (actions.map Action.text) (Action.move c p).text := by
  induction actions using List.reverseRecOn
  case nil => simp [retold, applyAll, position?, not_lastOf_nil]
  case append_singleton actions a ih =>
    rw [retold_concat, List.map_append, List.map_singleton]
    by_cases ha : ∃ q, a = .move c q
    case pos =>
      have ⟨q, hq⟩ := ha
      have hthere : ((retold actions).enter (.move c q)).position? c = some q := position?_position
      rw [hq, hthere, lastOf_concat_of_kind ⟨q, rfl⟩, Option.some_inj]
      exact ⟨fun he => he ▸ rfl, fun he => by cases Action.text_injective he; rfl⟩
    case neg =>
      have hother : ¬∃ q, a.text = (Action.move c q).text :=
        fun ⟨q, hq⟩ => ha ⟨q, Action.text_injective hq⟩
      rw [position?_enter_of_ne fun q hq => ha ⟨q, hq⟩, lastOf_concat_of_not_kind hother, ih]

-- An axis that no entry is about was never moved.
theorem position?_eq_none_iff :
    (retold actions).position? c = none ↔ ∀ q, (Action.move c q).text ∉ actions.map Action.text := by
  constructor
  · intro hnone q hq
    obtain ⟨entry, hlast⟩ : ∃ entry,
        LastOf (fun e => ∃ q, e = (Action.move c q).text) (actions.map Action.text) entry :=
      exists_lastOf hq ⟨q, rfl⟩
    obtain ⟨p, rfl⟩ := hlast.isOfKind
    rw [position?_eq_some_iff.2 hlast] at hnone
    cases hnone
  · intro hnone
    cases hp : (retold actions).position? c
    case none => rfl
    case some p => exact absurd (position?_eq_some_iff.1 hp).mem (hnone p)

end Devices

end StationScript
