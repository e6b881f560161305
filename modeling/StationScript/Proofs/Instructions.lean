import StationScript.Proofs.Lines

namespace StationScript

-- The verb of the commands that give an instruction.
def Instruction.verb : Instruction → Verb
  | setOutput _                                 => .setOutput
  | clearOutput _                               => .clearOutput
  | extendSlide _ | retractSlide _              => .slide
  | move _ _                                    => .move
  | dialog _ _ _                                => .showDialog
  | countdown _                                 => .showCountdown
  | wait _                                      => .wait
  | laser .lowCurrent | laser .highCurrent      => .laserCurrent
  | laser .laserOn | laser .laserOff            => .laserPower
  | laser .tecOn | laser .tecOff                => .tecPower
  | read _                                      => .read

namespace Command

variable {c : Command} {v : Verb} {component : Component} {point channel : String} {instruction : Instruction}

theorem mem_of_choice {α : Type} {what : String} {choices : List (String × α)} {a : α}
    (h : c.choice what choices = .ok a) : a ∈ choices.map (·.2) := by
  unfold choice at h
  cases hp : c.required 0 what
  case error => simp [hp, bind, Except.bind] at h
  case ok p =>
    simp only [hp, bind, Except.bind] at h
    split at h
    case h_2         => cases h
    case h_1 hlookup =>
      cases h
      have ⟨_, _, hsplit, _⟩ := List.lookup_eq_some_iff.1 hlookup
      rw [hsplit]
      simp

theorem destination_eq_ok_iff : c.destination = .ok instruction ↔
    ∃ component point, Component.resolve? c.target = some component ∧ c.parameter? 0 = some point ∧
      instruction = .move component point := by
  unfold destination required
  cases Component.resolve? c.target <;> cases c.parameter? 0 <;>
    simp [bind, Except.bind, pure, Except.pure, eq_comm]

theorem exists_dialog_of_dialog (h : c.dialog = .ok instruction) :
    ∃ kind title message, instruction = .dialog kind title message := by
  unfold dialog required at h
  cases h₀ : c.parameter? 0 <;> cases h₁ : c.parameter? 1 <;> cases h₂ : c.parameter? 2 <;>
    simp only [h₀, h₁, h₂, bind, Except.bind] at h <;> try cases h
  split at h <;> cases h
  exact ⟨_, _, _, rfl⟩

theorem duration_verb {what : String} {f : Nat → Instruction} (hf : ∀ n, (f n).verb = v)
    (h : (return f (← c.duration what)) = Except.ok instruction) : instruction.verb = v := by
  cases hn : c.duration what
  case error => rw [hn] at h; cases h
  case ok n  => rw [hn] at h; cases h; exact hf n

-- No two verbs give the same instruction.
theorem verb_of_instruction (h : c.instruction v = .ok instruction) : instruction.verb = v := by
  cases v
  case slide | laserCurrent | laserPower | tecPower =>
    have hmem := mem_of_choice h
    simp only [List.map_cons, List.map_nil, List.mem_cons, List.not_mem_nil, or_false] at hmem
    rcases hmem with rfl | rfl <;> rfl
  case move =>
    obtain ⟨_, _, -, -, rfl⟩ := destination_eq_ok_iff.1 h
    rfl
  case showDialog =>
    obtain ⟨_, _, _, rfl⟩ := exists_dialog_of_dialog h
    rfl
  case showCountdown => exact duration_verb (fun _ => rfl) h
  case wait          => exact duration_verb (fun _ => rfl) h
  all_goals cases h; rfl

theorem instruction_eq_move_iff : c.instruction v = .ok (.move component point) ↔
    v = .move ∧ Component.resolve? c.target = some component ∧ c.parameter? 0 = some point := by
  constructor
  · intro h
    obtain rfl : .move = v := verb_of_instruction h
    obtain ⟨_, _, hcomponent, hpoint, heq⟩ := destination_eq_ok_iff.1 h
    cases heq
    exact ⟨rfl, hcomponent, hpoint⟩
  · rintro ⟨rfl, hcomponent, hpoint⟩
    exact destination_eq_ok_iff.2 ⟨component, point, hcomponent, hpoint, rfl⟩

theorem instruction_eq_read_iff : c.instruction v = .ok (.read channel) ↔ v = .read ∧ c.target = channel := by
  constructor
  · intro h
    obtain rfl : .read = v := verb_of_instruction h
    cases h
    exact ⟨rfl, rfl⟩
  · rintro ⟨rfl, rfl⟩
    rfl

end Command

namespace Trace

theorem captures_eq_nil {t : Trace} (h : ∀ text, .capture text ∉ t) : t.captures = [] := by
  refine List.filterMap_eq_nil_iff.2 fun e he => ?_
  cases e
  case capture text => exact absurd he (h text)
  all_goals rfl

end Trace

namespace Station

variable {st : Station} {delay : Nat} {input : List Typed} {instruction : Instruction}

theorem capture_not_mem_ask {thread : Thread} {kind : DialogKind} {title message text : String} :
    .capture text ∉ (st.presenter.ask thread kind title message input).effects := by
  cases st.presenter
  case scripted => simp [Presenter.ask]
  case custom   => simp [Presenter.ask]
  case terminal =>
    intro he
    rcases Presenter.mem_terminal_ask he with ⟨_, heq⟩ | heq | heq <;> cases heq

theorem capture_not_mem_ofReply {kind : DialogKind} {title text : String} {reply : Reply} :
    .capture text ∉ (st.ofReply kind title reply).effects := by
  cases reply
  case answered answer => cases kind <;> cases answer <;> simp [ofReply, ofAnswer, Plan.fail]
  case failed          => simp [ofReply, Plan.fail]
  case panicked        => cases hs : st.surface <;> simp [ofReply, hs]
  case unanswered      => cases hs : st.surface <;> simp [ofReply, hs]

-- Only a reading captures anything.
theorem capture_not_mem_plan (h : ∀ channel, instruction ≠ .read channel) (text : String) :
    .capture text ∉ (st.plan delay input instruction).effects := by
  cases instruction
  case read channel => exact absurd rfl (h channel)
  case dialog =>
    intro he
    cases List.mem_append.1 he
    case inl he => exact capture_not_mem_ask he
    case inr he => exact capture_not_mem_ofReply he
  all_goals exact fun he => plan_ofDevice he trivial

end Station

end StationScript
