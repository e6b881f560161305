import StationScript.Proofs.Forms
import StationScript.Settings.Reader

namespace StationScript

open Yaml

namespace InterpreterSettings

def keys : List (Key InterpreterSettings) :=
  [.of "settle_delay_ms" .word settleDelay fun v s => { s with settleDelay := v }]

def schema : Schema InterpreterSettings :=
  .record {} keys

theorem knows_keys : form.Knows keys where
  fields := .cons ⟨_, Reader.word_meets, rfl⟩ .nil
  independent := by
    refine ⟨by decide, by simp [keys, Key.of], by simp [keys, Key.of], ?_⟩
    rintro ⟨⟩ ⟨⟩
    simp [keys, Key.of]

end InterpreterSettings

namespace RunnerSettings

def keys : List (Key RunnerSettings) :=
  [.of "cancellation_scope" (.choice (CancellationScope.all.map fun s => (s.name, s))) cancellationScope
     fun v s => { s with cancellationScope := v },
   .of "stop_on_failure" .boolean stopOnFailure fun v s => { s with stopOnFailure := v }]

def schema : Schema RunnerSettings :=
  .record {} keys

theorem knows_keys : form.Knows keys where
  fields := .cons ⟨_, Reader.choice_meets _, rfl⟩ (.cons ⟨_, Reader.boolean_meets, rfl⟩ .nil)
  independent := by
    refine ⟨by decide, by simp [keys, Key.of], by simp [keys, Key.of], ?_⟩
    rintro ⟨⟩ ⟨⟩
    simp [keys, Key.of]

end RunnerSettings

namespace MotionSettings

def keys : List (Key MotionSettings) :=
  [(Key.of "component" .text component fun v s => { s with component := v }).require,
   (Key.of "points" (.list .text) points fun v s => { s with points := v }).require,
   .of "travel_ms" .word travel fun v s => { s with travel := v }]

def schema : Schema MotionSettings :=
  .record ⟨"", [], 0⟩ keys

theorem knows_keys : form.Knows keys where
  fields :=
    .cons ⟨_, Reader.text_meets, rfl⟩ (.cons ⟨_, Reader.list_meets Reader.text_meets, rfl⟩
      (.cons ⟨_, Reader.word_meets, rfl⟩ .nil))
  independent := by
    refine ⟨by decide, by simp [keys, Key.of, Key.require], by simp [keys, Key.of, Key.require], ?_⟩
    rintro ⟨⟩ ⟨⟩
    simp [keys, Key.of, Key.require]

end MotionSettings

namespace Channel

def keys : List (Key Channel) :=
  [(Key.of "name" .text name fun v s => { s with name := v }).require,
   .of "value" .optionalDouble value fun v s => { s with value := v },
   (Key.of "unit" .text unit fun v s => { s with unit := v }).require,
   .of "target" .optionalDouble target fun v s => { s with target := v }]

def schema : Schema Channel :=
  .record ⟨"", none, "", none⟩ keys

theorem knows_keys : form.Knows keys where
  fields :=
    .cons ⟨_, Reader.text_meets, rfl⟩ (.cons ⟨_, Reader.optionalDouble_meets, rfl⟩
      (.cons ⟨_, Reader.text_meets, rfl⟩ (.cons ⟨_, Reader.optionalDouble_meets, rfl⟩ .nil)))
  independent := by
    refine ⟨by decide, by simp [keys, Key.of, Key.require], by simp [keys, Key.of, Key.require], ?_⟩
    rintro ⟨⟩ ⟨⟩
    simp [keys, Key.of, Key.require]

end Channel

namespace SimulationSettings

def keys : List (Key SimulationSettings) :=
  [.of "outputs" (.list .text) outputs fun v s => { s with outputs := v },
   .of "slides" (.list .text) slides fun v s => { s with slides := v },
   .of "slide_travel_ms" .word slideTravel fun v s => { s with slideTravel := v },
   .of "motion" (.list MotionSettings.schema) motion fun v s => { s with motion := v },
   .of "laser_settle_ms" .word laserSettle fun v s => { s with laserSettle := v },
   .of "channels" (.list Channel.schema) channels fun v s => { s with channels := v },
   .of "dialog" (.choice (DialogPolicy.all.map fun p => (p.name, p))) dialog fun v s => { s with dialog := v }]

def schema : Schema SimulationSettings :=
  .record {} keys

theorem knows_keys : form.Knows keys where
  fields :=
    have hnames := Reader.list_meets Reader.text_meets
    have hmotion := Reader.list_meets MotionSettings.knows_keys.read_meets
    have hchannels := Reader.list_meets Channel.knows_keys.read_meets
    .cons ⟨_, hnames, rfl⟩ (.cons ⟨_, hnames, rfl⟩ (.cons ⟨_, Reader.word_meets, rfl⟩
      (.cons ⟨_, hmotion, rfl⟩ (.cons ⟨_, Reader.word_meets, rfl⟩ (.cons ⟨_, hchannels, rfl⟩
        (.cons ⟨_, Reader.choice_meets _, rfl⟩ .nil))))))
  independent := by
    refine ⟨by decide, by simp [keys, Key.of], by simp [keys, Key.of], ?_⟩
    rintro ⟨⟩ ⟨⟩
    simp [keys, Key.of]

end SimulationSettings

namespace Settings

def keys : List (Key Settings) :=
  [.of "interpreter" InterpreterSettings.schema interpreter fun v s => { s with interpreter := v },
   .of "runner" RunnerSettings.schema runner fun v s => { s with runner := v },
   .of "simulation" SimulationSettings.schema simulation fun v s => { s with simulation := v }]

def schema : Schema Settings :=
  .record {} keys

theorem knows_keys : form.Knows keys where
  fields :=
    .cons ⟨_, InterpreterSettings.knows_keys.read_meets, rfl⟩ (.cons ⟨_, RunnerSettings.knows_keys.read_meets, rfl⟩
      (.cons ⟨_, SimulationSettings.knows_keys.read_meets, rfl⟩ .nil))
  independent := by
    refine ⟨by decide, by simp [keys, Key.of], by simp [keys, Key.of], ?_⟩
    rintro ⟨⟩ ⟨⟩
    simp [keys, Key.of]

-- What comes of settings: they are taken over, or the first motion entry that addresses no component is named.
structure Validates (s : Settings) (result : Except LoadError Settings) : Prop where
  fails_iff : (∃ e, result = .error e) ↔ ∃ m ∈ s.simulation.motion, Component.resolve? m.component = none
  fault     : ∀ earlier m later, s.simulation.motion = earlier ++ m :: later →
    (∀ m' ∈ earlier, Component.resolve? m'.component ≠ none) → Component.resolve? m.component = none →
      result = .error (.unknownComponent m.component)
  settings  : (∀ m ∈ s.simulation.motion, Component.resolve? m.component ≠ none) → result = .ok s

section

variable {s : Settings}

theorem unknownComponent?_eq_none_iff :
    s.unknownComponent? = none ↔ ∀ m ∈ s.simulation.motion, Component.resolve? m.component ≠ none := by
  simp [unknownComponent?]

theorem unknownComponent?_of_motion_eq {earlier later : List MotionSettings} {m : MotionSettings}
    (h : s.simulation.motion = earlier ++ m :: later)
    (hearlier : ∀ m' ∈ earlier, Component.resolve? m'.component ≠ none) (hm : Component.resolve? m.component = none) :
    s.unknownComponent? = some m.component := by
  have hnone : earlier.find? (fun m' => (Component.resolve? m'.component).isNone) = none := by simpa using hearlier
  simp [unknownComponent?, h, List.find?_append, hnone, hm]

theorem validate_of_unknownComponent? {name : String} (h : s.unknownComponent? = some name) :
    s.validate = .error (.unknownComponent name) := by
  simp only [validate, h]

theorem validate_of_resolved (h : s.unknownComponent? = none) : s.validate = .ok s := by
  simp only [validate, h]

theorem validates_validate (s : Settings) : s.Validates s.validate where
  fails_iff := by
    cases h : s.unknownComponent?
    case none =>
      have hresolved := unknownComponent?_eq_none_iff.1 h
      simpa [validate_of_resolved h] using hresolved
    case some name =>
      have hunresolved : ¬∀ m ∈ s.simulation.motion, Component.resolve? m.component ≠ none := fun hall =>
        Option.some_ne_none name (h.symm.trans (unknownComponent?_eq_none_iff.2 hall))
      simpa [validate_of_unknownComponent? h] using hunresolved
  fault earlier m later hmotion hearlier hm :=
    validate_of_unknownComponent? (unknownComponent?_of_motion_eq hmotion hearlier hm)
  settings h := validate_of_resolved (unknownComponent?_eq_none_iff.2 h)

end

-- A text that is one document, whose root holds settings.
structure Fits (text : String) : Prop where
  complete : (Document.ofText text).complete
  root     : schema.Fits (.ofText text) (Document.ofText text).root

-- The settings that a text says, and how many aliases are followed for that.
def Says (text : String) (s : Settings) (k : Nat) : Prop :=
  schema.Says (.ofText text) (Document.ofText text).root s k

-- Texts that say the same but for the order of keys and for keys that are unknown, at any depth.
def Alike (text text' : String) : Prop :=
  schema.Alike (.ofText text) (.ofText text') (Document.ofText text).root (Document.ofText text').root

-- How many aliases are followed at most, which depends on the size of the text alone.
def aliasLimit (text : String) : Nat :=
  (Document.ofText text).aliasLimit

theorem ofText_of_said {text : String} {s : Settings} {k : Nat} (h : Fits text) (hsaid : Says text s k)
    (hk : k ≤ aliasLimit text) : form.ofDocument (.ofText text) = .ok s ∧ ofText text = s.validate := by
  have ⟨hwithin, _⟩ := knows_keys.ofDocument (Document.isWhole_ofText h.complete) h.complete hsaid
  refine ⟨hwithin hk, ?_⟩
  simp only [ofText, ofDocument, hwithin hk]
  rfl

-- A text that holds settings says some: what it tells under the known keys of a section, and the defaults of that
-- section otherwise. These are decoded and validated, unless too many aliases are followed on the way. A text that says
-- the same in another order, or among other unknown keys, comes to the same.
theorem ofText_merges {text : String} (h : Fits text) : ∃ s k, Says text s k ∧
    (k ≤ aliasLimit text → form.ofDocument (.ofText text) = .ok s ∧ s.Validates (ofText text)) ∧
    (aliasLimit text < k → ofText text = .error (.yaml "repetition limit exceeded")) ∧
    ∀ text', Fits text' → Alike text text' → ∃ k', Says text' s k' ∧
      (k ≤ aliasLimit text → k' ≤ aliasLimit text' → ofText text' = ofText text) := by
  have hwhole := Document.isWhole_ofText h.complete
  obtain ⟨s, k, hsaid⟩ := knows_keys.exists_said h.root
  refine ⟨s, k, hsaid, ?within, ?beyond, ?alike⟩
  case within =>
    intro hk
    have ⟨hread, hvalidate⟩ := ofText_of_said h hsaid hk
    exact ⟨hread, hvalidate ▸ s.validates_validate⟩
  case beyond =>
    intro hk
    have ⟨path, hpath⟩ := (knows_keys.ofDocument hwhole h.complete hsaid).right hk
    simp only [ofText, ofDocument, hpath]
    rfl
  case alike =>
    intro text' h' halike
    obtain ⟨s', k', hsaid'⟩ := knows_keys.exists_said h'.root
    cases knows_keys.unique hsaid halike hsaid'
    refine ⟨k', hsaid', fun hk hk' => ?_⟩
    rw [(ofText_of_said h hsaid hk).right, (ofText_of_said h' hsaid' hk').right]

-- Two motion entries with the points of the first one, which alone takes time, and the second of which addresses no
-- component, and an unknown key.
def unresolvedText : String :=
  "simulation:\n  note: ~\n  motion:\n  - points: &p [Home]\n    component: gantry\n    travel_ms: 250\n" ++
    "  - component: nowhere\n    points: *p\n"

def unresolvedDocument : Document where
  root :=
    let word (s : String) : Node := .scalar none { text := s }
    let points := .sequence (some 0) none [word "Home"]
    let gantry := .mapping none none
      [(word "points", points), (word "component", word "gantry"), (word "travel_ms", word "250")]
    let nowhere := .mapping none none [(word "component", word "nowhere"), (word "points", .alias 0)]
    let motion := .sequence none none [gantry, nowhere]
    .mapping none none [(word "simulation", .mapping none none [(word "note", word "~"), (word "motion", motion)])]
  complete := true

theorem ofText_unresolvedText : Document.ofText unresolvedText = unresolvedDocument := by
  have htokens : tokens unresolvedText.toList =
      [.entriesStart, .key, .scalar "simulation" .plain, .value, .entriesStart, .key, .scalar "note" .plain, .value,
       .scalar "~" .plain, .key, .scalar "motion" .plain, .value, .item, .entriesStart, .key, .scalar "points" .plain,
       .value, .anchor "p", .listOpen, .scalar "Home" .plain, .listClose, .key, .scalar "component" .plain, .value,
       .scalar "gantry" .plain, .key, .scalar "travel_ms" .plain, .value, .scalar "250" .plain, .blockEnd, .item,
       .entriesStart, .key, .scalar "component" .plain, .value, .scalar "nowhere" .plain, .key, .scalar "points" .plain, .value, .alias "p", .blockEnd, .blockEnd, .blockEnd,
       .streamEnd] := by decide +kernel
  rw [Document.ofText, htokens]
  rfl

theorem fits_unresolvedText : Fits unresolvedText where
  complete := congrArg Document.complete ofText_unresolvedText
  root := by
    rw [ofText_unresolvedText]
    have hkey (name : String) : Schema.text.Says unresolvedDocument (.scalar none { text := name }) name 0 :=
      ⟨none, { text := name }, .here nofun, rfl⟩
    have htext (name : String) : Schema.text.Fits unresolvedDocument (.scalar none { text := name }) :=
      ⟨none, { text := name }, 0, name, .here nofun, rfl⟩
    have hword : Scalar.IsWord { text := "250" } 250 :=
      (Scalar.isWord_iff_of_isDigit rfl (List.all_eq_true.1 rfl)).2 ⟨rfl, by simp [Text.wordLimit]⟩
    have htravel : Schema.word.Fits unresolvedDocument (.scalar none { text := "250" }) :=
      ⟨none, { text := "250" }, 0, 250, .here nofun, hword⟩
    have hnames (names : List String) (h : "component" ∈ names ∧ "points" ∈ names) :
        ∀ p ∈ MotionSettings.keys, p.required → p.name ∈ names := by
      simp [MotionSettings.keys, Key.of, Key.require, h]
    refine ⟨_, _, 0, .mapping (.here nofun),
      .known (.tail _ (.tail _ (.head _))) (hkey _) ?simulation (by decide) .nil, by decide⟩
    refine ⟨_, _, 0, .mapping (.here nofun), .unknown (by decide) (hkey "note")
      (.known (.tail _ (.tail _ (.tail _ (.head _)))) (hkey _) ?motion (by decide) .nil), by decide⟩
    refine ⟨_, 0, .sequence (.here nofun), List.forall_mem_cons.2 ⟨?gantry, List.forall_mem_singleton.2 ?nowhere⟩⟩
    case gantry =>
      have hpoints := List.forall_mem_singleton.2 (htext "Home")
      exact ⟨_, _, 0, .mapping (.here nofun),
        .known (.tail _ (.head _)) (hkey _) ⟨_, 0, .sequence (.here nofun), hpoints⟩ (by decide)
          (.known (.head _) (hkey _) (htext _) (by decide)
            (.known (.tail _ (.tail _ (.head _))) (hkey _) htravel (by decide) .nil)), hnames _ (by decide)⟩
    case nowhere =>
      have hpoints := List.forall_mem_singleton.2 (htext "Home")
      exact ⟨_, _, 0, .mapping (.here nofun),
        .known (.head _) (hkey _) (htext _) (by decide)
          (.known (.tail _ (.head _)) (hkey _) ⟨_, 1, .sequence (.there rfl), hpoints⟩ (by decide) .nil),
          hnames _ (by decide)⟩

theorem ofText_merges_of_unresolved : Fits unresolvedText ∧ ∃ s k, Says unresolvedText s k ∧
    k ≤ aliasLimit unresolvedText ∧ s.simulation.slideTravel = 300 ∧
    s.simulation.motion = [⟨"gantry", ["Home"], 250⟩, ⟨"nowhere", ["Home"], 0⟩] ∧
    ofText unresolvedText = .error (.unknownComponent "nowhere") := by
  have hfails : ofText unresolvedText = .error (.unknownComponent "nowhere") := by
    rw [ofText, ofText_unresolvedText]
    decide +kernel
  have hread : (form.ofDocument (.ofText unresolvedText)).map (fun s => (s.simulation.slideTravel, s.simulation.motion))
      = .ok (300, [⟨"gantry", ["Home"], 250⟩, ⟨"nowhere", ["Home"], 0⟩]) := by
    rw [ofText_unresolvedText]
    rfl
  obtain ⟨s, k, hsaid, hwithin, hbeyond, _⟩ := ofText_merges fits_unresolvedText
  have hk : k ≤ aliasLimit unresolvedText := by
    by_contra hk
    cases hfails.symm.trans (hbeyond (Nat.lt_of_not_le hk))
  rw [(hwithin hk).left] at hread
  have ⟨htravel, hmotion⟩ := Prod.mk.inj (Except.ok.inj hread)
  exact ⟨fits_unresolvedText, s, k, hsaid, hk, htravel, hmotion, hfails⟩

end Settings

end StationScript
