import StationScript.Proofs.Marshalling
import StationScript.Proofs.Options
import StationScript.Proofs.PlainText
import StationScript.Proofs.Selection

namespace StationScript

-- A message, or an event of loading.
def Output.OfLoading : Output → Prop
  | message _ | effect (.report .main (.usingSettings _)) | effect (.report .main (.scriptVersion _ _ _)) => True
  | _ => False

theorem Output.OfLoading.text?_eq_none {o : Output} (h : o.OfLoading) (entry : Publication → String) :
    o.text? entry = none := by
  unfold OfLoading at h
  split at h <;> first | rfl | exact h.elim

-- The whole report on a call, of which a part is put out after loading.
structure Report.Extends (whole part : Report) : Prop where
  status : whole.status = part.status
  form   : whole.form = part.form
  output : ∃ preface, (∀ o ∈ preface, o.OfLoading) ∧ whole.output = preface ++ part.output

namespace Report

variable {r whole part : Report} {preface : List Output} {entry : Publication → String}

theorem extends_after (h : ∀ o ∈ preface, o.OfLoading) : (r.after preface).Extends r :=
  ⟨rfl, rfl, preface, h, rfl⟩

theorem Extends.trans {middle : Report} (h : whole.Extends middle) (h' : middle.Extends part) : whole.Extends part where
  status := h.status.trans h'.status
  form   := h.form.trans h'.form
  output := by
    have ⟨before, hbefore, hwhole⟩ := h.output
    have ⟨behind, hbehind, hmiddle⟩ := h'.output
    refine ⟨before ++ behind, fun o ho => ?_, by rw [hwhole, hmiddle, List.append_assoc]⟩
    exact (List.mem_append.1 ho).elim (hbefore o) (hbehind o)

theorem Extends.withFilter (h : whole.Extends part) (filter : LogFilter) : { whole with filter }.Extends part :=
  ⟨h.status, h.form, h.output⟩

-- Loading prints nothing.
theorem Extends.lines_eq (h : whole.Extends part) : whole.lines entry = part.lines entry := by
  have ⟨preface, hpreface, houtput⟩ := h.output
  have hnone : preface.filterMap (·.text? entry) = [] :=
    List.filterMap_eq_nil_iff.2 fun o ho => (hpreface o ho).text?_eq_none entry
  rw [lines, lines, houtput, List.filterMap_append, hnone, List.nil_append]

-- Where nothing is printed but the run log, the lines are its entries.
theorem lines_eq_publications (h : ∀ text, .line text ∉ r.output) : r.lines entry = r.publications.map entry := by
  rw [lines, publications, List.map_filterMap]
  refine List.filterMap_congr fun o ho => ?_
  cases o
  case line text => exact absurd ho (h text)
  all_goals rfl

end Report

namespace Invocation

variable {v : Invocation} {a : Arguments} {settings : Settings} {source : String} {script : Loaded} {r : Report}

theorem load_events (h : v.load source = .ok script) : ∀ o ∈ Output.notices script.events, o.OfLoading := by
  unfold load at h
  split at h
  case isTrue =>
    split at h <;> cases h
    nofun
  case isFalse =>
    split at h
    case h_2 => cases h
    case h_1 document events hopen =>
      cases h
      have hversion : ∀ e ∈ events, ∃ path version expected, e = .scriptVersion path version expected := by
        unfold Script.open at hopen
        split at hopen
        · have ⟨text, _, hopen⟩ := exists_ok_of_bind hopen
          have ⟨document, _, hopen⟩ := exists_ok_of_bind hopen
          cases hopen
          unfold Script.warnings
          split
          · nofun
          · exact fun e he => ⟨_, _, _, List.mem_singleton.1 he⟩
        · have ⟨text, _, hopen⟩ := exists_ok_of_bind hopen
          cases hopen
          nofun
      intro o ho
      have ⟨e, he, heq⟩ := List.mem_map.1 ho
      obtain ⟨_, _, _, rfl⟩ := hversion e he
      exact heq ▸ trivial

-- What is put out before a task: complaints about the log filter, and the path of the settings.
theorem messages_ofLoading (texts : List String) : ∀ o ∈ texts.map Output.message, o.OfLoading := by
  intro o ho
  have ⟨_, _, heq⟩ := List.mem_map.1 ho
  exact heq ▸ trivial

theorem usingSettings_ofLoading (path : Option String) :
    ∀ o ∈ Output.notices (path.toList.map .usingSettings), o.OfLoading := by
  intro o ho
  have ⟨_, he, heq⟩ := List.mem_map.1 ho
  obtain ⟨_, _, rfl⟩ := List.mem_map.1 he
  exact heq ▸ trivial

-- A call comes to what its task comes to, after the settings are loaded.
theorem exists_report (ha : Arguments.ofList v.arguments = .ok a)
    (hsettings : Settings.loadOrDefault v.files (v.settingsPath a) = .ok settings)
    (hr : v.perform settings a.task = some r) : ∃ whole, v.report = some whole ∧ whole.Extends r := by
  have hreport : v.report = v.obey a := by simp only [report, ha]
  rw [hreport]
  simp only [obey, hsettings, Except.mapError, orFailure, hr]
  refine ⟨_, rfl, ?_⟩
  have hmessages := messages_ofLoading (LogFilter.choose a.logLevel (v.environment.lookup "RUST_LOG")).2
  have hpath := usingSettings_ofLoading (v.settingsPath a)
  exact ((Report.extends_after hmessages).trans (Report.extends_after hpath)).withFilter _

end Invocation

-- What a call shows of a run of some rows, which a failure may stop.
structure Report.Shows (report : Report) (f : LogForm) (stops : Bool) (rows : List Row) (q : RunOutcome) : Prop where
  form     : report.form = f
  -- Standard output holds one entry for each record, and then one for the totals.
  lines    : report.lines f.text = q.records.map (fun record => f.text (.line record)) ++ [f.text (.summary q.summary)]
  order    : (q.records.map (·.number)).Pairwise (· < ·)
  -- The rows that are recorded are the first of those that were asked for, and all of them if no failure stopped the
  -- run, those that were skipped included.
  taken    : q.records.map (·.number) <+: rows.map (·.number)
  complete : stops = false ∨ q.summary.failed = 0 → q.records.map (·.number) = rows.map (·.number)
  status   : report.status = if q.records.all (·.success) then 0 else 1

theorem Report.Extends.shows {whole part : Report} {f : LogForm} {stops : Bool} {rows : List Row} {q : RunOutcome}
    (h : whole.Extends part) (hpart : part.Shows f stops rows q) : whole.Shows f stops rows q :=
  { hpart with
    form := h.form.trans hpart.form
    lines := h.lines_eq.trans hpart.lines
    status := h.status.trans hpart.status }

namespace Runner

variable {r : Runner} {b : Bench} {lines : List String} {selection : List Nat} {q : RunOutcome}

theorem numbers_of_run (hq : r.run b lines selection = some q) :
    q.records.map (·.number) <+: (Row.select lines selection).map (·.number) ∧
      (r.settings.stopOnFailure = false ∨ q.summary.failed = 0 →
        q.records.map (·.number) = (Row.select lines selection).map (·.number)) := by
  rw [run_eq] at hq
  obtain ⟨os, hos, rfl⟩ := Option.map_eq_some_iff.1 hq
  obtain ⟨taken, htaken, haccounts⟩ := course_accounts hos
  have hnumbers : (r.report b lines selection os).records.map (·.number) = taken.map (·.number) := by
    rw [report, List.map_map]
    exact numbers_of_accounts haccounts
  rw [hnumbers]
  refine ⟨htaken.map _, fun hall => congrArg _ (htaken.eq_of_length ?_)⟩
  have hgoes : ∀ o ∈ os, ¬r.stopsAt o.status := by
    intro o ho hstop
    obtain ⟨hon, hfailed⟩ : r.settings.stopOnFailure = true ∧ o.status = .failed := by simpa [stopsAt] using hstop
    rcases hall with hoff | hnone
    case inl => exact Bool.false_ne_true (hoff.symm.trans hon)
    case inr =>
      have htally : RunSummary.tally (os.map (·.status)) = _ := RunSummary.foldl_count
      simp only [report, htally, Nat.zero_add, List.count_eq_zero] at hnone
      exact hnone (hfailed ▸ List.mem_map_of_mem ho)
  rw [haccounts.length_eq]
  exact length_course_of_not_stopsAt hgoes hos

end Runner

namespace Settings

variable {used settings : Settings} {policy : Option DialogPolicy} {stop : Bool}

-- Settings that a run obeys in place of others, because of its options. It answers dialogs as the option for that says,
-- if there is one, and it stops after a failure if that is an option or in the settings. All else is the same.
structure Overrides (used settings : Settings) (policy : Option DialogPolicy) (stop : Bool) : Prop where
  dialog : ∀ p, policy = some p → used.simulation.dialog = p
  kept   : policy = none → used.simulation.dialog = settings.simulation.dialog
  stops  : used.runner.stopOnFailure ↔ settings.runner.stopOnFailure ∨ stop
  others : { used with
    runner := { used.runner with stopOnFailure := settings.runner.stopOnFailure }
    simulation := { used.simulation with dialog := settings.simulation.dialog } } = settings

theorem overrides_iff : used.Overrides settings policy stop ↔ used = settings.withOptions policy stop := by
  constructor
  case mp =>
    rintro ⟨hdialog, hkept, hstops, hothers⟩
    have hanswer : used.simulation.dialog = policy.getD settings.simulation.dialog := by
      cases policy
      case none   => exact hkept rfl
      case some p => exact hdialog p rfl
    have hstop : used.runner.stopOnFailure = (settings.runner.stopOnFailure || stop) := by
      rw [Bool.eq_iff_iff, Bool.or_eq_true]
      exact hstops
    rw [withOptions, ← hanswer, ← hstop, ← hothers]
  case mpr =>
    rintro rfl
    refine ⟨?_, ?_, by simp [withOptions], rfl⟩
    all_goals
      intros
      simp [withOptions, *]

theorem load_eq_ok_iff {a : Access} {path : String} :
    load a path = .ok settings ↔ ∃ text, a.read path = .ok text ∧ ofText text = .ok settings := by
  unfold load
  cases a.read path <;> simp [Except.mapError, bind, Except.bind]

end Settings

namespace RunOutcome

variable {q : RunOutcome} {surface : Option String}

-- All that is put out about a run took place, if only as an event.
theorem exists_effect_of_mem_shown {o : Output} (ho : o ∈ (q.shown surface).output) : ∃ e, o = .effect e := by
  have hnotices {events : List Event} (ho : o ∈ Output.notices events) : ∃ e, o = .effect e := by
    have ⟨e, _, heq⟩ := List.mem_map.1 ho
    exact ⟨_, heq.symm⟩
  have hmap {α : Type} {f : α → Effect} {xs : List α} (ho : o ∈ xs.map fun x => .effect (f x)) :
      ∃ e, o = .effect e := by
    have ⟨x, _, heq⟩ := List.mem_map.1 ho
    exact ⟨f x, heq.symm⟩
  rcases List.mem_append.1 ho with ho | ho
  case inl => exact (List.mem_append.1 ho).elim hnotices (hmap (f := id))
  case inr =>
    by_cases hs : q.summary.allSucceeded
    case pos =>
      simp only [closing, hs, if_true] at ho
      exact (List.mem_append.1 ho).elim hnotices hmap
    case neg =>
      simp only [closing, hs] at ho
      exact hnotices ho

theorem status_shown : (q.shown surface).status = if q.summary.allSucceeded then 0 else 1 := by
  show (closing q surface).status = _
  by_cases hs : q.summary.allSucceeded <;> simp [closing, hs]

theorem lines_shown {r : Runner} {b : Bench} {lines : List String} {selection : List Nat}
    (hq : r.run b lines selection = some q) (entry : Publication → String) :
    (q.shown surface).lines entry =
      q.records.map (fun record => entry (.line record)) ++ [entry (.summary q.summary)] := by
  have hlines : ∀ text, .line text ∉ (q.shown surface).output := fun text ho => by
    have ⟨_, heq⟩ := exists_effect_of_mem_shown ho
    cases heq
  rw [Report.lines_eq_publications hlines, publications_shown hq, List.map_append, List.map_map]
  rfl

theorem shows {r : Runner} {b : Bench} {lines : List String} {selection : List Nat} {preface : List Output}
    (hq : r.run b lines selection = some q) (hpreface : ∀ o ∈ preface, o.OfLoading) (form : LogForm) :
    Report.Shows { (q.shown surface).after preface with form } form r.settings.stopOnFailure
      (Row.select lines selection) q := by
  have haccounts := (Runner.run_accounts hq).left
  have hextends := Report.extends_after (r := q.shown surface) hpreface
  have ⟨htaken, hcomplete⟩ := Runner.numbers_of_run hq
  refine ⟨rfl, hextends.lines_eq.trans (lines_shown hq _), List.pairwise_map.2 haccounts.increasing, htaken, hcomplete,
    status_shown.trans ?_⟩
  have hsuccess := haccounts.success
  rw [← List.all_eq_true] at hsuccess
  simp only [hsuccess]

end RunOutcome

namespace Invocation

variable {v : Invocation} {a : Arguments} {settings : Settings} {source : String} {numbers : List Nat}
  {dialog : Option String} {stop : Bool} {form : LogForm} {policy : Option DialogPolicy} {script : Loaded}

-- The file that the settings of a call come from: the one in the arguments, or else the one in the environment, or else
-- the one in the usual place. If there is none either, no file tells the settings.
inductive SettingsFile (v : Invocation) (a : Arguments) : Option String → Prop
  | argument {path : String} (h : a.settingsPath = some path) : SettingsFile v a (some path)
  | environment {path : String} (hnone : a.settingsPath = none)
      (h : v.environment.lookup "SEQD_CONFIG" = some path) : SettingsFile v a (some path)
  | usual (hnone : a.settingsPath = none) (hunset : v.environment.lookup "SEQD_CONFIG" = none)
      (h : v.files.contains "config/default_config.yaml") : SettingsFile v a (some "config/default_config.yaml")
  | default (hnone : a.settingsPath = none) (hunset : v.environment.lookup "SEQD_CONFIG" = none)
      (h : ¬v.files.contains "config/default_config.yaml") : SettingsFile v a none

theorem exists_settingsFile (v : Invocation) (a : Arguments) : ∃ file, v.SettingsFile a file ∧
    Settings.loadOrDefault v.files (v.settingsPath a) =
      match file with
      | some path => Settings.load v.files path
      | none => .ok {} := by
  cases hargument : a.settingsPath
  case some path =>
    refine ⟨some path, .argument hargument, ?_⟩
    simp [settingsPath, hargument, Settings.loadOrDefault]
  case none =>
    cases henvironment : v.environment.lookup "SEQD_CONFIG"
    case some path =>
      refine ⟨some path, .environment hargument henvironment, ?_⟩
      simp [settingsPath, hargument, henvironment, Settings.loadOrDefault]
    case none =>
      by_cases husual : v.files.contains "config/default_config.yaml"
      case pos =>
        refine ⟨_, .usual hargument henvironment husual, ?_⟩
        simp [settingsPath, hargument, henvironment, Settings.loadOrDefault, Settings.defaultPath, husual]
      case neg =>
        refine ⟨none, .default hargument henvironment husual, ?_⟩
        simp [settingsPath, hargument, henvironment, Settings.loadOrDefault, Settings.defaultPath, husual]

theorem SettingsFile.unique {file file' : Option String} (h : v.SettingsFile a file) (h' : v.SettingsFile a file') :
    file = file' := by
  cases h <;> cases h' <;> simp_all

-- A call has the settings that its file says, and without a file those that hold by default.
theorem loadOrDefault_eq_ok_iff : Settings.loadOrDefault v.files (v.settingsPath a) = .ok settings ↔
    (∃ path text, v.SettingsFile a (some path) ∧ v.files.read path = .ok text ∧ Settings.ofText text = .ok settings) ∨
      v.SettingsFile a none ∧ settings = {} := by
  obtain ⟨file, hfile, hload⟩ := v.exists_settingsFile a
  rw [hload]
  cases file
  case none =>
    have hnone : ∀ path, ¬v.SettingsFile a (some path) := fun path h => Option.some_ne_none path (h.unique hfile)
    simp [hnone, hfile, eq_comm]
  case some path =>
    have hnone : ¬v.SettingsFile a none := fun h => Option.some_ne_none path (hfile.unique h)
    have hsame : ∀ path', v.SettingsFile a (some path') ↔ path' = path :=
      fun path' => ⟨fun h => Option.some.inj (h.unique hfile), fun h => h ▸ hfile⟩
    simp [hnone, hsame, Settings.load_eq_ok_iff]

-- Options mean what the settings would mean that say the same.
theorem perform_of_overrides {used : Settings} {source : String} {numbers : List Nat} {dialog : Option String}
    {stop : Bool} {form : LogForm} {policy : Option DialogPolicy} (hpolicy : dialog.mapM policyOf = .ok policy)
    (h : used.Overrides settings policy stop) :
    v.perform settings (.run source numbers dialog stop form) =
      v.perform used (.run source numbers none false form) := by
  obtain rfl := Settings.overrides_iff.1 h
  have hplain : (settings.withOptions policy stop).withOptions none false = settings.withOptions policy stop := by
    simp [Settings.withOptions]
  have hnone : (none : Option String).mapM policyOf = .ok none := rfl
  simp only [perform, orFailure, hpolicy, hnone, hplain]

end Invocation

end StationScript
