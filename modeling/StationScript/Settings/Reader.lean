import StationScript.LoadError
import StationScript.Settings
import StationScript.Yaml.Document
import StationScript.Yaml.Reader

namespace StationScript

open Yaml (Field Form Reader)

namespace CancellationScope

def reader : Reader CancellationScope :=
  .choice (all.map fun s => (s.name, s))

end CancellationScope

namespace DialogPolicy

def reader : Reader DialogPolicy :=
  .choice (all.map fun p => (p.name, p))

end DialogPolicy

namespace InterpreterSettings

def form : Form InterpreterSettings :=
  ⟨"InterpreterConfig", {},
    [.of "settle_delay_ms" .word fun v s => { s with settleDelay := v }]⟩

end InterpreterSettings

namespace RunnerSettings

def form : Form RunnerSettings :=
  ⟨"RunnerConfig", {},
    [.of "cancellation_scope" CancellationScope.reader fun v s => { s with cancellationScope := v },
     .of "stop_on_failure" .boolean fun v s => { s with stopOnFailure := v }]⟩

end RunnerSettings

namespace MotionSettings

def form : Form MotionSettings :=
  ⟨"MotionConfig", ⟨"", [], 0⟩,
    [(Field.of "component" .text fun v s => { s with component := v }).require,
     (Field.of "points" (.list .text) fun v s => { s with points := v }).require,
     .of "travel_ms" .word fun v s => { s with travel := v }]⟩

end MotionSettings

namespace Channel

def form : Form Channel :=
  ⟨"ChannelConfig", ⟨"", none, "", none⟩,
    [(Field.of "name" .text fun v s => { s with name := v }).require,
     .of "value" (.option .double) fun v s => { s with value := v },
     (Field.of "unit" .text fun v s => { s with unit := v }).require,
     .of "target" (.option .double) fun v s => { s with target := v }]⟩

end Channel

namespace SimulationSettings

def form : Form SimulationSettings :=
  ⟨"SimulationConfig", {},
    [.of "outputs" (.list .text) fun v s => { s with outputs := v },
     .of "slides" (.list .text) fun v s => { s with slides := v },
     .of "slide_travel_ms" .word fun v s => { s with slideTravel := v },
     .of "motion" (.list MotionSettings.form.read) fun v s => { s with motion := v },
     .of "laser_settle_ms" .word fun v s => { s with laserSettle := v },
     .of "channels" (.list Channel.form.read) fun v s => { s with channels := v },
     .of "dialog" DialogPolicy.reader fun v s => { s with dialog := v }]⟩

end SimulationSettings

namespace Settings

def form : Form Settings :=
  ⟨"SeqConfig", {},
    [.of "interpreter" InterpreterSettings.form.read fun v s => { s with interpreter := v },
     .of "runner" RunnerSettings.form.read fun v s => { s with runner := v },
     .of "simulation" SimulationSettings.form.read fun v s => { s with simulation := v }]⟩

-- Settings in which every motion entry addresses a component.
def validate (s : Settings) : Except LoadError Settings :=
  match s.unknownComponent? with
  | some name => .error (.unknownComponent name)
  | none => .ok s

def ofDocument (d : Yaml.Document) : Except LoadError Settings := do
  (← (form.ofDocument d).mapError fun fault => .yaml fault.message).validate

def ofText (text : String) : Except LoadError Settings :=
  ofDocument (.ofText text)

def load (a : Access) (path : String) : Except LoadError Settings := do
  ofText (← (a.read path).mapError (.settingsUnreadable path))

def defaultPath : String :=
  "config/default_config.yaml"

-- The settings from a path. Without one those from the usual place hold, if there are any.
def loadOrDefault (a : Access) (path : Option String) : Except LoadError Settings :=
  match path with
  | some path => load a path
  | none => if a.contains defaultPath then load a defaultPath else .ok {}

end Settings

end StationScript
