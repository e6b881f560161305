import StationScript.Component
import StationScript.Dialog
import StationScript.Double

namespace StationScript

-- How far a cancellation reaches within a run.
inductive CancellationScope
  -- One scope for the whole run: a declined dialog stops every later line.
  | run
  -- A scope of its own for each line: only the operator's abort reaches later lines.
  | line
  deriving DecidableEq, Repr

namespace CancellationScope

def name : CancellationScope → String
  | run => "run"
  | line => "line"

def label : CancellationScope → String
  | run => "Run"
  | line => "Line"

def all : List CancellationScope :=
  [run, line]

def ofName? (s : String) : Option CancellationScope :=
  all.find? (·.name == s)

end CancellationScope

structure InterpreterSettings where
  -- The pause after an output was switched, for it to settle.
  settleDelay : Nat := 100
  deriving DecidableEq, Repr

structure RunnerSettings where
  cancellationScope : CancellationScope := .run
  stopOnFailure : Bool := false
  deriving DecidableEq, Repr

-- A motion axis of the simulated station: the points it was taught, and how long it travels to one.
structure MotionSettings where
  -- The target name as written in scripts.
  component : String
  points : List String
  travel : Nat := 0
  deriving DecidableEq, Repr

-- A sensor channel with a fixed reading.
structure Channel where
  name : String
  -- A channel without a value has no reading.
  value : Option Double
  unit : String
  target : Option Double := none
  deriving DecidableEq, Repr

namespace SimulationSettings

def hexapodPoints : List String :=
  ["Home", "LensGrip", "LensPlace", "RejectLens"]

def defaultMotion : List MotionSettings :=
  [⟨"HEXAPOD_LEFT", hexapodPoints, 500⟩,
   ⟨"HEXAPOD_RIGHT", hexapodPoints, 500⟩,
   ⟨"GANTRY", ["MidBack", "UV", "GripLeftLens", "GripRightLens", "SeePIC", "SeeSLED"], 800⟩]

def defaultChannels : List Channel :=
  [⟨"KeithleyCurrent", some (.ofDecimal false 25 (-8)), "A", none⟩,
   ⟨"PM400_1", some (.ofDecimal false 3 (-4)), "W", none⟩,
   ⟨"ActualSagnac", none, "V", some (.zero false)⟩]

end SimulationSettings

structure SimulationSettings where
  outputs : List String := ["VACUUM_BASE", "UV_PLC1", "UV_PLC2", "UV_PLC3"]
  slides : List String := ["UV_HEAD", "DISPENSOR_HEAD", "PICK_UP_TOOL", "L_Gripper", "R_Gripper"]
  slideTravel : Nat := 300
  motion : List MotionSettings := SimulationSettings.defaultMotion
  laserSettle : Nat := 200
  channels : List Channel := SimulationSettings.defaultChannels
  dialog : DialogPolicy := .prompt
  deriving DecidableEq, Repr

-- The default layout with nothing that takes time, and every dialog answered Yes.
def SimulationSettings.instant : SimulationSettings where
  slideTravel := 0
  laserSettle := 0
  motion := SimulationSettings.defaultMotion.map fun m => { m with travel := 0 }
  dialog := .yes

structure Settings where
  interpreter : InterpreterSettings := {}
  runner : RunnerSettings := {}
  simulation : SimulationSettings := {}
  deriving DecidableEq, Repr

-- The first motion entry whose component no script could address, if there is one.
def Settings.unknownComponent? (s : Settings) : Option String :=
  (s.simulation.motion.find? fun m => (Component.resolve? m.component).isNone).map (·.component)

end StationScript
