import StationScript.Component
import StationScript.Dialog

namespace StationScript

inductive LaserAction
  | lowCurrent
  | highCurrent
  | laserOn
  | laserOff
  | tecOn
  | tecOff
  deriving DecidableEq, Repr

def LaserAction.text : LaserAction → String
  | lowCurrent => "laser low_current"
  | highCurrent => "laser high_current"
  | laserOn => "laser on"
  | laserOff => "laser off"
  | tecOn => "tec on"
  | tecOff => "tec off"

-- An entry of the journal: what a device was asked to do and did.
inductive Action
  | setOutput (name : String)
  | clearOutput (name : String)
  | activateSlide (name : String)
  | deactivateSlide (name : String)
  | move (component : Component) (point : String)
  | laser (action : LaserAction)
  | read (channel : String)
  | countdown (milliseconds : Nat)
  | dialog (kind : DialogKind) (title : String)
  -- A recording controller was asked to move.
  | probe (component : Component) (point : String) (confirm : Bool)
  deriving DecidableEq, Repr

def Action.isDialog : Action → Bool
  | dialog _ _ => true
  | _ => false

def Action.text : Action → String
  | setOutput name => "set_output " ++ name
  | clearOutput name => "clear_output " ++ name
  | activateSlide name => "activate_slide " ++ name
  | deactivateSlide name => "deactivate_slide " ++ name
  | move component point => "move " ++ component.name ++ " " ++ point
  | laser action => action.text
  | read channel => "read " ++ channel
  | countdown milliseconds => "countdown " ++ Nat.repr milliseconds
  | dialog kind title => "dialog " ++ kind.name ++ " '" ++ title ++ "'"
  | probe component point confirm =>
    "probe " ++ Nat.repr component.index ++ " " ++ point ++ (if confirm then " true" else " false")

-- What the laser driver and its temperature control are doing.
structure LaserState where
  highCurrent : Bool := false
  laserOn : Bool := false
  tecOn : Bool := false
  deriving DecidableEq, Repr

-- A step in the state of one device.
inductive Change
  | output (name : String) (set : Bool)
  | slide (name : String) (extended : Bool)
  | position (component : Component) (point : String)
  | current (high : Bool)
  | laser (on : Bool)
  | tec (on : Bool)
  deriving DecidableEq, Repr

-- What the driver does for an action.
def LaserAction.change : LaserAction → Change
  | lowCurrent => .current false
  | highCurrent => .current true
  | laserOn => .laser true
  | laserOff => .laser false
  | tecOn => .tec true
  | tecOff => .tec false

-- The state of the devices, which they keep for themselves: the journal is no part of it.
structure Devices where
  outputs : List String := []
  extended : List String := []
  -- The last point that each axis reached, if it moved at all; the latest move comes first.
  moves : List (Component × String) := []
  laser : LaserState := {}
  deriving DecidableEq, Repr

namespace Devices

def isSet (d : Devices) (output : String) : Bool :=
  d.outputs.contains output

def isActive (d : Devices) (slide : String) : Bool :=
  d.extended.contains slide

def position? (d : Devices) (component : Component) : Option String :=
  d.moves.lookup component

-- The names that are on, after one of them was turned on or off.
def turn (names : List String) (name : String) (on : Bool) : List String :=
  if on then name :: names.filter (· != name) else names.filter (· != name)

def apply (d : Devices) : Change → Devices
  | .output name set => { d with outputs := turn d.outputs name set }
  | .slide name extended => { d with extended := turn d.extended name extended }
  | .position component point => { d with moves := (component, point) :: d.moves.filter (·.1 != component) }
  | .current high => { d with laser := { d.laser with highCurrent := high } }
  | .laser on => { d with laser := { d.laser with laserOn := on } }
  | .tec on => { d with laser := { d.laser with tecOn := on } }

def applyAll (d : Devices) (changes : List Change) : Devices :=
  changes.foldl apply d

end Devices

end StationScript
