import StationScript.Dialog.Presenter
import StationScript.Instruction
import StationScript.Plan
import StationScript.Reading
import StationScript.Settings

namespace StationScript

inductive Controller
  -- A simulated axis with taught points and a travel time.
  | axis (points : List String) (travel : Nat)
  -- Reaches every point at once, and enters each request in the journal.
  | recording
  | faulty
  deriving DecidableEq, Repr

-- A move by a controller. A confirmation by the operator may be asked for, which a simulated axis only
-- notes.
def Controller.move (component : Component) (point : String) (confirm : Bool) : Controller → Plan
  | .axis points travel =>
    if points.contains point then
      ⟨(if confirm then [.report .main (.confirmationIgnored component)] else []) ++
        [.report .main (.axisMoving component point), .wait travel, .change (.position component point),
          .record (.move component point)], .done⟩
    else .fail (.untaughtPoint component point)
  | .recording => ⟨[.record (.probe component point confirm)], .done⟩
  | .faulty => ⟨[], .panicked⟩

structure Station where
  outputs : List String
  slides : List String
  slideTravel : Nat
  -- The controllers in the order of fitting, the latest first: that one has the slot.
  controllers : List (Component × Controller) := []
  laserSettle : Nat
  -- Of channels with one name the last counts.
  channels : List Channel
  presenter : Presenter
  -- Whether there is a surface for countdowns. Without one a countdown is a plain wait.
  showsCountdowns : Bool := true
  -- The name of the thread that owns the operator's surface, if dialogs must be shown there.
  surface : Option String := none

namespace Station

def fit (st : Station) (component : Component) (controller : Controller) : Station :=
  { st with controllers := (component, controller) :: st.controllers }

-- Fits the axis that a motion entry describes. An entry that addresses no component is passed over.
def fitEntry (st : Station) (m : MotionSettings) : Station :=
  match Component.resolve? m.component with
  | some component => st.fit component (.axis m.points m.travel)
  | none => st

def ofSettings (s : SimulationSettings) : Station :=
  s.motion.foldl fitEntry {
    outputs := s.outputs
    slides := s.slides
    slideTravel := s.slideTravel
    laserSettle := s.laserSettle
    channels := s.channels
    presenter := .ofPolicy s.dialog }

-- What building a station reports: every motion entry that addresses no component.
def warnings (s : SimulationSettings) : List Event :=
  (s.motion.filter fun m => (Component.resolve? m.component).isNone).map (.motionSkipped ·.component)

def controller? (st : Station) (component : Component) : Option Controller :=
  st.controllers.lookup component

def channel? (st : Station) (name : String) : Option Channel :=
  st.channels.reverse.find? (·.name == name)

def hasChannel (st : Station) (name : String) : Bool :=
  (st.channel? name).isSome

-- The value of a channel, or a NaN if it has none.
def value (st : Station) (name : String) : Double :=
  ((st.channel? name).bind (·.value)).getD .nan

-- The target value of a channel, or a NaN if it has none.
def target (st : Station) (name : String) : Double :=
  ((st.channel? name).bind (·.target)).getD .nan

def unit (st : Station) (name : String) : String :=
  ((st.channel? name).map (·.unit)).getD ""

def setOutput (st : Station) (name : String) : Plan :=
  if st.outputs.contains name then
    ⟨[.change (.output name true), .report .main (.outputSet name), .record (.setOutput name)], .done⟩
  else .fail (.unknownOutput name)

def clearOutput (st : Station) (name : String) : Plan :=
  if st.outputs.contains name then
    ⟨[.change (.output name false), .report .main (.outputCleared name), .record (.clearOutput name)], .done⟩
  else .fail (.unknownOutput name)

-- A slide is extended when it has travelled.
def extendSlide (st : Station) (name : String) : Plan :=
  if st.slides.contains name then
    ⟨[.wait st.slideTravel, .change (.slide name true), .report .main (.slideActivated name),
      .record (.activateSlide name)], .done⟩
  else .fail (.unknownSlide name)

def retractSlide (st : Station) (name : String) : Plan :=
  if st.slides.contains name then
    ⟨[.wait st.slideTravel, .change (.slide name false), .report .main (.slideDeactivated name),
      .record (.deactivateSlide name)], .done⟩
  else .fail (.unknownSlide name)

def move (st : Station) (component : Component) (point : String) : Plan :=
  match st.controller? component with
  | some controller => (controller.move component point false).after [.report .main (.moving component point)]
  | none => .fail (.motionUnavailable component)

-- The laser driver settles before its state changes.
def laser (st : Station) (action : LaserAction) : Plan :=
  ⟨[.wait st.laserSettle, .change action.change, .report .main (.laserSwitched action), .record (.laser action)],
    .done⟩

-- A countdown on the operator's surface: the remaining time is shown at every tick.
def showCountdown (milliseconds : Nat) : Plan :=
  if Countdown.accepts milliseconds then
    ⟨(Countdown.ticks milliseconds).flatMap (fun t => [.report .main (.countdown t.seconds), .wait t.length]) ++
      [.record (.countdown milliseconds)], .done⟩
  else .fail (.countdownOutOfRange milliseconds)

def countdown (st : Station) (milliseconds : Nat) : Plan :=
  if st.showsCountdowns then showCountdown milliseconds else ⟨[.wait milliseconds], .done⟩

-- Looking a value up is entered in the journal, whether or not the channel exists.
def lookUp (channel : String) : Plan :=
  ⟨[.record (.read channel)], .done⟩

def read (st : Station) (channel : String) : Plan :=
  let text := Reading.text (st.value channel) (st.unit channel)
  (lookUp channel).andThen [.report .main (.reading channel text), .capture text]

def dialogThread (st : Station) : Thread :=
  if st.surface.isSome then .surface else .main

def ofAnswer (title : String) : DialogKind → Answer → Plan
  | .yesNo, .no => ⟨[], .declined title⟩
  | .yesNo, .ok => .fail .undecided
  | _, _ => ⟨[], .done⟩

-- What a reply means for the command. On a surface thread a fault stays with that thread, and a wait for an
-- answer can be cut; without one the dialog holds up everything.
def ofReply (st : Station) (kind : DialogKind) (title : String) : Reply → Plan
  | .answered answer => ofAnswer title kind answer
  | .failed e => .fail e
  | .panicked =>
    match st.surface with
    | some thread => ⟨[.report .surface (.surfacePanicked thread)], .failed (.surfaceUnavailable thread)⟩
    | none => ⟨[], .panicked⟩
  | .unanswered =>
    match st.surface with
    | some _ => ⟨[.waitForSignal], .done⟩
    | none => ⟨[.block], .done⟩

-- A dialog, where the input is what the operator will type.
def dialog (st : Station) (kind : DialogKind) (title message : String) (input : List Typed) : Plan :=
  let showing := st.presenter.ask st.dialogThread kind title message input
  (st.ofReply kind title showing.reply).after showing.effects

-- The plan for an instruction. An output that was switched is given time to settle.
def plan (st : Station) (settleDelay : Nat) (input : List Typed) : Instruction → Plan
  | .setOutput name => (st.setOutput name).andThen [.wait settleDelay]
  | .clearOutput name => (st.clearOutput name).andThen [.wait settleDelay]
  | .extendSlide name => st.extendSlide name
  | .retractSlide name => st.retractSlide name
  | .move component point => st.move component point
  | .dialog kind title message => st.dialog kind title message input
  | .countdown milliseconds => st.countdown milliseconds
  | .wait milliseconds => ⟨[.wait milliseconds], .done⟩
  | .laser action => st.laser action
  | .read channel => st.read channel

end Station

end StationScript
