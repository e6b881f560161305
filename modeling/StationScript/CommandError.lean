import StationScript.Component
import StationScript.Countdown
import StationScript.Files

namespace StationScript

inductive CommandError
  -- what the line says
  | missingParameter (index : Nat) (what : String)
  | invalidParameter (what value : String)
  | unknownComponent (target : String)
  -- what the station lacks or refuses
  | motionUnavailable (component : Component)
  | surfaceUnavailable (thread : String)
  | unknownOutput (name : String)
  | unknownSlide (name : String)
  | untaughtPoint (component : Component) (point : String)
  | countdownOutOfRange (milliseconds : Nat)
  -- what became of a dialog
  | undecided
  | inputClosed (title : String)
  | inputNotText
  | presenter (reason : String)
  deriving DecidableEq, Repr

namespace CommandError

def message : CommandError → String
  | missingParameter index what => "missing parameter #" ++ Nat.repr index ++ " (" ++ what ++ ")"
  | invalidParameter what value => "invalid " ++ what ++ ": '" ++ value ++ "'"
  | unknownComponent target => "unknown component: '" ++ target ++ "'"
  | motionUnavailable component => "no motion controller registered for " ++ component.name
  | surfaceUnavailable thread => "presentation surface unavailable: " ++ thread ++ " dropped the request"
  | unknownOutput name => "Unknown digital output '" ++ name ++ "'"
  | unknownSlide name => "Unknown slide '" ++ name ++ "'"
  | untaughtPoint component point => component.name ++ " has no taught point '" ++ point ++ "'"
  | countdownOutOfRange milliseconds =>
    "Countdown of " ++ Nat.repr milliseconds ++ " ms is outside " ++ Nat.repr Countdown.shortest ++ "..=" ++
      Nat.repr Countdown.longest ++ " ms"
  | undecided => "YES_NO dialog returned OK"
  | inputClosed title => "stdin closed while waiting for dialog '" ++ title ++ "'"
  | inputNotText => FileError.notText.message
  | presenter reason => reason

end CommandError

end StationScript
