import StationScript.CommandError
import StationScript.Effect
import StationScript.Timeline

namespace StationScript

inductive Verdict
  | done
  | failed (e : CommandError)
  | declined (title : String)
  | panicked
  deriving DecidableEq, Repr

-- What a command would do if nothing cut it, and how that would end.
structure Plan where
  effects : List Effect
  verdict : Verdict
  deriving DecidableEq, Repr

namespace Plan

-- Does nothing and fails.
def fail (e : CommandError) : Plan :=
  ⟨[], .failed e⟩

-- Effects in front of a plan.
def after (first : List Effect) (p : Plan) : Plan :=
  { p with effects := first ++ p.effects }

-- Further effects, if the plan is done by then.
def andThen (p : Plan) (further : List Effect) : Plan :=
  match p.verdict with
  | .done => { p with effects := p.effects ++ further }
  | _ => p

end Plan

structure Progress where
  trace : Trace
  -- Whether that is all of them; otherwise a cancellation cut the next one.
  finished : Bool
  timeline : Timeline
  deriving DecidableEq, Repr

namespace Progress

def after (e : Effect) (p : Progress) : Progress :=
  { p with trace := e :: p.trace }

end Progress

namespace Timeline

-- Follows effects under a token, as far as no cancellation cuts a wait. There is no result if that never ends.
def follow (t : Timeline) (token : Token) : List Effect → Option Progress
  | [] => some ⟨[], true, t⟩
  | .wait n :: rest =>
    let (passed, t) := t.wait token n
    if passed then (t.follow token rest).map (.after (.wait n)) else some ⟨[], false, t⟩
  | .waitForSignal :: _ => (t.waitForSignal? token).map (⟨[], false, ·⟩)
  | .block :: _ => none
  | e :: rest => (t.follow token rest).map (.after e)

end Timeline

end StationScript
