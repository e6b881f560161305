import Mathlib.Data.List.Induction
import Mathlib.Logic.Relation
import StationScript.Proofs.Waiting
import StationScript.Surface

namespace StationScript

variable {α : Type}

namespace Job

-- The reply that is sent when a job ends, and what its submitter makes of it. None is sent to one who has left.
def reply? (thread : String) : Job α → Option (Option α)
  | run f => some (some (f thread))
  | panic => some none
  | hold  => none

def response? (thread : String) : Job α → Option (Response α)
  | run f => some (.value (f thread))
  | panic => some (.dropped thread)
  | hold  => none

def events (thread : String) : Job α → List Event
  | panic => [.surfacePanicked thread]
  | _     => []

end Job

namespace Surface

-- A job gets the next number and stands behind those that wait already.
def submit (s : Surface α) (job : Job α) : Surface α :=
  { s with submitted := s.submitted + 1, queue := s.queue ++ [(s.submitted, job)] }

-- The thread turns to a job, with others left to do.
def start (s : Surface α) (number : Nat) (rest : List (Nat × Job α)) : Surface α :=
  { s with held := some number, queue := rest, started := s.started ++ [number] }

def finish (s : Surface α) (number : Nat) (job : Job α) : Surface α :=
  { s with
    held := none
    replies := s.replies ++ (job.reply? s.name).toList.map (number, ·)
    events := s.events ++ job.events s.name }

-- How many jobs have ended.
def ended (s : Surface α) : Nat :=
  s.started.length - s.held.toList.length

end Surface

-- A job that was submitted with a token to wait under, with the response and the instant at which it came, once it has
-- come.
structure Submission (α : Type) where
  job : Job α
  token : Token
  answer? : Option (Response α × Nat) := none

def Submission.IsWaiting (i : Submission α) : Prop :=
  i.answer? = none

-- The surface thread, the clock, and all submissions until now by number.
structure Exchange (α : Type) where
  surface : Surface α
  clock : Timeline
  submissions : List (Submission α) := []

namespace Exchange

def initial (name : String) (clock : Timeline) : Exchange α :=
  ⟨{ name }, clock, []⟩

def jobs (x : Exchange α) : List (Job α) :=
  x.submissions.map (·.job)

-- The jobs that have ended: those that were submitted first.
def finished (x : Exchange α) : List (Job α) :=
  x.jobs.take x.surface.ended

-- What someone who waits finds when looking up: a cancellation counts before a reply.
def response? (x : Exchange α) (number : Nat) (token : Token) : Option (Response α) :=
  if x.clock.isCancelled token then some .cancelled else x.surface.reply? number

inductive Step (x : Exchange α) : Exchange α → Prop
  | submit (job : Job α) (token : Token) :
    Step x { x with surface := x.surface.submit job, submissions := x.submissions ++ [⟨job, token, none⟩] }
  | start {number : Nat} {job : Job α} {rest : List (Nat × Job α)} (idle : x.surface.held = none)
    (next : x.surface.queue = (number, job) :: rest) : Step x { x with surface := x.surface.start number rest }
  -- A job that holds the thread ends when its submitter no longer waits.
  | finish {number : Nat} {i : Submission α} (held : x.surface.held = some number)
    (submitted : x.submissions[number]? = some i) (left : i.job.reply? x.surface.name = none → ¬i.IsWaiting) :
    Step x { x with surface := x.surface.finish number i.job }
  | respond {number : Nat} {i : Submission α} {r : Response α} (submitted : x.submissions[number]? = some i)
    (waiting : i.IsWaiting) (response : x.response? number i.token = some r) :
    Step x { x with submissions := x.submissions.set number { i with answer? := some (r, x.clock.now) } }
  -- Time passes, over no firing that reaches someone who waits, and what is scheduled until then happens.
  | lapse (instant : Nat)
    (quiet : ∀ number i, x.submissions[number]? = some i → i.IsWaiting →
      x.response? number i.token = none ∧ x.clock.CalmUntil i.token instant) :
    Step x { x with clock := x.clock.cutAt instant }
  -- Anyone else may raise flags, open scopes and schedule firings.
  | meanwhile (clock : Timeline) (now : clock.now = x.clock.now)
    (raised : ∀ f ∈ x.clock.signals.raised, f ∈ clock.signals.raised) : Step x { x with clock }

-- Any number of steps.
def Steps : Exchange α → Exchange α → Prop :=
  Relation.ReflTransGen Step

end Exchange

-- Jobs with their numbers.
def numbered (jobs : List (Job α)) : List (Nat × Job α) :=
  jobs.zipIdx.map Prod.swap

theorem numbered_concat (jobs : List (Job α)) (job : Job α) :
    numbered (jobs ++ [job]) = numbered jobs ++ [(jobs.length, job)] := by
  simp [numbered, List.zipIdx_append]

theorem length_numbered (jobs : List (Job α)) : (numbered jobs).length = jobs.length := by
  simp [numbered]

theorem of_drop_numbered {jobs : List (Job α)} {count number : Nat} {job : Job α} {rest : List (Nat × Job α)}
    (h : (numbered jobs).drop count = (number, job) :: rest) :
    number = count ∧ jobs[count]? = some job ∧ rest = (numbered jobs).drop (count + 1) := by
  have hlt : count < (numbered jobs).length := by
    by_contra hge
    rw [List.drop_of_length_le (Nat.not_lt.1 hge)] at h
    cases h
  rw [List.drop_eq_getElem_cons hlt] at h
  have ⟨hhead, hrest⟩ := List.cons.inj h
  simp only [numbered, List.getElem_map, List.getElem_zipIdx, Prod.swap_prod_mk, Prod.mk.injEq, Nat.zero_add] at hhead
  rw [length_numbered] at hlt
  exact ⟨hhead.left.symm, by rw [List.getElem?_eq_getElem hlt, hhead.right], hrest.symm⟩

-- The replies to jobs that ended.
def replies (thread : String) (jobs : List (Job α)) : List (Nat × Option α) :=
  (numbered jobs).flatMap fun (number, job) => (job.reply? thread).toList.map (number, ·)

theorem replies_concat (thread : String) (jobs : List (Job α)) (job : Job α) :
    replies thread (jobs ++ [job]) = replies thread jobs ++ (job.reply? thread).toList.map (jobs.length, ·) := by
  simp [replies, numbered_concat]

theorem lookup_map_of_ne {number other : Nat} (h : number ≠ other) (reply : Option (Option α)) :
    (reply.toList.map (other, ·)).lookup number = none := by
  cases reply
  case none => rfl
  case some => simp [List.lookup_cons, beq_false_of_ne h]

theorem lookup_replies (thread : String) (jobs : List (Job α)) (number : Nat) :
    (replies thread jobs).lookup number = jobs[number]?.bind (·.reply? thread) := by
  induction jobs using List.reverseRecOn
  case nil => rfl
  case append_singleton jobs job ih =>
    rw [replies_concat, List.lookup_append, ih]
    by_cases heq : number = jobs.length
    case pos =>
      subst heq
      rw [List.getElem?_eq_none (Nat.le_refl _), List.getElem?_concat_length]
      cases hreply : job.reply? thread <;> simp [hreply]
    case neg =>
      rw [lookup_map_of_ne heq, Option.or_none]
      by_cases hlt : number < jobs.length
      case pos => rw [List.getElem?_append_left hlt]
      case neg =>
        have hlong : (jobs ++ [job]).length ≤ number := by simp; omega
        rw [List.getElem?_eq_none (Nat.not_lt.1 hlt), List.getElem?_eq_none hlong]

-- The thread with a name has turned to the first of some jobs in their order, ended them but perhaps the last one, and
-- sent the reply and the report of each that ended once; the others are in the queue.
structure Surface.Serves (s : Surface α) (thread : String) (jobs : List (Job α)) : Prop where
  named     : s.name = thread
  submitted : s.submitted = jobs.length
  started   : s.started = List.range s.started.length
  notAhead  : s.started.length ≤ jobs.length
  queue     : s.queue = (numbered jobs).drop s.started.length
  held      : ∀ number, s.held = some number → s.started.length = number + 1
  replies   : s.replies = StationScript.replies thread (jobs.take s.ended)
  events    : s.events = (jobs.take s.ended).flatMap (·.events thread)

namespace Surface.Serves

variable {s : Surface α} {thread : String} {jobs : List (Job α)} {job : Job α} {number : Nat}
  {rest : List (Nat × Job α)}

theorem ended_le (h : s.Serves thread jobs) : s.ended ≤ jobs.length :=
  Nat.le_trans (Nat.sub_le ..) h.notAhead

-- What is found as the reply to a job is its own.
theorem reply?_eq (h : s.Serves thread jobs) (number : Nat) :
    s.reply? number = (jobs.take s.ended)[number]?.bind (·.response? thread) := by
  rw [reply?, h.replies, lookup_replies, h.named]
  cases (jobs.take s.ended)[number]?
  case none => rfl
  case some job => cases job <;> rfl

theorem initial (thread : String) : ({ name := thread } : Surface α).Serves thread [] where
  named     := rfl
  submitted := rfl
  started   := rfl
  notAhead  := Nat.le_refl _
  queue     := rfl
  held      := nofun
  replies   := rfl
  events    := rfl

theorem submit (h : s.Serves thread jobs) (job : Job α) : (s.submit job).Serves thread (jobs ++ [job]) := by
  have hended : (jobs ++ [job]).take s.ended = jobs.take s.ended := List.take_append_of_le_length h.ended_le
  exact {
    named     := h.named
    submitted := by rw [Surface.submit, h.submitted, List.length_append, List.length_singleton]
    started   := h.started
    notAhead  := Nat.le_trans h.notAhead (by simp)
    queue     := by
      have hle : s.started.length ≤ (numbered jobs).length := by rw [length_numbered]; exact h.notAhead
      simp only [Surface.submit]
      rw [numbered_concat, List.drop_append_of_le_length hle, h.queue, h.submitted]
    held      := h.held
    replies   := h.replies.trans (congrArg _ hended.symm)
    events    := h.events.trans (congrArg _ hended.symm) }

theorem start (h : s.Serves thread jobs) (hidle : s.held = none) (hnext : s.queue = (number, job) :: rest) :
    (s.start number rest).Serves thread jobs := by
  have ⟨hnumber, hjob, hrest⟩ := of_drop_numbered (h.queue.symm.trans hnext)
  have hended : (s.start number rest).ended = s.ended := by simp [Surface.start, ended, hidle]
  have hlength : (s.start number rest).started.length = s.started.length + 1 := by simp [Surface.start]
  have ⟨hlt, _⟩ := List.getElem?_eq_some_iff.1 hjob
  exact {
    named     := h.named
    submitted := h.submitted
    started   := by
      rw [hlength, List.range_succ, ← h.started, ← hnumber]
      rfl
    notAhead  := by rw [hlength]; exact hlt
    queue     := by rw [hlength, ← hrest]; rfl
    held      := by
      intro number' hheld
      rw [hlength, ← hnumber, Option.some.inj hheld]
    replies   := by rw [hended]; exact h.replies
    events    := by rw [hended]; exact h.events }

theorem finish (h : s.Serves thread jobs) (hheld : s.held = some number) (hjob : jobs[number]? = some job) :
    (s.finish number job).Serves thread jobs := by
  have hstarted := h.held number hheld
  have hended : s.ended = number := by simp [ended, hheld, hstarted]
  have hended' : (s.finish number job).ended = number + 1 := by simp [Surface.finish, ended, hstarted]
  have ⟨hlt, hget⟩ := List.getElem?_eq_some_iff.1 hjob
  have htake : jobs.take (number + 1) = jobs.take number ++ [job] := by rw [← hget, List.take_append_getElem hlt]
  have hlength : (jobs.take number).length = number := List.length_take_of_le (Nat.le_of_lt hlt)
  exact {
    named     := h.named
    submitted := h.submitted
    started   := h.started
    notAhead  := h.notAhead
    queue     := h.queue
    held      := nofun
    replies   := by
      rw [hended', htake, replies_concat, hlength, ← hended, ← h.replies, ← h.named, hended]
      rfl
    events    := by
      rw [hended', htake, List.flatMap_append, List.flatMap_singleton, ← hended, ← h.events, ← h.named]
      rfl }

end Surface.Serves

namespace Exchange

variable {x y : Exchange α} {thread : String} {number : Nat} {i : Submission α} {r : Response α} {token : Token}

theorem jobs_set (hi : x.submissions[number]? = some i) (answer? : Option (Response α × Nat)) :
    (x.submissions.set number { i with answer? }).map (·.job) = x.jobs := by
  have ⟨hlt, hget⟩ := List.getElem?_eq_some_iff.1 hi
  have hlen : number < (x.submissions.map (·.job)).length := by rwa [List.length_map]
  have hjob : i.job = (x.submissions.map (·.job))[number] := by simp [hget]
  rw [List.map_set, hjob, List.set_getElem_self]
  rfl

theorem Step.serves (h : x.Step y) (hs : x.surface.Serves thread x.jobs) : y.surface.Serves thread y.jobs := by
  cases h
  case submit job token =>
    have hjobs : Exchange.jobs { x with submissions := x.submissions ++ [⟨job, token, none⟩] } = x.jobs ++ [job] :=
      List.map_append
    exact hjobs ▸ hs.submit job
  case start hidle hnext => exact hs.start hidle hnext
  case finish hheld hi _ => exact hs.finish hheld (by rw [jobs, List.getElem?_map, hi]; rfl)
  case respond hi _ _ =>
    rw [← jobs_set hi] at hs
    exact hs
  case lapse             => exact hs
  case meanwhile         => exact hs

theorem Step.isCancelled (h : x.Step y) (hc : x.clock.isCancelled token) : y.clock.isCancelled token := by
  cases h
  case lapse instant _     => exact Timeline.isCancelled_firePending.2 (.inr hc)
  case meanwhile _ hraised =>
    have ⟨f, hf, hr⟩ := Signals.isCancelled_iff.1 hc
    exact Signals.isCancelled_iff.2 ⟨f, hf, hraised f hr⟩
  all_goals exact hc

-- A reply that was sent is there to stay.
theorem Step.reply? (h : x.Step y) (hr : x.surface.reply? number = some r) : y.surface.reply? number = some r := by
  cases h
  case finish =>
    obtain ⟨reply, hreply, rfl⟩ := Option.map_eq_some_iff.1 hr
    simp [Surface.reply?, Surface.finish, List.lookup_append, hreply]
  all_goals exact hr

-- Someone who could go on can still go on, if only by the news of being cancelled.
theorem Step.isSome_response? (h : x.Step y) (hr : (x.response? number token).isSome) :
    (y.response? number token).isSome := by
  unfold response? at hr ⊢
  by_cases hc : y.clock.isCancelled token
  case pos => simp [hc]
  case neg =>
    have hlive : ¬x.clock.isCancelled token := fun hx => hc (h.isCancelled hx)
    rw [if_neg hlive] at hr
    have ⟨r, hr⟩ := Option.isSome_iff_exists.1 hr
    rw [if_neg hc, h.reply? hr]
    rfl

-- Nobody is answered twice, and nothing else changes about those who were submitted.
theorem Step.submission (h : x.Step y) (hi : x.submissions[number]? = some i) :
    y.submissions[number]? = some i ∨ ∃ r, i.IsWaiting ∧ x.response? number i.token = some r ∧
      y.clock = x.clock ∧ y.submissions[number]? = some { i with answer? := some (r, x.clock.now) } := by
  cases h
  case submit =>
    have ⟨hlt, _⟩ := List.getElem?_eq_some_iff.1 hi
    exact .inl ((List.getElem?_append_left hlt).trans hi)
  case respond number' i' r hi' hwaiting hresponse =>
    by_cases hn : number' = number
    case pos =>
      subst hn
      obtain rfl := Option.some.inj (hi'.symm.trans hi)
      have ⟨hlt, _⟩ := List.getElem?_eq_some_iff.1 hi
      exact .inr ⟨r, hwaiting, hresponse, rfl, List.getElem?_set_self hlt⟩
    case neg => exact .inl ((List.getElem?_set_ne hn).trans hi)
  all_goals exact .inl hi

-- A submission that is there after a step was there before, as it is or waiting, or has just been submitted.
theorem Step.of_submission (h : x.Step y) (hi : y.submissions[number]? = some i) :
    x.submissions[number]? = some i ∨ i.IsWaiting ∨
      ∃ r, i.answer? = some (r, x.clock.now) ∧ x.response? number i.token = some r ∧
        x.submissions[number]? = some { i with answer? := none } := by
  cases hx : x.submissions[number]?
  case some j =>
    rcases h.submission hx with hy | ⟨r, hwaiting, hresponse, _, hy⟩
    · exact .inl (hy.symm.trans hi)
    · obtain rfl := Option.some.inj (hy.symm.trans hi)
      have hj : { j with answer? := none } = j := by rw [← show j.answer? = none from hwaiting]
      exact .inr (.inr ⟨r, rfl, hresponse, congrArg some hj.symm⟩)
  case none =>
    refine .inr (.inl ?_)
    have hlength := List.getElem?_eq_none_iff.1 hx
    cases h
    case submit job token =>
      simp only [List.getElem?_append_right hlength] at hi
      have hmem := List.mem_of_getElem? hi
      rw [List.mem_singleton.1 hmem]
      rfl
    case respond =>
      rw [List.getElem?_eq_none (by rwa [List.length_set])] at hi
      cases hi
    all_goals simp [hx] at hi

theorem Steps.serves (h : Steps x y) (hs : x.surface.Serves thread x.jobs) : y.surface.Serves thread y.jobs := by
  induction h
  case refl => exact hs
  case tail _ hstep ih => exact hstep.serves ih

-- Whoever could go on at an instant goes on at that instant, and is told of a cancellation if there was one.
theorem Steps.prompt (h : Steps x y) (hi : x.submissions[number]? = some i) (hwaiting : i.IsWaiting)
    (hready : (x.response? number i.token).isSome) :
    y.submissions[number]? = some i ∧ y.clock.now = x.clock.now ∧ (y.response? number i.token).isSome ∧
      (x.clock.isCancelled i.token → y.clock.isCancelled i.token) ∨
    ∃ r, y.submissions[number]? = some { i with answer? := some (r, x.clock.now) } ∧
      (x.clock.isCancelled i.token → r = .cancelled) := by
  induction h
  case refl => exact .inl ⟨hi, rfl, hready, id⟩
  case tail y z _ hstep ih =>
    rcases ih with ⟨hy, hnow, hready, hcancelled⟩ | ⟨r, hy, hr⟩
    · rcases hstep.submission hy with hz | ⟨r, _, hresponse, _, hz⟩
      · refine .inl ⟨hz, ?_, hstep.isSome_response? hready, fun hc => hstep.isCancelled (hcancelled hc)⟩
        cases hstep
        -- No time passes while someone could go on.
        case lapse hquiet => rw [(hquiet number i hy hwaiting).left] at hready; cases hready
        case meanwhile hclock _ => exact hclock.trans hnow
        all_goals exact hnow
      · rw [hnow] at hz
        refine .inr ⟨r, hz, fun hc => ?_⟩
        rw [Exchange.response?, if_pos (hcancelled hc)] at hresponse
        exact (Option.some.inj hresponse).symm
    · refine .inr ⟨r, ?_, hr⟩
      rcases hstep.submission hy with hz | ⟨_, hcontra, _⟩
      · exact hz
      · cases hcontra

-- For each answer there was a moment at which it was found.
theorem Steps.moment {instant : Nat} (h : Steps x y) (hx : ∀ i ∈ x.submissions, i.IsWaiting)
    (hi : y.submissions[number]? = some i) (hanswer : i.answer? = some (r, instant)) :
    ∃ z, Steps x z ∧ Steps z y ∧ z.clock.now = instant ∧ z.submissions[number]? = some { i with answer? := none } ∧
      z.response? number i.token = some r := by
  induction h
  case refl =>
    have hwaiting := hx i (List.mem_of_getElem? hi)
    cases hanswer.symm.trans hwaiting
  case tail y y' hsteps hstep ih =>
    rcases hstep.of_submission hi with hy | hwaiting | ⟨r', hanswer', hresponse, hy⟩
    · have ⟨z, hxz, hzy, hz⟩ := ih hy
      exact ⟨z, hxz, hzy.tail hstep, hz⟩
    · cases hanswer.symm.trans hwaiting
    · cases hanswer.symm.trans hanswer'
      exact ⟨y, hsteps, .single hstep, rfl, hy, hresponse⟩

end Exchange

end StationScript
