import StationScript.Proofs.Exchange

namespace StationScript

variable {α : Type}

namespace Exchange

variable {x y : Exchange α} {s : Surface α} {t : Timeline} {submissions : List (Submission α)} {thread : String}
  {number : Nat} {i : Submission α} {job : Job α} {jobs : List (Job α)} {q rest : List (Nat × Job α)} {token : Token}
  {r : Response α}

-- The steps that the thread still has to take.
def pending (x : Exchange α) : Nat :=
  2 * x.surface.queue.length + x.surface.held.toList.length

-- The job that the thread is at waits for its submitter to leave.
def Blocked (x : Exchange α) : Prop :=
  ∃ number i, x.surface.held = some number ∧ x.submissions[number]? = some i ∧ i.IsWaiting ∧
    i.job.reply? x.surface.name = none

structure AtRest (x : Exchange α) : Prop where
  left : ∀ i ∈ x.submissions, ¬i.IsWaiting
  idle : x.surface.held = none
  done : x.surface.queue = []

theorem exists_submission_of_held (hs : x.surface.Serves thread x.jobs) (hheld : x.surface.held = some number) :
    ∃ i, x.submissions[number]? = some i := by
  have hstarted := hs.held number hheld
  have hle := hs.notAhead
  have hlt : number < x.submissions.length := by
    rw [jobs, List.length_map] at hle
    omega
  exact ⟨_, List.getElem?_eq_getElem hlt⟩

-- As long as it has something to do, the thread goes on.
theorem exists_step_of_pending (hs : x.surface.Serves thread x.jobs) (hpending : 0 < x.pending) (hfree : ¬x.Blocked) :
    ∃ y, x.Step y ∧ y.submissions = x.submissions ∧ y.clock = x.clock ∧ y.pending + 1 = x.pending := by
  cases hheld : x.surface.held
  case some number =>
    have ⟨i, hi⟩ := exists_submission_of_held hs hheld
    have hleft : i.job.reply? x.surface.name = none → ¬i.IsWaiting :=
      fun hhold hwaiting => hfree ⟨number, i, hheld, hi, hwaiting, hhold⟩
    exact ⟨_, .finish hheld hi hleft, rfl, rfl, by simp [pending, Surface.finish, hheld]⟩
  case none =>
    cases hqueue : x.surface.queue
    case nil => simp [pending, hheld, hqueue] at hpending
    case cons entry rest =>
      refine ⟨_, .start hheld hqueue, rfl, rfl, ?_⟩
      simp [pending, Surface.start, hheld, hqueue]
      omega

-- When all have left, the thread comes to rest.
theorem exists_rest (hs : x.surface.Serves thread x.jobs) (hleft : ∀ i ∈ x.submissions, ¬i.IsWaiting) :
    ∃ y, Steps x y ∧ y.submissions = x.submissions ∧ y.AtRest := by
  induction hcount : x.pending generalizing x
  case zero =>
    have hqueue : x.surface.queue = [] := List.length_eq_zero_iff.1 (by simp only [pending] at hcount; omega)
    have hheld : x.surface.held = none := by
      cases hheld : x.surface.held
      case none => rfl
      case some => simp [pending, hheld] at hcount
    exact ⟨x, .refl, rfl, hleft, hheld, hqueue⟩
  case succ count ih =>
    have hfree : ¬x.Blocked := fun ⟨_, i, _, hi, hwaiting, _⟩ => hleft i (List.mem_of_getElem? hi) hwaiting
    have ⟨y, hstep, hsame, _, hless⟩ := exists_step_of_pending hs (by omega) hfree
    have ⟨z, hsteps, hz, hrest⟩ := ih (hstep.serves hs) (hsame ▸ hleft) (by omega)
    exact ⟨z, .head hstep hsteps, hz.trans hsame, hrest⟩

-- When nothing is queued, all jobs were started.
theorem length_started (hs : s.Serves thread jobs) (h : s.queue = []) : s.started.length = jobs.length := by
  have hnone := hs.queue.symm.trans h
  rw [List.drop_eq_nil_iff, length_numbered] at hnone
  exact Nat.le_antisymm hs.notAhead hnone

-- At rest, every job was started in its turn, and what was reported is complete.
theorem AtRest.log_eq (h : x.AtRest) (hs : x.surface.Serves thread x.jobs) :
    x.surface.started = List.range x.jobs.length ∧
    x.surface.log = x.jobs.flatMap (·.events thread) ++ [.surfaceStopped thread] := by
  have hall := length_started hs h.done
  have hended : x.surface.ended = x.jobs.length := by simp [Surface.ended, h.idle, hall]
  refine ⟨by rw [hs.started, hall], ?_⟩
  rw [Surface.log, hs.events, hended, List.take_length, hs.named]

-- The thread with more jobs behind those in its queue.
def behind (s : Surface α) (rest : List (Nat × Job α)) : Surface α :=
  { s with queue := s.queue ++ rest }

theorem behind_nil (s : Surface α) : behind s [] = s := by
  simp [behind]

-- Nothing waits for a thread that is idle.
def Prompt (s : Surface α) : Prop :=
  s.held = none → s.queue = []

theorem prompt_take (h : Prompt s) (number : Nat) (job : Job α) : Prompt (s.take number job) := by
  unfold Prompt Surface.take at *
  cases hheld : s.held
  case some => simp
  case none => cases job <;> simp [h hheld]

-- Taking a job is to start it and to end it, if the thread is idle and the job ends.
theorem take_steps (h : Prompt s) (hi : submissions[number]? = some i) (rest : List (Nat × Job α)) :
    Steps ⟨behind s ((number, i.job) :: rest), t, submissions⟩ ⟨behind (s.take number i.job) rest, t, submissions⟩ := by
  cases hheld : s.held
  case some =>
    have htake : behind (s.take number i.job) rest = behind s ((number, i.job) :: rest) := by
      simp [behind, Surface.take, hheld]
    rw [htake]
    exact .refl
  case none =>
    let x : Exchange α := ⟨behind s ((number, i.job) :: rest), t, submissions⟩
    have hnext : x.surface.queue = (number, i.job) :: rest := by simp [x, behind, h hheld]
    have hstart : x.Step { x with surface := x.surface.start number rest } := .start hheld hnext
    cases hjob : i.job
    case hold =>
      have htake : behind (s.take number .hold) rest = x.surface.start number rest := by
        simp [x, behind, Surface.take, Surface.start, hheld, h hheld]
      rw [htake, ← hjob]
      exact .single hstart
    -- Any other job ends at once.
    all_goals
      have hfinish : Step { x with surface := x.surface.start number rest }
          { x with surface := (x.surface.start number rest).finish number i.job } :=
        .finish rfl hi (by simp [hjob, Job.reply?])
      have htake : behind (s.take number i.job) rest = (x.surface.start number rest).finish number i.job := by
        simp [x, hjob, behind, Surface.take, Surface.start, Surface.finish, Job.reply?, Job.events, hheld, h hheld]
      rw [← hjob, htake]
      exact .head hstart (.single hfinish)

theorem takes_steps (h : Prompt s) (hq : ∀ entry ∈ q, submissions[entry.1]?.map (·.job) = some entry.2) :
    Steps ⟨behind s q, t, submissions⟩ ⟨q.foldl (fun s (number, job) => s.take number job) s, t, submissions⟩ := by
  induction q generalizing s
  case nil =>
    rw [behind_nil]
    exact .refl
  case cons entry rest ih =>
    have ⟨hentry, hrest⟩ := List.forall_mem_cons.1 hq
    obtain ⟨i, hi, hjob⟩ := Option.map_eq_some_iff.1 hentry
    have hfirst := take_steps (t := t) h hi rest
    rw [hjob] at hfirst
    exact hfirst.trans (ih (prompt_take h _ _) hrest)

-- The thread takes a job under the next number.
def accept (s : Surface α) (job : Job α) : Surface α :=
  { s with submitted := s.submitted + 1 }.take s.submitted job

-- Whoever submits a job finds it taken by the thread or behind others.
theorem accept_steps (h : Prompt x.surface) (hs : x.surface.Serves thread x.jobs) (job : Job α) (token : Token) :
    Steps x ⟨accept x.surface job, x.clock, x.submissions ++ [⟨job, token, none⟩]⟩ := by
  have hnumber : x.surface.submitted = x.submissions.length := hs.submitted.trans (List.length_map _)
  have hi : (x.submissions ++ [⟨job, token, none⟩])[x.surface.submitted]? = some ⟨job, token, none⟩ := by
    rw [hnumber, List.getElem?_concat_length]
  have htake := take_steps (s := { x.surface with submitted := x.surface.submitted + 1 }) (t := x.clock) h hi []
  rw [behind_nil] at htake
  exact .head (.submit job token) htake

-- Whoever leaves lets the thread go on, if it was held for that one.
theorem release_steps (hs : x.surface.Serves thread x.jobs) (hi : x.submissions[number]? = some i)
    (hleft : ¬i.IsWaiting) (hhold : x.surface.held = some number → i.job = .hold) :
    Steps x { x with surface := x.surface.release number } := by
  by_cases hheld : x.surface.held = some number
  case neg =>
    rw [Surface.release, if_neg hheld]
    exact .refl
  case pos =>
    have hfinish : x.surface.finish number i.job =
        behind { x.surface with held := none, queue := [] } x.surface.queue := by
      simp [hhold hheld, behind, Surface.finish, Job.reply?, Job.events]
    have hqueue : ∀ entry ∈ x.surface.queue, x.submissions[entry.1]?.map (·.job) = some entry.2 := by
      intro entry hentry
      have hnumbered := List.mem_of_mem_drop (hs.queue ▸ hentry)
      simp only [numbered, List.mem_map, Prod.exists, Prod.swap_prod_mk] at hnumbered
      obtain ⟨job, n, hmem, rfl⟩ := hnumbered
      rw [← List.getElem?_map]
      exact (List.mem_zipIdx_iff_getElem? ..).1 hmem
    have hstep : x.Step { x with surface := x.surface.finish number i.job } := .finish hheld hi fun _ => hleft
    rw [hfinish] at hstep
    rw [Surface.release, if_pos hheld]
    exact .head hstep (takes_steps (fun _ => rfl) hqueue)

-- A thread that has nothing to do is at the job it is given if that holds it, and done with it otherwise.
theorem accept_of_rest (hidle : s.held = none) (hdone : s.queue = []) (job : Job α) :
    (accept s job).queue = [] ∧ (job = .hold ∧ (accept s job).held = some s.submitted ∨
      job ≠ .hold ∧ (accept s job).held = none) := by
  cases job <;> simp [accept, Surface.take, hidle, hdone]

-- The exchange with one more submission.
def followedBy (x : Exchange α) (i : Submission α) : Exchange α :=
  { x with submissions := x.submissions ++ [i] }

theorem jobs_followedBy : (x.followedBy i).jobs = x.jobs ++ [i.job] :=
  List.map_append

theorem getElem?_followedBy : (x.followedBy i).submissions[x.submissions.length]? = some i :=
  List.getElem?_concat_length

-- A job that was submitted to a thread at rest: the thread is at it, if it holds the thread, and has ended it
-- otherwise.
structure Accepted (thread : String) (s : Surface α) (jobs : List (Job α)) (job : Job α) : Prop where
  serves : s.Serves thread (jobs ++ [job])
  done   : s.queue = []
  held   : job = .hold ∧ s.held = some jobs.length ∨ job ≠ .hold ∧ s.held = none

theorem AtRest.accepted (h : x.AtRest) (hs : x.surface.Serves thread x.jobs) (job : Job α) :
    Accepted thread (accept x.surface job) x.jobs job := by
  let y : Exchange α := { x with surface := accept x.surface job }
  have hserves : y.surface.Serves thread (y.followedBy ⟨job, ⟨[]⟩, none⟩).jobs :=
    (accept_steps (fun _ => h.done) hs job ⟨[]⟩).serves hs
  rw [jobs_followedBy] at hserves
  have ⟨hdone, hheld⟩ := accept_of_rest h.idle h.done job
  rw [hs.submitted] at hheld
  exact ⟨hserves, hdone, hheld⟩

namespace Accepted

variable (h : Accepted thread s jobs job)

include h

-- What its submitter finds.
theorem reply?_eq : s.reply? jobs.length = job.response? thread := by
  have hstarted := length_started h.serves h.done
  rw [List.length_append, List.length_singleton] at hstarted
  rw [h.serves.reply?_eq]
  rcases h.held with ⟨rfl, hheld⟩ | ⟨_, hheld⟩
  · have hended : s.ended = jobs.length := by simp [Surface.ended, hstarted, hheld]
    rw [hended, List.take_left, List.getElem?_eq_none (Nat.le_refl _)]
    rfl
  · have hended : s.ended = (jobs ++ [job]).length := by simp [Surface.ended, hstarted, hheld]
    rw [hended, List.take_length, List.getElem?_concat_length]
    rfl

theorem hold_of_held (hheld : s.held = some jobs.length) : job = .hold := by
  rcases h.held with ⟨hjob, _⟩ | ⟨_, hnone⟩
  · exact hjob
  · cases hheld.symm.trans hnone

-- There is nothing to release once there is a reply.
theorem release_of_response {r : Response α} (hr : job.response? thread = some r) : s.release jobs.length = s := by
  refine if_neg fun hheld => ?_
  rw [h.hold_of_held hheld] at hr
  cases hr

theorem release_rests : (s.release jobs.length).queue = [] ∧ (s.release jobs.length).held = none := by
  rcases h.held with ⟨_, hheld⟩ | ⟨_, hheld⟩ <;> simp [Surface.release, h.done, hheld]

end Accepted

-- When nobody else waits, the response is known from the job, the token and the clock.
theorem invoke_eq (hrest : x.AtRest) (hs : x.surface.Serves thread x.jobs) (job : Job α) (token : Token) :
    x.surface.invoke x.clock token job =
      if x.clock.isCancelled token then some (.cancelled, x.clock, (accept x.surface job).release x.jobs.length)
      else
        match job.response? thread with
        | some r => some (r, x.clock, (accept x.surface job).release x.jobs.length)
        | none => (x.clock.waitForSignal? token).map (.cancelled, ·, (accept x.surface job).release x.jobs.length) := by
  have haccepted := hrest.accepted hs job
  have hreply := haccepted.reply?_eq
  have hinvoke : x.surface.invoke x.clock token job =
      if x.clock.isCancelled token then some (.cancelled, x.clock, (accept x.surface job).release x.surface.submitted)
      else
        match (accept x.surface job).reply? x.surface.submitted with
        | some r => some (r, x.clock, accept x.surface job)
        | none => (x.clock.waitForSignal? token).map fun t =>
            (.cancelled, t, (accept x.surface job).release x.surface.submitted) := rfl
  rw [hinvoke, hs.submitted, hreply]
  cases hresponse : job.response? thread
  case none   => rfl
  case some r => rw [haccepted.release_of_response hresponse]

-- It never comes for a job that holds the thread under a token that is never cancelled, and only then.
theorem invoke_eq_none_iff (hrest : x.AtRest) (hs : x.surface.Serves thread x.jobs) :
    x.surface.invoke x.clock token job = none ↔
      job = .hold ∧ ¬x.clock.isCancelled token ∧ ∀ f ∈ x.clock.schedule, f.flag ∉ token.flags := by
  rw [invoke_eq hrest hs]
  by_cases hcancelled : x.clock.isCancelled token
  case pos => simp [hcancelled]
  case neg =>
    rw [if_neg hcancelled]
    cases job
    case hold =>
      simp [Job.response?, Timeline.waitForSignal?, hcancelled, Timeline.nextFor?_eq_none_iff]
    all_goals simp [Job.response?]

-- The last one who waits takes the response and leaves.
theorem respond_steps (hs : x.surface.Serves thread (x.jobs ++ [job]))
    (hhold : x.surface.held = some x.submissions.length → job = .hold)
    (hr : x.response? x.submissions.length token = some r) :
    Steps (x.followedBy ⟨job, token, none⟩)
      ({ x with surface := x.surface.release x.submissions.length }.followedBy
        ⟨job, token, some (r, x.clock.now)⟩) := by
  let waiting : Submission α := ⟨job, token, none⟩
  let answered : Submission α := ⟨job, token, some (r, x.clock.now)⟩
  have hset : (x.submissions ++ [waiting]).set x.submissions.length answered = x.submissions ++ [answered] := by simp
  have hstep : Step (x.followedBy waiting)
      { x with submissions := (x.submissions ++ [waiting]).set x.submissions.length answered } :=
    .respond getElem?_followedBy rfl hr
  rw [hset] at hstep
  have hserves : (x.followedBy answered).surface.Serves thread (x.followedBy answered).jobs := jobs_followedBy ▸ hs
  have hleft : ¬answered.IsWaiting := nofun
  exact .head hstep (release_steps hserves getElem?_followedBy hleft hhold)

-- Of those who were submitted, only the last one still waits.
theorem eq_last_of_isWaiting {waiting : Submission α} (hleft : ∀ i ∈ x.submissions, ¬i.IsWaiting)
    (hi : (x.followedBy waiting).submissions[number]? = some i) (hwaiting : i.IsWaiting) :
    number = x.submissions.length ∧ i = waiting := by
  rcases Nat.lt_trichotomy number x.submissions.length with hlt | heq | hgt
  · have hearlier : x.submissions[number]? = some i := (List.getElem?_append_left hlt).symm.trans hi
    exact absurd hwaiting (hleft i (List.mem_of_getElem? hearlier))
  · subst heq
    exact ⟨rfl, Option.some.inj (hi.symm.trans getElem?_followedBy)⟩
  · have ⟨hlt, _⟩ := List.getElem?_eq_some_iff.1 hi
    rw [followedBy, List.length_append, List.length_singleton] at hlt
    omega

-- To invoke a job is to submit it, to wait for the response and to leave.
theorem invoke_steps {u : Timeline} (hrest : x.AtRest) (hs : x.surface.Serves thread x.jobs)
    (h : x.surface.invoke x.clock token job = some (r, u, s)) :
    Steps x ⟨s, u, x.submissions ++ [⟨job, token, some (r, u.now)⟩]⟩ ∧
      AtRest ⟨s, u, x.submissions ++ [⟨job, token, some (r, u.now)⟩]⟩ := by
  have haccepted := hrest.accepted hs job
  have hlength : x.jobs.length = x.submissions.length := List.length_map _
  let y : Exchange α := { x with surface := accept x.surface job }
  -- Whatever the response is and whenever it is there, it is taken, and nothing is left to do.
  have hleave : ∀ {t : Timeline} {r : Response α},
      Steps (y.followedBy ⟨job, token, none⟩) ({ y with clock := t }.followedBy ⟨job, token, none⟩) →
      response? { y with clock := t } x.jobs.length token = some r →
      Steps x ⟨y.surface.release x.jobs.length, t, x.submissions ++ [⟨job, token, some (r, t.now)⟩]⟩ ∧
        AtRest ⟨y.surface.release x.jobs.length, t, x.submissions ++ [⟨job, token, some (r, t.now)⟩]⟩ := by
    intro t r hwait hr
    have ⟨hempty, hnone⟩ := haccepted.release_rests
    have hhold := haccepted.hold_of_held
    rw [hlength] at hr hempty hnone hhold ⊢
    have haccept := accept_steps (fun _ => hrest.done) hs job token
    have hrespond := respond_steps (x := { y with clock := t }) haccepted.serves hhold hr
    refine ⟨haccept.trans (hwait.trans hrespond), ?_, hnone, hempty⟩
    intro i hi
    rcases List.mem_append.1 hi with hi | hi
    · exact hrest.left i hi
    · rw [List.mem_singleton.1 hi]
      nofun
  rw [invoke_eq hrest hs] at h
  by_cases hcancelled : x.clock.isCancelled token
  case pos =>
    rw [if_pos hcancelled] at h
    cases h
    exact hleave .refl (if_pos hcancelled)
  case neg =>
    rw [if_neg hcancelled] at h
    have hreply : response? y x.jobs.length token = job.response? thread :=
      (if_neg hcancelled).trans haccepted.reply?_eq
    cases hresponse : job.response? thread
    case some =>
      rw [hresponse] at h
      cases h
      exact hleave .refl (hreply.trans hresponse)
    case none =>
      rw [hresponse] at h
      obtain ⟨t, hsignal, heq⟩ := Option.map_eq_some_iff.1 h
      cases heq
      have hafter : u.isCancelled token := Timeline.isCancelled_of_waitForSignal? hsignal
      rw [Timeline.waitForSignal?, if_neg hcancelled] at hsignal
      obtain ⟨instant, hnext, rfl⟩ := Option.map_eq_some_iff.1 hsignal
      refine hleave (.single (.lapse instant fun number i hi hwaiting => ?_)) (if_pos hafter)
      -- Nothing reaches the one who waits before that instant.
      obtain ⟨rfl, rfl⟩ := eq_last_of_isWaiting hrest.left hi hwaiting
      rw [← hlength]
      exact ⟨hreply.trans hresponse, (Timeline.nextFor?_eq_some_iff.1 hnext).calmUntil (Nat.le_refl _)⟩

-- A response that came at an instant is the one that was due to a submission.
structure Due (start x : Exchange α) (thread : String) (number : Nat) (i : Submission α) (r : Response α)
    (instant : Nat) : Prop where
  -- There was a moment at which its submitter waited and found it. It depends on the token then whether it tells of a
  -- cancellation, and anything else is what the own job replied.
  moment    : ∃ y, Steps start y ∧ Steps y x ∧ y.clock.now = instant ∧
    y.submissions[number]? = some { i with answer? := none } ∧
    (y.clock.isCancelled i.token ∧ r = .cancelled ∨ ¬y.clock.isCancelled i.token ∧ number < y.surface.ended ∧
      i.job.response? thread = some r)
  -- It came at the instant of the cancellation or of the reply, whichever was first.
  cancelled : ∀ y, Steps y x → y.submissions[number]? = some { i with answer? := none } →
    y.clock.isCancelled i.token → r = .cancelled ∧ instant = y.clock.now
  replied   : ∀ y, Steps y x → y.submissions[number]? = some { i with answer? := none } →
    (y.surface.reply? number).isSome → instant = y.clock.now

-- Whatever was submitted and cancelled until now, and whenever.
structure Orderly (start x : Exchange α) (thread : String) : Prop where
  serves : x.surface.Serves thread x.jobs
  due    : ∀ number i r instant, x.submissions[number]? = some i → i.answer? = some (r, instant) →
    Due start x thread number i r instant
  -- Only a job that waits for its submitter to leave keeps the thread from going on.
  goesOn : 0 < x.pending → ¬x.Blocked →
    ∃ y, x.Step y ∧ y.submissions = x.submissions ∧ y.clock = x.clock ∧ y.pending + 1 = x.pending
  -- When all have left, each job runs, and the thread stops with nothing else to report.
  rests  : (∀ i ∈ x.submissions, ¬i.IsWaiting) →
    ∃ y, Steps x y ∧ y.submissions = x.submissions ∧ y.surface.started = List.range x.jobs.length ∧
      y.surface.log = x.jobs.flatMap (·.events thread) ++ [.surfaceStopped thread]

theorem lt_ended_of_reply? (hs : s.Serves thread jobs) (hr : s.reply? number = some r) :
    number < s.ended ∧ jobs[number]?.bind (·.response? thread) = some r := by
  rw [hs.reply?_eq] at hr
  obtain ⟨job, hjob, hresponse⟩ := Option.bind_eq_some_iff.1 hr
  have ⟨hlt, _⟩ := List.getElem?_eq_some_iff.1 hjob
  have hended : number < s.ended := Nat.lt_of_lt_of_le hlt (List.length_take_le ..)
  rw [List.getElem?_take_of_lt hended] at hjob
  exact ⟨hended, Option.bind_eq_some_iff.2 ⟨job, hjob, hresponse⟩⟩

theorem isSome_response?_of_isCancelled (h : x.clock.isCancelled token) :
    (x.response? number token).isSome := by
  rw [response?, if_pos h]
  rfl

theorem isSome_response?_of_reply? (h : (x.surface.reply? number).isSome) :
    (x.response? number token).isSome := by
  unfold response?
  split
  · rfl
  · exact h

theorem due_of_answer {start : Exchange α} {instant : Nat} (h : Steps start x) (hempty : start.submissions = [])
    (hs : start.surface.Serves thread start.jobs) (hi : x.submissions[number]? = some i)
    (hanswer : i.answer? = some (r, instant)) : Due start x thread number i r instant := by
  have hanswered : ¬i.IsWaiting := fun hwaiting => by cases hanswer.symm.trans hwaiting
  -- Whoever could go on did so at that instant, and with this answer.
  have hprompt : ∀ y, Steps y x → y.submissions[number]? = some { i with answer? := none } →
      (y.response? number i.token).isSome →
      instant = y.clock.now ∧ (y.clock.isCancelled i.token → r = .cancelled) := by
    intro y hsteps hy hready
    rcases hsteps.prompt hy rfl hready with ⟨hx, _⟩ | ⟨r', hx, hr'⟩
    · rw [Option.some.inj (hi.symm.trans hx)] at hanswered
      exact absurd rfl hanswered
    · rw [Option.some.inj (hi.symm.trans hx)] at hanswer
      cases hanswer
      exact ⟨rfl, hr'⟩
  refine ⟨?_, fun y hsteps hy hc => ?_, fun y hsteps hy hr => ?_⟩
  · obtain ⟨y, hfirst, hsteps, hnow, hy, hr⟩ := h.moment (by rw [hempty]; nofun) hi hanswer
    refine ⟨y, hfirst, hsteps, hnow, hy, ?_⟩
    unfold response? at hr
    split at hr
    case isTrue hc => exact .inl ⟨hc, (Option.some.inj hr).symm⟩
    case isFalse hc =>
      obtain ⟨hended, hresponse⟩ := lt_ended_of_reply? (hfirst.serves hs) hr
      rw [jobs, List.getElem?_map, hy] at hresponse
      exact .inr ⟨hc, hended, hresponse⟩
  · obtain ⟨hinstant, hcancelled⟩ := hprompt y hsteps hy (isSome_response?_of_isCancelled hc)
    exact ⟨hcancelled hc, hinstant⟩
  · exact (hprompt y hsteps hy (isSome_response?_of_reply? hr)).left

theorem orderly_of_steps {clock : Timeline} (h : Steps (initial thread clock) x) :
    Orderly (initial thread clock) x thread := by
  have hinitial : (initial thread clock : Exchange α).surface.Serves thread (initial thread clock).jobs :=
    Surface.Serves.initial thread
  have hs := h.serves hinitial
  refine ⟨hs, fun _ _ _ _ => due_of_answer h rfl hinitial, exists_step_of_pending hs, fun hleft => ?_⟩
  have ⟨y, hsteps, hsame, hrest⟩ := exists_rest hs hleft
  have hjobs : y.jobs = x.jobs := congrArg (List.map _) hsame
  have ⟨hstarted, hlog⟩ := hrest.log_eq (hsteps.serves hs)
  rw [hjobs] at hstarted hlog
  exact ⟨y, hsteps, hsame, hstarted, hlog⟩

-- An invocation, with what is scheduled when it is made.
structure Call (α : Type) where
  firings : List (Nat × Flag)
  token : Token
  job : Job α

def call? (x : Exchange α) (c : Call α) : Option (Exchange α) :=
  (x.surface.invoke (x.clock.plan c.firings) c.token c.job).map fun (r, t, s) =>
    ⟨s, t, x.submissions ++ [⟨c.job, c.token, some (r, t.now)⟩]⟩

def calls? (x : Exchange α) (cs : List (Call α)) : Option (Exchange α) :=
  cs.foldlM call? x

theorem call?_steps {c : Call α} (hrest : x.AtRest) (hs : x.surface.Serves thread x.jobs) (h : x.call? c = some y) :
    Steps x y ∧ y.AtRest ∧ y.jobs = x.jobs ++ [c.job] := by
  obtain ⟨⟨r, t, s⟩, hinvoke, rfl⟩ := Option.map_eq_some_iff.1 h
  have hplan : x.Step { x with clock := x.clock.plan c.firings } := .meanwhile _ rfl fun _ => id
  have hplanned : AtRest { x with clock := x.clock.plan c.firings } := ⟨hrest.left, hrest.idle, hrest.done⟩
  have ⟨hsteps, hdone⟩ := invoke_steps hplanned (hplan.serves hs) hinvoke
  exact ⟨.head hplan hsteps, hdone, List.map_append⟩

theorem calls?_steps {cs : List (Call α)} (hrest : x.AtRest) (hs : x.surface.Serves thread x.jobs)
    (h : x.calls? cs = some y) : Steps x y ∧ y.AtRest ∧ y.jobs = x.jobs ++ cs.map (·.job) := by
  induction cs generalizing x
  case nil =>
    cases h
    exact ⟨.refl, hrest, (List.append_nil _).symm⟩
  case cons c rest ih =>
    obtain ⟨z, hz, hy⟩ := Option.bind_eq_some_iff.1 h
    have ⟨hfirst, hrest, hjobs⟩ := call?_steps hrest hs hz
    have ⟨hlater, hdone, hmore⟩ := ih hrest (hfirst.serves hs) hy
    refine ⟨hfirst.trans hlater, hdone, ?_⟩
    rw [hmore, hjobs, List.append_assoc]
    rfl

end Exchange

open Exchange in
-- However those who submit jobs, the thread and the clock take turns, each job runs once, in the order of submission,
-- and its submitter gets the response that is due. One invocation after another is a case of that.
theorem Surface.orderly (thread : String) (clock : Timeline) :
    (∀ x : Exchange α, Steps (initial thread clock) x → Orderly (initial thread clock) x thread) ∧
    (∀ (x : Exchange α) (token : Token) (job : Job α), Steps (initial thread clock) x → x.AtRest →
      (x.surface.invoke x.clock token job = none ↔
        job = .hold ∧ ¬x.clock.isCancelled token ∧ ∀ f ∈ x.clock.schedule, f.flag ∉ token.flags) ∧
      ∀ r t s, x.surface.invoke x.clock token job = some (r, t, s) →
        Steps x ⟨s, t, x.submissions ++ [⟨job, token, some (r, t.now)⟩]⟩) ∧
    (∀ (cs : List (Call α)) (y : Exchange α), (initial thread clock).calls? cs = some y →
      Steps (initial thread clock) y ∧ y.AtRest ∧ y.jobs = cs.map (·.job) ∧
      y.surface.started = List.range cs.length ∧
      y.surface.log = cs.flatMap (·.job.events thread) ++ [.surfaceStopped thread]) := by
  have hinitial : (initial thread clock : Exchange α).surface.Serves thread (initial thread clock).jobs :=
    Surface.Serves.initial thread
  refine ⟨fun x => orderly_of_steps, fun x token job hsteps hrest => ?_, fun cs y hcalls => ?_⟩
  · have hs := hsteps.serves hinitial
    exact ⟨invoke_eq_none_iff hrest hs, fun r t s h => (invoke_steps hrest hs h).left⟩
  · have hrest : (initial thread clock : Exchange α).AtRest := ⟨nofun, rfl, rfl⟩
    have ⟨hsteps, hdone, hjobs⟩ := calls?_steps hrest hinitial hcalls
    have ⟨hstarted, hlog⟩ := hdone.log_eq (hsteps.serves hinitial)
    have hjobs : y.jobs = cs.map (·.job) := hjobs
    rw [hjobs, List.length_map] at hstarted
    rw [hjobs, List.flatMap_map] at hlog
    exact ⟨hsteps, hdone, hjobs, hstarted, hlog⟩

-- A job that holds the thread until its token is cancelled, one whose token is cancelled when it is submitted, one that
-- panics, and one that asks for its thread.
theorem Surface.orderly_past_cancellation_and_panic :
    let clock : Timeline := { schedule := [⟨20, ⟨0⟩⟩] }
    let cs : List (Exchange.Call String) :=
      [⟨[], ⟨[⟨0⟩]⟩, .hold⟩, ⟨[], ⟨[⟨0⟩]⟩, .run id⟩, ⟨[], ⟨[⟨1⟩]⟩, .panic⟩, ⟨[(5, ⟨1⟩)], ⟨[⟨1⟩]⟩, .run id⟩]
    ∃ y, (Exchange.initial "surface" clock).calls? cs = some y ∧
      y.submissions.map (·.answer?) = [some (.cancelled, 20), some (.cancelled, 20), some (.dropped "surface", 20),
        some (.value "surface", 20)] ∧
      y.surface.started = [0, 1, 2, 3] ∧ y.surface.log = [.surfacePanicked "surface", .surfaceStopped "surface"] := by
  let clock : Timeline := { schedule := [⟨20, ⟨0⟩⟩] }
  let cs : List (Exchange.Call String) :=
    [⟨[], ⟨[⟨0⟩]⟩, .hold⟩, ⟨[], ⟨[⟨0⟩]⟩, .run id⟩, ⟨[], ⟨[⟨1⟩]⟩, .panic⟩, ⟨[(5, ⟨1⟩)], ⟨[⟨1⟩]⟩, .run id⟩]
  have hisSome : ((Exchange.initial "surface" clock).calls? cs).isSome := by rfl
  have ⟨y, hy⟩ := Option.isSome_iff_exists.1 hisSome
  have ⟨_, _, _, hstarted, hlog⟩ := (orderly "surface" clock).right.right cs y hy
  have hanswers : ((Exchange.initial "surface" clock).calls? cs).map (·.submissions.map (·.answer?)) =
      some [some (.cancelled, 20), some (.cancelled, 20), some (.dropped "surface", 20),
        some (.value "surface", 20)] := by rfl
  rw [hy] at hanswers
  exact ⟨y, hy, Option.some.inj hanswers, hstarted, hlog⟩

end StationScript
