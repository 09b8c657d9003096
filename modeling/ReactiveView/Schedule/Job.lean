import ReactiveView.Schedule.Queue

/-!
This module contains jobs that queue further jobs and drain the queue that they are run from.
Draining starts the oldest job until none is left; a drain within a job is a full drain of its own,
and counts the jobs that it started itself.
-/

namespace ReactiveView

/--
One thing that a job does.
-/
inductive JobStep (β : Type) where
  /-- Queue a job of this label and these steps. -/
  | queue (label : β) (steps : List (JobStep β))
  /-- Drain the queue. -/
  | drain

/--
A job.
-/
structure Job (β : Type) where
  /-- What is reported when the job starts. -/
  label : β
  /-- What the job does. -/
  steps : List (JobStep β)

/--
What is reported by jobs.
-/
inductive JobEvent (β : Type) where
  /-- A job started. -/
  | started (label : β)
  /-- A drain within a job came to an end, having started this many jobs itself. -/
  | drained (count : Nat)

/--
A drain in progress.
-/
structure Drain (β : Type) where
  /-- How many jobs it started. -/
  started : Nat := 0
  /-- What is left of the job that it started last. -/
  steps : List (JobStep β) := []

/--
A queue of jobs, and what they have reported.
-/
structure JobQueue (β : Type) where
  /-- The jobs that wait. -/
  queue : Queue (Job β) := {}
  /-- What was reported, the latest first. -/
  reports : List (JobEvent β) := []

namespace JobStep

variable {β : Type}

mutual

/-- An upper bound of the moves that a step takes. -/
def weight : JobStep β → Nat
  | queue _ steps => 2 + weights steps
  | drain => 2

/-- An upper bound of the moves that steps take. -/
def weights : List (JobStep β) → Nat
  | [] => 0
  | s :: rest => weight s + weights rest

end

end JobStep

namespace JobQueue

variable {β : Type}

/-- An upper bound of the moves that jobs take. -/
def jobsWeight : List (Job β) → Nat
  | [] => 0
  | j :: rest => 1 + JobStep.weights j.steps + jobsWeight rest

/-- An upper bound of the moves that drains take. -/
def drainsWeight : List (Drain β) → Nat
  | [] => 0
  | d :: rest => 1 + JobStep.weights d.steps + drainsWeight rest

theorem jobsWeight_append (a b : List (Job β)) :
    jobsWeight (a ++ b) = jobsWeight a + jobsWeight b := by
  induction a with
  | nil => simp [jobsWeight]
  | cons j rest ih => simp [jobsWeight, ih]; omega

/-- Queue a job. -/
def push (q : JobQueue β) (job : Job β) : JobQueue β := { q with queue := q.queue.push job }

/-- Report an event. -/
def report (q : JobQueue β) (e : JobEvent β) : JobQueue β := { q with reports := e :: q.reports }

/-- Go on with a drain and with the outer ones that wait for it. Answers how many jobs the outermost
one started. -/
def resume (q : JobQueue β) (current : Drain β) (outer : List (Drain β)) : Nat × JobQueue β :=
  match current with
  | ⟨started, .queue label steps :: rest⟩ => resume (q.push ⟨label, steps⟩) ⟨started, rest⟩ outer
  | ⟨started, .drain :: rest⟩ => resume q {} (⟨started, rest⟩ :: outer)
  | ⟨started, []⟩ =>
    match q with
    | ⟨⟨job :: waiting⟩, reports⟩ =>
      resume ⟨⟨waiting⟩, .started job.label :: reports⟩ ⟨started + 1, job.steps⟩ outer
    | ⟨⟨[]⟩, reports⟩ =>
      match outer with
      | [] => (started, ⟨⟨[]⟩, reports⟩)
      | d :: rest => resume ⟨⟨[]⟩, .drained started :: reports⟩ d rest
termination_by jobsWeight q.queue.pending + drainsWeight (current :: outer)
decreasing_by
  · simp only [push, Queue.pending_push, jobsWeight_append, jobsWeight, drainsWeight,
      JobStep.weights, JobStep.weight]
    omega
  · simp only [drainsWeight, JobStep.weights, JobStep.weight]
    omega
  · simp only [jobsWeight, drainsWeight, JobStep.weights]
    omega
  · simp only [drainsWeight, JobStep.weights]
    omega

/-- Run jobs until the queue is empty, those included that are queued meanwhile. Answers how many
were started, nested drains apart. -/
def drain (q : JobQueue β) : Nat × JobQueue β := q.resume {} []

end JobQueue

end ReactiveView
