import ReactiveView.Schedule.Job
import Mathlib

/-!
This module contains the order in which jobs start. A history lists what happens to a queue, one
moment after the other: jobs are queued, jobs start, drains end. However drains are nested, jobs
start in the order in which they were queued, each once, and every start is counted by one drain.
-/

namespace ReactiveView

/--
A moment in the history of a queue.
-/
inductive Moment (β : Type) where
  /-- A job was queued. -/
  | queued (label : β)
  /-- A job started. -/
  | started (label : β)
  /-- A drain within a job came to an end, having started this many jobs itself. -/
  | drained (count : Nat)
  /-- A drain of the host came to an end, having started this many jobs itself. -/
  | returned (count : Nat)

namespace Moment

variable {β : Type}

/-- The jobs that were queued, in order. -/
def queuedIn (h : List (Moment β)) : List β :=
  h.filterMap fun
    | queued label => some label
    | _ => none

/-- The jobs that started, in order. -/
def startedIn (h : List (Moment β)) : List β :=
  h.filterMap fun
    | started label => some label
    | _ => none

/-- What all drains counted, in order. -/
def countsIn (h : List (Moment β)) : List Nat :=
  h.filterMap fun
    | drained count => some count
    | returned count => some count
    | _ => none

/-- What the drains of the host counted, in order. -/
def returnedIn (h : List (Moment β)) : List Nat :=
  h.filterMap fun
    | returned count => some count
    | _ => none

/-- What jobs reported, in order. -/
def reportsIn (h : List (Moment β)) : List (JobEvent β) :=
  h.filterMap fun
    | started label => some (.started label)
    | drained count => some (.drained count)
    | _ => none

/-- At every moment, the jobs that have started are the first ones of `waiting` and of those that
were queued up to then. -/
def InOrder (waiting : List β) (h : List (Moment β)) : Prop :=
  ∀ p, p <+: h → startedIn p <+: waiting ++ queuedIn p

variable {waiting : List β} {label : β} {h h' : List (Moment β)} {count : Nat}

@[simp]
theorem startedIn_started : startedIn (.started label :: h) = label :: startedIn h := rfl

@[simp]
theorem startedIn_drained : startedIn (.drained count :: h) = startedIn h := rfl

@[simp]
theorem countsIn_drained : countsIn (.drained count :: h) = count :: countsIn h := rfl

theorem queuedIn_append : queuedIn (h ++ h') = queuedIn h ++ queuedIn h' :=
  List.filterMap_append

theorem startedIn_append : startedIn (h ++ h') = startedIn h ++ startedIn h' :=
  List.filterMap_append

theorem countsIn_append : countsIn (h ++ h') = countsIn h ++ countsIn h' :=
  List.filterMap_append

theorem returnedIn_append : returnedIn (h ++ h') = returnedIn h ++ returnedIn h' :=
  List.filterMap_append

theorem reportsIn_append : reportsIn (h ++ h') = reportsIn h ++ reportsIn h' :=
  List.filterMap_append

theorem inOrder_nil : InOrder waiting [] := by
  intro p hp
  rw [List.prefix_nil.1 hp]
  exact List.nil_prefix

theorem InOrder.queued (hi : InOrder (waiting ++ [label]) h) :
    InOrder waiting (.queued label :: h) := by
  intro p hp
  rcases List.prefix_cons_iff.1 hp with rfl | ⟨t, rfl, ht⟩
  · exact List.nil_prefix
  · have hprefix := hi t ht
    rwa [List.append_assoc] at hprefix

theorem InOrder.started (hi : InOrder waiting h) :
    InOrder (label :: waiting) (.started label :: h) := by
  intro p hp
  rcases List.prefix_cons_iff.1 hp with rfl | ⟨t, rfl, ht⟩
  · exact List.nil_prefix
  · exact (List.prefix_cons_inj label).2 (hi t ht)

theorem InOrder.drained (hi : InOrder waiting h) : InOrder waiting (.drained count :: h) := by
  intro p hp
  rcases List.prefix_cons_iff.1 hp with rfl | ⟨t, rfl, ht⟩
  · exact List.nil_prefix
  · exact hi t ht

theorem InOrder.returned (hi : InOrder waiting h) : InOrder waiting (.returned count :: h) := by
  intro p hp
  rcases List.prefix_cons_iff.1 hp with rfl | ⟨t, rfl, ht⟩
  · exact List.nil_prefix
  · exact hi t ht

/-- Once all that waited has started, a history can go on. -/
theorem InOrder.append (hi : InOrder waiting h) (hall : startedIn h = waiting ++ queuedIn h)
    (hi' : InOrder [] h') : InOrder waiting (h ++ h') := by
  intro p hp
  rcases List.prefix_or_prefix_of_prefix hp (List.prefix_append h h') with hshort | ⟨t, rfl⟩
  · exact hi p hshort
  · have hrest := hi' t ((List.prefix_append_right_inj h).1 hp)
    rw [startedIn_append, queuedIn_append, hall, List.append_assoc]
    exact (List.prefix_append_right_inj _).2 ((List.prefix_append_right_inj _).2 hrest)

end Moment

namespace JobStep

variable {β : Type}

mutual

/-- The jobs that a step comes to, those included that are queued by them. -/
def labels : JobStep β → List β
  | queue label steps => label :: labelsOf steps
  | drain => []

/-- The jobs that steps come to. -/
def labelsOf : List (JobStep β) → List β
  | [] => []
  | s :: rest => labels s ++ labelsOf rest

end

end JobStep

namespace JobQueue

variable {β : Type}

open Moment (queuedIn startedIn countsIn returnedIn reportsIn InOrder inOrder_nil
  startedIn_started startedIn_drained countsIn_drained)

/-- The jobs that wait. -/
def waiting (q : JobQueue β) : List β := q.queue.pending.map Job.label

/-- The jobs that those that wait come to, themselves apart. -/
def promised (q : JobQueue β) : List β :=
  q.queue.pending.flatMap fun job => JobStep.labelsOf job.steps

/-- The jobs that drains in progress come to. -/
def promisedBy (drains : List (Drain β)) : List β :=
  drains.flatMap fun d => JobStep.labelsOf d.steps

/-- How many jobs drains in progress have started. -/
def startedBy (drains : List (Drain β)) : Nat := (drains.map Drain.started).sum

/-- What happens while a drain and the outer ones that wait for it go on. -/
def moments (q : JobQueue β) (current : Drain β) (outer : List (Drain β)) : List (Moment β) :=
  match current with
  | ⟨started, .queue label steps :: rest⟩ =>
    .queued label :: moments (q.push ⟨label, steps⟩) ⟨started, rest⟩ outer
  | ⟨started, .drain :: rest⟩ => moments q {} (⟨started, rest⟩ :: outer)
  | ⟨started, []⟩ =>
    match q with
    | ⟨⟨job :: waiting⟩, reports⟩ =>
      .started job.label ::
        moments ⟨⟨waiting⟩, .started job.label :: reports⟩ ⟨started + 1, job.steps⟩ outer
    | ⟨⟨[]⟩, reports⟩ =>
      match outer with
      | [] => [.returned started]
      | d :: rest => .drained started :: moments ⟨⟨[]⟩, .drained started :: reports⟩ d rest
termination_by jobsWeight q.queue.pending + drainsWeight (current :: outer)
decreasing_by
  · simp only [push, Queue.pending_push, jobsWeight_append, jobsWeight, drainsWeight,
      JobStep.weights, JobStep.weight]
    omega
  · simp only [drainsWeight, JobStep.weights, JobStep.weight]
    omega
  · simp only [jobsWeight, drainsWeight, JobStep.weights]
    omega
  · simp only [drainsWeight, JobStep.weights]
    omega

/-- Do from outside what jobs can do. Answers what the drains counted. -/
def serve : List (JobStep β) → JobQueue β → List Nat × JobQueue β
  | [], q => ([], q)
  | .queue label steps :: rest, q => serve rest (q.push ⟨label, steps⟩)
  | .drain :: rest, q =>
    let (count, q) := q.drain
    let (counts, q) := serve rest q
    (count :: counts, q)

/-- What happens while a host does what jobs can do. -/
def history : List (JobStep β) → JobQueue β → List (Moment β)
  | [], _ => []
  | .queue label steps :: rest, q => .queued label :: history rest (q.push ⟨label, steps⟩)
  | .drain :: rest, q => q.moments {} [] ++ history rest q.drain.2

variable (q : JobQueue β) (current : Drain β) (outer : List (Drain β))

@[simp]
theorem waiting_push (job : Job β) : (q.push job).waiting = q.waiting ++ [job.label] := by
  simp [waiting, push]

@[simp]
theorem promised_push (job : Job β) :
    (q.push job).promised = q.promised ++ JobStep.labelsOf job.steps := by
  simp [promised, push]

@[simp]
theorem startedBy_cons (d : Drain β) (rest : List (Drain β)) :
    startedBy (d :: rest) = d.started + startedBy rest := rfl

/-! ### One drain -/

/-- The history of a drain ends with what it answers, and says what jobs reported. -/
theorem resume_eq : returnedIn (q.moments current outer) = [(q.resume current outer).1] ∧
    (q.resume current outer).2
      = ⟨{}, (reportsIn (q.moments current outer)).reverse ++ q.reports⟩ := by
  induction q, current, outer using resume.induct with
  | case1 q outer started label steps rest ih =>
    rw [resume, moments]
    exact ih
  | case2 q outer started rest ih =>
    rw [resume, moments]
    exact ih
  | case3 outer started job waiting reports ih =>
    rw [resume, moments]
    refine ⟨ih.1, ih.2.trans ?_⟩
    simp [reportsIn]
  | case4 started reports =>
    rw [resume, moments]
    exact ⟨rfl, rfl⟩
  | case5 started reports d rest ih =>
    rw [resume, moments]
    refine ⟨ih.1, ih.2.trans ?_⟩
    simp [reportsIn]

theorem inOrder_moments : InOrder q.waiting (q.moments current outer) := by
  induction q, current, outer using resume.induct with
  | case1 q outer started label steps rest ih =>
    rw [moments]
    rw [waiting_push] at ih
    exact ih.queued
  | case2 q outer started rest ih =>
    rw [moments]
    exact ih
  | case3 outer started job waiting reports ih =>
    rw [moments]
    exact ih.started
  | case4 started reports =>
    rw [moments]
    exact inOrder_nil.returned
  | case5 started reports d rest ih =>
    rw [moments]
    exact ih.drained

/-- A drain starts what waits and what is queued meanwhile. -/
theorem startedIn_moments :
    startedIn (q.moments current outer) = q.waiting ++ queuedIn (q.moments current outer) := by
  induction q, current, outer using resume.induct with
  | case1 q outer started label steps rest ih =>
    rw [moments]
    refine ih.trans ?_
    rw [waiting_push, List.append_assoc]
    rfl
  | case2 q outer started rest ih =>
    rw [moments]
    exact ih
  | case3 outer started job waiting reports ih =>
    rw [moments]
    exact congrArg (job.label :: ·) ih
  | case4 started reports =>
    rw [moments]
    rfl
  | case5 started reports d rest ih =>
    rw [moments]
    exact ih

/-- A drain queues all that the jobs come to. -/
theorem queuedIn_moments_perm :
    (queuedIn (q.moments current outer)).Perm
      (q.promised ++ promisedBy (current :: outer)) := by
  induction q, current, outer using resume.induct with
  | case1 q outer started label steps rest ih =>
    rw [moments]
    refine (ih.cons label).trans ?_
    simp only [promised_push, promisedBy, List.flatMap_cons, JobStep.labelsOf, JobStep.labels,
      List.append_assoc, List.cons_append]
    exact List.perm_middle.symm
  | case2 q outer started rest ih =>
    rw [moments]
    exact ih
  | case3 outer started job waiting reports ih =>
    rw [moments]
    refine ih.trans ?_
    simp only [promised, promisedBy, List.flatMap_cons, JobStep.labelsOf, List.nil_append,
      List.append_assoc]
    exact List.perm_append_comm_assoc _ _ _
  | case4 started reports =>
    rw [moments]
    exact List.Perm.refl _
  | case5 started reports d rest ih =>
    rw [moments]
    exact ih

/-- Each start is counted by the drain that it belongs to. -/
theorem sum_countsIn_moments :
    (countsIn (q.moments current outer)).sum
      = (startedIn (q.moments current outer)).length + startedBy (current :: outer) := by
  induction q, current, outer using resume.induct with
  | case1 q outer started label steps rest ih =>
    rw [moments]
    exact ih
  | case2 q outer started rest ih =>
    rw [moments]
    refine ih.trans ?_
    simp only [startedBy_cons, Nat.zero_add]
  | case3 outer started job waiting reports ih =>
    rw [moments]
    simp only [startedIn_started, List.length_cons, startedBy_cons] at ih ⊢
    exact ih.trans (by omega)
  | case4 started reports =>
    rw [moments]
    simp [countsIn, startedIn, startedBy]
  | case5 started reports d rest ih =>
    rw [moments]
    simp only [countsIn_drained, List.sum_cons, startedIn_drained, startedBy_cons] at ih ⊢
    rw [ih]
    omega

/-! ### What a host does -/

variable (host : List (JobStep β))

/-- The history of a host says what the drains answered and what jobs reported. -/
theorem serve_eq : returnedIn (history host q) = (serve host q).1 ∧
    (serve host q).2.reports = (reportsIn (history host q)).reverse ++ q.reports := by
  induction host generalizing q with
  | nil => exact ⟨rfl, rfl⟩
  | cons s rest ih =>
    cases s with
    | queue label steps => exact ih (q.push ⟨label, steps⟩)
    | drain =>
      obtain ⟨hcount, hdrained⟩ := resume_eq q {} []
      obtain ⟨hcounts, hreports⟩ := ih q.drain.2
      constructor
      · rw [history, Moment.returnedIn_append, hcount, hcounts]
        rfl
      · refine hreports.trans ?_
        rw [history, Moment.reportsIn_append, List.reverse_append, List.append_assoc]
        exact congrArg (_ ++ JobQueue.reports ·) hdrained

/-- Nothing waits once a drain has come to an end. -/
theorem waiting_drain : q.drain.2.waiting = [] := by
  rw [drain, (resume_eq q {} []).2]
  rfl

theorem promised_drain : q.drain.2.promised = [] := by
  rw [drain, (resume_eq q {} []).2]
  rfl

theorem inOrder_history : InOrder q.waiting (history host q) := by
  induction host generalizing q with
  | nil => exact inOrder_nil
  | cons s rest ih =>
    cases s with
    | queue label steps =>
      have hrest := ih (q.push ⟨label, steps⟩)
      rw [waiting_push] at hrest
      exact hrest.queued
    | drain =>
      have hrest := ih q.drain.2
      rw [waiting_drain] at hrest
      exact (inOrder_moments q {} []).append (startedIn_moments q {} []) hrest

/-- Every job that was queued has started or waits. -/
theorem startedIn_history :
    startedIn (history host q) ++ (serve host q).2.waiting
      = q.waiting ++ queuedIn (history host q) := by
  induction host generalizing q with
  | nil => exact (List.append_nil q.waiting).symm
  | cons s rest ih =>
    cases s with
    | queue label steps =>
      refine (ih (q.push ⟨label, steps⟩)).trans ?_
      rw [waiting_push, List.append_assoc]
      rfl
    | drain =>
      have hrest := ih q.drain.2
      rw [waiting_drain, List.nil_append] at hrest
      rw [history, Moment.startedIn_append, Moment.queuedIn_append, startedIn_moments,
        List.append_assoc, List.append_assoc]
      exact congrArg (fun l => q.waiting ++ (queuedIn (q.moments {} []) ++ l)) hrest

/-- What a host comes to is queued or comes from jobs that wait. -/
theorem queuedIn_history_perm :
    (queuedIn (history host q) ++ (serve host q).2.promised).Perm
      (q.promised ++ JobStep.labelsOf host) := by
  induction host generalizing q with
  | nil => exact List.perm_append_comm
  | cons s rest ih =>
    cases s with
    | queue label steps =>
      refine ((ih (q.push ⟨label, steps⟩)).cons label).trans ?_
      simp only [promised_push, JobStep.labelsOf, JobStep.labels, List.append_assoc,
        List.cons_append]
      exact List.perm_middle.symm
    | drain =>
      have hrest := ih q.drain.2
      have hdrain := queuedIn_moments_perm q {} []
      rw [promised_drain, List.nil_append] at hrest
      rw [history, Moment.queuedIn_append, List.append_assoc]
      refine (hdrain.append hrest).trans ?_
      simp [promisedBy, JobStep.labelsOf, JobStep.labels]

/-- From outside, every start is counted. -/
theorem sum_countsIn_history :
    (countsIn (history host q)).sum = (startedIn (history host q)).length := by
  induction host generalizing q with
  | nil => rfl
  | cons s rest ih =>
    cases s with
    | queue label steps => exact ih (q.push ⟨label, steps⟩)
    | drain =>
      rw [history, Moment.countsIn_append, Moment.startedIn_append, List.sum_append,
        List.length_append, ih, sum_countsIn_moments]
      rfl

/-- After a drain of the host nothing waits. -/
theorem serve_append_drain : (serve (host ++ [.drain]) q).2.queue = {} := by
  induction host generalizing q with
  | nil =>
    change q.drain.2.queue = {}
    rw [drain, (resume_eq q {} []).2]
  | cons s rest ih =>
    cases s with
    | queue label steps => exact ih (q.push ⟨label, steps⟩)
    | drain => exact ih q.drain.2

/--
Whatever a host does from an empty queue on, and however jobs queue and drain: jobs start in the
order in which they were queued, at every moment; none starts more often than it occurs among the
host's steps. When a drain of the host comes to an end nothing waits, all jobs have started, and the
counts of all drains, nested ones included, add up to their number.
-/
theorem starts_in_order (reports : List (JobEvent β)) :
    let q : JobQueue β := ⟨{}, reports⟩
    let h := history host q
    (returnedIn h = (serve host q).1 ∧
      (serve host q).2.reports = (reportsIn h).reverse ++ reports) ∧
    InOrder [] h ∧
    startedIn h ++ (serve host q).2.waiting = queuedIn h ∧
    (startedIn h).Subperm (JobStep.labelsOf host) ∧
    ∀ before, host = before ++ [.drain] →
      (serve host q).2.queue = {} ∧
      startedIn h = queuedIn h ∧
      (startedIn h).Perm (JobStep.labelsOf host) ∧
      (countsIn h).sum = (startedIn h).length := by
  intro q h
  have hqueued : startedIn h ++ (serve host q).2.waiting = queuedIn h := startedIn_history q host
  have hperm : (queuedIn h ++ (serve host q).2.promised).Perm (JobStep.labelsOf host) :=
    queuedIn_history_perm q host
  refine ⟨serve_eq q host, inOrder_history q host, hqueued, ?_, ?_⟩
  · rw [← hqueued, List.append_assoc] at hperm
    exact (List.sublist_append_left _ _).subperm.trans hperm.subperm
  · rintro before rfl
    have hempty := serve_append_drain q before
    have hwaiting : (serve (before ++ [.drain]) q).2.waiting = [] := by rw [waiting, hempty]; rfl
    have hpromised : (serve (before ++ [.drain]) q).2.promised = [] := by
      rw [promised, hempty]
      rfl
    rw [hwaiting, List.append_nil] at hqueued
    rw [hpromised, List.append_nil, ← hqueued] at hperm
    exact ⟨hempty, hqueued, hperm, sum_countsIn_history q _⟩

end JobQueue

end ReactiveView
