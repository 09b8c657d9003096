import ReactiveView.Component.Passes

/-!
This module contains the running of the tasks that wait. A task may queue others; all of them run.

How many tasks can follow from one is bounded by the tree of components: layouts go down to the
children, size hints go up to the parents.
-/

namespace ReactiveView

namespace Scene

variable {α : Type} [Scalar α]

/-- Run a pass; its error is logged. -/
def attempt (message : String) (fields : Scene α → List (String × String))
    (pass : Laying α Unit) : Staging α Unit := do
  match ← pass.run with
  | .ok () => pure ()
  | .error e => modify fun s => s.note .warn message (fields s ++ [("error", e.message)])

/-- Run a task. Tasks of components that are gone do nothing, and neither do those of a component
whose flag was cleared meanwhile. -/
def runTask (task : Task) : Staging α Unit := do
  let s ← get
  match task with
  | .constraints c =>
    match s.component? c with
    | none => pure ()
    | some comp =>
      if comp.needsConstraints then
        attempt "constraint update failed" (fun s => [("component", s.label c)])
          (handConstraints c)
  | .layout c =>
    match s.component? c with
    | none => pure ()
    | some comp =>
      if comp.needsLayout then
        attempt "layout pass failed" (fun s => [("component", s.label c)]) (placeChildren c)
  | .sizeHint p c =>
    if (s.component? p).isSome && (s.component? c).isSome then
      attempt "size constraint update failed"
        (fun s => [("component", s.label p), ("child", s.label c)]) (renewHint p c)

/-- How many tasks a layout task can come to, itself included. -/
def layoutWeight (s : Scene α) (c : Nat) : Nat := (s.subtree c).length

/-- How many tasks a changed size hint can come to. -/
def hintWeight (s : Scene α) : Nat → Nat → Nat
  | 0, _ => 0
  | n + 1, c =>
    match s.parent? c with
    | none => 0
    | some p => 1 + s.layoutWeight p + s.hintWeight n p

/-- How many tasks a task can come to, itself included. -/
def taskWeight (s : Scene α) : Task → Nat
  | .constraints c =>
    (s.subtree c).foldr (fun d total => s.hintWeight s.components.size d + total) 1
  | .layout c => 1 + s.layoutWeight c
  | .sizeHint p _ => 1 + s.layoutWeight p + s.hintWeight s.components.size p

/-- Run at most so many tasks, counting from `ran`. Nothing comes back if some are left then. -/
def runUpTo : Nat → Nat → Scene α → Option (Nat × Scene α)
  | limit, ran, s =>
    match s.queue.pop?, limit with
    | none, _ => some (ran, s)
    | some _, 0 => none
    | some (task, queue), limit + 1 => runUpTo limit (ran + 1) (runTask task { s with queue }).2

/-- Run all tasks, those included that are queued meanwhile. Answers how many they were. -/
def runPending (s : Scene α) : Option (Nat × Scene α) :=
  s.runUpTo (s.queue.pending.foldr (fun task total => s.taskWeight task + total) 0) 0

end Scene

end ReactiveView
