import Mathlib.Logic.Function.Basic
import Uvpp.Machine.Run
import Uvpp.Cancel.Stops

/-!
# `task_scope`

One scope (`co/task_scope.hpp`), its children, the parent that joins it and the call stack of the
loop thread.  The cancellation state of the scope is the list of `Cancel.Stops`: a child that is
suspended in an operation is registered in it, together with what its stop callback does (resume
the child at once, or only start a cancellation that resumes it later).

* `childCompleted`, `completionTail`   `child_completed` up to the end of `request_stop`, and after;
* `finishJoin`          what the parent does first when it is resumed;
* `step_cases`          what a step can do;
* `sys`                 the machine: spawn, suspension, completion, join, stop, destruction.

A completion that starts a stop leaves two activations on the stack, the loop and the rest of
`child_completed`; every other completion runs through.  Using the scope after its destruction is
a `fault`.
-/

namespace Scope

/-- an exception -/
abbrev Exc := Nat

/-- the coroutine frame of a child -/
inductive Body where
  | unborn
  | running
  | suspended
  /-- suspended at its final suspend point -/
  | final
  | destroyed
deriving DecidableEq

/-- `child_record` with the frame it points to -/
structure Child where
  body : Body := .unborn
  completed : Bool := false
  /-- the exception in the promise -/
  failure : Option Exc := none
deriving DecidableEq

/-- who called `request_stop` of the cancellation state -/
inductive StopKind where
  /-- `child_completed`, for the first failure -/
  | failure
  /-- `task_scope::request_stop`, on a scope that a parent was waiting for or not -/
  | explicit (joining : Bool)
deriving DecidableEq

/-- an activation on the call stack of the loop thread -/
inductive Frame where
  | child (i : Nat)
  /-- any other foreign code -/
  | user
  /-- the parent, resumed from its join -/
  | joiner
  /-- the loop of `cancellation_state::request_stop` -/
  | stop (k : StopKind)
  /-- `child_completed` of the child `i`, waiting for that loop -/
  | completion (i : Nat)
deriving DecidableEq

inductive Event where
  | spawned (i : Nat)
  | completed (i : Nat) (e : Option Exc)
  /-- `child_completed` asks the siblings to stop -/
  | stopCalled
  /-- a stop callback is called -/
  | invoked (i : Nat)
  | joinSuspended
  /-- the joining parent is resumed -/
  | resumed
  /-- the frame of a child is destroyed -/
  | destroyed (i : Nat)
  /-- `join()` returned, or threw the exception -/
  | joined (r : Option Exc)
  | scopeDestroyed
deriving DecidableEq

structure World where
  stops : Cancel.Stops Nat Bool := {}
  children : List Nat := []
  child : Nat → Child := fun _ => {}
  /-- `join_continuation_` is set -/
  joinContinuation : Bool := false
  firstFailure : Option Exc := none
  activeChildren : Nat := 0
  completionDepth : Nat := 0
  joinStarted : Bool := false
  /-- children started so far; they are `0 .. started-1` -/
  started : Nat := 0
  /-- the scope is not destroyed -/
  alive : Bool := true
  stack : List Frame := []
  log : List Event := []
  /-- the scope was used after its destruction -/
  fault : Bool := false

inductive Act where
  /-- foreign code is called -/
  | enter
  /-- the foreign code on top of the stack returns -/
  | ret
  | spawn
  /-- the running child suspends; with a registration, `sync` says what its callback does -/
  | suspend (sync : Option Bool)
  /-- the running child ends, with an exception or not -/
  | finish (e : Option Exc)
  /-- the operation of a suspended child completes -/
  | resume (i : Nat)
  /-- the foreign code on top of the stack is a coroutine and awaits `join()` -/
  | join
  /-- `task_scope::request_stop` -/
  | requestStop
  /-- the activation on top of the stack goes on -/
  | tick
  | destroyScope
deriving DecidableEq

/-- foreign code runs: nothing is on the stack, or foreign code is on top -/
def foreign : List Frame → Bool
  | .stop _ :: _ => false
  | .completion _ :: _ => false
  | _ => true

/-- activations of `child_completed` on the stack -/
def completions (k : List Frame) : Nat :=
  k.countP fun
    | .completion _ => true
    | _ => false

namespace World

def emit (w : World) (e : Event) : World := { w with log := w.log ++ [e] }

def setBody (w : World) (i : Nat) (b : Body) : World :=
  { w with child := Function.update w.child i { w.child i with body := b } }

/-- `finish_join()`: all frames are destroyed, and the first failure is thrown -/
def finishJoin (w : World) : World :=
  { w with
      child := fun i => if i ∈ w.children then { w.child i with body := .destroyed } else w.child i
      children := []
      firstFailure := none
      log := w.log ++ w.children.map .destroyed ++ [.joined w.firstFailure] }

/-- `child_completed` after `request_stop`: the parent is resumed by the outermost completion -/
def completionTail (w : World) : World :=
  let w := { w with completionDepth := w.completionDepth - 1 }
  if w.activeChildren = 0 ∧ w.joinContinuation ∧ w.completionDepth = 0 then
    ({ w with joinContinuation := false, stack := .joiner :: w.stack }.emit .resumed).finishJoin
  else w

/-- the first failure is kept -/
def failFirst (w : World) (x : Exc) : World :=
  { w with firstFailure := some x }.emit .stopCalled

/-- `cancellation_.request_stop()` in `child_completed`: if the loop is entered, the rest of the
completion waits for it -/
def stopSiblings (w : World) (i : Nat) : World :=
  match w.stops.exchange with
  | (t, true) => { w with stops := t, stack := .stop .failure :: .completion i :: w.stack }
  | (_, false) => w.completionTail

/-- `child_completed`, after its counters -/
def childCompleted (w : World) (i : Nat) : World :=
  match w.firstFailure, (w.child i).failure with
  | none, some x => (w.failFirst x).stopSiblings i
  | _, _ => w.completionTail

/-- the final suspend of the child `i`, whose activation was on top of `k`, and the counters of
`child_completed` -/
def countCompletion (w : World) (i : Nat) (k : List Frame) (e : Option Exc) : World :=
  { w with
      stack := k
      child := Function.update w.child i { body := .final, completed := true, failure := e }
      completionDepth := w.completionDepth + 1
      activeChildren := w.activeChildren - 1
      log := w.log ++ [.completed i e] }

def finish (w : World) (i : Nat) (k : List Frame) (e : Option Exc) : World :=
  (w.countCompletion i k e).childCompleted i

/-- `spawn`: the child starts at once -/
def spawn (w : World) : World :=
  let i := w.started
  { w.setBody i .running with
      children := w.children ++ [i]
      activeChildren := w.activeChildren + 1
      started := i + 1
      stack := .child i :: w.stack
      log := w.log ++ [.spawned i] }

/-- the child `i`, whose activation was on top of `k`, suspends -/
def suspend (w : World) (i : Nat) (k : List Frame) (t : Cancel.Stops Nat Bool) : World :=
  { w.setBody i .suspended with stops := t, stack := k }

/-- the child `i` is resumed -/
def resume (w : World) (i : Nat) (t : Cancel.Stops Nat Bool) : World :=
  { w.setBody i .running with stops := t, stack := .child i :: w.stack }

/-- `join_awaiter::await_suspend`, by the coroutine on top of `k` -/
def join (w : World) (k : List Frame) : World :=
  let w := { w with joinStarted := true }
  if w.activeChildren = 0 then w.finishJoin
  else { w with joinContinuation := true, stack := k }.emit .joinSuspended

/-- `task_scope::request_stop` -/
def requestStop (w : World) : World :=
  match w.stops.exchange with
  | (t, true) => { w with stops := t, stack := .stop (.explicit w.joinContinuation) :: w.stack }
  | (_, false) => w

/-- the activation of the loop on top of `k` goes on: its next round, or its end -/
def stopRound (w : World) (k : List Frame) : World :=
  match w.stops.pop with
  | none => { w with stack := k }
  | some ((i, true), t) => (w.emit (.invoked i)).resume i t
  | some ((i, false), t) => { w.emit (.invoked i) with stops := t }

/-- the scope is used -/
def touch (w : World) : World := { w with fault := w.fault || !w.alive }

end World

def step (w : World) : Act → Option World
  | .enter => if foreign w.stack then some { w with stack := .user :: w.stack } else none
  | .ret =>
    match w.stack with
    | .user :: k => some { w with stack := k }
    | .joiner :: k => some { w with stack := k }
    | _ => none
  | .spawn => if foreign w.stack ∧ w.alive ∧ ¬ w.joinStarted then some w.spawn else none
  | .suspend none =>
    match w.stack with
    | .child i :: k => some (w.suspend i k w.stops)
    | _ => none
  | .suspend (some sync) =>
    match w.stack with
    | .child i :: k =>
      match w.stops.register i sync with
      | (t, true) => some (w.suspend i k t)
      | (_, false) => none  -- a stopped task is not suspended
    | _ => none
  | .finish e =>
    match w.stack with
    | .child i :: k => some (w.finish i k e)
    | _ => none
  | .resume i =>
    if foreign w.stack ∧ (w.child i).body = .suspended then some (w.resume i (w.stops.unregister i))
    else none
  | .join =>
    match w.stack with
    | .user :: k => if w.alive ∧ ¬ w.joinStarted then some (w.join k) else none
    | _ => none
  | .requestStop => if foreign w.stack ∧ w.alive then some w.requestStop else none
  | .tick =>
    match w.stack with
    | .stop _ :: k => some (w.touch.stopRound k)
    | .completion _ :: k => some { w.touch with stack := k }.completionTail
    | _ => none
  | .destroyScope =>
    if foreign w.stack ∧ w.alive ∧ w.children = [] then
      some ({ w with alive := false }.emit .scopeDestroyed)
    else none

def sys : Sys World Act := ⟨{}, step⟩

/-! ## what a step can do -/

/-- the steps of the machine, with what is known when they are taken -/
inductive Step (w : World) : Act → World → Prop
  | enter (hf : foreign w.stack = true) : Step w .enter { w with stack := .user :: w.stack }
  | ret {f : Frame} {k : List Frame} (hk : w.stack = f :: k) (hf : f = .user ∨ f = .joiner) :
      Step w .ret { w with stack := k }
  | spawn (hf : foreign w.stack = true) (ha : w.alive = true) (hj : w.joinStarted = false) :
      Step w .spawn w.spawn
  | suspend {s : Option Bool} {i : Nat} {k : List Frame} {t : Cancel.Stops Nat Bool}
      (hk : w.stack = .child i :: k)
      (ht : t = w.stops ∨ ∃ sync, t = { w.stops with regs := (i, sync) :: w.stops.regs }) :
      Step w (.suspend s) (w.suspend i k t)
  | finish {e : Option Exc} {i : Nat} {k : List Frame} (hk : w.stack = .child i :: k) :
      Step w (.finish e) (w.finish i k e)
  | resume {i : Nat} (hf : foreign w.stack = true) (hb : (w.child i).body = .suspended) :
      Step w (.resume i) (w.resume i (w.stops.unregister i))
  | join {k : List Frame} (hk : w.stack = .user :: k) (ha : w.alive = true)
      (hj : w.joinStarted = false) : Step w .join (w.join k)
  | requestStop (hf : foreign w.stack = true) (ha : w.alive = true) :
      Step w .requestStop w.requestStop
  | round {q : StopKind} {k : List Frame} (hk : w.stack = .stop q :: k) :
      Step w .tick (w.touch.stopRound k)
  | tail {i : Nat} {k : List Frame} (hk : w.stack = .completion i :: k) :
      Step w .tick { w.touch with stack := k }.completionTail
  | destroyScope (hf : foreign w.stack = true) (ha : w.alive = true) (hc : w.children = []) :
      Step w .destroyScope ({ w with alive := false }.emit .scopeDestroyed)

theorem step_cases {w w' : World} {a : Act} (h : step w a = some w') : Step w a w' := by
  cases a with
  | enter =>
    obtain ⟨hf, rfl⟩ := by simpa [step] using h
    exact .enter hf
  | ret =>
    simp only [step] at h
    split at h <;> cases h
    · exact .ret ‹_› (Or.inl rfl)
    · exact .ret ‹_› (Or.inr rfl)
  | spawn =>
    obtain ⟨⟨hf, ha, hj⟩, rfl⟩ := by simpa [step] using h
    exact .spawn hf ha hj
  | suspend s =>
    cases s with
    | none =>
      simp only [step] at h
      split at h <;> cases h
      exact .suspend ‹_› (Or.inl rfl)
    | some sync =>
      simp only [step] at h
      split at h
      · rename_i i k hk
        unfold Cancel.Stops.register at h
        cases hr : w.stops.requested with
        | true => simp [hr] at h
        | false =>
          simp only [hr, Bool.false_eq_true, ite_false, Option.some.injEq] at h
          subst h
          exact .suspend hk (Or.inr ⟨sync, by simp [hr]⟩)
      · cases h
  | finish e =>
    simp only [step] at h
    split at h <;> cases h
    exact .finish ‹_›
  | resume i =>
    obtain ⟨⟨hf, hb⟩, rfl⟩ := by simpa [step] using h
    exact .resume hf hb
  | join =>
    simp only [step] at h
    split at h
    · rename_i k hk
      obtain ⟨⟨ha, hj⟩, rfl⟩ := by simpa using h
      exact .join hk ha hj
    · cases h
  | requestStop =>
    obtain ⟨⟨hf, ha⟩, rfl⟩ := by simpa [step] using h
    exact .requestStop hf ha
  | tick =>
    simp only [step] at h
    split at h <;> cases h
    · exact .round ‹_›
    · exact .tail ‹_›
  | destroyScope =>
    obtain ⟨⟨hf, ha, hc⟩, rfl⟩ := by simpa [step] using h
    exact .destroyScope hf ha hc

/-- `child_completed` runs through, or starts the stop -/
theorem childCompleted_cases (w : World) (i : Nat) :
    (w.childCompleted i = w.completionTail ∧
      (w.firstFailure ≠ none ∨ (w.child i).failure = none)) ∨
    ∃ x, w.firstFailure = none ∧ (w.child i).failure = some x ∧
      (w.stops.requested = true ∧ w.childCompleted i = (w.failFirst x).completionTail ∨
       w.stops.requested = false ∧ w.childCompleted i = { w.failFirst x with
          stops := { w.stops with requested := true }
          stack := .stop .failure :: .completion i :: w.stack }) := by
  unfold World.childCompleted
  split
  · rename_i x hf hx
    refine Or.inr ⟨x, hf, hx, ?_⟩
    unfold World.stopSiblings Cancel.Stops.exchange
    cases hr : w.stops.requested with
    | true => exact Or.inl ⟨rfl, by simp [World.failFirst, World.emit, hr]⟩
    | false => exact Or.inr ⟨rfl, by simp [World.failFirst, World.emit, hr]⟩
  · rename_i hno
    refine Or.inl ⟨rfl, ?_⟩
    by_contra hboth
    obtain ⟨hf, hx⟩ := not_or.mp hboth
    obtain ⟨x, hx⟩ := Option.ne_none_iff_exists'.mp hx
    exact hno x (not_not.mp hf) hx

section
variable {w : World}

/-- the parent is resumed by `completionTail` -/
def Resumes (w : World) : Prop :=
  w.activeChildren = 0 ∧ w.joinContinuation = true ∧ w.completionDepth - 1 = 0

theorem completionTail_resumes (h : Resumes w) : w.completionTail =
    ({ w with completionDepth := w.completionDepth - 1, joinContinuation := false,
              stack := .joiner :: w.stack }.emit .resumed).finishJoin := by
  exact if_pos h

theorem completionTail_waits (h : ¬ Resumes w) : w.completionTail =
    { w with completionDepth := w.completionDepth - 1 } := by
  exact if_neg h

end

section
variable (k : List Frame)

@[simp] theorem completions_nil : completions [] = 0 := rfl
@[simp] theorem completions_child (i : Nat) : completions (.child i :: k) = completions k := by
  simp [completions]
@[simp] theorem completions_user : completions (.user :: k) = completions k := by
  simp [completions]
@[simp] theorem completions_joiner : completions (.joiner :: k) = completions k := by
  simp [completions]
@[simp] theorem completions_stop (q : StopKind) : completions (.stop q :: k) = completions k := by
  simp [completions]
@[simp] theorem completions_completion (i : Nat) :
    completions (.completion i :: k) = completions k + 1 := by
  simp [completions]

end

end Scope
