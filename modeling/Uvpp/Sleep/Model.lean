import Mathlib.Logic.Function.Basic
import Uvpp.Machine.Run
import Uvpp.Cancel.Stops
import Uvpp.Core.Errno

/-!
# `sleep_for`

The awaiter of `co/sleep.hpp` holds its own `uv_timer_t`.  Expiry and stop both go through
`finish`, which closes the timer; the coroutine is resumed by the close callback.

* `World.await`          `await_suspend`;
* `World.finish`         `finish`, called by the timer and by the stop callback;
* `World.closed`         the close callback;
* `sys`                  any number of sleeps, of tasks that share cancellation states, and of other
                         registrations in the same lists.

Libuv calls timer and close callbacks from the loop only; the loop of `request_stop` runs to its
end before.
-/

namespace Sleep
open Errno

/-- an awaiter; each `co_await` has its own -/
abbrev Op := Nat
abbrev CancelId := Nat

/-- a registration in the list of a cancellation state -/
inductive Reg where
  | sleep (o : Op)
  /-- of another operation; its callback is foreign code -/
  | other (n : Nat)
deriving DecidableEq

/-- the `uv_timer_t` of an awaiter -/
inductive Timer where
  | unused
  | idle
  | active
  | closing
  | closed
deriving DecidableEq

inductive Status where
  | fresh
  | suspended
  | finished
deriving DecidableEq

structure Rec where
  status : Status := .fresh
  timer : Timer := .unused
  /-- `cancellation_` -/
  cancellation : Option CancelId := none
  /-- `status_` -/
  code : Int := 0
  closeStarted : Bool := false
deriving DecidableEq

inductive Frame where
  /-- foreign code: a coroutine that was resumed, or any other callback of the loop -/
  | user
  /-- the loop of `cancellation_state::request_stop` -/
  | stopping (c : CancelId)
deriving DecidableEq

inductive Event where
  | stopRequested (c : CancelId)
  /-- `uv_timer_init` succeeded -/
  | initialised (o : Op)
  /-- `uv_timer_init` or `uv_timer_start` failed -/
  | failed (o : Op) (code : Int)
  | fired (o : Op)
  | uvClose (o : Op)
  | suspended (o : Op)
  /-- the suspended coroutine is resumed; its `await_resume` sees `code` -/
  | resumed (o : Op) (code : Int)
  /-- the `co_await` ended without suspending -/
  | ended (o : Op) (code : Int)
deriving DecidableEq

structure World where
  op : Op → Rec := fun _ => {}
  stops : CancelId → Cancel.Stops Reg Unit := fun _ => {}
  stack : List Frame := []
  log : List Event := []

structure Request where
  op : Op
  /-- `promise().cancellation()` -/
  task : Option CancelId
  /-- what `uv_timer_init` and `uv_timer_start` return -/
  init : Int := 0
  start : Int := 0

def foreign : List Frame → Bool
  | [] => true
  | .user :: _ => true
  | _ => false

namespace World

def setOp (w : World) (o : Op) (f : Rec → Rec) : World :=
  { w with op := Function.update w.op o (f (w.op o)) }

def setStops (w : World) (c : CancelId) (t : Cancel.Stops Reg Unit) : World :=
  { w with stops := Function.update w.stops c t }

@[simp] theorem setStops_stops (w : World) (c c' : CancelId) (t : Cancel.Stops Reg Unit) :
    (w.setStops c t).stops c' = if c' = c then t else w.stops c' := Function.update_apply ..

def emit (w : World) (e : Event) : World := { w with log := w.log ++ [e] }

def push (w : World) (f : Frame) : World := { w with stack := f :: w.stack }

/-- `stop_requested()` of the promise -/
def stopRequested (w : World) : Option CancelId → Bool
  | none => false
  | some c => (w.stops c).requested

/-- `register_callback`, without a cancellation state nothing is to be done -/
def register (w : World) (o : Op) : Option CancelId → World × Bool
  | none => (w, true)
  | some c => (w.setStops c ((w.stops c).register (.sleep o) ()).1,
      ((w.stops c).register (.sleep o) ()).2)

def unregister (w : World) (o : Op) : Option CancelId → World
  | none => w
  | some c => w.setStops c ((w.stops c).unregister (.sleep o))

/-- `uv_close` -/
def uvClose (w : World) (o : Op) : World := (w.setOp o ({ · with timer := .closing })).emit (.uvClose o)

def finish (w : World) (o : Op) (status : Int) : World :=
  if (w.op o).closeStarted then w
  else
    let w := w.setOp o ({ · with code := status, timer := .idle })
    let w := w.unregister o (w.op o).cancellation
    (w.setOp o ({ · with closeStarted := true })).uvClose o

/-- `await_suspend` returns true -/
def suspend (w : World) (o : Op) : World :=
  (w.setOp o ({ · with status := .suspended })).emit (.suspended o)

/-- `await_suspend` returns false with `status_` set -/
def endInline (w : World) (o : Op) (code : Int) : World :=
  (w.setOp o ({ · with status := .finished, code := code })).emit (.ended o code)

def await (w : World) (q : Request) : World :=
  let w := w.setOp q.op fun _ => { cancellation := q.task }
  if w.stopRequested q.task then w.endInline q.op ecanceled
  else if q.init < 0 then (w.emit (.failed q.op q.init)).endInline q.op q.init
  else
    let w := (w.setOp q.op ({ · with timer := .idle, code := q.start })).emit (.initialised q.op)
    if q.start < 0 then
      let w := (w.emit (.failed q.op q.start)).uvClose q.op
      (w.setOp q.op ({ · with closeStarted := true })).suspend q.op
    else
      let w := w.setOp q.op ({ · with timer := .active })
      match w.register q.op q.task with
      | (w, true) => w.suspend q.op
      | (w, false) => (w.finish q.op ecanceled).suspend q.op

/-- `timer_trampoline` -/
def fire (w : World) (o : Op) : World := (w.emit (.fired o)).finish o 0

/-- `close_trampoline` -/
def closed (w : World) (o : Op) : World :=
  ((w.setOp o ({ · with timer := .closed, status := .finished })).emit
    (.resumed o (w.op o).code)).push .user

/-- `cancellation_state::request_stop` up to its loop -/
def requestStop (w : World) (c : CancelId) : World :=
  match (w.stops c).exchange with
  | (_, false) => w
  | (t, true) => ((w.setStops c t).emit (.stopRequested c)).push (.stopping c)

/-- one round of the loop -/
def tick (w : World) : Option World :=
  match w.stack with
  | .stopping c :: k =>
    match (w.stops c).pop with
    | none => some { w with stack := k }
    | some ((.sleep o, ()), t) => some ((w.setStops c t).finish o ecanceled)
    | some ((.other _, ()), t) => some ((w.setStops c t).push .user)
  | _ => none

end World

inductive Act where
  /-- the loop calls foreign code -/
  | enter
  | ret
  | tick
  | await (q : Request)
  | requestStop (c : CancelId)
  | registerOther (c : CancelId) (n : Nat)
  | unregisterOther (c : CancelId) (n : Nat)
  /-- the loop calls the timer callback, the close callback -/
  | fire (o : Op)
  | closed (o : Op)

def step (w : World) : Act → Option World
  | .enter => if w.stack = [] then some (w.push .user) else none
  | .ret =>
    match w.stack with
    | .user :: k => some { w with stack := k }
    | _ => none
  | .tick => w.tick
  | .await q => if foreign w.stack ∧ (w.op q.op).status = .fresh then some (w.await q) else none
  | .requestStop c => if foreign w.stack then some (w.requestStop c) else none
  | .registerOther c n =>
    if foreign w.stack then some (w.setStops c ((w.stops c).register (.other n) ()).1) else none
  | .unregisterOther c n =>
    if foreign w.stack then some (w.setStops c ((w.stops c).unregister (.other n))) else none
  | .fire o => if w.stack = [] ∧ (w.op o).timer = .active then some (w.fire o) else none
  | .closed o => if w.stack = [] ∧ (w.op o).timer = .closing then some (w.closed o) else none

def sys : Sys World Act := ⟨{}, step⟩

end Sleep
