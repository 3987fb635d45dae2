import Mathlib.Logic.Function.Basic
import Uvpp.Machine.Run
import Uvpp.Close.State
import Uvpp.Core.Errno

/-!
# Provisional children

`accept` of `net/tcp_listener.hpp` and `net/pipe_listener.hpp`, `connect` of `net/tcp_connection.hpp`
and `net/pipe_connection.hpp`: a coroutine waits while its awaiter owns a connection that is half
built.  One listener, with the slot of `detail/accept_slot.hpp`, and any number of operations; an
operation is the awaiter together with the state of its child.  No call of foreign code resumes a
coroutine, so one callback of libuv is active at a time.

* `Op.requestClose`, `Op.releaseOwner`, `Op.requestCloseFromCallback`   the state of the child;
* `Op.closeUntransferred`, `Op.resume`                                  the end of an awaiter;
* `accept`, `connect`                                                   `await_suspend`;
* `deliver`, `quiesce`                                                  the slot;
* `onConnection`, `onListenerCloseRequested`, `onStopRequested`         its callbacks;
* `onConnect`, `onClose`                                                callbacks of the child;
* `requestCloseListener`, `releaseListener`                             the state of the listener.
-/

namespace Provisional
open Errno
open Close (AsyncCloseState)

inductive Family where
  | tcp
  | pipe
deriving DecidableEq

inductive Kind where
  | accept
  | connect
deriving DecidableEq

/-- where a coroutine goes on from -/
inductive Source where
  /-- `await_suspend` returned `false` -/
  | inline
  /-- the callback of the operation -/
  | notification
  /-- the close callback of the child -/
  | closeCallback
deriving DecidableEq

/-- what happens to one operation -/
inductive Event where
  /-- `await_suspend` threw -/
  | threw
  | suspended
  | resumed (source : Source) (e : Int)
  /-- `uv_accept`: whether the slot was claimed and a stop callback registered -/
  | uvAccept (claimed registered : Bool)
  /-- `uv_close` of the child, with the same -/
  | uvClose (claimed registered : Bool)
  /-- libuv calls the close callback of the child -/
  | closeCallback
  /-- the state of the child is deleted -/
  | deleted
  /-- the connection that was returned is destroyed -/
  | dropped
deriving DecidableEq

/-- the `unique_ptr` that holds the state of the child -/
inductive Owner where
  | nobody
  | awaiter
  | connection
deriving DecidableEq

/-- `tcp_connection_state`, `pipe_connection_state`, once the handle is initialised -/
structure Child where
  close : AsyncCloseState := {}
  owner : Owner := .awaiter
  /-- `close_completion_destination` -/
  destination : Bool := false
deriving DecidableEq

structure Op where
  kind : Kind := .accept
  status : Int := 0
  /-- the coroutine: `continuation_`, or `connect_continuation` of the child -/
  continuation : Option Nat := none
  /-- `cancellation_` is not null -/
  cancellation : Bool := false
  /-- the stop callback is registered -/
  registered : Bool := false
  /-- `provisional_close_required_` -/
  closeRequired : Bool := false
  /-- `provisional_close_completed_` -/
  closeCompleted : Bool := false
  child : Option Child := none
  /-- libuv has the connect request -/
  connecting : Bool := false
  /-- libuv has the close of the child -/
  closePending : Bool := false
  log : List Event := []
  /-- a state that is not there was used, or an assertion failed -/
  fault : Bool := false
deriving DecidableEq

/-- a `complete` that is active, with the coroutines it has not resumed yet -/
inductive Complete where
  | child (i : Nat) (rest : List Nat)
  | listener (rest : List Nat)
deriving DecidableEq

structure Listener where
  close : AsyncCloseState := {}
  /-- the `tcp_listener` or `pipe_listener` holds the state -/
  owner : Bool := true
  closePending : Bool := false
  deleted : Bool := false
deriving DecidableEq

structure World where
  listener : Listener := {}
  /-- the awaiter that has the `accept_slot` -/
  slot : Option Nat := none
  ops : Nat → Op := fun _ => {}
  /-- the number of the next operation -/
  next : Nat := 0
  completing : Option Complete := none
  /-- a coroutine that a callback resumed runs -/
  user : Bool := false
  terminated : Bool := false
  fault : Bool := false

inductive Act where
  /-- `null`: the listener was moved from; `init`: what `uv_tcp_init` or `uv_pipe_init` answers -/
  | accept (null sameLoop stopped : Bool) (init : Int) (cancellable registers : Bool)
  /-- `e`: what the native connect answers -/
  | connect (stopped : Bool) (init e : Int)
  /-- libuv notifies the listener; `e`: what `uv_accept` answers, if it is called -/
  | notify (status e : Int)
  | connected (i : Nat) (status : Int)
  /-- the task of the operation is stopped -/
  | stop (i : Nat)
  /-- a coroutine waits for the close of the listener -/
  | closeListener (c : Nat)
  | requestCloseListener
  | destroyListener
  /-- libuv calls the close callback of the child -/
  | childClosed (i : Nat)
  | listenerClosed
  /-- the connection that was returned is destroyed -/
  | drop (i : Nat)
  /-- the active `complete` goes on -/
  | tick
  /-- the coroutine that was resumed suspends or ends -/
  | ret
deriving DecidableEq

/-! ## the child and its awaiter -/

namespace Op

def emit (o : Op) (e : Event) : Op := { o with log := o.log ++ [e] }

def requestClose (o : Op) (claimed : Bool) : Op :=
  match o.child with
  | none => { o with fault := true }
  | some c =>
    match c.close.begin with
    | (_, false) => o
    | (s, true) =>
      { o with child := some { c with close := s }, closePending := true }.emit
        (.uvClose claimed o.registered)

def requestCloseFromCallback (o : Op) (claimed : Bool) (continuation : Option Nat) : Op :=
  match o.child with
  | none => { o with fault := true }
  | some c =>
    { o with child := some { c with close := { c.close with callbackWaiter := continuation } } }
      |>.requestClose claimed

def releaseOwner (o : Op) (claimed : Bool) : Op :=
  match o.child with
  | none => { o with fault := true }
  | some c =>
    let s := c.close.setOwnerReleased
    let o := { o with child := some { c with close := s } }
    if s.phase = .opened then o.requestClose claimed
    else if s.canDestroyNow then { o with child := none }.emit .deleted
    else o

/-- `connection_.release()`, and the close that the coroutine waits for -/
def closeUntransferred (o : Op) (claimed : Bool) (continuation : Option Nat) : Op :=
  match o.child with
  | none => { o with fault := true }
  | some c =>
    { o with closeRequired := true, child := some { c with owner := .nobody, destination := true } }
      |>.releaseOwner claimed |>.requestCloseFromCallback claimed continuation

/-- The same in `on_connect` and after a connect that failed at once, without the two flags. -/
def closeUnconnected (o : Op) (claimed : Bool) (continuation : Option Nat) : Op :=
  match o.child with
  | none => { o with fault := true }
  | some c =>
    { o with child := some { c with owner := .nobody } }
      |>.releaseOwner claimed |>.requestCloseFromCallback claimed continuation

/-- the coroutine goes on with `await_resume` -/
def resume (o : Op) (continuation : Option Nat) (source : Source) : Op :=
  if continuation = none ∨ o.closeRequired ∧ !o.closeCompleted then { o with fault := true }
  else if o.status < 0 then o.emit (.resumed source o.status)
  else
    match o.child with
    | none => { o with fault := true }
    | some c =>
      { o with child := some { c with owner := .connection } }.emit (.resumed source o.status)

def unregister (o : Op) : Op :=
  if o.cancellation then { o with registered := false, cancellation := false } else o

/-- `on_connection` of the awaiter up to its result -/
def connection (o : Op) (claimed : Bool) (status e : Int) : Op :=
  let o := { o with status := status }.unregister
  if 0 ≤ o.status then { o with status := e }.emit (.uvAccept claimed o.registered) else o

end Op

/-! ## the operations -/

namespace World

def setOp (w : World) (i : Nat) (o : Op) : World := { w with ops := Function.update w.ops i o }

/-- the operation `next` ends in `await_suspend`; `made`: with a child that is not initialised -/
def refuse (w : World) (k : Kind) (made : Bool) (e : Int) : World :=
  { w with next := w.next + 1 }.setOp w.next
    { kind := k
      status := e
      log := .resumed .inline e :: if made then [.deleted] else [] }

def throw (w : World) (k : Kind) : World :=
  { w with next := w.next + 1 }.setOp w.next { kind := k, log := [.threw] }

/-- the slot is empty already -/
def onListenerCloseRequested (w : World) (i : Nat) : World :=
  let o := { w.ops i with status := ecanceled }.unregister
  w.setOp i ({ o with continuation := none }.closeUntransferred w.slot.isSome o.continuation)

def quiesce (w : World) : World :=
  match w.slot with
  | none => w
  | some i => { w with slot := none }.onListenerCloseRequested i

def onConnection (w : World) (i : Nat) (status e : Int) : World :=
  let o := (w.ops i).connection w.slot.isSome status e
  if o.status < 0 then
    w.setOp i ({ o with continuation := none }.closeUntransferred w.slot.isSome o.continuation)
  else
    { w with user := true }.setOp i
      ({ o with continuation := none }.resume o.continuation .notification)

def deliver (w : World) (status e : Int) : World :=
  match w.slot with
  | none => w
  | some i => { w with slot := none }.onConnection i status e

/-- `on_connection` of the listener -/
def notify (w : World) (status e : Int) : World :=
  if w.listener.close.phase ≠ .opened then w else w.deliver status e

/-- the registration is not in the list any more -/
def onStopRequested (w : World) (i : Nat) : World :=
  if w.listener.deleted then { w with fault := true }
  else if w.slot = some i then w.quiesce
  else w

def stop (w : World) (i : Nat) : World :=
  (w.setOp i { w.ops i with registered := false }).onStopRequested i

def accept (w : World) (null sameLoop stopped : Bool) (init : Int) (cancellable registers : Bool) :
    World :=
  if null ∨ w.listener.close.phase ≠ .opened then w.refuse .accept false ebadf
  else if !sameLoop then w.throw .accept
  else if stopped then w.refuse .accept false ecanceled
  else if w.slot.isSome then w.refuse .accept false ebusy
  else if init < 0 then w.refuse .accept true init
  else
    let i := w.next
    let o : Op :=
      { kind := .accept
        status := init
        continuation := some i
        cancellation := cancellable
        registered := cancellable && registers
        child := some {}
        log := [.suspended] }
    let w := { w with next := i + 1, slot := some i }.setOp i o
    if cancellable ∧ !registers then w.quiesce else w

/-- A TCP connect makes the state of the child before it looks at the stop.  `uv_pipe_connect`, where
libuv has no `uv_pipe_connect2`, does not fail at once. -/
def connect (f : Family) (w : World) (stopped : Bool) (init e : Int) : World :=
  if stopped then w.refuse .connect (f = .tcp) ecanceled
  else if init < 0 then w.refuse .connect true init
  else
    let i := w.next
    let o : Op := { kind := .connect, status := e, child := some {}, log := [.suspended] }
    let w := { w with next := i + 1 }
    if e < 0 then w.setOp i (o.closeUnconnected w.slot.isSome (some i))
    else w.setOp i { o with continuation := some i, connecting := true }

def onConnect (w : World) (i : Nat) (status : Int) : World :=
  let o := { w.ops i with status := status, connecting := false, continuation := none }
  if status < 0 then w.setOp i (o.closeUnconnected w.slot.isSome (w.ops i).continuation)
  else { w with user := true }.setOp i (o.resume (w.ops i).continuation .notification)

/-- `on_close` of the child up to the first resumption -/
def onClose (w : World) (i : Nat) : World :=
  let o := { w.ops i with closePending := false }
  match o.child with
  | none => w.setOp i { o with fault := true }
  | some c =>
    let o := if c.destination then { o with closeCompleted := true } else o
    let o := { o with child := some { c with destination := false, close := c.close.beginComplete.1 } }
    { w with completing := some (.child i c.close.beginComplete.2) }.setOp i (o.emit .closeCallback)

/-- `on_close` of the child after the last one -/
def endClose (w : World) (i : Nat) : World :=
  let o := w.ops i
  match o.child with
  | none => w.setOp i { o with fault := true }
  | some c =>
    match c.close.endComplete with
    | (_, true) =>
      { w with completing := none }.setOp i ({ o with child := none }.emit .deleted)
    | (s, false) =>
      { w with completing := none }.setOp i { o with child := some { c with close := s } }

/-- `reset` of the connection that was returned -/
def drop (w : World) (i : Nat) : Option World :=
  match (w.ops i).child with
  | none => none
  | some c =>
    if c.owner = .connection then
      some (w.setOp i (({ w.ops i with child := some { c with owner := .nobody } }.emit
        .dropped).releaseOwner w.slot.isSome))
    else none

/-! ## the listener -/

def requestCloseListener (w : World) : World :=
  match w.listener.close.begin with
  | (_, false) => w
  | (s, true) =>
    let w := { w with listener := { w.listener with close := s } }.quiesce
    if w.slot.isSome then { w with fault := true }
    else { w with listener := { w.listener with closePending := true } }

def releaseListener (w : World) : World :=
  let s := w.listener.close.setOwnerReleased
  let w := { w with listener := { w.listener with close := s } }
  if s.phase = .opened then w.requestCloseListener
  else if s.canDestroyNow then { w with listener := { w.listener with deleted := true } }
  else w

/-- the awaiter of `close()` -/
def closeListener (w : World) (c : Nat) : World :=
  match w.listener.close.addWaiter c with
  | (_, false) => w
  | (s, true) => { w with listener := { w.listener with close := s } }.requestCloseListener

/-- `reset()` -/
def destroyListener (w : World) : World :=
  if w.slot.isSome then { w with terminated := true }
  else { w with listener := { w.listener with owner := false } }.releaseListener

def onListenerClose (w : World) : World :=
  if w.listener.deleted then { w with fault := true }
  else
    { w with
        listener := { w.listener with closePending := false, close := w.listener.close.beginComplete.1 }
        completing := some (.listener w.listener.close.beginComplete.2) }

def endListenerClose (w : World) : World :=
  if w.listener.deleted then { w with fault := true }
  else
    { w with
        listener := { w.listener with
          close := w.listener.close.endComplete.1
          deleted := w.listener.close.endComplete.2 }
        completing := none }

/-- the active `complete` resumes its next coroutine, or ends -/
def tick (w : World) : Option World :=
  match w.completing with
  | none => none
  | some (.child i (c :: rest)) =>
    some ({ w with completing := some (.child i rest), user := true }.setOp i
      ((w.ops i).resume (some c) .closeCallback))
  | some (.child i []) => some (w.endClose i)
  | some (.listener (_ :: rest)) =>
    some { w with completing := some (.listener rest), user := true }
  | some (.listener []) => some w.endListenerClose

/-- foreign code may run -/
def free (w : World) : Bool := w.completing.isNone || w.user

/-- the loop may call -/
def idle (w : World) : Bool := w.completing.isNone && !w.user

end World

/-- Foreign code uses the listener while it has it. -/
def step (f : Family) (w : World) (a : Act) : Option World :=
  if w.terminated then none
  else
    match a with
    | .accept null sameLoop stopped init cancellable registers =>
      if w.free ∧ (null ∨ w.listener.owner) then
        some (w.accept null sameLoop stopped init cancellable registers)
      else none
    | .connect stopped init e => if w.free then some (w.connect f stopped init e) else none
    | .notify status e =>
      if w.idle ∧ w.listener.close.phase ≠ .closed then some (w.notify status e) else none
    | .connected i status =>
      if w.idle ∧ (w.ops i).connecting then some (w.onConnect i status) else none
    | .stop i => if w.free ∧ (w.ops i).registered then some (w.stop i) else none
    | .closeListener c => if w.free ∧ w.listener.owner then some (w.closeListener c) else none
    | .requestCloseListener =>
      if w.free ∧ w.listener.owner then some w.requestCloseListener else none
    | .destroyListener => if w.free ∧ w.listener.owner then some w.destroyListener else none
    | .childClosed i => if w.idle ∧ (w.ops i).closePending then some (w.onClose i) else none
    | .listenerClosed => if w.idle ∧ w.listener.closePending then some w.onListenerClose else none
    | .drop i => if w.free then w.drop i else none
    | .tick => if w.user then none else w.tick
    | .ret => if w.user then some { w with user := false } else none

def sys (f : Family) : Sys World Act := ⟨{}, step f⟩

end Provisional
