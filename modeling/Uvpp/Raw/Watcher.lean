import Uvpp.Machine.Run
import Uvpp.Callback.Slot
import Uvpp.Core.Errno

/-!
# Raw watchers

One raw timer, signal, poll, fs-event, fs-poll, idle, prepare, check or async handle
(`detail/raw_watcher.hpp`, `handles/*.hpp`).  A runtime callable sits in a
`persistent_callback_slot` and is called by a trampoline; a static callback is a native callback of
its own, except that fs-poll and async have one native callback and keep a pointer.

* `commitStart`, `commitStop`, `deliver`, `deliverTerminal`   what the families share;
* `timerStart` .. `asyncSetCallback`                          the calls of each family;
* `timerNotify` .. `asyncNotify`                              its native callback, up to the call
                                                              of the user's;
* `sys`                                                       the machine.

Libuv calls back from the loop, never inline, and only while the handle is active or, a timer, due:
since 1.48 the loop stops all timers that have run out before it calls the first of them back, and a
stop, a start or a close still takes one out of these.  Libuv answers a start with a status and with
the activity of the handle afterwards, and does not reject the start of a timer that is due.  A timer
that does not repeat is inactive when its callback is called.
-/

namespace RawWatcher
open Errno Callback

inductive Family where
  | timer
  | signal
  | poll
  | fsEvent
  | fsPoll
  | idle
  | prepare
  | check
  | async
deriving DecidableEq

/-- the families with one native callback, which looks at a pointer for the static one -/
def Family.dispatches : Family → Bool
  | .fsPoll | .async => true
  | _ => false

inductive Callable where
  /-- a `std::function` -/
  | runtime (c : Nat)
  | static (c : Nat)
deriving DecidableEq

/-- what a call selects; without a callable, an empty `std::function` -/
structure Choice where
  callable : Option Callable
  /-- `start_oneshot` of a signal -/
  oneshot : Bool := false
deriving DecidableEq

/-- the callback that libuv has -/
inductive Native where
  | trampoline
  | lambda (c : Nat) (oneshot : Bool)
deriving DecidableEq

namespace Choice

/-- what goes into the slot -/
def stored (ch : Choice) : Option Nat :=
  match ch.callable with
  | some (.runtime c) => some c
  | _ => none

def static (ch : Choice) : Option Nat :=
  match ch.callable with
  | some (.static c) => some c
  | _ => none

def native (ch : Choice) : Native :=
  match ch.callable with
  | some (.static c) => .lambda c ch.oneshot
  | _ => .trampoline

end Choice

/-- the user's callback that runs -/
inductive Frame where
  /-- in `invoke`: begun at this generation and at this length of the history -/
  | persistent (c : Nat) (generation since : Nat)
  | called (c : Callable)
deriving DecidableEq

inductive Event where
  /-- a selection was accepted; whether the source is active now -/
  | started (ch : Choice) (active : Bool)
  | refused (e : Int) (active : Bool)
  | stopped
  | closed
  /-- libuv called; who was called, and whether it was the last time -/
  | notified (c : Option Callable) (terminal : Bool)
  | returned (e : Int)
deriving DecidableEq

/-- what libuv answers to a start -/
structure Answer where
  status : Int := 0
  active : Bool := true
deriving DecidableEq

/-- the arguments of a start, and what libuv answers before it -/
structure Args where
  /-- durations, event masks and paths are well formed -/
  valid : Bool := true
  /-- the native stop of idle, prepare and check -/
  stop : Int := 0
  /-- the path and the interval of fs-poll, and the status of the path query -/
  path : Nat := 0
  interval : Nat := 1
  query : Int := 0
deriving DecidableEq

structure Notice where
  status : Int := 0
  /-- a timer repeats -/
  rearmed : Bool := true
  /-- what the native stop of a terminal notification answers -/
  stop : Int := 0
deriving DecidableEq

inductive Act where
  | init (e : Int)
  | asyncInit (ch : Choice) (e : Int)
  | start (ch : Choice) (args : Args) (answer : Answer)
  | setCallback (ch : Choice)
  | stop (e : Int)
  | again (e : Int)
  | close
  /-- a timer has run out and waits for its callback -/
  | expire
  | notify (n : Notice)
  /-- the user's callback returns -/
  | ret
deriving DecidableEq

structure World where
  initialized : Bool := false
  closing : Bool := false
  active : Bool := false
  /-- stopped by the loop to be called back -/
  due : Bool := false
  registered : Native := .trampoline
  slot : Slot Nat := {}
  /-- `oneshot_` -/
  oneshot : Bool := false
  /-- `static_callback_`, `static_dispatch_` -/
  staticCallback : Option Nat := none
  path : Nat := 0
  interval : Nat := 0
  frame : Option Frame := none
  log : List Event := []
  terminated : Bool := false

namespace World

def emit (w : World) (e : Event) : World := { w with log := w.log ++ [e] }

def ready (w : World) : Bool := w.initialized && !w.closing

/-- whether a notification can come -/
def live (w : World) : Bool := w.active || w.due

/-! ## what the families share -/

/-- a start that does not get to libuv -/
def refuse (w : World) (e : Int) : World := w.emit (.refused e w.live)

def replaceCallback (w : World) (c : Option Nat) : World := { w with slot := w.slot.replace c }

/-- the native start: a rejected one may stop the source, but not start it -/
def nativeStart (w : World) (r : Native) (s : Answer) : World :=
  if 0 ≤ s.status then { w with active := s.active, due := false, registered := r }
  else { w with active := w.active && s.active }

def commitStart (w : World) (r : Native) (c : Option Nat) (s : Answer) : World :=
  let w := w.nativeStart r s
  if 0 ≤ s.status ∨ w.active = false then w.replaceCallback (if w.active then c else none) else w

def report (w : World) (ch : Choice) (s : Answer) : World :=
  if 0 ≤ s.status then w.emit (.started ch w.live) else w.emit (.refused s.status w.live)

/-- the native stop and `commit_stop` -/
def commitStop (w : World) : World := { w with active := false, due := false }.replaceCallback none

/-- `invoke` up to the call -/
def deliver (w : World) : World :=
  match w.slot.callback with
  | some c =>
    { w with
        slot := w.slot.beginInvoke.1
        frame := some (.persistent c w.slot.generation (w.log.length + 1)) }.emit
      (.notified (some (.runtime c)) false)
  | none => w.emit (.notified none false)

def deliverTerminal (w : World) : World :=
  match w.slot.take with
  | (slot, some c) =>
    { w with slot := slot, frame := some (.called (.runtime c)) }.emit
      (.notified (some (.runtime c)) true)
  | (slot, none) => { w with slot := slot }.emit (.notified none true)

def callStatic (w : World) (c : Nat) (terminal : Bool) : World :=
  { w with frame := some (.called (.static c)) }.emit (.notified (some (.static c)) terminal)

def terminate (w : World) : World := { w with terminated := true }

/-! ## the calls of the families -/

/-- a start that checks its arguments and hands over to libuv -/
def plainStart (w : World) (ch : Choice) (args : Args) (s : Answer) : World :=
  if !w.ready then w.refuse ebadf
  else if !args.valid then w.refuse einval
  else (w.commitStart ch.native ch.stored s).report ch s

def timerStart (w : World) := w.plainStart
def pollStart (w : World) := w.plainStart
def fsEventStart (w : World) := w.plainStart

def signalStart (w : World) (ch : Choice) (s : Answer) : World :=
  if !w.ready then w.refuse ebadf
  else
    let v := w.commitStart ch.native ch.stored s
    { v with oneshot := if 0 ≤ s.status then ch.oneshot else v.oneshot }.report ch s

/-- `restart` of idle, prepare and check: libuv does not replace the callback of an active one -/
def restart (w : World) (ch : Choice) (args : Args) (s : Answer) : World :=
  if !w.ready then w.refuse ebadf
  else if args.stop < 0 then w.refuse args.stop
  else ({ w with active := false }.commitStart ch.native ch.stored s).report ch s

def idleStart (w : World) := w.restart
def prepareStart (w : World) := w.restart
def checkStart (w : World) := w.restart

/-- an active fs-poll can only get another callback -/
def fsPollStart (w : World) (ch : Choice) (args : Args) (s : Answer) : World :=
  if !w.ready then w.refuse ebadf
  else if !args.valid then w.refuse einval
  else if w.active then
    if w.interval ≠ args.interval then w.refuse ebusy
    else if args.query < 0 then w.refuse args.query
    else if w.path ≠ args.path then w.refuse ebusy
    else
      { w.replaceCallback ch.stored with staticCallback := ch.static }.emit (.started ch w.live)
  else
    let v := w.commitStart .trampoline ch.stored s
    let v := if 0 ≤ s.status then
      { v with path := args.path, interval := args.interval, staticCallback := ch.static } else v
    v.report ch s

def start (fam : Family) (w : World) (ch : Choice) (args : Args) (s : Answer) : World :=
  match fam with
  | .timer => w.timerStart ch args s
  | .signal => w.signalStart ch s
  | .poll => w.pollStart ch args s
  | .fsEvent => w.fsEventStart ch args s
  | .fsPoll => w.fsPollStart ch args s
  | .idle => w.idleStart ch args s
  | .prepare => w.prepareStart ch args s
  | .check => w.checkStart ch args s
  | .async => w

def init (w : World) (e : Int) : World :=
  if w.initialized then w.emit (.returned ealready)
  else if e < 0 then w.emit (.returned e)
  else { w with initialized := true }.emit (.returned e)

/-- async is active from its initialization on -/
def asyncInit (w : World) (ch : Choice) (e : Int) : World :=
  if w.initialized then w.refuse ealready
  else if e < 0 then w.refuse e
  else
    { w.replaceCallback ch.stored with
        initialized := true, active := true, staticCallback := ch.static }.emit (.started ch true)

def asyncSetCallback (w : World) (ch : Choice) : World :=
  if !w.ready then w.refuse ebadf
  else { w.replaceCallback ch.stored with staticCallback := ch.static }.emit (.started ch w.live)

def stop (fam : Family) (w : World) (e : Int) : World :=
  if !w.ready then w.emit (.returned ebadf)
  else if e < 0 then w.emit (.returned e)
  else
    let v : World := w.commitStop
    World.emit { v with staticCallback := if fam = .fsPoll then none else v.staticCallback } .stopped

/-- only an active timer can reuse its callback, so not one that is due -/
def timerAgain (w : World) (e : Int) : World :=
  if !w.ready then w.emit (.returned ebadf)
  else if !w.active then w.emit (.returned einval)
  else w.emit (.returned e)

/-- `uv_close`, then the callable is released -/
def close (fam : Family) (w : World) : World :=
  if !w.initialized then w
  else
    let v : World := { w with active := false, due := false, closing := true }.replaceCallback none
    World.emit { v with staticCallback := if fam = .async then none else v.staticCallback } .closed

/-! ## the native callbacks of the families -/

def timerNotify (w : World) (n : Notice) : World :=
  let w := { w with active := n.rearmed, due := false }
  match w.registered with
  | .lambda c _ => w.callStatic c (!n.rearmed)
  | .trampoline => if w.active then w.deliver else w.deliverTerminal

def signalNotify (w : World) (n : Notice) : World :=
  match w.registered with
  | .lambda c oneshot =>
    if oneshot then
      if n.stop < 0 then w.terminate else w.commitStop.callStatic c true
    else w.callStatic c false
  | .trampoline =>
    if w.oneshot then
      if n.stop < 0 then w.terminate else { w with active := false }.deliverTerminal
    else w.deliver

/-- a negative status of poll and fs-event is terminal -/
def eventNotify (w : World) (n : Notice) : World :=
  match w.registered with
  | .lambda c _ =>
    if n.status < 0 then
      if n.stop < 0 then w.terminate else w.commitStop.callStatic c true
    else w.callStatic c false
  | .trampoline =>
    if n.status < 0 then
      if n.stop < 0 then w.terminate else { w with active := false }.deliverTerminal
    else w.deliver

def pollNotify (w : World) := w.eventNotify
def fsEventNotify (w : World) := w.eventNotify

def phaseNotify (w : World) : World :=
  match w.registered with
  | .lambda c _ => w.callStatic c false
  | .trampoline => w.deliver

def dispatchNotify (w : World) : World :=
  match w.staticCallback with
  | some c => w.callStatic c false
  | none => w.deliver

def fsPollNotify (w : World) := w.dispatchNotify
def asyncNotify (w : World) := w.dispatchNotify

def notify (fam : Family) (w : World) (n : Notice) : World :=
  match fam with
  | .timer => w.timerNotify n
  | .signal => w.signalNotify n
  | .poll => w.pollNotify n
  | .fsEvent => w.fsEventNotify n
  | .fsPoll => w.fsPollNotify
  | .idle | .prepare | .check => w.phaseNotify
  | .async => w.asyncNotify

/-- the user's callback returns, in `invoke` to the end of it -/
def ret (w : World) : Option World :=
  match w.frame with
  | some (.persistent c g _) => some { w with slot := w.slot.endInvoke c g, frame := none }
  | some (.called _) => some { w with frame := none }
  | none => none

end World

/-- one action; one-shot starts are those of a signal, and async has neither start nor stop -/
def step (fam : Family) (w : World) (a : Act) : Option World :=
  if w.terminated then none
  else
    match a with
    | .init e => if fam ≠ .async then some (w.init e) else none
    | .asyncInit ch e => if fam = .async ∧ !ch.oneshot then some (w.asyncInit ch e) else none
    | .start ch args s =>
      if fam ≠ .async ∧ (ch.oneshot → fam = .signal) ∧ (w.due → 0 ≤ s.status) then
        some (w.start fam ch args s)
      else none
    | .setCallback ch => if fam = .async ∧ !ch.oneshot then some (w.asyncSetCallback ch) else none
    | .stop e => if fam ≠ .async then some (w.stop fam e) else none
    | .again e => if fam = .timer then some (w.timerAgain e) else none
    | .close => if w.closing then none else some (w.close fam)
    | .expire =>
      if fam = .timer ∧ w.active ∧ w.frame.isNone then some { w with active := false, due := true }
      else none
    | .notify n => if w.live ∧ w.frame.isNone then some (w.notify fam n) else none
    | .ret => w.ret

def sys (fam : Family) : Sys World Act := ⟨{}, step fam⟩

end RawWatcher
