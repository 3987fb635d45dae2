import Mathlib.Logic.Function.Basic
import Uvpp.Machine.Run
import Uvpp.Cancel.Stops

/-!
# Operations with an exclusive slot and a stop registration

Stream reads (`detail/stream_io.hpp`), UDP receives (`net/udp_socket.hpp`), `next()` of signal,
fs-event and poll sources and `wait()` of a process.  Each source has one slot; a suspended
operation holds it and is registered with the cancellation state of its task, if there is one.
The native source of a read, a receive and a poll runs only while an operation is suspended; a
signal or fs-event source is started once and retains what nobody waits for; a process is
"started" as long as its child runs.

* `awaitRead` .. `awaitExit`      `await_suspend` of the six awaiters;
* `onRead` .. `onExit`            the native callbacks;
* `onStopRequested`               the callback of the stop registration;
* `requestClose`, `destroy`       the end of a source;
* `sys`                           the machine of any number of sources, operations and
                                  cancellation states on one loop thread.

Libuv calls back from the loop only, and only while the native source is started.  Reading
through an empty slot is a `fault`.
-/

namespace Wait

abbrev Source := Nat
/-- an awaiter; each `co_await` has its own -/
abbrev Op := Nat
/-- a `cancellation_state`; a task and its children share one -/
abbrev CancelId := Nat

inductive Family where
  | read
  | receive
  | signal
  | fsEvent
  | poll
  | process
deriving DecidableEq

/-- the families whose native source runs only while an operation is suspended -/
def Family.perWait : Family → Bool
  | .read | .receive | .poll => true
  | _ => false

/-- the families whose owner may neither close nor go while an operation is active -/
def Family.borrows : Family → Bool
  | .read | .receive => true
  | _ => false

inductive Code where
  | badf
  | canceled
  | busy
  | inval
  /-- the status of a native call -/
  | native (e : Int)
deriving DecidableEq

structure FsEvent where
  filename : Option String := none
  events : BitVec 32 := 0
deriving DecidableEq

/-- the outcome that an fs-event source delivers or retains -/
structure FsOutcome where
  status : Int
  event : FsEvent
  /-- the file name could not be stored -/
  failed : Bool
deriving DecidableEq

namespace FsOutcome

/-- the outcome that a notification makes; `throws`: storing the file name throws -/
def make (filename : Option String) (events : BitVec 32) (status : Int) (throws : Bool) :
    FsOutcome where
  status := status
  event := { filename := if status ≥ 0 ∧ !throws then filename else none, events }
  failed := decide (status ≥ 0) && filename.isSome && throws

def failing (x : FsOutcome) : Bool := decide (x.status < 0) || x.failed

/-- a retained outcome and a later one -/
def coalesce (x y : FsOutcome) : FsOutcome :=
  { x with
      event.events := x.event.events ||| y.event.events
      event.filename := if x.event.filename = y.event.filename then x.event.filename else none }

end FsOutcome

structure ProcessExit where
  status : Int
  signal : Int
deriving DecidableEq

/-- what an operation is handed by its source -/
inductive Value where
  /-- bytes, `UV_EOF` or a read error -/
  | count (nread : Int)
  | datagram (nread : Int) (flags : BitVec 32)
  | signal (signum : Nat)
  | fs (o : FsOutcome)
  | ready (status : Int) (events : BitVec 32)
  | exit (x : ProcessExit)
deriving DecidableEq

/-- how an operation ends -/
inductive Outcome where
  | value (v : Value)
  | error (c : Code)
  /-- `std::logic_error` -/
  | wrongLoop
deriving DecidableEq

/-- a native notification with its arguments -/
inductive Notice where
  | read (nread : Int)
  | datagram (nread : Int) (peer : Bool) (flags : BitVec 32)
  | signal (signum : Nat)
  | fsEvent (filename : Option String) (events : BitVec 32) (status : Int) (throws : Bool)
  | poll (status : Int) (events : BitVec 32)
  | exit (status signal : Int)
deriving DecidableEq

def Notice.fits : Notice → Family → Bool
  | .read _, .read => true
  | .datagram .., .receive => true
  | .signal _, .signal => true
  | .fsEvent .., .fsEvent => true
  | .poll .., .poll => true
  | .exit .., .process => true
  | _, _ => false

/-- not one of the empty notifications that a read or a receive ignores -/
def Notice.terminal : Notice → Bool
  | .read nread => nread ≠ 0
  | .datagram nread peer _ => !(nread = 0 && !peer)
  | _ => true

/-- the record of one source -/
structure Src where
  /-- the close has begun -/
  closing : Bool := false
  ownerGone : Bool := false
  /-- `active_read`, `active_receive`, `waiter` -/
  slot : Option Op := none
  /-- the native source is started -/
  armed : Bool
  pendingSignal : Option Nat := none
  pendingEvent : Option FsOutcome := none
  /-- the exit of the child, once reported -/
  exit : Option ProcessExit := none
  /-- `uv_close` was called -/
  submitted : Bool := false

inductive Status where
  | fresh
  | suspended
  | finished
deriving DecidableEq

/-- one awaiter -/
structure OpRec where
  status : Status := .fresh
  source : Source := 0
  /-- `promise().cancellation()` of the awaiting task -/
  task : Option CancelId := none
  /-- `cancellation_` of the awaiter -/
  cancellation : Option CancelId := none

/-- an activation on the call stack of the loop thread -/
inductive Frame where
  /-- foreign code: a coroutine that was resumed, or any other callback of the loop -/
  | user
  /-- the loop of `cancellation_state::request_stop` -/
  | stopping (c : CancelId)
  /-- `request_close` after the delivery to the waiter -/
  | closeTail (s : Source)
deriving DecidableEq

inductive Event where
  | suspended (o : Op)
  /-- the suspended coroutine is resumed -/
  | resumed (o : Op) (r : Outcome)
  /-- the operation ended without suspending -/
  | ended (o : Op) (r : Outcome)
deriving DecidableEq

structure Config where
  family : Source → Family
  /-- the poll events this version of libuv knows -/
  allowed : BitVec 32

structure World where
  src : Source → Src
  op : Op → OpRec := fun _ => {}
  stops : CancelId → Cancel.Stops Op Unit := fun _ => {}
  stack : List Frame := []
  log : List Event := []
  /-- `std::terminate` was called -/
  terminated : Bool := false
  fault : Bool := false

/-- the arguments of an operation -/
structure Request where
  op : Op
  source : Source
  task : Option CancelId
  /-- the task runs on the loop of the source -/
  sameLoop : Bool := true
  /-- a read: the size of the buffer -/
  size : Nat := 1
  /-- a poll: the events asked for -/
  events : BitVec 32 := 1
  /-- what the native start returns, if it is called -/
  start : Int := 0

inductive Act where
  /-- the loop calls foreign code -/
  | enter
  /-- the foreign code on top of the stack returns -/
  | ret
  /-- the activation on top of the stack goes on -/
  | tick
  | await (q : Request)
  | requestStop (c : CancelId)
  /-- `close()` or `request_close()`; `other`: a write, a send or an export is active -/
  | requestClose (s : Source) (other : Bool)
  /-- the owner is destroyed or assigned to -/
  | destroy (s : Source) (other : Bool)
  /-- libuv asks for a buffer -/
  | alloc (s : Source)
  | notify (s : Source) (n : Notice)

/-- foreign code runs: nothing is on the stack, or foreign code is on top -/
def foreign : List Frame → Bool
  | [] => true
  | .user :: _ => true
  | _ => false

namespace World

def setSrc (w : World) (s : Source) (f : Src → Src) : World :=
  { w with src := Function.update w.src s (f (w.src s)) }

def setOp (w : World) (o : Op) (f : OpRec → OpRec) : World :=
  { w with op := Function.update w.op o (f (w.op o)) }

def setStops (w : World) (c : CancelId) (t : Cancel.Stops Op Unit) : World :=
  { w with stops := Function.update w.stops c t }

section
variable (w : World) (s s' : Source) (f : Src → Src)

@[simp] theorem setSrc_src :
    (w.setSrc s f).src s' = if s' = s then f (w.src s) else w.src s' := Function.update_apply ..
@[simp] theorem setSrc_op : (w.setSrc s f).op = w.op := rfl
@[simp] theorem setSrc_stops : (w.setSrc s f).stops = w.stops := rfl
@[simp] theorem setSrc_stack : (w.setSrc s f).stack = w.stack := rfl

end

def emit (w : World) (e : Event) : World := { w with log := w.log ++ [e] }

def push (w : World) (f : Frame) : World := { w with stack := f :: w.stack }

/-! ## the slot and the registration -/

/-- `active_read = this`, `waiter.claim(this, ..)` on an empty slot -/
def claim (w : World) (s : Source) (o : Op) : World := w.setSrc s ({ · with slot := some o })

/-- `active_read = nullptr`, `waiter.release(this)` -/
def release (w : World) (s : Source) (o : Op) : World :=
  if (w.src s).slot = some o then w.setSrc s ({ · with slot := none }) else w

/-- a native start that succeeds -/
def arm (w : World) (s : Source) : World := w.setSrc s ({ · with armed := true })

/-- a native stop -/
def disarm (w : World) (s : Source) : World := w.setSrc s ({ · with armed := false })

/-- `stop_requested()` of the promise -/
def stopRequested (w : World) : Option CancelId → Bool
  | none => false
  | some c => (w.stops c).requested

/-- `cancellation_ = promise().cancellation()` and `register_callback` -/
def register (w : World) (o : Op) : Option CancelId → World × Bool
  | none => (w, true)
  | some c =>
    (((w.setOp o ({ · with cancellation := some c })).setStops c ((w.stops c).register o ()).1),
      ((w.stops c).register o ()).2)

/-- `cancellation_->unregister(..)` and `cancellation_ = nullptr` -/
def unregister (w : World) (o : Op) : World :=
  match (w.op o).cancellation with
  | none => w
  | some c => (w.setOp o ({ · with cancellation := none })).setStops c ((w.stops c).unregister o)

/-- `continuation.resume()` -/
def resume (w : World) (o : Op) (r : Outcome) : World :=
  ((w.setOp o ({ · with status := .finished })).emit (.resumed o r)).push .user

/-- `await_suspend` returns true -/
def suspend (w : World) (o : Op) : World :=
  (w.setOp o ({ · with status := .suspended })).emit (.suspended o)

/-- `await_suspend` returns false, or throws -/
def endInline (w : World) (o : Op) (r : Outcome) : World :=
  (w.setOp o ({ · with status := .finished, cancellation := none })).emit (.ended o r)

/-- `release_slots` of a read or a receive, and the resumption -/
def releaseAndResume (w : World) (s : Source) (o : Op) (r : Outcome) : World :=
  ((w.release s o).unregister o).resume o r

/-- `one_shot_callback_slot::deliver` with the `on_delivery` of the awaiter -/
def deliver (w : World) (s : Source) (r : Outcome) : World :=
  match (w.src s).slot with
  | none => w
  | some o => ((w.setSrc s ({ · with slot := none })).unregister o).resume o r

/-! ## `await_suspend` -/

/-- the awaiter of `q` before its first test -/
def begin (w : World) (q : Request) : World :=
  w.setOp q.op fun _ => { source := q.source, task := q.task }

@[simp] theorem begin_src (w : World) (q : Request) : (w.begin q).src = w.src := rfl

/-- the tests at the start of every `await_suspend` -/
def refusal (w : World) (q : Request) : Option Outcome :=
  if (w.src q.source).ownerGone || (w.src q.source).closing then some (.error .badf)
  else if !q.sameLoop then some .wrongLoop
  else if w.stopRequested q.task then some (.error .canceled)
  else none

/-- `stream_read_awaiter`: the read starts before the registration -/
def awaitRead (w : World) (q : Request) : World :=
  if (w.src q.source).slot.isSome then w.endInline q.op (.error .busy)
  else if q.size = 0 then w.endInline q.op (.error .inval)
  else if q.start < 0 then
    ((w.claim q.source q.op).release q.source q.op).endInline q.op (.error (.native q.start))
  else
    match ((w.claim q.source q.op).arm q.source).register q.op q.task with
    | (w, true) => w.suspend q.op
    | (w, false) =>
      (((w.disarm q.source).release q.source q.op).unregister q.op).endInline q.op (.error .canceled)

/-- `recv_from_awaiter`: the registration comes before the start -/
def awaitReceive (w : World) (q : Request) : World :=
  if (w.src q.source).slot.isSome then w.endInline q.op (.error .busy)
  else
    match (w.claim q.source q.op).register q.op q.task with
    | (w, false) => (w.release q.source q.op).endInline q.op (.error .canceled)
    | (w, true) =>
      if q.start < 0 then
        ((w.release q.source q.op).unregister q.op).endInline q.op (.error (.native q.start))
      else (w.arm q.source).suspend q.op

/-- the rest of the `await_suspend` of a source that is started already -/
def claimAndRegister (w : World) (q : Request) : World :=
  if (w.src q.source).slot.isSome then w.endInline q.op (.error .busy)
  else
    match (w.claim q.source q.op).register q.op q.task with
    | (w, false) => (w.release q.source q.op).endInline q.op (.error .canceled)
    | (w, true) => w.suspend q.op

/-- `signal_source::next_awaiter` -/
def awaitSignal (w : World) (q : Request) : World :=
  match (w.src q.source).pendingSignal with
  | some n =>
    (w.setSrc q.source ({ · with pendingSignal := none })).endInline q.op (.value (.signal n))
  | none => w.claimAndRegister q

/-- `fs_event_source::next_awaiter` -/
def awaitFsEvent (w : World) (q : Request) : World :=
  match (w.src q.source).pendingEvent with
  | some x => (w.setSrc q.source ({ · with pendingEvent := none })).endInline q.op (.value (.fs x))
  | none => w.claimAndRegister q

/-- `poll_source::next_awaiter`: the mask is looked at with the slot claimed -/
def awaitPoll (cfg : Config) (w : World) (q : Request) : World :=
  if (w.src q.source).slot.isSome then w.endInline q.op (.error .busy)
  else if q.events = 0 ∨ q.events &&& ~~~cfg.allowed ≠ 0 then
    ((w.claim q.source q.op).release q.source q.op).endInline q.op (.error .inval)
  else
    match (w.claim q.source q.op).register q.op q.task with
    | (w, false) => (w.release q.source q.op).endInline q.op (.error .canceled)
    | (w, true) =>
      if q.start < 0 then
        ((w.unregister q.op).release q.source q.op).endInline q.op (.error (.native q.start))
      else (w.arm q.source).suspend q.op

/-- `process::wait_awaiter` -/
def awaitExit (w : World) (q : Request) : World :=
  match (w.src q.source).exit with
  | some x => w.endInline q.op (.value (.exit x))
  | none => w.claimAndRegister q

/-- `co_await` -/
def await (cfg : Config) (w : World) (q : Request) : World :=
  match w.refusal q with
  | some r => (w.begin q).endInline q.op r
  | none =>
    match cfg.family q.source with
    | .read => (w.begin q).awaitRead q
    | .receive => (w.begin q).awaitReceive q
    | .signal => (w.begin q).awaitSignal q
    | .fsEvent => (w.begin q).awaitFsEvent q
    | .poll => (w.begin q).awaitPoll cfg q
    | .process => (w.begin q).awaitExit q

/-! ## stop -/

/-- `cancel_waiter` of the sources with a one-shot slot -/
def cancelWaiter (cfg : Config) (w : World) (s : Source) : World :=
  match cfg.family s with
  | .poll => (w.disarm s).deliver s (.error .canceled)
  | _ => w.deliver s (.error .canceled)

/-- `on_stop_requested` of the awaiter `o` -/
def onStopRequested (cfg : Config) (w : World) (o : Op) : World :=
  match cfg.family (w.op o).source with
  | .read | .receive =>
    if (w.src (w.op o).source).slot = some o then
      (w.disarm (w.op o).source).releaseAndResume (w.op o).source o (.error .canceled)
    else w
  | _ => w.cancelWaiter cfg (w.op o).source

/-- `cancellation_state::request_stop` up to its loop -/
def requestStop (w : World) (c : CancelId) : World :=
  match (w.stops c).exchange with
  | (_, false) => w
  | (t, true) => (w.setStops c t).push (.stopping c)

/-! ## the end of a source -/

/-- `uv_close` -/
def submit (w : World) (s : Source) : World :=
  w.setSrc s ({ · with submitted := true, armed := false })

/-- `request_close()` of the record -/
def requestClose (cfg : Config) (w : World) (s : Source) : World :=
  if (w.src s).closing then w
  else
    match cfg.family s with
    | .read | .receive => (w.setSrc s ({ · with closing := true })).submit s
    | .process =>
      if (w.src s).exit.isNone then w else (w.setSrc s ({ · with closing := true })).submit s
    | .poll => ((w.setSrc s ({ · with closing := true })).push (.closeTail s)).cancelWaiter cfg s
    | .signal | .fsEvent =>
      (((w.setSrc s ({ · with closing := true })).disarm s).push (.closeTail s)).cancelWaiter cfg s

/-- `request_close` after the waiter was resumed and has returned -/
def closeTail (cfg : Config) (w : World) (s : Source) : World :=
  match cfg.family s with
  | .fsEvent => (w.setSrc s ({ · with pendingEvent := none })).submit s
  | _ => w.submit s

/-- `close()` and `request_close()` of the owner: active operations are rejected -/
def ownerRequestClose (cfg : Config) (w : World) (s : Source) (other : Bool) : World :=
  if (cfg.family s).borrows ∧ ((w.src s).slot.isSome ∨ other) then w
  else w.requestClose cfg s

/-- the destructor of the owner -/
def destroy (cfg : Config) (w : World) (s : Source) (other : Bool) : World :=
  if (cfg.family s).borrows ∧ ((w.src s).slot.isSome ∨ other) then { w with terminated := true }
  else (w.setSrc s ({ · with ownerGone := true })).requestClose cfg s

/-! ## native callbacks -/

/-- `on_alloc`: that of a read dereferences the slot -/
def onAlloc (cfg : Config) (w : World) (s : Source) : World :=
  match cfg.family s, (w.src s).slot with
  | .read, none => { w with fault := true }
  | _, _ => w

def onRead (w : World) (s : Source) (nread : Int) : World :=
  match (w.src s).slot with
  | none => { w with fault := true }
  | some o =>
    if nread = 0 then w else (w.disarm s).releaseAndResume s o (.value (.count nread))

def onReceive (w : World) (s : Source) (nread : Int) (peer : Bool) (flags : BitVec 32) : World :=
  match (w.src s).slot with
  | none => w
  | some o =>
    if nread = 0 && !peer then w
    else (w.disarm s).releaseAndResume s o (.value (.datagram nread flags))

/-- `deliver_signal` -/
def onSignal (w : World) (s : Source) (signum : Nat) : World :=
  if (w.src s).closing then w
  else if (w.src s).slot.isSome then w.deliver s (.value (.signal signum))
  else w.setSrc s ({ · with pendingSignal := some signum })

/-- `deliver_event` of an fs-event source: a failure that is retained wins until it is consumed -/
def onFsEvent (w : World) (s : Source) (x : FsOutcome) : World :=
  if (w.src s).closing then w
  else
    match (w.src s).pendingEvent with
    | none =>
      if (w.src s).slot.isSome then w.deliver s (.value (.fs x))
      else w.setSrc s ({ · with pendingEvent := some x })
    | some y =>
      if y.failing then w
      else if (w.src s).slot.isSome then w.deliver s (.value (.fs x))
      else if x.failing then w.setSrc s ({ · with pendingEvent := some x })
      else w.setSrc s ({ · with pendingEvent := some (y.coalesce x) })

/-- `deliver_event` of a poll source -/
def onPoll (w : World) (s : Source) (status : Int) (events : BitVec 32) : World :=
  (w.disarm s).deliver s (.value (.ready status events))

/-- `on_exit`: without an owner the close is submitted before the waiter is resumed -/
def onExit (cfg : Config) (w : World) (s : Source) (x : ProcessExit) : World :=
  let w := w.setSrc s ({ · with exit := some x, armed := false })
  (if (w.src s).ownerGone then w.requestClose cfg s else w).deliver s (.value (.exit x))

def notify (cfg : Config) (w : World) (s : Source) : Notice → World
  | .read nread => w.onRead s nread
  | .datagram nread peer flags => w.onReceive s nread peer flags
  | .signal signum => w.onSignal s signum
  | .fsEvent filename events status throws =>
    w.onFsEvent s (.make filename events status throws)
  | .poll status events => w.onPoll s status events
  | .exit status signal => w.onExit cfg s ⟨status, signal⟩

/-- the activation on top of the stack goes on -/
def tick (cfg : Config) (w : World) : Option World :=
  match w.stack with
  | .stopping c :: k =>
    match (w.stops c).pop with
    | none => some { w with stack := k }
    | some ((o, ()), t) => some ((w.setStops c t).onStopRequested cfg o)
  | .closeTail s :: k => some ({ w with stack := k }.closeTail cfg s)
  | _ => none

end World

/-- one action; after `std::terminate` there is none -/
def step (cfg : Config) (w : World) (a : Act) : Option World :=
  if w.terminated then none
  else
    match a with
    | .enter => if w.stack = [] then some (w.push .user) else none
    | .ret =>
      match w.stack with
      | .user :: k => some { w with stack := k }
      | _ => none
    | .tick => w.tick cfg
    | .await q =>
      if foreign w.stack ∧ (w.op q.op).status = .fresh then some (w.await cfg q) else none
    | .requestStop c => if foreign w.stack then some (w.requestStop c) else none
    | .requestClose s other =>
      if foreign w.stack ∧ !(w.src s).ownerGone then some (w.ownerRequestClose cfg s other)
      else none
    | .destroy s other =>
      if foreign w.stack ∧ !(w.src s).ownerGone then some (w.destroy cfg s other) else none
    | .alloc s => if w.stack = [] ∧ (w.src s).armed then some (w.onAlloc cfg s) else none
    | .notify s n =>
      if w.stack = [] ∧ (w.src s).armed ∧ n.fits (cfg.family s) then some (w.notify cfg s n)
      else none

/-- every source is open, and started if its family starts it once -/
def init (cfg : Config) : World where
  src s := { armed := !(cfg.family s).perWait }

def sys (cfg : Config) : Sys World Act := ⟨init cfg, step cfg⟩

end Wait
