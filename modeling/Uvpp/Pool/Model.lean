import Mathlib.Logic.Function.Basic
import Uvpp.Machine.Run
import Uvpp.Cancel.Stops
import Uvpp.Core.Errno

/-!
# Requests that libuv runs on its thread pool

The coroutine operations of `fs/coroutines.hpp` (`open`, `read`, `write`, `close`) and `uv::resolve`
(`net/dns.hpp`).  Their awaiters hold the native request; a stop only asks libuv to cancel it, and
the completion callback resumes the coroutine.  A file is a `file_state` that its owner and its
operations share.

* `awaitOpen` .. `awaitResolve`    `await_suspend` of the five awaiters;
* `complete`, `deliver`            the completion callback; that of a close delivers to all
                                   awaiters in the list of the file, one by one;
* `requestNativeCancellation`      the callback of the stop registration;
* `sys`                            any number of files, owners and operations.

Libuv calls back once for every request that it accepted, from the loop.  What `uv_cancel` does to
a request shows in the status of its callback.  The awaiters in the list of a file are linked by
pointers in their coroutine frames; reading one that is gone is a `fault`.
-/

namespace Pool
open Errno

/-- a `file_state` -/
abbrev File := Nat
/-- an awaiter, which is awaited at most once -/
abbrev Op := Nat
abbrev CancelId := Nat

inductive Kind where
  | openFile
  | read
  | write
  | close
  | resolve
deriving DecidableEq

/-- the operations that use the descriptor -/
def Kind.transfers : Kind → Bool
  | .read | .write => true
  | _ => false

/-- the operations that copy a path or names -/
def Kind.copies : Kind → Bool
  | .openFile | .resolve => true
  | _ => false

structure FileState where
  descriptor : Int := -1
  /-- the first of the awaiters in the list -/
  closeWaiters : Option Op := none
  closeStatus : Int := 0
  readActive : Bool := false
  writeActive : Bool := false
  closeActive : Bool := false
  closeComplete : Bool := false
deriving DecidableEq

def FileState.isOpen (x : FileState) : Bool :=
  x.descriptor ≥ 0 && !x.closeActive && !x.closeComplete

/-- `read_active`, `write_active` -/
def FileState.active (x : FileState) : Kind → Bool
  | .read => x.readActive
  | .write => x.writeActive
  | _ => false

def FileState.setActive (x : FileState) (b : Bool) : Kind → FileState
  | .read => { x with readActive := b }
  | .write => { x with writeActive := b }
  | _ => x

inductive Status where
  | fresh
  /-- the awaiter exists, not yet awaited -/
  | made
  | suspended
  | finished
  /-- the awaiter is destroyed -/
  | gone
deriving DecidableEq

structure OpRec where
  status : Status := .fresh
  kind : Kind := .resolve
  /-- `state_` -/
  file : Option File := none
  /-- `cancellation_` -/
  cancellation : Option CancelId := none
  submitted : Bool := false
  /-- the copied path or names are there -/
  inputs : Bool := false
  /-- `waiter_.next` -/
  next : Option Op := none
  /-- `status_` -/
  code : Int := 0
  /-- the list of addresses in `completion_` -/
  addresses : Option Nat := none
deriving DecidableEq

/-- a `fs::file` object: a variable, or the one that an `open` returned -/
inductive Owner where
  | var (x : Nat)
  | result (o : Op)
deriving DecidableEq

inductive Frame where
  /-- foreign code -/
  | user
  /-- the loop of `cancellation_state::request_stop` -/
  | stopping (c : CancelId)
  /-- the loop over the awaiters of a close: the next one, and the status -/
  | delivering (f : File) (waiter : Option Op) (status : Int)
deriving DecidableEq

inductive Event where
  /-- libuv accepts the request -/
  | submitted (o : Op) (k : Kind) (f : Option File)
  /-- libuv rejects it -/
  | rejected (o : Op) (k : Kind) (f : Option File)
  | suspended (o : Op)
  /-- `uv_cancel` -/
  | cancelAsked (o : Op)
  /-- the callback of libuv -/
  | completed (o : Op) (status : Int) (addresses : Option Nat)
  /-- `uv_fs_req_cleanup` -/
  | cleanup (o : Op)
  /-- the file is returned to the coroutine -/
  | handed (o : Op) (f : Option File)
  | resumed (o : Op) (k : Kind) (f : Option File) (code : Int)
  /-- the operation ended without suspending -/
  | ended (o : Op) (k : Kind) (f : Option File) (code : Int)
  /-- `std::logic_error` -/
  | threw (o : Op)
  /-- `uv_freeaddrinfo` -/
  | freed (o : Op) (addresses : Nat)
deriving DecidableEq

structure World where
  file : File → FileState := fun _ => {}
  op : Op → OpRec := fun _ => {}
  /-- libuv has the request -/
  native : Op → Bool := fun _ => false
  /-- `state_` of an owner -/
  holds : Owner → Option File := fun _ => none
  /-- the states allocated so far -/
  made : File → Bool := fun _ => false
  stops : CancelId → Cancel.Stops Op Unit := fun _ => {}
  stack : List Frame := []
  log : List Event := []
  terminated : Bool := false
  fault : Bool := false

/-- what an awaiter is made from -/
structure Making where
  op : Op
  kind : Kind
  /-- the file of a read, a write or a close -/
  owner : Owner := .var 0
  /-- the state that an open allocates -/
  newFile : File := 0

/-- what `await_suspend` meets -/
structure Request where
  op : Op
  /-- `promise().cancellation()` -/
  task : Option CancelId
  /-- the task runs on the loop of the file -/
  sameLoop : Bool := true
  /-- the buffer is empty -/
  empty : Bool := false
  /-- what libuv returns for the request -/
  submit : Int := 0

/-- foreign code runs -/
def foreign : List Frame → Bool
  | .user :: _ => true
  | _ => false

/-- The loop runs, or a stop callback of some other operation: both may call foreign code. -/
def callable : List Frame → Bool
  | [] => true
  | .stopping _ :: _ => true
  | _ => false

namespace World

def setOp (w : World) (o : Op) (g : OpRec → OpRec) : World :=
  { w with op := Function.update w.op o (g (w.op o)) }

def setFile (w : World) (f : File) (g : FileState → FileState) : World :=
  { w with file := Function.update w.file f (g (w.file f)) }

/-- a member of `state_`; an awaiter without one is not asked for it -/
def onFile (w : World) (o : Op) (g : FileState → FileState) : World :=
  match (w.op o).file with
  | none => w
  | some f => w.setFile f g

def setNative (w : World) (o : Op) (b : Bool) : World :=
  { w with native := Function.update w.native o b }

def setStops (w : World) (c : CancelId) (t : Cancel.Stops Op Unit) : World :=
  { w with stops := Function.update w.stops c t }

def emit (w : World) (e : Event) : World := { w with log := w.log ++ [e] }

def push (w : World) (k : Frame) : World := { w with stack := k :: w.stack }

def stopRequested (w : World) : Option CancelId → Bool
  | none => false
  | some c => (w.stops c).requested

/-- `cancellation_ = promise.cancellation()` and `register_callback` -/
def register (w : World) (o : Op) : Option CancelId → World × Bool
  | none => (w, true)
  | some c =>
    ((w.setOp o ({ · with cancellation := some c })).setStops c ((w.stops c).register o ()).1,
      ((w.stops c).register o ()).2)

/-- `cancellation_->unregister(..)` and `cancellation_ = nullptr` -/
def unregister (w : World) (o : Op) : World :=
  match (w.op o).cancellation with
  | none => w
  | some c => (w.setOp o ({ · with cancellation := none })).setStops c ((w.stops c).unregister o)

def requestNativeCancellation (w : World) (o : Op) : World :=
  if (w.op o).submitted then w.emit (.cancelAsked o) else w

/-- `await_suspend` returns true -/
def suspend (w : World) (o : Op) : World :=
  (w.setOp o ({ · with status := .suspended })).emit (.suspended o)

/-- `await_suspend` returns false -/
def endInline (w : World) (o : Op) (code : Int) : World :=
  (w.setOp o ({ · with status := .finished, code := code })).emit
    (.ended o (w.op o).kind (w.op o).file code)

def reject (w : World) (o : Op) : World := w.emit (.rejected o (w.op o).kind (w.op o).file)

def throwWrongLoop (w : World) (o : Op) : World :=
  (w.setOp o ({ · with status := .finished })).emit (.threw o)

/-- `await_resume` of an open that succeeded: `file{std::move(state_)}` -/
def handOver (w : World) (o : Op) : World :=
  if (w.op o).kind = .openFile ∧ (w.op o).code ≥ 0 then
    ({ w with holds := Function.update w.holds (.result o) (w.op o).file }.setOp o
      ({ · with file := none })).emit (.handed o (w.op o).file)
  else w

/-- `continuation.resume()`, up to the code of the coroutine -/
def resume (w : World) (o : Op) : World :=
  (((w.setOp o ({ · with status := .finished })).emit
    (.resumed o (w.op o).kind (w.op o).file (w.op o).code)).handOver o).push .user

/-- the awaiter is constructed -/
def make (w : World) (m : Making) : World :=
  { w with
    op := Function.update w.op m.op
      { status := .made
        kind := m.kind
        inputs := m.kind.copies
        file :=
          match m.kind with
          | .openFile => some m.newFile
          | .resolve => none
          | _ => w.holds m.owner }
    made := if m.kind = .openFile then Function.update w.made m.newFile true else w.made }

/-- the request is libuv's: `submitted_ = true`, and the registration -/
def accepted (w : World) (q : Request) : World :=
  let w := ((w.setOp q.op ({ · with submitted := true, code := q.submit })).setNative q.op
    true).emit (.submitted q.op (w.op q.op).kind (w.op q.op).file)
  match w.register q.op q.task with
  | (w, true) => w.suspend q.op
  | (w, false) => (w.requestNativeCancellation q.op).suspend q.op

def awaitOpen (w : World) (q : Request) : World :=
  if w.stopRequested q.task then w.endInline q.op ecanceled
  else if q.submit < 0 then
    ((w.reject q.op).emit (.cleanup q.op)).endInline q.op q.submit
  else w.accepted q

def awaitResolve (w : World) (q : Request) : World :=
  if w.stopRequested q.task then w.endInline q.op ecanceled
  else if q.submit < 0 then
    ((w.reject q.op).setOp q.op ({ · with inputs := false })).endInline q.op q.submit
  else w.accepted q

/-- the awaiters of `read` and `write` -/
def awaitTransfer (w : World) (q : Request) : World :=
  match (w.op q.op).file with
  | none => w.endInline q.op ebadf
  | some f =>
    if !(w.file f).isOpen then w.endInline q.op ebadf
    else if !q.sameLoop then w.throwWrongLoop q.op
    else if w.stopRequested q.task then w.endInline q.op ecanceled
    else if q.empty then w.endInline q.op 0
    else if (w.file f).active (w.op q.op).kind then w.endInline q.op ebusy
    else
      let k := (w.op q.op).kind
      let w := w.setFile f (·.setActive true k)
      if q.submit < 0 then
        (((w.reject q.op).setFile f (·.setActive false k)).emit (.cleanup q.op)).endInline q.op
          q.submit
      else w.accepted q

/-- `add_waiter` -/
def addWaiter (w : World) (f : File) (o : Op) : World :=
  (w.setOp o ({ · with next := (w.file f).closeWaiters })).setFile f
    ({ · with closeWaiters := some o })

def awaitClose (w : World) (q : Request) : World :=
  match (w.op q.op).file with
  | none => w.endInline q.op ebadf
  | some f =>
    if !q.sameLoop then w.throwWrongLoop q.op
    else if (w.file f).closeComplete then w.endInline q.op (w.file f).closeStatus
    else if (w.file f).closeActive then (w.addWaiter f q.op).suspend q.op
    else if !(w.file f).isOpen then w.endInline q.op ebadf
    else if (w.file f).readActive || (w.file f).writeActive then w.endInline q.op ebusy
    else
      let w := (w.setFile f ({ · with closeActive := true })).addWaiter f q.op
      if q.submit < 0 then
        let w := { w.reject q.op with fault := w.fault || (w.file f).closeWaiters ≠ some q.op }
        ((w.setFile f ({ · with closeWaiters := none, closeActive := false })).emit
          (.cleanup q.op)).endInline q.op q.submit
      else
        (((w.setOp q.op ({ · with code := q.submit })).setNative q.op true).emit
          (.submitted q.op .close (some f))).suspend q.op

def await (w : World) (q : Request) : World :=
  match (w.op q.op).kind with
  | .openFile => w.awaitOpen q
  | .resolve => w.awaitResolve q
  | .read | .write => w.awaitTransfer q
  | .close => w.awaitClose q

/-- `complete` of an open, a read, a write or a resolve up to what differs -/
def settle (w : World) (o : Op) (status : Int) : World :=
  (w.unregister o).setOp o ({ · with submitted := false, code := status })

def completeOpen (w : World) (o : Op) (status : Int) : World :=
  let w := w.settle o status
  let w := if status ≥ 0 then w.onFile o ({ · with descriptor := status }) else w
  ((w.emit (.cleanup o)).setOp o ({ · with inputs := false })).resume o

def completeTransfer (w : World) (o : Op) (status : Int) : World :=
  (((w.settle o status).onFile o (·.setActive false (w.op o).kind)).emit (.cleanup o)).resume o

def completeResolve (w : World) (o : Op) (status : Int) (addresses : Option Nat) : World :=
  ((w.settle o status).setOp o ({ · with addresses := addresses, inputs := false })).resume o

def completeClose (w : World) (o : Op) (status : Int) : World :=
  match (w.op o).file with
  | none => { w with fault := true }
  | some f =>
    ((w.emit (.cleanup o)).setFile f
      ({ · with
          descriptor := -1, closeActive := false, closeComplete := true, closeStatus := status
          closeWaiters := none })).push (.delivering f (w.file f).closeWaiters status)

/-- `on_complete` -/
def complete (w : World) (o : Op) (status : Int) (addresses : Option Nat) : World :=
  let w := (w.setNative o false).emit (.completed o status addresses)
  match (w.op o).kind with
  | .openFile => w.completeOpen o status
  | .read | .write => w.completeTransfer o status
  | .resolve => w.completeResolve o status addresses
  | .close => w.completeClose o status

/-- `complete_waiter`, with the next awaiter read before -/
def deliver (w : World) (f : File) (o : Op) (status : Int) (k : List Frame) : World :=
  let w := { w with
    fault := w.fault || (w.op o).status = Status.gone
    stack := .delivering f (w.op o).next status :: k }
  (w.setOp o ({ · with code := status })).resume o

/-- `cancellation_state::request_stop` up to its loop -/
def requestStop (w : World) (c : CancelId) : World :=
  match (w.stops c).exchange with
  | (_, false) => w
  | (t, true) => (w.setStops c t).push (.stopping c)

def tick (w : World) : Option World :=
  match w.stack with
  | .stopping c :: k =>
    match (w.stops c).pop with
    | none => some { w with stack := k }
    | some ((o, ()), t) => some ((w.setStops c t).requestNativeCancellation o)
  | .delivering f waiter status :: k =>
    match waiter with
    | none => some { w with stack := k }
    | some o => some (w.deliver f o status k)
  | _ => none

/-- the awaiter is destroyed, and `completion_` with it -/
def drop (w : World) (o : Op) : World :=
  let v := w.setOp o ({ · with status := .gone })
  match (w.op o).addresses with
  | none => v
  | some a => v.emit (.freed o a)

/-- `file::reset()` -/
def reset (w : World) (x : Owner) : World :=
  match w.holds x with
  | none => w
  | some f =>
    if (w.file f).readActive || (w.file f).writeActive || (w.file f).isOpen then
      { w with terminated := true }
    else { w with holds := Function.update w.holds x none }

/-- `operator=(file &&)`; with an empty target this is the move constructor as well -/
def assign (w : World) (x y : Owner) : World :=
  if x = y then w
  else
    let w := w.reset x
    if w.terminated then w
    else { w with holds := Function.update (Function.update w.holds x (w.holds y)) y none }

/-- the object exists -/
def alive (w : World) : Owner → Bool
  | .var _ => true
  | .result o => (w.op o).status = .finished || (w.op o).status = .gone

end World

inductive Act where
  | enter
  | ret
  | tick
  | make (m : Making)
  | await (q : Request)
  | requestStop (c : CancelId)
  | assign (x y : Owner)
  | destroy (x : Owner)
  | drop (o : Op)
  /-- the loop calls the completion callback; only a resolve gets addresses -/
  | complete (o : Op) (status : Int) (addresses : Option Nat)

def step (w : World) (a : Act) : Option World :=
  if w.terminated then none
  else
    match a with
    | .enter => if callable w.stack then some (w.push .user) else none
    | .ret =>
      match w.stack with
      | .user :: k => some { w with stack := k }
      | _ => none
    | .tick => w.tick
    | .make m =>
      if foreign w.stack ∧ (w.op m.op).status = .fresh ∧
          (m.kind = .openFile → w.made m.newFile = false) then some (w.make m)
      else none
    | .await q =>
      if foreign w.stack ∧ (w.op q.op).status = .made then some (w.await q) else none
    | .requestStop c => if foreign w.stack then some (w.requestStop c) else none
    | .assign x y =>
      if foreign w.stack ∧ w.alive x ∧ w.alive y then some (w.assign x y) else none
    | .destroy x => if foreign w.stack ∧ w.alive x then some (w.reset x) else none
    | .drop o =>
      if foreign w.stack ∧ ((w.op o).status = .made ∨ (w.op o).status = .finished) then
        some (w.drop o)
      else none
    | .complete o status addresses =>
      if w.stack = [] ∧ w.native o = true ∧ ((w.op o).kind ≠ .resolve → addresses = none) then
        some (w.complete o status addresses)
      else none

def sys : Sys World Act := ⟨{}, step⟩

end Pool
