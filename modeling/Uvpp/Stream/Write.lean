import Mathlib.Logic.Function.Basic
import Uvpp.Machine.Run
import Uvpp.Close.State
import Uvpp.Core.Errno

/-!
# Stream writes and the handles they pass on

TCP and pipe connections together (`detail/stream_io.hpp`, `net/tcp_connection.hpp`,
`net/pipe_connection.hpp`), since a write on an IPC pipe may borrow a TCP connection until its
completion.  A record has one write slot (`write_active`), one read slot (`active_read`) and, for
TCP, the flag of a handle that is being passed on (`handle_export_active`).

* `awaitSuspend`        `stream_write_awaiter::await_suspend`, check by check;
* `onWrite`             the completion callback: both flags are cleared, then the writer resumed;
* `startRead`           `await_suspend` of `read_some` and of `receive_handle`;
* `ownerRequestClose`, `awaitClose`, `finishResource`, `destroy`, `initFailed`,
  `closePipeAfterProtocolFailure`   every way to `uv_close`;
* `sys cfg`             the machine: any number of records, tasks and calls.

The awaiter of a write is created and awaited in one action: it keeps the address of the record,
which outlives the owner's moves.  A resumed coroutine runs as the actions that come after its
resumption, because `on_write` and the read callbacks touch nothing once they have resumed.

libuv is the environment.  It decides the result of a submission, it calls back once for each
accepted write, at any later time, and it calls the close callback once after `uv_close`.
-/

namespace StreamWrite
open Errno

abbrev Task := Nat

/-- which connection a record is for; `ipc` is the field of `pipe_connection_state` -/
inductive Kind where
  | tcp
  | pipe (ipc : Bool)
deriving DecidableEq

/-- what never changes about the records and the tasks, by their numbers -/
structure Config where
  kind : Nat → Kind
  /-- the loop of a record -/
  loop : Nat → Nat
  /-- `execution_loop()` of a task -/
  taskLoop : Task → Nat
  /-- the limit of `check_buffer_length` -/
  maxLength : Nat

namespace Config

def isTcp (cfg : Config) (i : Nat) : Bool := decide (cfg.kind i = .tcp)

def ipc (cfg : Config) (i : Nat) : Bool := decide (cfg.kind i = .pipe true)

end Config

/-- who holds the `unique_ptr` of a record -/
inductive Owner where
  /-- the awaiter of a connect, an accept or a receive -/
  | provisional
  /-- a `tcp_connection` or `pipe_connection` -/
  | held
  | gone
deriving DecidableEq

/-- the awaiter in the read slot -/
structure Reader where
  task : Task
  /-- a `receive_handle` rather than a `read_some` -/
  receives : Bool
deriving DecidableEq

/-- `tcp_connection_state`, `pipe_connection_state` -/
structure Stream where
  close : Close.AsyncCloseState := {}
  writeActive : Bool := false
  activeRead : Option Reader := none
  handleExportActive : Bool := false
  owner : Owner := .provisional
deriving DecidableEq

/-- `closing()` -/
def Stream.closing (s : Stream) : Bool := decide (s.close.phase ≠ .opened)

/-- `stream_write_awaiter`: `state` and `pin` name records, the pin being that of a TCP record -/
structure Awaiter where
  id : Nat
  state : Option Nat
  pin : Option Nat := none
  handleSubmissionStatus : Int := 0
  pinAcquired : Bool := false
deriving DecidableEq

/-- how a call ends for its caller -/
inductive Outcome where
  | suspended
  /-- not suspended, or an exception with that code -/
  | status (s : Int)
  | logicError
  | lengthError
deriving DecidableEq

/-- what can be observed from outside -/
inductive Event where
  /-- libuv accepted write `k` on record `i`, with the record whose handle it passes on -/
  | submitted (k i : Nat) (pin : Option Nat)
  /-- call `k` was turned down -/
  | rejected (k : Nat) (o : Outcome)
  /-- libuv calls `on_write` for write `k` -/
  | completed (k : Nat) (status : Int)
  /-- the writer of `k` is resumed; the write flag and the export flag at that moment -/
  | resumed (k : Nat) (writeActive : Bool) (exportActive : Option Bool)
  /-- `uv_close` of record `i`; its export flag at that moment -/
  | uvClose (i : Nat) (exportActive : Bool)
deriving DecidableEq

structure World where
  streams : Nat → Stream := fun _ => {}
  /-- the writes libuv has accepted and not yet called back for -/
  pending : List Awaiter := []
  /-- `stop_requested()` of a task -/
  stopped : Task → Bool := fun _ => false
  /-- the number of calls so far -/
  next : Nat := 0
  /-- `std::terminate` was called -/
  terminated : Bool := false
  /-- an assertion failed, or a null record was used -/
  fault : Bool := false
  log : List Event := []

namespace World

def note (w : World) (e : Event) : World := { w with log := w.log ++ [e] }

def alter (w : World) (i : Nat) (f : Stream → Stream) : World :=
  { w with streams := Function.update w.streams i (f (w.streams i)) }

def setWrite (w : World) (i : Nat) (b : Bool) : World := w.alter i ({ · with writeActive := b })

def setRead (w : World) (i : Nat) (r : Option Reader) : World :=
  w.alter i ({ · with activeRead := r })

def setExport (w : World) (j : Nat) (b : Bool) : World :=
  w.alter j ({ · with handleExportActive := b })

def setClose (w : World) (i : Nat) (c : Close.AsyncCloseState) : World :=
  w.alter i ({ · with close := c })

/-- a call that changes nothing but tells its caller why -/
def reject (w : World) (o : Outcome) : World :=
  { w with next := w.next + 1, log := w.log ++ [.rejected w.next o] }

/-! ## Writes -/

/-- `acquire_handle_export` -/
def acquireHandleExport (w : World) (j : Nat) : World × Int :=
  if (w.streams j).closing then (w, ebadf)
  else if (w.streams j).handleExportActive then (w, ebusy)
  else (w.setExport j true, 0)

/-- `release_handle_export`, with its assertion -/
def releaseHandleExport (w : World) (j : Nat) : World :=
  { w.setExport j false with fault := w.fault || !(w.streams j).handleExportActive }

/-- `release_pin` -/
def releasePin (w : World) (x : Awaiter) : World :=
  match x.pin, x.pinAcquired with
  | some j, true => w.releaseHandleExport j
  | _, _ => w

/-- `await_suspend` from `io.write_active = true` on; `native` is the result of `uv_write` or
`uv_write2` -/
def submit (w : World) (x : Awaiter) (i : Nat) (native : Int) : World × Outcome :=
  let started := w.setWrite i true
  if native < 0 then ((started.setWrite i false).releasePin x, .status native)
  else ({ started with pending := started.pending ++ [x] }, .suspended)

/-- `stream_write_awaiter::await_suspend` for task `t` -/
def awaitSuspend (cfg : Config) (t : Task) (native : Int) (w : World) (x : Awaiter) :
    World × Outcome :=
  match x.state with
  | none => (w, .status ebadf)
  | some i =>
    if (w.streams i).closing then (w, .status ebadf)
    else if cfg.taskLoop t ≠ cfg.loop i then (w, .logicError)
    else if x.pin.any (fun j => decide (cfg.taskLoop t ≠ cfg.loop j)) then (w, .logicError)
    else if w.stopped t then (w, .status ecanceled)
    else if x.handleSubmissionStatus < 0 then (w, .status x.handleSubmissionStatus)
    else if (w.streams i).writeActive then (w, .status ebusy)
    else
      match x.pin with
      | none => w.submit x i native
      | some j =>
        let (acquired, status) := w.acquireHandleExport j
        if status < 0 then (acquired, .status status)
        else acquired.submit { x with pinAcquired := true } i native

/-- `co_await` of a write: the suspension and its entry in the history -/
def await (cfg : Config) (t : Task) (native : Int) (w : World) (x : Awaiter) : World :=
  match awaitSuspend cfg t native w x, x.state with
  | (w', .suspended), some i =>
    { w' with next := w.next + 1, log := w.log ++ [.submitted x.id i x.pin] }
  | (w', o), _ => w'.reject o

/-- `write` of a connection; `none` is an owner that was moved from -/
def write (cfg : Config) (t : Task) (state : Option Nat) (length : Nat) (native : Int)
    (w : World) : World :=
  if cfg.maxLength < length then w.reject .lengthError
  else w.await cfg t native { id := w.next, state := state }

/-- `pipe_connection::write_with_handle` -/
def writeWithHandle (cfg : Config) (t : Task) (state handle : Option Nat) (length : Nat)
    (native : Int) (w : World) : World :=
  if cfg.maxLength < length then w.reject .lengthError
  else
    match state, handle with
    | some i, some source =>
      w.await cfg t native
        { id := w.next, state := some i, pin := some source,
          handleSubmissionStatus := if cfg.ipc i then 0 else einval }
    | _, _ => w.await cfg t native { id := w.next, state := state, handleSubmissionStatus := ebadf }

/-- `on_write` up to the resumption of the writer -/
def onWrite (w : World) (x : Awaiter) : World :=
  match x.state with
  | none => { w with fault := true }
  | some i =>
    let released := (w.setWrite i false).releasePin x
    released.note (.resumed x.id (released.streams i).writeActive
      (x.pin.map fun j => (released.streams j).handleExportActive))

/-- libuv completes an accepted write -/
def complete (w : World) (x : Awaiter) (status : Int) : World :=
  onWrite { w with pending := w.pending.erase x, log := w.log ++ [.completed x.id status] } x

/-! ## Reads -/

/-- `await_suspend` of a read: `receives` tells `receive_handle` from `read_some`, `native` is the
result of `uv_read_start`; a stop of the task was seen before, so it can be registered for -/
def startRead (cfg : Config) (t : Task) (receives empty : Bool) (native : Int) (w : World) :
    Option Nat → World
  | none => w.reject (.status ebadf)
  | some i =>
    if (w.streams i).closing then w.reject (.status ebadf)
    else if cfg.taskLoop t ≠ cfg.loop i then w.reject .logicError
    else if w.stopped t then w.reject (.status ecanceled)
    else if receives && !cfg.ipc i then w.reject (.status einval)
    else if (w.streams i).activeRead.isSome then w.reject (.status ebusy)
    else if empty then w.reject (.status einval)
    else
      let started := w.setRead i (some ⟨t, receives⟩)
      if native < 0 then (started.setRead i none).reject (.status native)
      else started

/-- `request_stop` of a task: its reads give up their slot, its writes are not told -/
def stop (w : World) (t : Task) : World :=
  { w with
    stopped := Function.update w.stopped t true
    streams := fun i =>
      if (w.streams i).activeRead.any (fun r => decide (r.task = t)) then
        { w.streams i with activeRead := none }
      else w.streams i }

/-! ## Closes -/

/-- `has_active_operation` -/
def hasActiveOperation (cfg : Config) (w : World) (i : Nat) : Bool :=
  (w.streams i).writeActive || (w.streams i).activeRead.isSome ||
    (cfg.isTcp i && (w.streams i).handleExportActive)

/-- `request_close` of a record: `uv_close` once -/
def requestClose (w : World) (i : Nat) : World :=
  match (w.streams i).close.begin with
  | (c, true) => (w.setClose i c).note (.uvClose i (w.streams i).handleExportActive)
  | (_, false) => w

/-- `request_close` of an owner -/
def ownerRequestClose (cfg : Config) (w : World) : Option Nat → World
  | none => w.reject (.status ebadf)
  | some i =>
    if decide ((w.streams i).close.phase ≠ .closed) && w.hasActiveOperation cfg i then
      w.reject (.status ebusy)
    else w.requestClose i

/-- `owner_close_awaiter::await_suspend` -/
def awaitClose (cfg : Config) (t : Task) (rejectActive : Bool) (w : World) : Option Nat → World
  | none => w.reject (.status ebadf)
  | some i =>
    if cfg.taskLoop t ≠ cfg.loop i then w.reject .logicError
    else if (w.streams i).close.phase = .closed then w
    else if rejectActive && w.hasActiveOperation cfg i then w.reject (.status ebusy)
    else
      match (w.streams i).close.addWaiter t with
      | (_, false) => w
      | (c, true) => (w.setClose i c).requestClose i

/-- `finish` of a scope's record up to its suspension -/
def finishResource (cfg : Config) (t : Task) (w : World) (i : Nat) : World :=
  if w.hasActiveOperation cfg i then w.reject .logicError
  else w.awaitClose cfg t false (some i)

/-- `release_owner`; the deletion of a closed record is not needed here -/
def releaseOwner (w : World) (i : Nat) : World :=
  let released := w.alter i fun s => { s with owner := .gone, close := s.close.setOwnerReleased }
  if (w.streams i).close.phase = .opened then released.requestClose i else released

/-- `reset` of an owner: its destructor or a move assignment -/
def destroy (cfg : Config) (w : World) (i : Nat) : World :=
  if w.hasActiveOperation cfg i then { w with terminated := true } else w.releaseOwner i

/-- a failed connect, accept or receive closes the record it did not hand over;
`request_close_from_callback` keeps the coroutine `c` for the close callback -/
def initFailed (w : World) (i : Nat) (c : Task) : World :=
  let released := w.releaseOwner i
  (released.setClose i ((released.streams i).close.setCallbackWaiter c)).requestClose i

/-- `close_pipe_after_protocol_failure`, once the receiver has released the read slot -/
def closePipeAfterProtocolFailure (w : World) (i : Nat) : World :=
  let quiesced := w.setRead i none
  if (quiesced.streams i).closing then quiesced else quiesced.requestClose i

/-- every owner that is used is one that holds its record -/
def owned (w : World) (state : Option Nat) : Bool :=
  state.all fun i => decide ((w.streams i).owner = .held)

end World

open World

inductive Act where
  /-- a connect, an accept or a receive hands its record to an owner -/
  | adopt (i : Nat)
  | initFailed (i : Nat) (c : Task)
  | write (t : Task) (state : Option Nat) (length : Nat) (native : Int)
  | writeWithHandle (t : Task) (state handle : Option Nat) (length : Nat) (native : Int)
  /-- libuv calls `on_write` for write `k` -/
  | complete (k : Nat) (status : Int)
  | readSome (t : Task) (state : Option Nat) (empty : Bool) (native : Int)
  | receiveHandle (t : Task) (state : Option Nat) (empty : Bool) (native : Int)
  /-- the read in the slot ends with data, a handle, end of file or an error -/
  | onRead (i : Nat)
  /-- a receive fails in a way that closes the pipe -/
  | protocolFailure (i : Nat)
  | stop (t : Task)
  | requestClose (state : Option Nat)
  /-- `co_await connection.close()` -/
  | close (t : Task) (state : Option Nat)
  /-- the scope that owns the connection closes it -/
  | finish (t : Task) (i : Nat)
  | destroy (i : Nat)
  | closeCallback (i : Nat)
  /-- the last coroutine that waited for the close has returned -/
  | closeDelivered (i : Nat)
deriving DecidableEq

def step (cfg : Config) (w : World) (a : Act) : Option World :=
  if w.terminated then none
  else
    match a with
    | .adopt i =>
      if (w.streams i).owner = .provisional then some (w.alter i ({ · with owner := .held }))
      else none
    | .initFailed i c =>
      if (w.streams i).owner = .provisional then some (w.initFailed i c) else none
    | .write t s len native => if w.owned s then some (w.write cfg t s len native) else none
    | .writeWithHandle t s h len native =>
      if w.owned s ∧ w.owned h ∧ s.all (fun i => !cfg.isTcp i) ∧ h.all cfg.isTcp then
        some (w.writeWithHandle cfg t s h len native)
      else none
    | .complete k status =>
      (w.pending.find? fun x => x.id == k).map fun x => w.complete x status
    | .readSome t s empty native =>
      if w.owned s then some (w.startRead cfg t false empty native s) else none
    | .receiveHandle t s empty native =>
      if w.owned s ∧ s.all (fun i => !cfg.isTcp i) then
        some (w.startRead cfg t true empty native s)
      else none
    | .onRead i => if (w.streams i).activeRead.isSome then some (w.setRead i none) else none
    | .protocolFailure i =>
      if (w.streams i).activeRead.any (·.receives) then
        some (w.closePipeAfterProtocolFailure i)
      else none
    | .stop t => some (w.stop t)
    | .requestClose s => if w.owned s then some (w.ownerRequestClose cfg s) else none
    | .close t s => if w.owned s then some (w.awaitClose cfg t true s) else none
    | .finish t i => if w.owned (some i) then some (w.finishResource cfg t i) else none
    | .destroy i => if w.owned (some i) then some (w.destroy cfg i) else none
    | .closeCallback i =>
      if (w.streams i).close.phase = .closing then
        some (w.setClose i (w.streams i).close.beginComplete.1)
      else none
    | .closeDelivered i =>
      if (w.streams i).close.completionActive then
        some (w.setClose i (w.streams i).close.endComplete.1)
      else none

/-- connections of two families on any number of loops -/
def sys (cfg : Config) : Sys World Act where
  init := {}
  step := step cfg

end StreamWrite
