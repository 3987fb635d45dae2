import Mathlib.Algebra.GroupWithZero.Nat
import Uvpp.Machine.Run
import Uvpp.Close.State
import Uvpp.Core.Errno

/-!
# `pipe_connection::receive_handle`

One receive operation on an IPC pipe (`net/pipe_connection.hpp`).  It reads bytes until libuv shows
pending handles, takes all of them over as TCP connections and returns them; when one of the steps
fails it closes what it took over, and the pipe with it.

* `awaitSuspend`, `onAlloc`, `onRead`, `onStopRequested`   the awaiter;
* `adoptRound`, `adoptLoop`       the loop over the pending handles, one round and all of them;
* `finish`                        the end of `onRead`;
* `onClose`                       the close callback of a connection that was taken over.

A `Round` is what the calls of one round return.  The queue of pending handles is libuv's: it grows
when bytes are read, and `uv_accept` takes its first entry.  As long as the operation is active
nobody else may close the pipe (`request_close` refuses, `reset` terminates).
-/

namespace Receive
open Errno
open Close (AsyncCloseState)

/-- a `tcp_connection_state` -/
abbrev Handle := Nat

/-- an entry of the queue of pending handles -/
structure Pending where
  id : Nat
  /-- `uv_pipe_pending_type` is `UV_TCP` -/
  tcp : Bool
deriving DecidableEq

structure Connection where
  initialized : Bool := false
  close : AsyncCloseState := {}
  /-- `close_completion_destination` is set -/
  destination : Bool := false
  deleted : Bool := false

/-- what can fail in the loop over the pending handles -/
inductive Failure where
  | count
  | kind
  | reserve
  | allocate
  | init
  | accept (h : Handle)
deriving DecidableEq

inductive Event where
  /-- the part of the buffer that libuv gets -/
  | offered (offset length : Nat)
  /-- a read notification, and the handles that came with it -/
  | read (n : Int) (arrived : List Pending)
  | initialised (h : Handle)
  | accepted (h : Handle) (p : Pending)
  | failed (x : Failure)
  | uvClose (h : Handle)
  | uvClosePipe
  /-- the close callback -/
  | closed (h : Handle)
  | suspended
  /-- the coroutine goes on, with the connections that are returned -/
  | resumed (code : Int) (hs : List Handle)
  /-- the operation ended without suspending -/
  | ended (code : Int)
  | threw
deriving DecidableEq

inductive Status where
  | fresh
  | suspended
  | over
deriving DecidableEq

structure Config where
  /-- `buffer_.size()` -/
  size : Nat
  /-- the width of the native length type -/
  lengthBits : Nat
  /-- the queue of the pipe at the start -/
  pending : List Pending := []

structure World where
  size : Nat
  lengthBits : Nat
  pending : List Pending
  /-- between `uv_read_start` and `uv_read_stop` -/
  reading : Bool := false
  /-- the length that libuv may fill -/
  offer : Option Nat := none
  /-- `close` of the pipe -/
  pipe : AsyncCloseState := {}
  /-- `io.active_read` is this operation -/
  activeRead : Bool := false
  status : Status := .fresh
  /-- `status_` -/
  code : Int := 0
  bytesTransferred : Nat := 0
  incoming : Option Handle := none
  received : List Handle := []
  /-- `received_.capacity()` -/
  capacity : Nat := 0
  closePipe : Bool := false
  continuation : Option Nat := none
  provisionalCloseRequired : Bool := false
  provisionalCloseCompleted : Bool := false
  cancellation : Bool := false
  registered : Bool := false
  conn : Handle → Connection := fun _ => {}
  /-- the next connection that is allocated -/
  next : Handle := 0
  log : List Event := []
  fault : Bool := false

/-- what `await_suspend` meets -/
structure Request where
  /-- `state_` is null or closing -/
  unusable : Bool := false
  sameLoop : Bool := true
  /-- `promise().stop_requested()` -/
  stopped : Bool := false
  ipc : Bool := true
  /-- another read is active -/
  busy : Bool := false
  /-- `make_unique` succeeds -/
  allocates : Bool := true
  /-- `uv_read_start` -/
  start : Int := 0
  /-- the task has a cancellation state -/
  cancellable : Bool := true

/-- what one round of the loop meets -/
structure Round where
  /-- an error `-(n + 1)` of `uv_pipe_pending_count` -/
  countError : Option Nat := none
  reserves : Bool := true
  allocates : Bool := true
  /-- `uv_tcp_init` -/
  init : Int := 0
  /-- `uv_accept` -/
  accept : Int := 0

namespace World

def emit (w : World) (e : Event) : World := { w with log := w.log ++ [e] }

def setConn (w : World) (h : Handle) (g : Connection → Connection) : World :=
  { w with conn := Function.update w.conn h (g (w.conn h)) }

/-! ## Connections -/

/-- `request_close` of a connection -/
def requestClose (w : World) (h : Handle) : World :=
  match (w.conn h).close.begin with
  | (s, true) => (w.setConn h ({ · with close := s })).emit (.uvClose h)
  | (_, false) => w

def requestCloseFromCallback (w : World) (h : Handle) (continuation : Option Nat) : World :=
  (w.setConn h fun x =>
    { x with close := { x.close with callbackWaiter := continuation } }).requestClose h

def releaseOwner (w : World) (h : Handle) : World :=
  let w := w.setConn h fun x => { x with close := x.close.setOwnerReleased }
  if (w.conn h).close.phase = .opened then w.requestClose h
  else if (w.conn h).close.canDestroyNow then w.setConn h ({ · with deleted := true })
  else w

/-- `request_close` of the pipe -/
def requestClosePipe (w : World) : World :=
  match w.pipe.begin with
  | (s, true) => { w with pipe := s }.emit .uvClosePipe
  | (_, false) => w

/-! ## The awaiter -/

/-- `await_suspend` returns false -/
def endInline (w : World) (code : Int) : World :=
  { w with status := .over, code := code }.emit (.ended code)

def stopNative (w : World) : World := { w with reading := false, offer := none }

def releaseSlots (w : World) : World :=
  { w with
    activeRead := false
    registered := if w.cancellation then false else w.registered
    cancellation := false }

/-- `continuation.resume()` and `await_resume` -/
def resume (w : World) (continuation : Option Nat) : World :=
  { w with
    status := .over
    fault := w.fault || continuation.isNone ||
      (w.provisionalCloseRequired && !w.provisionalCloseCompleted) ||
      (w.received.isEmpty && 0 ≤ w.code)
    received := if w.code < 0 then w.received else [] }.emit
    (.resumed w.code (if w.code < 0 then [] else w.received))

def awaitSuspend (w : World) (q : Request) : World :=
  if q.unusable then w.endInline ebadf
  else if !q.sameLoop then { w with status := .over }.emit .threw
  else if q.stopped then w.endInline ecanceled
  else if !q.ipc then w.endInline einval
  else if q.busy then w.endInline ebusy
  else if w.size = 0 then w.endInline einval
  else if !q.allocates then { w with status := .over }.emit .threw
  else
    let w := { w with
      incoming := some w.next, next := w.next + 1, continuation := some 0, activeRead := true }
    if q.start < 0 then { w with activeRead := false, continuation := none }.endInline q.start
    else
      -- nobody stopped the task in the meantime, so the registration succeeds
      { w with
        reading := true, code := q.start, status := .suspended, cancellation := q.cancellable
        registered := q.cancellable }.emit .suspended

def onAlloc (w : World) : World :=
  let length := (w.size - w.bytesTransferred) % 2 ^ w.lengthBits
  { w with offer := some length }.emit (.offered w.bytesTransferred length)

/-! ## The loop over the pending handles -/

def fail (w : World) (x : Failure) (code : Int) : World :=
  { w with code := code, closePipe := true }.emit (.failed x)

/-- `std::move(incoming_)`, or a new connection -/
def candidate (w : World) (allocates : Bool) : Option (World × Handle) :=
  match w.incoming with
  | some h => some ({ w with incoming := none }, h)
  | none => if allocates then some ({ w with next := w.next + 1 }, w.next) else none

/-- `uv_tcp_init`, `uv_accept` and the end of the round -/
def acceptInto (w : World) (h : Handle) (p : Pending) (rest : List Pending) (r : Round) :
    World × Option Bool :=
  if r.init < 0 then ({ w.fail .init r.init with incoming := some h }, some true)
  else
    let w := (w.setConn h ({ · with initialized := true })).emit (.initialised h)
    if r.accept < 0 then ({ w.fail (.accept h) r.accept with incoming := some h }, some true)
    else
      ({ w with
          code := r.accept
          pending := rest
          received := w.received ++ [h]
          fault := w.fault || w.capacity ≤ w.received.length }.emit (.accepted h p), none)

/-- a round after the room for its connection is reserved -/
def adoptNext (w : World) (p : Pending) (rest : List Pending) (r : Round) : World × Option Bool :=
  match w.candidate r.allocates with
  | none => (w.fail .allocate enomem, some true)
  | some (w, h) => w.acceptInto h p rest r

/-- one round: what `adopt_pending_tcp` returns, or nothing if the loop goes on -/
def adoptRound (w : World) (adopted : Bool) (r : Round) : World × Option Bool :=
  match r.countError with
  | some n => (w.fail .count (-(n + 1)), some true)
  | none =>
    match w.pending with
    | [] => ({ w with code := 0 }, some adopted)
    | p :: rest =>
      let needed := w.received.length + (rest.length + 1)
      if !p.tcp then (w.fail .kind eproto, some true)
      else if w.capacity < needed && !r.reserves then (w.fail .reserve enomem, some true)
      else { w with capacity := max w.capacity needed }.adoptNext p rest r

/-- `for (;;)`, at most `fuel` rounds of it -/
def adoptLoop : Nat → (Nat → Round) → World → Bool → Option (World × Bool)
  | 0, _, _, _ => none
  | fuel + 1, rounds, w, adopted =>
    match w.adoptRound adopted (rounds 0) with
    | (w, some b) => some (w, b)
    | (w, none) => adoptLoop fuel (fun i => rounds (i + 1)) w true

/-- as many rounds as handles are pending, and one that finds none -/
def adoptPendingTcp (w : World) (rounds : Nat → Round) : Option (World × Bool) :=
  adoptLoop (w.pending.length + 1) rounds w false

/-! ## The end -/

/-- `received_.clear()`, the destructor of each connection -/
def discardReceived (w : World) : World :=
  { w.received.foldl releaseOwner w with received := [] }

def closeUntransferred (w : World) (h : Handle) (continuation : Option Nat) : World :=
  let w := { w with incoming := none, provisionalCloseRequired := true }
  ((w.setConn h ({ · with destination := true })).releaseOwner h).requestCloseFromCallback h
    continuation

/-- the connection in `incoming_`, if it is initialised -/
def untransferred (w : World) : Option Handle := w.incoming.filter fun h => (w.conn h).initialized

/-- `close_pipe_after_protocol_failure`, if `close_pipe_` is set -/
def closeFailedPipe (w : World) : World := if w.closePipe then w.requestClosePipe else w

/-- `stop_native_or_terminate`, `release_slots` and the exchange of the continuation -/
def detach (w : World) : World := { w.stopNative.releaseSlots with continuation := none }

/-- the end of `on_read` after that -/
def conclude (w : World) (continuation : Option Nat) : World :=
  if w.code < 0 then
    match w.untransferred with
    | some h => w.closeFailedPipe.discardReceived.closeUntransferred h continuation
    | none => w.closeFailedPipe.discardReceived.resume continuation
  else w.resume continuation

def finish (w : World) : World := w.detach.conclude w.continuation

def onRead (w : World) (n : Int) (arrived : List Pending) (rounds : Nat → Round) : Option World :=
  let w := { w with pending := w.pending ++ arrived, offer := none, code := n }.emit (.read n arrived)
  if 0 < n then
    let w := { w with bytesTransferred := w.bytesTransferred + n.toNat }
    match w.adoptPendingTcp rounds with
    | none => none
    | some (w, true) => some w.finish
    | some (w, false) =>
      if w.bytesTransferred = w.size then some { w with code := enobufs }.finish else some w
  else if n = 0 then
    match w.adoptPendingTcp rounds with
    | none => none
    | some (w, true) => some w.finish
    | some (w, false) => some w
  else some w.finish

def onStopRequested (w : World) : World :=
  if !w.activeRead then w
  else { w with code := ecanceled }.detach.resume w.continuation

/-- `on_close` of a connection; `complete` resumes the coroutines that wait -/
def onClose (w : World) (h : Handle) : World :=
  let w := w.emit (.closed h)
  let w := if (w.conn h).destination then { w with provisionalCloseCompleted := true } else w
  let (s, waiters) := (w.conn h).close.beginComplete
  let w := w.setConn h fun x => { x with destination := false, close := s }
  let w := waiters.foldl (fun w c => w.resume (some c)) w
  match (w.conn h).close.endComplete with
  | (_, true) => w.setConn h ({ · with deleted := true })
  | (s, false) => w.setConn h ({ · with close := s })

end World

inductive Act where
  | await (q : Request)
  | alloc
  | read (n : Int) (arrived : List Pending) (rounds : Nat → Round)
  | stop
  | closeCallback (h : Handle)

/-- libuv reads no more than it was offered -/
def step (w : World) : Act → Option World
  | .await q => if w.status = .fresh then some (w.awaitSuspend q) else none
  | .alloc => if w.reading then some w.onAlloc else none
  | .read n arrived rounds =>
    if w.reading ∧ (0 < n → ∃ l ∈ w.offer, n ≤ l) then w.onRead n arrived rounds else none
  | .stop => if w.registered then some { w with registered := false }.onStopRequested else none
  | .closeCallback h => if (w.conn h).close.phase = .closing then some (w.onClose h) else none

def sys (cfg : Config) : Sys World Act :=
  ⟨{ size := cfg.size, lengthBits := cfg.lengthBits, pending := cfg.pending }, step⟩

end Receive
