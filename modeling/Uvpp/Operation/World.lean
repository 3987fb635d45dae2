import Mathlib.Algebra.GroupWithZero.Nat
import Uvpp.Machine.Throwing

/-!
# Tasks, and the objects whose operations they await

The state of every loop at once: the tasks, the owners of native handles and files, the spawn
handles, the task scopes, the postings and the resource scopes.  Each of them has a pointer to its
loop (`World.loop`, `none` for an object that does not exist yet, or a moved-from owner).

* `Platform`     the widths of `size_t` and of `uv_buf_t::len`, with the functions of
                 `core/buffer.hpp`;
* `Object`       what has a loop;
* `Owner`        the slots, phase and close waiters of an owner;
* `Resumer`      what a suspended task waits for;
* `Transfer`     the awaiter of a transfer: the span of the caller and `bytes_transferred_`;
* `World`        all of it, with the history of the transfers.
-/

namespace Operation

abbrev LoopId := Nat
abbrev TaskId := Nat
abbrev OwnerId := Nat
abbrev RootId := Nat
abbrev ScopeId := Nat
abbrev PostingId := Nat
abbrev ResourcesId := Nat

/-! ## buffers -/

/-- the widths of `size_t` and of `native_buffer_length`, as the `static_assert` has them -/
structure Platform where
  sizeBits : Nat
  lengthBits : Nat
  narrow : lengthBits ≤ sizeBits

/-- `uv_buf_t::len` is a `ULONG` -/
def windows64 : Platform where
  sizeBits := 64
  lengthBits := 32
  narrow := by decide

/-- `uv_buf_t` -/
structure Buf where
  base : Nat
  len : Nat
deriving DecidableEq

/-- the memory of the caller -/
structure Span where
  data : Nat
  size : Nat
deriving DecidableEq

def bufferLengthFits (p : Platform) (length : Nat) : Bool := length ≤ 2 ^ p.lengthBits - 1

def makeNativeBufferUnchecked (p : Platform) (base length : Nat) : Buf where
  base := base
  len := length % 2 ^ p.lengthBits

/-! ## objects -/

inductive Object where
  | task (t : TaskId)
  | owner (o : OwnerId)
  /-- the state of a `spawn_handle` -/
  | root (h : RootId)
  | scope (s : ScopeId)
  | posting (q : PostingId)
  | resources (r : ResourcesId)
deriving DecidableEq

/-- the cancellation state of a spawned root or of a scope -/
inductive Cancel where
  | root (h : RootId)
  | scope (s : ScopeId)
deriving DecidableEq

inductive Kind where
  | tcpConnection
  | pipeConnection
  | udpSocket
  | tcpListener
  | pipeListener
  | process
  | signalSource
  | fsEventSource
  | pollSource
  | file
deriving DecidableEq

inductive Phase where
  | opened
  | closing
  | closed
deriving DecidableEq

/-- the exclusive slots of an owner: `active_read`, `active_receive` or `read_active`;
`write_active` or `send_active`; the accept claim or the waiter of a source or process -/
inductive Slot where
  | reader
  | writer
  | waiter
deriving DecidableEq

structure Owner where
  kind : Kind := .tcpConnection
  ipc : Bool := false
  phase : Phase := .opened
  /-- of a process -/
  exited : Bool := false
  /-- a notification no task waited for -/
  pending : Bool := false
  slot : Slot → Option TaskId := fun _ => none
  /-- `handle_export_active` -/
  exported : Bool := false
  closers : List TaskId := []

namespace Kind

def listens : Kind → Bool
  | .tcpListener | .pipeListener => true
  | _ => false

/-- the sources whose close cancels the wait -/
def notifies : Kind → Bool
  | .signalSource | .fsEventSource | .pollSource => true
  | _ => false

end Kind

/-- `has_active_operation` -/
def Owner.hasActiveOperation (x : Owner) : Bool :=
  match x.kind with
  | .tcpConnection | .pipeConnection | .udpSocket | .file =>
    (x.slot .reader).isSome || (x.slot .writer).isSome || x.exported
  | .process => !x.exited
  | _ => false

structure Root where
  task : Option TaskId := none
  completed : Bool := false
  joiners : List TaskId := []

structure Scope where
  children : List TaskId := []
  /-- `active_children_` -/
  active : Nat := 0
  joinStarted : Bool := false
  /-- `join_continuation_` -/
  joiner : Option TaskId := none

inductive Posting.Phase where
  | opened
  | draining
  | closed
deriving DecidableEq

structure Posting where
  phase : Posting.Phase := .opened
  closers : List TaskId := []

inductive Cleanup where
  | opened
  | active
  | finished
  | interrupted
deriving DecidableEq

structure Resources where
  state : Cleanup := .opened
  owned : List OwnerId := []

/-! ## tasks -/

/-- what resumes a suspended task -/
inductive Resumer where
  /-- a callback of the handle or of a request on it, through the slot -/
  | slot (o : OwnerId) (s : Slot)
  /-- the close callback -/
  | closing (o : OwnerId)
  /-- the callback of a handle or request of the operation itself, submitted to that loop -/
  | request (l : LoopId)
  | child (c : TaskId)
  | root (h : RootId)
  | scope (s : ScopeId)
  | posting (q : PostingId)
deriving DecidableEq

inductive Status where
  | absent
  | cold
  | running
  | suspended (r : Resumer)
  | done
deriving DecidableEq

/-- where the completion of a task without a parent goes -/
inductive Home where
  | root (h : RootId)
  | scope (s : ScopeId)
deriving DecidableEq

/-- how the region of a transfer reaches libuv -/
inductive Path where
  /-- `stream_read_awaiter::on_alloc` -/
  | stream
  /-- `receive_handle_awaiter::on_alloc` -/
  | ipc
  /-- `recv_from_awaiter::on_alloc` -/
  | datagram
  /-- with the native call -/
  | submitted
deriving DecidableEq

structure Transfer where
  number : Nat
  path : Path
  span : Span
  /-- `bytes_transferred_` -/
  taken : Nat := 0
  /-- the length of the region libuv got last and has not used yet -/
  offered : Option Nat := none

/-- what happens to the transfers, each named by its number -/
inductive Event where
  | called (n : Nat) (span : Span)
  /-- ended before any native call -/
  | refused (n : Nat)
  /-- a native call with the region -/
  | submitted (n : Nat) (buf : Buf)
  /-- `uv_read_start` or `uv_udp_recv_start` -/
  | started (n : Nat)
  /-- the region of an allocation callback -/
  | offered (n : Nat) (buf : Buf)
  /-- bytes that `receive_handle` keeps while it waits -/
  | received (n : Nat) (count : Nat)
deriving DecidableEq

def Event.number : Event → Nat
  | .called n _ | .refused n | .submitted n _ | .started n | .offered n _ | .received n _ => n

/-- libuv has seen the transfer -/
def Event.native : Event → Bool
  | .submitted _ _ | .started _ | .offered _ _ | .received _ _ => true
  | _ => false

structure World where
  loop : Object → Option LoopId := fun _ => none
  status : TaskId → Status := fun _ => .absent
  /-- `promise.cancellation()` -/
  cancel : TaskId → Option Cancel := fun _ => none
  /-- `promise.continuation()` -/
  parent : TaskId → Option TaskId := fun _ => none
  /-- the completion callback -/
  home : TaskId → Option Home := fun _ => none
  registered : TaskId → Bool := fun _ => false
  transfer : TaskId → Option Transfer := fun _ => none
  /-- the exported owner of a write -/
  pin : TaskId → Option OwnerId := fun _ => none
  owner : OwnerId → Owner := fun _ => {}
  root : RootId → Root := fun _ => {}
  scope : ScopeId → Scope := fun _ => {}
  posting : PostingId → Posting := fun _ => {}
  resources : ResourcesId → Resources := fun _ => {}
  stopped : Cancel → Bool := fun _ => false
  /-- transfers so far -/
  count : Nat := 0
  log : List Event := []

/-- the loop of what resumes a task -/
def loopOf (L : Object → Option LoopId) : Resumer → Option LoopId
  | .slot o _ => L (.owner o)
  | .closing o => L (.owner o)
  | .request l => some l
  | .child c => L (.task c)
  | .root h => L (.root h)
  | .scope s => L (.scope s)
  | .posting q => L (.posting q)

namespace World
variable (w : World)

/-- neither moved from nor closing -/
def usable (o : OwnerId) : Bool := (w.loop (.owner o)).isSome && (w.owner o).phase = .opened

def free (o : OwnerId) (s : Slot) : Bool := ((w.owner o).slot s).isNone

/-- `promise.stop_requested()` -/
def stopRequested (t : TaskId) : Bool := (w.cancel t).any w.stopped

def emit (e : Event) : World := { w with log := w.log ++ [e] }

def setOwner (o : OwnerId) (x : Owner) : World := { w with owner := Function.update w.owner o x }

def claim (o : OwnerId) (s : Slot) (t : TaskId) : World :=
  w.setOwner o { w.owner o with slot := Function.update (w.owner o).slot s (some t) }

def release (o : OwnerId) (s : Slot) : World :=
  w.setOwner o { w.owner o with slot := Function.update (w.owner o).slot s none }

def setExported (o : OwnerId) (b : Bool) : World := w.setOwner o { w.owner o with exported := b }

def setPhase (o : OwnerId) (x : Phase) : World := w.setOwner o { w.owner o with phase := x }

def setPending (o : OwnerId) (b : Bool) : World := w.setOwner o { w.owner o with pending := b }

/-- `add_waiter` -/
def addCloser (o : OwnerId) (t : TaskId) : World :=
  w.setOwner o { w.owner o with closers := (w.owner o).closers ++ [t] }

def setRoot (h : RootId) (x : Root) : World := { w with root := Function.update w.root h x }

def setScope (s : ScopeId) (x : Scope) : World := { w with scope := Function.update w.scope s x }

def setPosting (q : PostingId) (x : Posting) : World :=
  { w with posting := Function.update w.posting q x }

def setResources (r : ResourcesId) (x : Resources) : World :=
  { w with resources := Function.update w.resources r x }

/-- `register_callback`: refused once stop is requested -/
def register (t : TaskId) : World :=
  if (w.cancel t).isNone || w.stopRequested t then w
  else { w with registered := Function.update w.registered t true }

/-- the callback of a registration runs, or the registration is removed -/
def unregister (t : TaskId) : World := { w with registered := Function.update w.registered t false }

/-- the continuations are resumed: their awaiters are gone -/
def resumeAll (ts : List TaskId) : World :=
  { w with
    status := fun t => if t ∈ ts then .running else w.status t
    registered := fun t => if t ∈ ts then false else w.registered t
    transfer := fun t => if t ∈ ts then none else w.transfer t
    pin := fun t => if t ∈ ts then none else w.pin t }

def resume (t : TaskId) : World := w.resumeAll [t]

def suspend (t : TaskId) (r : Resumer) : World :=
  { w with status := Function.update w.status t (.suspended r) }

def setTransfer (t : TaskId) (x : Option Transfer) : World :=
  { w with transfer := Function.update w.transfer t x }

def setPin (t : TaskId) (x : Option OwnerId) : World := { w with pin := Function.update w.pin t x }

/-- the child that accept or `receive_handle` prepared is closed on the loop of the owner, and its
close callback resumes the task -/
def closeUntransferred (o : OwnerId) (t : TaskId) : World :=
  match w.loop (.owner o) with
  | some l => (w.unregister t).suspend t (.request l)
  | none => w

/-- `request_close` of the native state: a listener quiesces its accept, a source cancels its wait,
a process that still runs stays open -/
def requestClose (o : OwnerId) : World :=
  let x := w.owner o
  if x.phase ≠ .opened ∨ (x.kind = .process ∧ x.exited = false) then w
  else
    let w := w.setPhase o .closing
    match x.slot .waiter with
    | none => w
    | some t =>
      if x.kind.listens then (w.release o .waiter).closeUntransferred o t
      else if x.kind.notifies then (w.release o .waiter).resume t
      else w

/-- `promise.bind`, of a cold task -/
def bind (t : TaskId) (l : LoopId) (c : Option Cancel) : World :=
  { w with
    loop := Function.update w.loop (.task t) (some l)
    cancel := Function.update w.cancel t c
    status := Function.update w.status t .running }

end World

end Operation
