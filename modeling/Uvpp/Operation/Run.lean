import Uvpp.Machine.Run
import Uvpp.Operation.Awaiters

/-!
# Runs of tasks on their loops

Any number of loops, tasks and objects.  A step is one action of a running task, or one callback of
libuv on the object it belongs to; which one comes next is open.  A step of libuv is possible only
where libuv may do it: a read delivers at most as many bytes as the region it was offered.

* `await`        a task awaits an operation;
* `onAlloc`      the allocation callbacks of the three awaiters;
* `settleHandle` how `receive_handle` goes on after a read;
* `finalSuspend` a task completes: its parent, its joiners or the joiner of its scope go on;
* `sys`          the machine.
-/

namespace Operation
open Throwing

/-- what `adopt_pending_tcp` finds -/
inductive Pending where
  | none
  | adopted
  /-- it fails and the pipe is closed; a connection may be initialised already -/
  | broken (initialized : Bool)
deriving DecidableEq

inductive Action where
  | construct (o : OwnerId) (k : Kind) (l : LoopId) (ipc : Bool)
  | makeScope (s : ScopeId) (l : LoopId)
  | makePosting (q : PostingId) (l : LoopId)
  | makeResources (r : ResourcesId) (l : LoopId)
  /-- a coroutine is called -/
  | create (t : TaskId)
  /-- `co::spawn` -/
  | spawn (l : LoopId) (t : TaskId) (h : RootId)
  | awaitChild (t c : TaskId)
  | await (t : TaskId) (op : Op) (a : Answers)
  /-- by a task, or by code outside of any task -/
  | call (t : Option TaskId) (c : Call)
  /-- `finish_impl` leaves its loop -/
  | finished (r : ResourcesId) (ok : Bool)
  | finalSuspend (t : TaskId) (failed : Bool)
  /-- a registered stop callback runs -/
  | stopCallback (t : TaskId)
  | alloc (o : OwnerId)
  | read (o : OwnerId) (nread : Int)
  | readHandle (o : OwnerId) (nread : Int) (pending : Pending)
  | receive (o : OwnerId) (nread : Int) (peer : Bool)
  /-- a write, send or file request is complete -/
  | complete (o : OwnerId) (s : Slot)
  /-- a connection, a notification, or the exit of a process -/
  | deliver (o : OwnerId) (ok : Bool)
  /-- the callback of the task's own handle or request -/
  | ended (t : TaskId)
  | closed (o : OwnerId)
  | drained (q : PostingId)

/-- libuv reads at most as much as the region it was offered last -/
def Transfer.delivers (x : Transfer) (nread : Int) : Bool :=
  nread ≤ 0 || x.offered.any (fun len : Nat => nread ≤ len)

namespace World
variable (w : World)

/-- the history names the transfer before its awaiter starts -/
def begin (op : Op) : World :=
  { w with
    count := w.count + 1
    log := w.log ++ (op.region.toList.map fun x => .called w.count x.1) }

/-- how `await_suspend` left things -/
def settle (t : TaskId) (n : Nat) (op : Op) : Except Exit Resumer → World
  | .ok r =>
    (w.suspend t r).setTransfer t
      (op.region.map fun x => { number := n, path := x.2, span := x.1 })
  | .error e =>
    if e.early then { w with log := w.log ++ (op.region.toList.map fun _ => .refused n) } else w

def await (p : Platform) (t : TaskId) (op : Op) (a : Answers) : World :=
  let r := exec (op.body p t w.count a) (w.begin op)
  r.2.settle t w.count op r.1

/-- a cold task starts on the loop and with the cancellation of the parent -/
def awaitChild (t c : TaskId) (l : LoopId) : World :=
  { (w.bind c l (w.cancel t)).suspend t (.child c) with
    parent := Function.update w.parent c (some t) }

def spawn (l : LoopId) (t : TaskId) (h : RootId) : World :=
  { w.bind t l (some (.root h)) with
    loop := Function.update (Function.update w.loop (.task t) (some l)) (.root h) (some l)
    home := Function.update w.home t (some (.root h))
    root := Function.update w.root h { task := some t } }

/-! ## callbacks -/

/-- the region that the allocation callback of the awaiter returns -/
def onAlloc (p : Platform) (x : Transfer) : Buf :=
  match x.path with
  | .ipc => makeNativeBufferUnchecked p (x.span.data + x.taken) (x.span.size - x.taken)
  | _ => makeNativeBufferUnchecked p x.span.data x.span.size

def offer (p : Platform) (t : TaskId) (x : Transfer) : World :=
  (w.emit (.offered x.number (onAlloc p x))).setTransfer t
    (some { x with offered := some (onAlloc p x).len })

/-- the active read of an owner -/
def reading (o : OwnerId) : Option (TaskId × Transfer) :=
  ((w.owner o).slot .reader).bind fun t => (w.transfer t).map fun x => (t, x)

/-- the slot is released before the task goes on -/
def finishRead (o : OwnerId) (t : TaskId) : World := (w.release o .reader).resume t

/-- `receive_handle` counts the bytes it keeps -/
def keep (t : TaskId) (x : Transfer) (count : Nat) : World :=
  (w.emit (.received x.number count)).setTransfer t
    (some { x with taken := x.taken + count, offered := none })

/-- `on_read` of `receive_handle`, once the bytes are counted; `full` when the buffer has no room
left -/
def settleHandle (o : OwnerId) (t : TaskId) (full : Bool) : Pending → World
  | .none => if full then w.finishRead o t else w
  | .adopted => w.finishRead o t
  | .broken initialized =>
    if initialized then
      (((w.release o .reader).requestClose o).setTransfer t none).closeUntransferred o t
    else ((w.release o .reader).requestClose o).resume t

/-- `stream_read_awaiter::on_read` -/
def onRead (o : OwnerId) (t : TaskId) (x : Transfer) (nread : Int) : World :=
  if nread = 0 then w.setTransfer t (some { x with offered := none }) else w.finishRead o t

/-- `receive_handle_awaiter::on_read` -/
def onReadHandle (o : OwnerId) (t : TaskId) (x : Transfer) (nread : Int) (pending : Pending) : World :=
  if 0 < nread then
    (w.keep t x nread.toNat).settleHandle o t (x.taken + nread.toNat = x.span.size) pending
  else if nread = 0 then
    (w.setTransfer t (some { x with offered := none })).settleHandle o t false pending
  else w.finishRead o t

/-- `recv_from_awaiter::on_receive` -/
def onReceive (o : OwnerId) (t : TaskId) (x : Transfer) (nread : Int) (peer : Bool) : World :=
  if nread = 0 ∧ peer = false then w.setTransfer t (some { x with offered := none })
  else w.finishRead o t

/-- a stop request reaches the awaiter: reads and waits end, an accept closes its child first, and
what only asked libuv to cancel goes on waiting -/
def stop (t : TaskId) : World :=
  match w.status t with
  | .suspended (.slot o .reader) =>
    if (w.owner o).kind = .file then w.unregister t else w.finishRead o t
  | .suspended (.slot o .waiter) =>
    if (w.owner o).kind.listens then (w.release o .waiter).closeUntransferred o t
    else (w.release o .waiter).resume t
  | _ => w.unregister t

/-- the exported owner of a write is released with it -/
def unpin (t : TaskId) : World :=
  match w.pin t with
  | none => w
  | some h => w.setExported h false

def completeRequest (o : OwnerId) (s : Slot) (t : TaskId) : World :=
  ((w.release o s).unpin t).resume t

/-- a process that exits stays exited -/
def noteExit (o : OwnerId) : World :=
  if (w.owner o).kind = .process then w.setOwner o { w.owner o with exited := true } else w

/-- an event nobody waits for stays pending -/
def deliverTo (o : OwnerId) (ok : Bool) : World :=
  let x := w.owner o
  let w := w.noteExit o
  match x.slot .waiter with
  | none => if x.kind = .signalSource ∨ x.kind = .fsEventSource then w.setPending o true else w
  | some t =>
    if x.kind.listens && !ok then (w.release o .waiter).closeUntransferred o t
    else (w.release o .waiter).resume t

def closedOwner (o : OwnerId) : World :=
  (w.setOwner o { w.owner o with phase := .closed, closers := [] }).resumeAll (w.owner o).closers

def closedPosting (q : PostingId) : World :=
  (w.setPosting q { phase := .closed }).resumeAll (w.posting q).closers

def completeRoot (h : RootId) : World :=
  (w.setRoot h { w.root h with completed := true, joiners := [] }).resumeAll (w.root h).joiners

/-- a failure stops the siblings -/
def noteFailure (s : ScopeId) (failed : Bool) : World :=
  if failed then { w with stopped := Function.update w.stopped (.scope s) true } else w

/-- the last child resumes the joiner, which destroys the frames of all -/
def completeChild (s : ScopeId) (failed : Bool) : World :=
  let x := w.scope s
  let w := w.noteFailure s failed
  match x.joiner with
  | some t =>
    if x.active = 1 then
      (w.setScope s { x with active := 0, joiner := none, children := [] }).resume t
    else w.setScope s { x with active := x.active - 1 }
  | none => w.setScope s { x with active := x.active - 1 }

def finalSuspend (t : TaskId) (failed : Bool) : World :=
  let w := { w with status := Function.update w.status t .done }
  match w.parent t with
  | some q => w.resume q
  | none =>
    match w.home t with
    | some (.root h) => w.completeRoot h
    | some (.scope s) => w.completeChild s failed
    | none => w

end World

def step (p : Platform) (w : World) : Action → Option World
  | .construct o k l ipc =>
    if w.loop (.owner o) = none then
      some { w with
        loop := Function.update w.loop (.owner o) (some l)
        owner := Function.update w.owner o { kind := k, ipc := ipc } }
    else none
  | .makeScope s l =>
    if w.loop (.scope s) = none then
      some { w with
        loop := Function.update w.loop (.scope s) (some l)
        scope := Function.update w.scope s {} }
    else none
  | .makePosting q l =>
    if w.loop (.posting q) = none then
      some { w with
        loop := Function.update w.loop (.posting q) (some l)
        posting := Function.update w.posting q {} }
    else none
  | .makeResources r l =>
    if w.loop (.resources r) = none then
      some { w with
        loop := Function.update w.loop (.resources r) (some l)
        resources := Function.update w.resources r {} }
    else none
  | .create t =>
    if w.status t = .absent then some { w with status := Function.update w.status t .cold } else none
  | .spawn l t h =>
    if w.status t = .cold ∧ w.loop (.root h) = none then some (w.spawn l t h) else none
  | .awaitChild t c =>
    match w.loop (.task t) with
    | none => none
    | some l =>
      if w.status t = .running ∧ w.status c = .cold then some (w.awaitChild t c l) else none
  | .await t op a =>
    if w.status t = .running ∧ op.typed w ∧ op.region.all (fun x => x.1.size < 2 ^ p.sizeBits) then
      some (w.await p t op a)
    else none
  | .call t c =>
    if t.all (fun t => w.status t = .running) then some (exec c.body w).2 else none
  | .finished r ok =>
    if (w.resources r).state = .active then
      some (w.setResources r { w.resources r with state := if ok then .finished else .interrupted })
    else none
  | .finalSuspend t failed =>
    if w.status t = .running then some (w.finalSuspend t failed) else none
  | .stopCallback t =>
    if w.registered t ∧ w.stopRequested t then some (w.stop t) else none
  | .alloc o =>
    match w.reading o with
    -- `recv_from` without an active receive offers no memory at all
    | none => if (w.owner o).kind = .udpSocket then some w else none
    | some (t, x) => if x.path ≠ .submitted then some (w.offer p t x) else none
  | .read o nread =>
    match w.reading o with
    | none => none
    | some (t, x) =>
      if x.path = .stream ∧ x.delivers nread then some (w.onRead o t x nread) else none
  | .readHandle o nread pending =>
    match w.reading o with
    | none => none
    | some (t, x) =>
      if x.path = .ipc ∧ x.delivers nread then some (w.onReadHandle o t x nread pending) else none
  | .receive o nread peer =>
    match w.reading o with
    | none => if (w.owner o).kind = .udpSocket then some w else none
    | some (t, x) =>
      if x.path = .datagram ∧ x.delivers nread then some (w.onReceive o t x nread peer) else none
  | .complete o s =>
    match (w.owner o).slot s with
    | none => none
    | some t =>
      if s = .writer ∨ ((w.owner o).kind = .file ∧ s = .reader) then
        some (w.completeRequest o s t)
      else none
  | .deliver o ok =>
    if w.usable o then some (w.deliverTo o ok) else none
  | .ended t =>
    match w.status t with
    | .suspended (.request _) => some (w.resume t)
    | _ => none
  | .closed o => if (w.owner o).phase = .closing then some (w.closedOwner o) else none
  | .drained q => if (w.posting q).phase = .draining then some (w.closedPosting q) else none

def sys (p : Platform) : Sys World Action where
  init := {}
  step := step p

end Operation
