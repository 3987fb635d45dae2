import Uvpp.Operation.World
import Uvpp.Core.Errno

/-!
# What a task does when it awaits an operation

`await_suspend` of every awaiter, in the order of its checks, with the factory or constructor in
front of it where that one throws.  A command returns what the task now waits for, or leaves with an
`Exit`: an exception, or a result at once.  What it did before it left stays done.

* `enter`                 the three checks that the operations of an owner begin with;
* `readSome`, ...         the operations;
* `Op`, `Op.body`         all of them;
* `Call`, `Call.body`     the calls that are not awaited.

`a : Answers` are the return codes of the native calls and whether memory was there.
-/

namespace Operation
open Errno Throwing

inductive Exit where
  /-- `std::logic_error`: used from a different loop -/
  | affinity
  /-- any other `std::logic_error` -/
  | misuse
  | lengthError
  | badAlloc
  | status (c : Int)
  /-- the result is there at once -/
  | ready
  /-- the native call failed -/
  | native (c : Int)
  /-- the cancellation registration failed after the native call -/
  | withdrawn
deriving DecidableEq

/-- before any native call of the operation -/
def Exit.early : Exit → Bool
  | .native _ | .withdrawn => false
  | _ => true

structure Answers where
  native : Int := 0
  /-- of the second native call, if there are two -/
  second : Int := 0
  memory : Bool := true

/-! ## the steps of an awaiter -/

def require (b : World → Bool) (e : Exit) : Cmd Exit World Unit := fun w =>
  if b w then (.ok (), w) else (.error e, w)

/-- the loop pointer of an object; `execution_loop()` throws for a task that was never bound -/
def loopAt (e : Object) : Cmd Exit World LoopId := fun w =>
  match w.loop e with
  | some l => (.ok l, w)
  | none => (.error .misuse, w)

/-- `&continuation.promise().execution_loop() != state_->loop` throws -/
def sameLoop (t : TaskId) (e : Object) : Cmd Exit World Unit := do
  let l ← loopAt (.task t)
  require (fun w => w.loop e = some l) .affinity

def checkBufferLength (p : Platform) (length : Nat) : Cmd Exit World Unit :=
  require (fun _ => bufferLengthFits p length) .lengthError

/-- a native call, and what is taken back when it fails -/
def native (code : Int) (undo : World → World) : Cmd Exit World Unit := fun w =>
  if code < 0 then (.error (.native code), undo w) else (.ok (), w)

/-- `register_callback`, and what is taken back when it fails -/
def registerOr (t : TaskId) (e : Exit) (undo : World → World) : Cmd Exit World Unit := fun w =>
  if w.stopRequested t then (.error e, undo w) else (.ok (), w.register t)

def notStopped (t : TaskId) : Cmd Exit World Unit :=
  require (fun w => !w.stopRequested t) (.status ecanceled)

/-- open, of the same loop, not stopped -/
def enter (t : TaskId) (o : OwnerId) : Cmd Exit World Unit := do
  require (·.usable o) (.status ebadf)
  sameLoop t (.owner o)
  notStopped t

/-! ## operations with a handle or request of their own -/

/-- a timer whose start failed is closed, and its close callback resumes the task -/
def sleep (t : TaskId) (a : Answers) : Cmd Exit World Resumer := do
  notStopped t
  let l ← loopAt (.task t)
  native a.native id
  if a.second < 0 then return .request l
  modify (·.register t)
  return .request l

/-- `resolve_awaiter` and `detail_open_awaiter` -/
def submit (t : TaskId) (a : Answers) : Cmd Exit World Resumer := do
  notStopped t
  let l ← loopAt (.task t)
  native a.native id
  modify (·.register t)
  return .request l

/-- whether the connect request was accepted or not, a callback of the new handle resumes the task -/
def connect (t : TaskId) (a : Answers) : Cmd Exit World Resumer := do
  notStopped t
  require (fun _ => a.memory) .badAlloc
  let l ← loopAt (.task t)
  native a.native id
  return .request l

/-! ## streams and datagrams -/

def readSome (t : TaskId) (o : OwnerId) (n : Nat) (span : Span) (a : Answers) :
    Cmd Exit World Resumer := do
  enter t o
  require (·.free o .reader) (.status ebusy)
  require (fun _ => span.size ≠ 0) (.status einval)
  modify (·.claim o .reader t)
  modify (·.emit (.started n))
  native a.native (·.release o .reader)
  registerOr t .withdrawn (·.release o .reader)
  return .slot o .reader

/-- `acquire_handle_export` -/
def acquireExport (h : OwnerId) : Cmd Exit World Unit := do
  require (fun w => (w.owner h).phase = .opened) (.status ebadf)
  require (fun w => !(w.owner h).exported) (.status ebusy)
  modify (·.setExported h true)

/-- `stream_write_awaiter`, with the owner that is passed and the status of the factory -/
def streamWrite (p : Platform) (t : TaskId) (o : OwnerId) (n : Nat) (span : Span)
    (pin : Option OwnerId) (submission : Int) (a : Answers) : Cmd Exit World Resumer := do
  require (·.usable o) (.status ebadf)
  sameLoop t (.owner o)
  match pin with
  | none =>
    notStopped t
    require (fun _ => 0 ≤ submission) (.status submission)
    require (·.free o .writer) (.status ebusy)
    modify (·.claim o .writer t)
    modify (·.emit (.submitted n (makeNativeBufferUnchecked p span.data span.size)))
    native a.native (·.release o .writer)
    return .slot o .writer
  | some h =>
    sameLoop t (.owner h)
    notStopped t
    require (fun _ => 0 ≤ submission) (.status submission)
    require (·.free o .writer) (.status ebusy)
    acquireExport h
    modify (·.claim o .writer t)
    modify (·.emit (.submitted n (makeNativeBufferUnchecked p span.data span.size)))
    native a.native fun w => (w.release o .writer).setExported h false
    modify (·.setPin t (some h))
    return .slot o .writer

def write (p : Platform) (t : TaskId) (o : OwnerId) (n : Nat) (span : Span) (a : Answers) :
    Cmd Exit World Resumer := do
  checkBufferLength p span.size
  streamWrite p t o n span none 0 a

def writeWithHandle (p : Platform) (t : TaskId) (o h : OwnerId) (n : Nat) (span : Span)
    (a : Answers) : Cmd Exit World Resumer := do
  checkBufferLength p span.size
  let w ← get
  if (w.loop (.owner o)).isNone || (w.loop (.owner h)).isNone then
    streamWrite p t o n span none ebadf a
  else
    streamWrite p t o n span (some h) (if (w.owner o).ipc then 0 else einval) a

def receiveHandle (t : TaskId) (o : OwnerId) (n : Nat) (span : Span) (a : Answers) :
    Cmd Exit World Resumer := do
  enter t o
  require (fun w => (w.owner o).ipc) (.status einval)
  require (·.free o .reader) (.status ebusy)
  require (fun _ => span.size ≠ 0) (.status einval)
  require (fun _ => a.memory) .badAlloc
  modify (·.claim o .reader t)
  modify (·.emit (.started n))
  native a.native (·.release o .reader)
  registerOr t .withdrawn (·.release o .reader)
  return .slot o .reader

/-- an empty buffer is not refused, and the registration comes first -/
def recvFrom (t : TaskId) (o : OwnerId) (n : Nat) (a : Answers) : Cmd Exit World Resumer := do
  enter t o
  require (·.free o .reader) (.status ebusy)
  modify (·.claim o .reader t)
  registerOr t (.status ecanceled) (·.release o .reader)
  modify (·.emit (.started n))
  native a.native fun w => (w.release o .reader).unregister t
  return .slot o .reader

def sendTo (p : Platform) (t : TaskId) (o : OwnerId) (n : Nat) (span : Span) (a : Answers) :
    Cmd Exit World Resumer := do
  checkBufferLength p span.size
  enter t o
  require (·.free o .writer) (.status ebusy)
  modify (·.claim o .writer t)
  modify (·.emit (.submitted n (makeNativeBufferUnchecked p span.data span.size)))
  native a.native (·.release o .writer)
  return .slot o .writer

/-! ## files -/

/-- `detail_read_awaiter` and `detail_write_awaiter`: the constructor checks the length -/
def fileTransfer (s : Slot) (p : Platform) (t : TaskId) (o : OwnerId) (n : Nat) (span : Span)
    (a : Answers) : Cmd Exit World Resumer := do
  checkBufferLength p span.size
  enter t o
  require (fun _ => span.size ≠ 0) .ready
  require (·.free o s) (.status ebusy)
  modify (·.claim o s t)
  modify (·.emit (.submitted n (makeNativeBufferUnchecked p span.data span.size)))
  native a.native (·.release o s)
  modify (·.register t)
  return .slot o s

def readFile := fileTransfer .reader
def writeFile := fileTransfer .writer

/-- a close that is under way gets one waiter more -/
def closeFile (t : TaskId) (o : OwnerId) (a : Answers) : Cmd Exit World Resumer := do
  require (fun w => (w.loop (.owner o)).isSome) (.status ebadf)
  sameLoop t (.owner o)
  require (fun w => (w.owner o).phase ≠ .closed) .ready
  let w ← get
  if (w.owner o).phase = .closing then
    modify (·.addCloser o t)
    return .closing o
  require (fun w => !(w.owner o).hasActiveOperation) (.status ebusy)
  modify (·.setPhase o .closing)
  modify (·.addCloser o t)
  native a.native fun w => w.setOwner o { w.owner o with phase := .opened, closers := [] }
  return .closing o

/-! ## accept and the waits -/

/-- the new connection is initialised on the loop of the listener before the claim -/
def accept (t : TaskId) (o : OwnerId) (a : Answers) : Cmd Exit World Resumer := do
  enter t o
  require (·.free o .waiter) (.status ebusy)
  require (fun _ => a.memory) .badAlloc
  let l ← loopAt (.owner o)
  native a.native id
  modify (·.claim o .waiter t)
  let w ← get
  if w.stopRequested t then
    modify (·.release o .waiter)
    return .request l
  modify (·.register t)
  return .slot o .waiter

def wait (t : TaskId) (o : OwnerId) : Cmd Exit World Resumer := do
  enter t o
  require (fun w => !(w.owner o).exited) .ready
  require (·.free o .waiter) (.status ebusy)
  modify (·.claim o .waiter t)
  registerOr t (.status ecanceled) (·.release o .waiter)
  return .slot o .waiter

/-- `next()` of a signal or file event source -/
def next (t : TaskId) (o : OwnerId) : Cmd Exit World Resumer := do
  enter t o
  let w ← get
  if (w.owner o).pending then
    modify (·.setPending o false)
    throw .ready
  require (·.free o .waiter) (.status ebusy)
  modify (·.claim o .waiter t)
  registerOr t (.status ecanceled) (·.release o .waiter)
  return .slot o .waiter

/-- `next()` of a poll source; the flags are checked while the slot is held -/
def nextPoll (t : TaskId) (o : OwnerId) (valid : Bool) (a : Answers) : Cmd Exit World Resumer := do
  enter t o
  require (·.free o .waiter) (.status ebusy)
  modify (·.claim o .waiter t)
  if !valid then
    modify (·.release o .waiter)
    throw (.status einval)
  registerOr t (.status ecanceled) (·.release o .waiter)
  native a.native fun w => (w.unregister t).release o .waiter
  return .slot o .waiter

/-! ## closes and joins -/

/-- `owner_close_awaiter` -/
def close (t : TaskId) (o : OwnerId) (reject : Bool) : Cmd Exit World Resumer := do
  require (fun w => (w.loop (.owner o)).isSome) (.status ebadf)
  sameLoop t (.owner o)
  require (fun w => (w.owner o).phase ≠ .closed) .ready
  require (fun w => !(reject && (w.owner o).hasActiveOperation)) (.status ebusy)
  modify (·.addCloser o t)
  modify (·.requestClose o)
  return .closing o

def requestDrain (q : PostingId) (w : World) : World :=
  if (w.posting q).phase = .opened then w.setPosting q { w.posting q with phase := .draining } else w

def closePosting (t : TaskId) (q : PostingId) : Cmd Exit World Resumer := do
  sameLoop t (.posting q)
  require (fun w => (w.posting q).phase ≠ .closed) .ready
  modify fun w => w.setPosting q { w.posting q with closers := (w.posting q).closers ++ [t] }
  modify (requestDrain q)
  return .posting q

def join (t : TaskId) (h : RootId) : Cmd Exit World Resumer := do
  sameLoop t (.root h)
  require (fun w => !(w.root h).completed) .ready
  modify fun w => w.setRoot h { w.root h with joiners := (w.root h).joiners ++ [t] }
  return .root h

def joinScope (t : TaskId) (s : ScopeId) : Cmd Exit World Resumer := do
  sameLoop t (.scope s)
  require (fun w => !(w.scope s).joinStarted) .misuse
  modify fun w => w.setScope s { w.scope s with joinStarted := true }
  let w ← get
  if (w.scope s).active = 0 then
    modify fun w => w.setScope s { w.scope s with children := [] }
    throw .ready
  modify fun w => w.setScope s { w.scope s with joiner := some t }
  return .scope s

/-- the start of `finish_impl`; the closes of the records are operations of their own -/
def finish (t : TaskId) (r : ResourcesId) : Cmd Exit World Resumer := do
  sameLoop t (.resources r)
  require (fun w => (w.resources r).state ≠ .active) .misuse
  require (fun w => (w.resources r).state ≠ .finished) .ready
  modify fun w => w.setResources r { w.resources r with state := .active }
  throw .ready

/-! ## all operations -/

inductive Op where
  | sleep
  | resolve
  | openFile
  | connect
  | readSome (o : OwnerId) (span : Span)
  | write (o : OwnerId) (span : Span)
  | writeWithHandle (o h : OwnerId) (span : Span)
  | receiveHandle (o : OwnerId) (span : Span)
  | recvFrom (o : OwnerId) (span : Span)
  | sendTo (o : OwnerId) (span : Span)
  | readFile (o : OwnerId) (span : Span)
  | writeFile (o : OwnerId) (span : Span)
  | closeFile (o : OwnerId)
  | accept (o : OwnerId)
  | wait (o : OwnerId)
  | next (o : OwnerId)
  | nextPoll (o : OwnerId) (valid : Bool)
  | close (o : OwnerId) (reject : Bool)
  | closePosting (q : PostingId)
  | join (h : RootId)
  | joinScope (s : ScopeId)
  | finish (r : ResourcesId)

namespace Op

def body (p : Platform) (t : TaskId) (n : Nat) (a : Answers) : Op → Cmd Exit World Resumer
  | .sleep => Operation.sleep t a
  | .resolve => submit t a
  | .openFile => submit t a
  | .connect => Operation.connect t a
  | .readSome o span => Operation.readSome t o n span a
  | .write o span => Operation.write p t o n span a
  | .writeWithHandle o h span => Operation.writeWithHandle p t o h n span a
  | .receiveHandle o span => Operation.receiveHandle t o n span a
  | .recvFrom o _ => Operation.recvFrom t o n a
  | .sendTo o span => Operation.sendTo p t o n span a
  | .readFile o span => Operation.readFile p t o n span a
  | .writeFile o span => Operation.writeFile p t o n span a
  | .closeFile o => Operation.closeFile t o a
  | .accept o => Operation.accept t o a
  | .wait o => Operation.wait t o
  | .next o => Operation.next t o
  | .nextPoll o valid => Operation.nextPoll t o valid a
  | .close o reject => Operation.close t o reject
  | .closePosting q => Operation.closePosting t q
  | .join h => Operation.join t h
  | .joinScope s => Operation.joinScope t s
  | .finish r => Operation.finish t r

/-- the span of a transfer and how it reaches libuv -/
def region : Op → Option (Span × Path)
  | .readSome _ span => some (span, .stream)
  | .receiveHandle _ span => some (span, .ipc)
  | .recvFrom _ span => some (span, .datagram)
  | .write _ span | .writeWithHandle _ _ span | .sendTo _ span | .readFile _ span
  | .writeFile _ span => some (span, .submitted)
  | _ => none

/-- the objects of the operation -/
def objects : Op → List Object
  | .sleep | .resolve | .openFile | .connect => []
  | .writeWithHandle o h _ => [.owner o, .owner h]
  | .readSome o _ | .write o _ | .receiveHandle o _ | .recvFrom o _ | .sendTo o _ | .readFile o _
  | .writeFile o _ | .closeFile o | .accept o | .wait o | .next o | .nextPoll o _ | .close o _ =>
    [.owner o]
  | .closePosting q => [.posting q]
  | .join h => [.root h]
  | .joinScope s => [.scope s]
  | .finish r => [.resources r]

/-- the types of the objects, as the compiler checks them -/
def typed (w : World) : Op → Bool
  | .readSome o _ | .write o _ => (w.owner o).kind ∈ [.tcpConnection, .pipeConnection]
  | .writeWithHandle o h _ =>
    (w.owner o).kind = .pipeConnection && (w.owner h).kind = .tcpConnection
  | .receiveHandle o _ => (w.owner o).kind = .pipeConnection
  | .recvFrom o _ | .sendTo o _ => (w.owner o).kind = .udpSocket
  | .readFile o _ | .writeFile o _ | .closeFile o => (w.owner o).kind = .file
  | .accept o => (w.owner o).kind.listens
  | .wait o => (w.owner o).kind = .process
  | .next o => (w.owner o).kind ∈ [.signalSource, .fsEventSource]
  | .nextPoll o _ => (w.owner o).kind = .pollSource
  | .close o _ => (w.owner o).kind ≠ .file
  | _ => true

end Op

/-! ## calls that are not awaited -/

inductive Call where
  /-- `request_close()` of an owner -/
  | requestClose (o : OwnerId)
  /-- `loop_posting::request_close()` -/
  | requestDrain (q : PostingId)
  /-- `task_scope::spawn` -/
  | spawn (s : ScopeId) (c : TaskId)
  /-- `resource_scope::own` -/
  | own (r : ResourcesId) (o : OwnerId)
  | requestStop (c : Cancel)

namespace Call

def body : Call → Cmd Exit World Unit
  | .requestClose o => do
    require (fun w => (w.loop (.owner o)).isSome) (.status ebadf)
    require (fun w => (w.owner o).phase = .closed || !(w.owner o).hasActiveOperation) (.status ebusy)
    modify (·.requestClose o)
  | .requestDrain q => modify (Operation.requestDrain q)
  | .spawn s c => do
    require (fun w => !(w.scope s).joinStarted) .misuse
    require (fun w => w.status c = .cold) .misuse
    let l ← loopAt (.scope s)
    modify fun w => w.bind c l (some (.scope s))
    modify fun w =>
      { w with
        home := Function.update w.home c (some (.scope s))
        scope := Function.update w.scope s
          { w.scope s with
            children := (w.scope s).children ++ [c]
            active := (w.scope s).active + 1 } }
  | .own r o => do
    require (fun w => (w.resources r).state = .opened) .misuse
    let l ← loopAt (.resources r)
    require (fun w => w.loop (.owner o) = some l) .affinity
    modify fun w => w.setResources r { w.resources r with owned := (w.resources r).owned ++ [o] }
  | .requestStop c => modify fun w => { w with stopped := Function.update w.stopped c true }

end Call

end Operation
