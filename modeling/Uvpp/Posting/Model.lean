import Mathlib.Logic.Function.Basic
import Uvpp.Machine.Run
import Uvpp.Callback.Slot

/-!
# `loop_posting`

The queue through which any thread hands callables to the loop thread (`loop_posting.hpp`).  Every
thread has a call stack of its own; the mutex has an owner; a critical section is entered, gone
through and left in steps of its own, so that the other threads interleave everywhere.

* `Config`      capacity and drain budget, both nonzero as the constructor asks;
* `State`       the fields of `loop_posting_state`, what libuv holds of its async handle, and the
                history;
* `State.admits`, `State.take`, `State.settle`, ...   what the critical sections do;
* `World`       the state, the mutex, the stacks of all threads, and the failure handler;
* `sys cfg`     the machine.

A callable gets its number when `post` has the mutex and looks at the queue: the numbers are in the
order of these looks.
-/

namespace Posting

/-- a suspended coroutine -/
abbrev Coro := Nat

/-- a failure handler -/
abbrev Handler := Nat

abbrev Tid := Nat

/-- the thread that runs the loop -/
def loopThread : Tid := 0

structure Config where
  capacity : Nat
  drainBudget : Nat
  capacity_pos : 0 < capacity
  drainBudget_pos : 0 < drainBudget

inductive Phase where
  | opened
  | draining
  | closing
  | closed
deriving DecidableEq

/-- why a callable was not accepted -/
inductive Reason where
  /-- `UV_ECANCELED` -/
  | canceled
  /-- `UV_EAGAIN` -/
  | again
  /-- `uv_async_send` failed -/
  | sendFailed
  /-- the queue could not grow -/
  | noMemory
deriving DecidableEq

inductive Event where
  | accepted (x : Nat)
  | rejected (x : Nat) (r : Reason)
  | invoked (x : Nat)
  /-- an accepted callable is destroyed -/
  | destroyed (x : Nat)
  /-- a rejected callable is destroyed -/
  | discarded (x : Nat)
  /-- `request_close` has the mutex -/
  | closeRequested
  /-- `uv_async_send` is called -/
  | sent
  /-- `uv_close` is called -/
  | uvClose
  /-- libuv calls the close callback -/
  | closeCallback
  | waiterRegistered (c : Coro)
  | waiterResumed (c : Coro)
deriving DecidableEq

structure State where
  phase : Phase := .opened
  queue : List Nat := []
  batch : List Nat := []
  closeWaiters : List Coro := []
  activeBatches : Nat := 0
  /-- the async handle is pending: its callback has not started since the last send -/
  pending : Bool := false
  /-- libuv has the close and has not called back yet -/
  closeInFlight : Bool := false
  /-- the callables that `post` has looked at are `0 .. offered-1` -/
  offered : Nat := 0
  log : List Event := []

namespace State

def emit (s : State) (e : Event) : State := { s with log := s.log ++ [e] }

/-- the checks of `post`: why the callable is not put into the queue -/
def admits (cfg : Config) (s : State) : Option Reason :=
  if s.phase ≠ .opened then some .canceled
  else if s.queue.length = cfg.capacity then some .again
  else none

def refuse (s : State) (r : Reason) : State :=
  { s with offered := s.offered + 1 }.emit (.rejected s.offered r)

def push (s : State) : State :=
  { s with queue := s.queue ++ [s.offered], offered := s.offered + 1 }

/-- `uv_async_send` succeeds in `post` -/
def sendAccepted (s : State) (x : Nat) : State :=
  ({ s with pending := true }.emit .sent).emit (.accepted x)

/-- `uv_async_send` fails in `post`; the callable leaves the queue afterwards -/
def sendFailed (s : State) : State := s.emit .sent

def rollback (s : State) (x : Nat) : State :=
  { s with queue := s.queue.dropLast }.emit (.rejected x .sendFailed)

/-- the first critical section of `drain` -/
def take (cfg : Config) (s : State) : State :=
  let count := min cfg.drainBudget s.queue.length
  let batch := s.batch ++ s.queue.take count
  { s with
    batch := batch
    queue := s.queue.drop count
    activeBatches := if batch = [] then s.activeBatches else s.activeBatches + 1 }

def beginCloseIfDrained (s : State) : State :=
  if s.phase ≠ .draining ∨ s.queue ≠ [] ∨ s.activeBatches ≠ 0 then s
  else { s with phase := .closing, closeInFlight := true }.emit .uvClose

/-- the second critical section of `drain`, when `uv_async_send` does not fail -/
def settle (s : State) (hadWork : Bool) : State :=
  let s := { s with activeBatches := if hadWork then s.activeBatches - 1 else s.activeBatches }
  let s := if s.queue ≠ [] then { s with pending := true }.emit .sent else s
  s.beginCloseIfDrained

def requestClose (s : State) : State :=
  let phase := if s.phase = .opened then Phase.draining else s.phase
  ({ s with phase := phase }.emit .closeRequested).beginCloseIfDrained

/-- `add_close_waiter` before the close is complete -/
def addCloseWaiter (s : State) (c : Coro) : State :=
  { s with closeWaiters := s.closeWaiters ++ [c] }.emit (.waiterRegistered c)

/-- the critical section of `on_close` -/
def close (s : State) : State := { s with phase := .closed, closeWaiters := [] }

end State

/-- where an activation of `post` is -/
inductive PostAt where
  | lock
  | check
  | send (x : Nat)
  | rollback (x : Nat)
  | unlock (rejected : Option Nat)
deriving DecidableEq

/-- where an activation of `drain` is -/
inductive DrainAt where
  | lock
  | take
  /-- closing or closed: the mutex is released and `drain` returns -/
  | leave
  | unlockBatch
  /-- the next callable is the one at index `i` of the batch -/
  | invoke (hadWork : Bool) (i : Nat)
  | clear (hadWork : Bool)
  | relock (hadWork : Bool)
  | settle (hadWork : Bool)
  | unlock
deriving DecidableEq

/-- where an activation of `request_close` is -/
inductive CloseAt where
  | lock
  | body
  | unlock
deriving DecidableEq

/-- where an activation of `close_awaiter::await_suspend` is -/
inductive AwaitAt where
  | lock
  | body
  | unlock (registered : Bool)
deriving DecidableEq

/-- where an activation of `on_close` is, with the waiters it has moved out -/
inductive OnCloseAt where
  | lock
  | body
  | unlock (waiters : List Coro)
  /-- the failure handler is replaced by an empty one -/
  | reset (waiters : List Coro)
  | resume (waiters : List Coro)
deriving DecidableEq

inductive Frame where
  /-- foreign code: a producer, a destructor of captures, a resumed coroutine, the application -/
  | user
  /-- a posted callable runs -/
  | callable (x : Nat)
  /-- the failure handler runs, begun at a generation of its slot -/
  | failureHandler (g : Nat) (c : Handler)
  | post (pc : PostAt)
  | drain (pc : DrainAt)
  | requestClose (pc : CloseAt)
  | awaitClose (c : Coro) (pc : AwaitAt)
  | onClose (pc : OnCloseAt)
deriving DecidableEq

namespace Frame

/-- the activation holds the mutex -/
def critical : Frame → Bool
  | .post .lock => false
  | .post _ => true
  | .drain .take | .drain .leave | .drain .unlockBatch | .drain (.settle _) | .drain .unlock => true
  | .requestClose .body | .requestClose .unlock => true
  | .awaitClose _ .body | .awaitClose _ (.unlock _) => true
  | .onClose .body | .onClose (.unlock _) => true
  | _ => false

/-- user code -/
def foreign : Frame → Bool
  | .user | .callable _ | .failureHandler _ _ => true
  | _ => false

end Frame

/-- user code runs on the thread: nothing is on its stack, or user code is on top -/
def foreign : List Frame → Bool
  | [] => true
  | f :: _ => f.foreign

structure World where
  state : State := {}
  mutex : Option Tid := none
  stack : Tid → List Frame := fun _ => []
  slot : Callback.Slot Handler := {}
  terminated : Bool := false

inductive Act where
  /-- foreign code is called on the thread `t` -/
  | enter (t : Tid)
  /-- the foreign code on top of the stack of `t` returns -/
  | ret (t : Tid)
  /-- the callable or failure handler on top of the loop thread throws -/
  | raise
  /-- foreign code of `t` posts a callable -/
  | post (t : Tid)
  | requestClose
  /-- the coroutine `c` on top of the loop thread awaits `close()` -/
  | awaitClose (c : Coro)
  | setFailureHandler (c : Option Handler)
  /-- libuv calls the callback of the pending async handle -/
  | asyncCallback
  /-- libuv calls the close callback -/
  | closeCallback
  /-- the activation on top of the stack of `t` goes on -/
  | tick (t : Tid)
  /-- the same, and the allocation or `uv_async_send` that it makes fails -/
  | fail (t : Tid)
deriving DecidableEq

namespace World

/-- the thread `t` goes on with the state `s` and the stack `k` -/
def go (w : World) (t : Tid) (s : State) (k : List Frame) : World :=
  { w with state := s, stack := Function.update w.stack t k }

/-- the thread `t` takes the mutex, when it is free -/
def lock (w : World) (t : Tid) (k : List Frame) : Option World :=
  if w.mutex = none then some { w.go t w.state k with mutex := some t } else none

def unlock (w : World) (t : Tid) (s : State) (k : List Frame) : World :=
  { w.go t s k with mutex := none }

/-- `post`, on top of `k` -/
def post (cfg : Config) (w : World) (t : Tid) (k : List Frame) : PostAt → Option World
  | .lock => w.lock t (.post .check :: k)
  | .check =>
    match w.state.admits cfg with
    | some r => some (w.go t (w.state.refuse r) (.post (.unlock (some w.state.offered)) :: k))
    | none => some (w.go t w.state.push (.post (.send w.state.offered) :: k))
  | .send x => some (w.go t (w.state.sendAccepted x) (.post (.unlock none) :: k))
  | .rollback x => some (w.go t (w.state.rollback x) (.post (.unlock (some x)) :: k))
  | .unlock none => some (w.unlock t w.state k)
  | .unlock (some x) =>
    -- the rejected callable is destroyed without the mutex
    some (w.unlock t (w.state.emit (.discarded x)) (.user :: k))

/-- `drain`, on top of `k` -/
def drain (cfg : Config) (w : World) (t : Tid) (k : List Frame) : DrainAt → Option World
  | .lock => w.lock t (.drain .take :: k)
  | .take =>
    if w.state.phase = .closing ∨ w.state.phase = .closed then
      some (w.go t w.state (.drain .leave :: k))
    else some (w.go t (w.state.take cfg) (.drain .unlockBatch :: k))
  | .leave => some (w.unlock t w.state k)
  | .unlockBatch => some (w.unlock t w.state (.drain (.invoke (!w.state.batch.isEmpty) 0) :: k))
  | .invoke had i =>
    match w.state.batch[i]? with
    | some x =>
      some (w.go t (w.state.emit (.invoked x)) (.callable x :: .drain (.invoke had (i + 1)) :: k))
    | none => some (w.go t w.state (.drain (.clear had) :: k))
  | .clear had =>
    match w.state.batch with
    | x :: rest =>
      some (w.go t ({ w.state with batch := rest }.emit (.destroyed x))
        (.user :: .drain (.clear had) :: k))
    | [] => some (w.go t w.state (.drain (.relock had) :: k))
  | .relock had => w.lock t (.drain (.settle had) :: k)
  | .settle had => some (w.go t (w.state.settle had) (.drain .unlock :: k))
  | .unlock => some (w.unlock t w.state k)

/-- `request_close`, on top of `k` -/
def requestClose (w : World) (t : Tid) (k : List Frame) : CloseAt → Option World
  | .lock => w.lock t (.requestClose .body :: k)
  | .body => some (w.go t w.state.requestClose (.requestClose .unlock :: k))
  | .unlock => some (w.unlock t w.state k)

/-- `close_awaiter::await_suspend`, on top of `k`: `add_close_waiter` and then `request_close` -/
def awaitClose (w : World) (t : Tid) (c : Coro) (k : List Frame) : AwaitAt → Option World
  | .lock => w.lock t (.awaitClose c .body :: k)
  | .body =>
    if w.state.phase = .closed then some (w.go t w.state (.awaitClose c (.unlock false) :: k))
    else some (w.go t (w.state.addCloseWaiter c) (.awaitClose c (.unlock true) :: k))
  | .unlock true => some (w.unlock t w.state (.requestClose .lock :: k))
  | .unlock false => some (w.unlock t w.state (.user :: k))

/-- `on_close`, on top of `k` -/
def onClose (w : World) (t : Tid) (k : List Frame) : OnCloseAt → Option World
  | .lock => w.lock t (.onClose .body :: k)
  | .body => some (w.go t w.state.close (.onClose (.unlock w.state.closeWaiters) :: k))
  | .unlock ws => some (w.unlock t w.state (.onClose (.reset ws) :: k))
  | .reset ws =>
    -- the captures of the old handler are destroyed
    some { w.go t w.state (.user :: .onClose (.resume ws) :: k) with slot := w.slot.replace none }
  | .resume (c :: ws) =>
    some (w.go t (w.state.emit (.waiterResumed c)) (.user :: .onClose (.resume ws) :: k))
  | .resume [] => some (w.go t w.state k)

/-- the callable or failure handler on top of the loop thread throws: `report_failure` up to the
call of the handler; a handler that throws terminates -/
def raise (w : World) : Option World :=
  match w.stack loopThread with
  | .callable _ :: k =>
    match w.slot.beginInvoke with
    | (_, none) => some { w with terminated := true }
    | (s, some c) =>
      some { w.go loopThread w.state (.failureHandler w.slot.generation c :: k) with slot := s }
  | .failureHandler _ _ :: _ => some { w with terminated := true }
  | _ => none

def ret (w : World) (t : Tid) : Option World :=
  match w.stack t with
  | .user :: k => some (w.go t w.state k)
  | .callable _ :: k => some (w.go t w.state k)
  | .failureHandler g c :: k =>
    some { w.go t w.state k with slot := w.slot.endInvoke c g }
  | _ => none

end World

/-- the activation on top of the stack of `t` goes on -/
def tick (cfg : Config) (w : World) (t : Tid) : Option World :=
  match w.stack t with
  | .post pc :: k => w.post cfg t k pc
  | .drain pc :: k => w.drain cfg t k pc
  | .requestClose pc :: k => w.requestClose t k pc
  | .awaitClose c pc :: k => w.awaitClose t c k pc
  | .onClose pc :: k => w.onClose t k pc
  | _ => none

/-- the activation on top of the stack of `t` goes on, and what it asks for fails -/
def fail (cfg : Config) (w : World) (t : Tid) : Option World :=
  match w.stack t with
  | .post .check :: k =>
    if w.state.admits cfg = none then
      some (w.go t (w.state.refuse .noMemory) (.post (.unlock (some w.state.offered)) :: k))
    else none
  | .post (.send x) :: k => some (w.go t w.state.sendFailed (.post (.rollback x) :: k))
  | .drain (.settle _) :: _ =>
    if w.state.queue ≠ [] then some { w with terminated := true } else none
  | .awaitClose c .body :: k =>
    -- the list of waiters cannot grow: `await_suspend` throws and the coroutine goes on
    if w.state.phase ≠ .closed then some (w.go t w.state (.awaitClose c (.unlock false) :: k))
    else none
  | _ => none

def step (cfg : Config) (w : World) (a : Act) : Option World :=
  if w.terminated then none
  else match a with
  | .enter t => if foreign (w.stack t) then some (w.go t w.state (.user :: w.stack t)) else none
  | .ret t => w.ret t
  | .raise => w.raise
  | .post t =>
    if foreign (w.stack t) then some (w.go t w.state (.post .lock :: w.stack t)) else none
  | .requestClose =>
    if foreign (w.stack loopThread) then
      some (w.go loopThread w.state (.requestClose .lock :: w.stack loopThread))
    else none
  | .awaitClose c =>
    match w.stack loopThread with
    | .user :: k => some (w.go loopThread w.state (.awaitClose c .lock :: k))
    | _ => none
  | .setFailureHandler c =>
    if foreign (w.stack loopThread) then some { w with slot := w.slot.replace c } else none
  | .asyncCallback =>
    -- the loop is not run recursively: its callbacks start on an empty stack
    if w.stack loopThread = [] ∧ w.state.pending then
      some (w.go loopThread { w.state with pending := false } [.drain .lock])
    else none
  | .closeCallback =>
    if w.stack loopThread = [] ∧ w.state.closeInFlight then
      some (w.go loopThread ({ w.state with closeInFlight := false }.emit .closeCallback)
        [.onClose .lock])
    else none
  | .tick t => tick cfg w t
  | .fail t => fail cfg w t

/-- the machine of one `loop_posting` -/
def sys (cfg : Config) : Sys World Act := ⟨{}, step cfg⟩

end Posting
