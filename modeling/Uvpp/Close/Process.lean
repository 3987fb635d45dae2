import Uvpp.Machine.Run
import Uvpp.Close.Settle

/-!
# `uv::process`

One `process_state` (`handles/process.hpp`) with its owner, its child and the loop thread.  It
differs from the other owners in two ways: native close may start only after the exit of the
child was reported, and `release_owner` deletes the record as soon as the phase is closed, where
the others ask `can_destroy_now()`.

`sys` is the machine: spawn, exit, wait, stop, close, move, destruction.
-/

namespace Close.Process

structure ProcessExit where
  status : Int := 0
  signal : Int := 0
deriving DecidableEq

/-- how a `wait()` ends -/
inductive WaitResult where
  | exit (x : ProcessExit)
  | badf
  | canceled
  | busy
deriving DecidableEq

/-- what a process adds to the history of its record -/
inductive ProcessEvent where
  /-- libuv reports the exit of the child -/
  | exited (x : ProcessExit)
  | waitSuspended (c : Coro)
  | waitEnded (c : Coro) (r : WaitResult)
deriving DecidableEq

/-- the side of libuv and of the child -/
inductive Child where
  /-- `uv_spawn` was not called yet -/
  | unborn
  | running
  | exited
  /-- `uv_spawn` failed -/
  | failed
deriving DecidableEq

/-- who holds the `unique_ptr` of the record -/
inductive Owner where
  | constructor
  | held (id : Nat)
  | gone
deriving DecidableEq

structure World where
  life : Life ProcessEvent := {}
  /-- the slot of the coroutine suspended in `wait()` -/
  waiter : Option Coro := none
  exit : ProcessExit := {}
  exited : Bool := false
  ownerReleased : Bool := false
  owner : Owner := .constructor
  child : Child := .unborn

inductive Act where
  | spawned (id : Nat)
  | spawnFailed
  /-- `co_await wait()`, by a task that is stopped already or not -/
  | wait (c : Coro) (stopped : Bool)
  /-- the task suspended in `wait()` is stopped -/
  | stopWait
  /-- libuv reports the exit of the child -/
  | exit (x : ProcessExit)
  | close (c : Coro)
  | requestClose
  | move (id : Nat)
  /-- the owner is destroyed or assigned to -/
  | destroy
  /-- libuv calls the close callback -/
  | closeCallback
  | tick
  | ret
deriving DecidableEq

namespace World

def hasActiveOperation (w : World) : Bool := !w.exited

/-- `request_close()` of the record -/
def requestClose (w : World) : World × Bool :=
  if !w.exited then (w, false)
  else
    match w.life.close.begin with
    | (_, false) => (w, false)
    | (_, true) => ({ w with life := w.life.beginSubmit }, true)

/-- `release_owner()`: deletes a closed record without asking whether `complete` is running -/
def releaseOwner (w : World) : World :=
  let w := { w with ownerReleased := true, life := w.life.releaseOwner }
  if !w.exited then w
  else if w.life.close.phase = .opened then w.requestClose.1
  else if w.life.close.phase = .closed then { w with life := w.life.delete }
  else w

/-- the constructor after a failed `uv_spawn`: `uv_close` without `begin()` -/
def spawnFailed (w : World) : World :=
  let w := w.releaseOwner
  { w with life := w.life.submit }

/-- `waiter.deliver(status, exit)`: the slot is emptied and the coroutine resumed -/
def deliver (w : World) (r : WaitResult) : World :=
  match w.waiter with
  | none => w
  | some c => { w with waiter := none, life := (w.life.emit (.own (.waitEnded c r))).enter }

/-- the first two lines of `on_exit`: the exit is retained -/
def retainExit (w : World) (x : ProcessExit) : World :=
  { w with exit := x, exited := true, child := .exited, life := w.life.emit (.own (.exited x)) }

/-- `on_exit`: without an owner the close is submitted before the waiter is resumed -/
def onExit (w : World) (x : ProcessExit) : World :=
  let w := w.retainExit x
  let w := if w.ownerReleased then w.requestClose.1 else w
  w.deliver (.exit w.exit)

/-- `wait_awaiter::await_suspend` -/
def awaitWait (w : World) (c : Coro) (stopped : Bool) : World :=
  let ended (r : WaitResult) := { w with life := w.life.emit (.own (.waitEnded c r)) }
  if w.life.close.phase ≠ .opened then ended .badf
  else if stopped then ended .canceled
  else if w.exited then ended (.exit w.exit)
  else if w.waiter.isSome then ended .busy
  else { w with waiter := some c, life := w.life.emit (.own (.waitSuspended c)) }

/-- `owner_close_awaiter::await_suspend`, always rejecting active operations -/
def awaitClose (w : World) (c : Coro) : World :=
  if w.life.close.phase = .closed then w
  else if w.hasActiveOperation then w
  else { w with life := w.life.suspend c }.requestClose.1

/-- `request_close()` of the owner -/
def ownerRequestClose (w : World) : World :=
  if !w.exited then w else w.requestClose.1

/-- the coroutines suspended on this record -/
def suspended (w : World) : List Coro := w.waiter.toList ++ w.life.suspended

def held (w : World) : Bool :=
  match w.owner with
  | .held _ => true
  | _ => false

end World

/-- one action; all but the last three and the exit need foreign code to run -/
def step (w : World) : Act → Option World
  | .spawned id =>
    if foreign w.life.stack ∧ w.owner = .constructor then
      some { w with owner := .held id, child := .running }
    else none
  | .spawnFailed =>
    if foreign w.life.stack ∧ w.owner = .constructor then
      some { w with owner := .gone, child := .failed }.spawnFailed
    else none
  | .wait c stopped =>
    if foreign w.life.stack ∧ w.held ∧ c ∉ w.suspended then some (w.awaitWait c stopped) else none
  | .stopWait =>
    if foreign w.life.stack ∧ w.waiter.isSome then some (w.deliver .canceled) else none
  | .exit x =>
    if w.life.stack = [] ∧ w.child = .running then some (w.onExit x)
    else none
  | .close c =>
    if foreign w.life.stack ∧ w.held ∧ c ∉ w.suspended then some (w.awaitClose c) else none
  | .requestClose =>
    if foreign w.life.stack ∧ w.held then some w.ownerRequestClose else none
  | .move id =>
    if foreign w.life.stack ∧ w.held then some { w with owner := .held id } else none
  | .destroy =>
    if foreign w.life.stack ∧ w.held then some { w with owner := .gone }.releaseOwner else none
  | .closeCallback =>
    if w.life.stack = [] ∧ w.life.inFlight then some { w with life := w.life.onClose } else none
  | .tick => w.life.tick.map fun l => { w with life := l }
  | .ret => w.life.ret.map fun l => { w with life := l }

def sys : Sys World Act := ⟨{}, step⟩

section
variable {w : World}

theorem requestClose_exited (he : w.exited = true) : w.requestClose.1 =
    if w.life.close.phase = .opened then { w with life := w.life.beginSubmit } else w := by
  unfold World.requestClose
  rw [he]
  by_cases hp : w.life.close.phase = .opened
  · rw [begin_opened hp, if_pos hp]
    rfl
  · rw [begin_claimed hp, if_neg hp]
    rfl

theorem held_iff : w.held = true ↔ ∃ id, w.owner = .held id := by
  unfold World.held
  split <;> simp_all

end

end Close.Process
