import Mathlib.Logic.Function.Basic
import Uvpp.Machine.Run
import Uvpp.Cancel.Stops
import Uvpp.Callback.Slot

/-!
# `spawn` and `spawn_handle`

All roots spawned on one loop (`co/task.hpp`), their handles, and the policy for unobserved
failures (`core/loop.hpp`).  The execution state of a root is shared between its public handle,
its completion baton and the join awaiters; the `shared_ptr` of the handle is only ever moved, from
the local of `spawn` to a handle, from handle to handle, and into the local of `release()`.

* `Root`                         the shared state of a root, its frame, and the references to it;
* `World.collect`                a reference was dropped: the last one destroys state and frame;
* `World.release`, `World.report`, `World.deliver`   the functions of `spawn_handle`;
* `sys c`                        the machine of a loop that starts with the handler `c`;
* `step_cases`                   what a step can do.

Where a function calls foreign code, the rest of it waits on the call stack as a `Frame`.  Using
the state of a root after its destruction is a `fault`.  Foreign code may destroy a handle inside
the `release()` of its own `operator=`, and fill it again inside that of its destructor.
-/

namespace Spawn

/-- an exception -/
abbrev Exc := Nat

/-- a suspended coroutine that joins a root -/
abbrev Coro := Nat

/-- an unobserved-failure handler -/
abbrev Handler := Nat

/-- the coroutine frame of a root -/
inductive Body where
  | unborn
  | running
  | suspended
  /-- suspended at its final suspend point -/
  | final
  | destroyed
deriving DecidableEq

/-- the shared state of a root, with its frame and the references to it -/
structure Root where
  frame : Body := .unborn
  /-- the exception in the promise -/
  failure : Option Exc := none
  /-- a root is suspended in one operation at a time; what its stop callback does is foreign code -/
  stops : Cancel.Stops Unit Unit := {}
  joiners : List Coro := []
  completed : Bool := false
  publicHandleAbandoned : Bool := false
  failureObserved : Bool := false
  failureReported : Bool := false
  /-- the reference of `spawn`, of a handle, or of `release()` -/
  token : Bool := false
  /-- the reference in the frame of the completion baton -/
  batonRef : Bool := false
  /-- the references of join awaiters that are not suspended -/
  awaiters : Nat := 0
  /-- the shared state is not destroyed -/
  alive : Bool := false

namespace Root

/-- the number of references, those of suspended joiners apart -/
def refs (x : Root) : Nat := x.token.toNat + x.batonRef.toNat + x.awaiters

theorem refs_pos_of_token {x : Root} (h : x.token = true) : 0 < x.refs := by
  rw [refs, h, Bool.toNat_true]
  omega

theorem refs_pos_of_baton {x : Root} (h : x.batonRef = true) : 0 < x.refs := by
  rw [refs, h, Bool.toNat_true]
  omega

theorem refs_pos_of_awaiter {x : Root} (h : 0 < x.awaiters) : 0 < x.refs := by
  rw [refs]
  omega

/-- the test of `report_unobserved_failure_if_needed` -/
def needsReport (x : Root) : Bool := x.failure.isSome && !x.failureObserved && !x.failureReported

end Root

/-- who entered the loop of `cancellation_state::request_stop` -/
inductive Via where
  /-- `spawn_handle::request_stop()`, through a plain reference -/
  | handle
  /-- `spawn_handle::release()`, with a reference of its own -/
  | release
deriving DecidableEq

/-- an activation on the call stack of the loop thread -/
inductive Frame where
  | root (r : Nat)
  /-- any other foreign code -/
  | user
  /-- an unobserved-failure handler, begun at a generation of the slot, and (for the proofs) the
  number of handlers installed when it began -/
  | handler (g : Nat) (c : Handler) (installs : Nat)
  | stopLoop (r : Nat) (v : Via)
  /-- `release()`, whose local still refers to the state -/
  | releaseEnd (r : Nat)
  /-- `operator=` after `release()` -/
  | assignEnd (dst src : Nat)
  /-- `~spawn_handle()` after `release()` -/
  | destroyEnd (h : Nat)
  /-- `deliver_completion` with the joiners it has not resumed yet -/
  | deliver (r : Nat) (rest : List Coro)
  /-- the baton after `deliver_completion` -/
  | batonEnd (r : Nat)
  /-- `spawn` after the first resumption of the root -/
  | spawning (r : Nat)
deriving DecidableEq

inductive Event where
  | joinSuspended (r : Nat) (c : Coro)
  | joinResumed (r : Nat) (c : Coro)
  | completed (r : Nat) (e : Option Exc)
  /-- the failure of a root is observed through its handle -/
  | observed (r : Nat)
  /-- the failure of a root goes to the policy of the loop -/
  | routed (r : Nat)
  /-- the failure of a root is passed to a handler -/
  | handled (r : Nat) (c : Handler)
  | frameDestroyed (r : Nat)
deriving DecidableEq

structure World where
  root : Nat → Root := fun _ => {}
  handle : Nat → Option Nat := fun _ => none
  /-- the handles made so far are `0 .. made-1` -/
  made : Nat := 0
  /-- the handles whose destructor has returned -/
  ended : Nat → Bool := fun _ => false
  slot : Callback.Slot Handler := {}
  /-- how often a handler was installed -/
  installs : Nat := 0
  stack : List Frame := []
  log : List Event := []
  terminated : Bool := false
  /-- the state of a root was used after its destruction -/
  fault : Bool := false

inductive Act where
  /-- foreign code is called -/
  | enter
  /-- the foreign code on top of the stack returns -/
  | ret
  /-- `spawn` of a new root -/
  | spawn (r : Nat)
  /-- the running root suspends, in an operation with or without a stop callback -/
  | suspend (registers : Bool)
  /-- the running root ends, with an exception or not -/
  | finish (e : Option Exc)
  /-- the operation of a suspended root completes -/
  | resume (r : Nat)
  /-- `rethrow_if_failed()` or `take_result()` -/
  | observe (h : Nat)
  | requestStop (h : Nat)
  /-- `join()` makes an awaiter -/
  | join (h : Nat)
  /-- the coroutine `c` on top of the stack awaits such an awaiter and is suspended -/
  | await (r : Nat) (c : Coro)
  /-- an awaiter is destroyed -/
  | dropAwaiter (r : Nat)
  | moveConstruct (h : Nat)
  | moveAssign (dst src : Nat)
  | destroyHandle (h : Nat)
  | setHandler (c : Option Handler)
  /-- the activation on top of the stack goes on -/
  | tick
deriving DecidableEq

/-- foreign code runs: nothing is on the stack, or foreign code is on top -/
def foreign : List Frame → Bool
  | [] => true
  | .root _ :: _ => true
  | .user :: _ => true
  | .handler _ _ _ :: _ => true
  | _ => false

namespace World

def emit (w : World) (e : Event) : World := { w with log := w.log ++ [e] }

def push (w : World) (f : Frame) : World := { w with stack := f :: w.stack }

def setRoot (w : World) (r : Nat) (x : Root) : World :=
  { w with root := Function.update w.root r x }

/-- what a handle refers to as long as it exists -/
def refers (w : World) (h : Nat) : Option Nat := if w.ended h then none else w.handle h

/-- A reference to the state of `r` was dropped.  The last one runs `~state()`, which terminates
unless the root is at its final suspend point, and else destroys the frame. -/
def collect (w : World) (r : Nat) : World :=
  if (w.root r).refs = 0 then
    if (w.root r).frame = .final then
      (w.setRoot r { w.root r with frame := .destroyed, alive := false }).emit (.frameDestroyed r)
    else { w with terminated := true }
  else w

/-- `report_unobserved_failure_if_needed`, and `report_unobserved_failure` of the loop up to the
call of the handler -/
def report (w : World) (r : Nat) : World :=
  if (w.root r).needsReport then
    let w := (w.setRoot r { w.root r with failureReported := true }).emit (.routed r)
    match w.slot.beginInvoke with
    | (_, none) => { w with terminated := true }
    | (s, some c) =>
      ({ w with slot := s }.emit (.handled r c)).push (.handler w.slot.generation c w.installs)
  else w

/-- `request_stop` of the cancellation state of `r`, up to the first round -/
def requestStop (w : World) (r : Nat) (v : Via) : World :=
  match (w.root r).stops.exchange with
  | (t, true) => (w.setRoot r { w.root r with stops := t }).push (.stopLoop r v)
  | (_, false) => w

/-- `release()` of the handle `h`, up to the first call of foreign code -/
def release (w : World) (h : Nat) : World :=
  match w.handle h with
  | none => w
  | some r =>
    let w := { w with handle := Function.update w.handle h none }.push (.releaseEnd r)
    if (w.root r).completed then w.report r
    else (w.setRoot r { w.root r with publicHandleAbandoned := true }).requestStop r .release

/-- the end of `release()`: its local is destroyed -/
def dropToken (w : World) (r : Nat) : World :=
  (w.setRoot r { w.root r with token := false }).collect r

/-- what the handle `h` held before the change to `v` is dropped -/
def discard (w v : World) (h : Nat) : World :=
  match w.handle h with
  | none => v
  | some q => v.dropToken q

/-- `state_ = std::move(other.state_)` -/
def assign (w : World) (dst src : Nat) : World :=
  w.discard { w with
    handle := Function.update (Function.update w.handle dst (w.handle src)) src none } dst

/-- the end of the destructor: `state_` is destroyed -/
def endDestroy (w : World) (h : Nat) : World :=
  w.discard { w with
    handle := Function.update w.handle h none
    ended := Function.update w.ended h true } h

/-- the final suspend of the root, and `deliver_completion` up to the first joiner -/
def finish (w : World) (r : Nat) (k : List Frame) (e : Option Exc) : World :=
  let x := w.root r
  { w.setRoot r { x with frame := .final, failure := e, completed := true, joiners := [] } with
      stack := .deliver r x.joiners :: k
      log := w.log ++ [.completed r e] }

/-- the loop of `deliver_completion`, whose activation was on top of `k`, goes on -/
def deliver (w : World) (r : Nat) (rest : List Coro) (k : List Frame) : World :=
  match rest with
  | c :: rest =>
    { w.setRoot r { w.root r with awaiters := (w.root r).awaiters + 1 } with
        stack := .user :: .deliver r rest :: k
        log := w.log ++ [.joinResumed r c] }
  | [] =>
    let w := { w with stack := .batonEnd r :: k }
    if (w.root r).publicHandleAbandoned then w.report r else w

/-- the baton ends, and with it its reference -/
def dropBaton (w : World) (r : Nat) : World :=
  (w.setRoot r { w.root r with batonRef := false }).collect r

/-- the root `r` is resumed -/
def resume (w : World) (r : Nat) : World :=
  (w.setRoot r { w.root r with
    frame := .running, stops := (w.root r).stops.unregister () }).push (.root r)

/-- the stop loop on top of `k` goes on: it calls the next callback, or ends -/
def stopRound (w : World) (r : Nat) (k : List Frame) : World :=
  let w := { w with fault := w.fault || !(w.root r).alive }
  match (w.root r).stops.pop with
  | none => { w with stack := k }
  | some (_, t) => (w.setRoot r { w.root r with stops := t }).push .user

/-- the root `r`, whose activation was on top of `k`, suspends -/
def suspend (w : World) (r : Nat) (k : List Frame) (t : Cancel.Stops Unit Unit) : World :=
  { w.setRoot r { w.root r with frame := .suspended, stops := t } with stack := k }

/-- `spawn` up to the first resumption of the root -/
def spawn (w : World) (r : Nat) : World :=
  { w.setRoot r { frame := .running, token := true, batonRef := true, alive := true } with
      stack := .root r :: .spawning r :: w.stack }

/-- the coroutine `c`, now off the stack, is registered as a joiner -/
def await (w : World) (r : Nat) (c : Coro) : World :=
  (w.setRoot r { w.root r with
    joiners := (w.root r).joiners ++ [c], awaiters := (w.root r).awaiters - 1 }).emit
      (.joinSuspended r c)

def dropAwaiter (w : World) (r : Nat) : World :=
  (w.setRoot r { w.root r with awaiters := (w.root r).awaiters - 1 }).collect r

/-- `rethrow_if_failed()` or `take_result()` of a completed root -/
def observe (w : World) (r : Nat) : World :=
  if (w.root r).failure.isSome then
    (w.setRoot r { w.root r with failureObserved := true }).emit (.observed r)
  else w

end World

/-- the activation on top of the stack goes on -/
def tick (w : World) : Option World :=
  match w.stack with
  | .stopLoop r _ :: k => some (w.stopRound r k)
  | .releaseEnd r :: k => some ({ w with stack := k }.dropToken r)
  | .assignEnd dst src :: k => some ({ w with stack := k }.assign dst src)
  | .destroyEnd h :: k => some ({ w with stack := k }.endDestroy h)
  | .deliver r rest :: k => some (w.deliver r rest k)
  | .batonEnd r :: k => some ({ w with stack := k }.dropBaton r)
  | .spawning r :: k =>
    some { w with stack := k, handle := Function.update w.handle w.made (some r), made := w.made + 1 }
  | _ => none

/-- what foreign code does, when it is on top of the stack -/
def foreignStep (w : World) : Act → Option World
  | .enter => some (w.push .user)
  | .ret =>
    match w.stack with
    | .user :: k => some { w with stack := k }
    | .handler g c _ :: k => some { w with stack := k, slot := w.slot.endInvoke c g }
    | _ => none
  | .spawn r => if (w.root r).frame = .unborn then some (w.spawn r) else none
  | .suspend false =>
    match w.stack with
    | .root r :: k => some (w.suspend r k (w.root r).stops)
    | _ => none
  | .suspend true =>
    match w.stack with
    | .root r :: k =>
      match (w.root r).stops.register () () with
      | (t, true) => some (w.suspend r k t)
      | (_, false) => none  -- a stopped task is not suspended
    | _ => none
  | .finish e =>
    match w.stack with
    | .root r :: k => some (w.finish r k e)
    | _ => none
  | .resume r =>
    if (w.root r).frame = .suspended then some (w.resume r) else none
  | .observe h =>
    match w.refers h with
    | some r => if (w.root r).completed then some (w.observe r) else none
    | none => none
  | .requestStop h =>
    match w.refers h with
    | some r => some (w.requestStop r .handle)
    | none => none
  | .join h =>
    match w.refers h with
    | some r => some (w.setRoot r { w.root r with awaiters := (w.root r).awaiters + 1 })
    | none => none
  | .await r c =>
    if 0 < (w.root r).awaiters ∧ (w.root r).completed = false then
      match w.stack with
      | .user :: k => some ({ w with stack := k }.await r c)
      | .root q :: k => some ((w.suspend q k (w.root q).stops).await r c)
      | _ => none
    else none
  | .dropAwaiter r => if 0 < (w.root r).awaiters then some (w.dropAwaiter r) else none
  | .moveConstruct h =>
    if w.ended h then none
    else some { w with
      handle := Function.update (Function.update w.handle h none) w.made (w.handle h)
      made := w.made + 1 }
  | .moveAssign dst src =>
    if dst ≠ src ∧ dst < w.made ∧ w.ended dst = false ∧ w.ended src = false then
      some ((w.push (.assignEnd dst src)).release dst)
    else none
  | .destroyHandle h =>
    if h < w.made ∧ w.ended h = false ∧ .destroyEnd h ∉ w.stack then
      some ((w.push (.destroyEnd h)).release h)
    else none
  | .setHandler c => some { w with slot := w.slot.replace c, installs := w.installs + 1 }
  | .tick => none

def step (w : World) (a : Act) : Option World :=
  if w.terminated then none
  else if a = .tick then tick w
  else if foreign w.stack then foreignStep w a
  else none

/-- the machine of a loop that starts with the handler `c` -/
def sys (c : Option Handler) : Sys World Act := ⟨{ slot := { callback := c } }, step⟩

/-! ## what the functions leave alone -/

/-- the parts of the world that only a few steps touch -/
structure SameRest (w w' : World) : Prop where
  handle : w'.handle = w.handle
  made : w'.made = w.made
  ended : w'.ended = w.ended
  installs : w'.installs = w.installs
  fault : w'.fault = w.fault

section
variable (w : World) (r : Nat)

theorem collect_rest : SameRest w (w.collect r) ∧ (w.collect r).stack = w.stack ∧
    (w.collect r).slot = w.slot := by
  unfold World.collect
  split
  · split
    · exact ⟨⟨rfl, rfl, rfl, rfl, rfl⟩, rfl, rfl⟩
    · exact ⟨⟨rfl, rfl, rfl, rfl, rfl⟩, rfl, rfl⟩
  · exact ⟨⟨rfl, rfl, rfl, rfl, rfl⟩, rfl, rfl⟩

/-- a reference is dropped: the handles, the stack and the slot stay -/
theorem drop_rest (x : Root) : SameRest w ((w.setRoot r x).collect r) ∧
    ((w.setRoot r x).collect r).stack = w.stack ∧ ((w.setRoot r x).collect r).slot = w.slot := by
  obtain ⟨⟨h1, h2, h3, h4, h5⟩, h6, h7⟩ := collect_rest (w.setRoot r x) r
  exact ⟨⟨h1, h2, h3, h4, h5⟩, h6, h7⟩

theorem discard_some {w v : World} {h q : Nat} (hh : w.handle h = some q) :
    w.discard v h = v.dropToken q := by
  rw [World.discard, hh]

theorem discard_rest (v : World) (h : Nat) :
    SameRest v (w.discard v h) ∧ (w.discard v h).stack = v.stack := by
  unfold World.discard
  split
  · exact ⟨⟨rfl, rfl, rfl, rfl, rfl⟩, rfl⟩
  · obtain ⟨hrest, hstack, -⟩ := drop_rest v _ _
    exact ⟨hrest, hstack⟩

theorem report_rest : SameRest w (w.report r) := by
  unfold World.report
  split
  · dsimp only
    split
    · exact ⟨rfl, rfl, rfl, rfl, rfl⟩
    · exact ⟨rfl, rfl, rfl, rfl, rfl⟩
  · exact ⟨rfl, rfl, rfl, rfl, rfl⟩

theorem report_stack : (w.report r).stack = w.stack ∨
    ∃ c, (w.report r).stack = .handler w.slot.generation c w.installs :: w.stack := by
  unfold World.report
  split
  · dsimp only
    split
    · exact Or.inl rfl
    · rename_i c _
      exact Or.inr ⟨c, rfl⟩
  · exact Or.inl rfl

theorem requestStop_rest (v : Via) : SameRest w (w.requestStop r v) ∧
    (w.requestStop r v).slot = w.slot := by
  unfold World.requestStop
  split
  · exact ⟨⟨rfl, rfl, rfl, rfl, rfl⟩, rfl⟩
  · exact ⟨⟨rfl, rfl, rfl, rfl, rfl⟩, rfl⟩

theorem requestStop_stack (v : Via) : (w.requestStop r v).stack = w.stack ∨
    (w.requestStop r v).stack = .stopLoop r v :: w.stack := by
  unfold World.requestStop
  split
  · exact Or.inr rfl
  · exact Or.inl rfl

/-- `release()` of a handle that refers to `q`: its own activation, and what it calls -/
theorem release_stack {h q : Nat} (hh : w.handle h = some q) :
    (w.release h).stack = .releaseEnd q :: w.stack ∨
    (w.release h).stack = .stopLoop q .release :: .releaseEnd q :: w.stack ∨
    ∃ c, (w.release h).stack =
      .handler w.slot.generation c w.installs :: .releaseEnd q :: w.stack := by
  unfold World.release
  simp only [hh]
  split
  · rcases report_stack ({ w with handle := Function.update w.handle h none }.push (.releaseEnd q)) q
      with he | ⟨c, he⟩
    · exact Or.inl he
    · exact Or.inr (Or.inr ⟨c, he⟩)
  · rcases requestStop_stack (World.setRoot _ q _) q .release with he | he
    · exact Or.inl he
    · exact Or.inr (Or.inl he)

/-- apart from the handle it empties, `release()` leaves the rest alone -/
theorem release_rest (h : Nat) :
    SameRest { w with handle := Function.update w.handle h none } (w.release h) := by
  unfold World.release
  split
  · rename_i hn
    refine ⟨?_, rfl, rfl, rfl, rfl⟩
    show w.handle = Function.update w.handle h none
    rw [← hn, Function.update_eq_self]
  · rename_i q hq
    dsimp only
    split
    · obtain ⟨h1, h2, h3, h4, h5⟩ := report_rest
        ({ w with handle := Function.update w.handle h none }.push (.releaseEnd q)) q
      exact ⟨h1, h2, h3, h4, h5⟩
    · obtain ⟨⟨h1, h2, h3, h4, h5⟩, -⟩ := requestStop_rest (World.setRoot
        ({ w with handle := Function.update w.handle h none }.push (.releaseEnd q)) q _) q .release
      exact ⟨h1, h2, h3, h4, h5⟩

theorem handle_of_refers {h : Nat} (hr : w.refers h = some r) : w.handle h = some r := by
  unfold World.refers at hr
  split at hr
  · cases hr
  · exact hr

end

/-! ## what a step can do -/

/-- the steps of the machine, with what is known when they are taken -/
inductive Step (w : World) : Act → World → Prop
  | enter (hf : foreign w.stack = true) : Step w .enter (w.push .user)
  | userRet {k : List Frame} (hk : w.stack = .user :: k) : Step w .ret { w with stack := k }
  | handlerRet {g : Nat} {c : Handler} {n : Nat} {k : List Frame}
      (hk : w.stack = .handler g c n :: k) :
      Step w .ret { w with stack := k, slot := w.slot.endInvoke c g }
  | spawn {r : Nat} (hf : foreign w.stack = true) (hb : (w.root r).frame = .unborn) :
      Step w (.spawn r) (w.spawn r)
  | suspend {s : Bool} {r : Nat} {k : List Frame} {t : Cancel.Stops Unit Unit}
      (hk : w.stack = .root r :: k) (ht : t = (w.root r).stops ∨ t.requested = false) :
      Step w (.suspend s) (w.suspend r k t)
  | finish {e : Option Exc} {r : Nat} {k : List Frame} (hk : w.stack = .root r :: k) :
      Step w (.finish e) (w.finish r k e)
  | resume {r : Nat} (hf : foreign w.stack = true) (hb : (w.root r).frame = .suspended) :
      Step w (.resume r) (w.resume r)
  | observe {h r : Nat} (hf : foreign w.stack = true) (hh : w.handle h = some r)
      (hc : (w.root r).completed = true) : Step w (.observe h) (w.observe r)
  | requestStop {h r : Nat} (hf : foreign w.stack = true) (hh : w.handle h = some r) :
      Step w (.requestStop h) (w.requestStop r .handle)
  | join {h r : Nat} (hf : foreign w.stack = true) (hh : w.handle h = some r) :
      Step w (.join h) (w.setRoot r { w.root r with awaiters := (w.root r).awaiters + 1 })
  | userAwait {r : Nat} {c : Coro} {k : List Frame} (hk : w.stack = .user :: k)
      (ha : 0 < (w.root r).awaiters) (hc : (w.root r).completed = false) :
      Step w (.await r c) ({ w with stack := k }.await r c)
  | rootAwait {r q : Nat} {c : Coro} {k : List Frame} (hk : w.stack = .root q :: k)
      (ha : 0 < (w.root r).awaiters) (hc : (w.root r).completed = false) :
      Step w (.await r c) ((w.suspend q k (w.root q).stops).await r c)
  | dropAwaiter {r : Nat} (hf : foreign w.stack = true) (ha : 0 < (w.root r).awaiters) :
      Step w (.dropAwaiter r) (w.dropAwaiter r)
  | moveConstruct {h : Nat} (hf : foreign w.stack = true) :
      Step w (.moveConstruct h) { w with
        handle := Function.update (Function.update w.handle h none) w.made (w.handle h)
        made := w.made + 1 }
  | moveAssign {dst src : Nat} (hf : foreign w.stack = true) (hne : dst ≠ src) (hd : dst < w.made) :
      Step w (.moveAssign dst src) ((w.push (.assignEnd dst src)).release dst)
  | destroyHandle {h : Nat} (hf : foreign w.stack = true) (hd : h < w.made) :
      Step w (.destroyHandle h) ((w.push (.destroyEnd h)).release h)
  | setHandler {c : Option Handler} (hf : foreign w.stack = true) :
      Step w (.setHandler c) { w with slot := w.slot.replace c, installs := w.installs + 1 }
  | stopRound {r : Nat} {v : Via} {k : List Frame} (hk : w.stack = .stopLoop r v :: k) :
      Step w .tick (w.stopRound r k)
  | releaseEnd {r : Nat} {k : List Frame} (hk : w.stack = .releaseEnd r :: k) :
      Step w .tick ({ w with stack := k }.dropToken r)
  | assignEnd {dst src : Nat} {k : List Frame} (hk : w.stack = .assignEnd dst src :: k) :
      Step w .tick ({ w with stack := k }.assign dst src)
  | destroyEnd {h : Nat} {k : List Frame} (hk : w.stack = .destroyEnd h :: k) :
      Step w .tick ({ w with stack := k }.endDestroy h)
  | deliver {r : Nat} {rest : List Coro} {k : List Frame} (hk : w.stack = .deliver r rest :: k) :
      Step w .tick (w.deliver r rest k)
  | batonEnd {r : Nat} {k : List Frame} (hk : w.stack = .batonEnd r :: k) :
      Step w .tick ({ w with stack := k }.dropBaton r)
  | spawning {r : Nat} {k : List Frame} (hk : w.stack = .spawning r :: k) :
      Step w .tick { w with
        stack := k, handle := Function.update w.handle w.made (some r), made := w.made + 1 }

theorem foreignStep_cases {w w' : World} {a : Act} (hf : foreign w.stack = true)
    (h : foreignStep w a = some w') : Step w a w' := by
  cases a with
  | enter => cases h; exact .enter hf
  | ret =>
    simp only [foreignStep] at h
    split at h <;> cases h
    · exact .userRet ‹_›
    · exact .handlerRet ‹_›
  | spawn r =>
    obtain ⟨hb, rfl⟩ := by simpa [foreignStep] using h
    exact .spawn hf hb
  | suspend s =>
    cases s with
    | false =>
      simp only [foreignStep] at h
      split at h <;> cases h
      exact .suspend ‹_› (Or.inl rfl)
    | true =>
      simp only [foreignStep] at h
      split at h
      · rename_i r k hk
        cases hr : (w.root r).stops.requested with
        | true => simp [Cancel.Stops.register, hr] at h
        | false =>
          obtain rfl := by simpa [Cancel.Stops.register, hr] using h
          exact .suspend hk (Or.inr rfl)
      · cases h
  | finish e =>
    simp only [foreignStep] at h
    split at h <;> cases h
    exact .finish ‹_›
  | resume r =>
    obtain ⟨hb, rfl⟩ := by simpa [foreignStep] using h
    exact .resume hf hb
  | observe n =>
    simp only [foreignStep] at h
    split at h
    · rename_i r hh
      obtain ⟨hc, rfl⟩ := by simpa using h
      exact .observe hf (handle_of_refers w r hh) hc
    · cases h
  | requestStop n =>
    simp only [foreignStep] at h
    split at h <;> cases h
    exact .requestStop hf (handle_of_refers w _ ‹_›)
  | join n =>
    simp only [foreignStep] at h
    split at h <;> cases h
    exact .join hf (handle_of_refers w _ ‹_›)
  | await r c =>
    simp only [foreignStep] at h
    split at h
    · rename_i hg
      split at h <;> cases h
      · exact .userAwait ‹_› hg.1 hg.2
      · exact .rootAwait ‹_› hg.1 hg.2
    · cases h
  | dropAwaiter r =>
    obtain ⟨ha, rfl⟩ := by simpa [foreignStep] using h
    exact .dropAwaiter hf ha
  | moveConstruct n =>
    obtain ⟨-, rfl⟩ := by simpa [foreignStep] using h
    exact .moveConstruct hf
  | moveAssign dst src =>
    obtain ⟨⟨hne, hd, -⟩, rfl⟩ := by simpa [foreignStep] using h
    exact .moveAssign hf hne hd
  | destroyHandle n =>
    obtain ⟨⟨hd, -⟩, rfl⟩ := by simpa [foreignStep] using h
    exact .destroyHandle hf hd
  | setHandler c => cases h; exact .setHandler hf
  | tick => cases h

theorem step_cases {w w' : World} {a : Act} (h : step w a = some w') : Step w a w' := by
  unfold step at h
  split at h
  · cases h
  split at h
  · rename_i ha
    subst ha
    unfold tick at h
    split at h <;> cases h
    · exact .stopRound ‹_›
    · exact .releaseEnd ‹_›
    · exact .assignEnd ‹_›
    · exact .destroyEnd ‹_›
    · exact .deliver ‹_›
    · exact .batonEnd ‹_›
    · exact .spawning ‹_›
  · split at h
    · exact foreignStep_cases ‹_› h
    · cases h

/-- the activations that a step puts on the stack -/
inductive Fresh (w : World) (a : Act) : Frame → Prop
  | user : Fresh w a .user
  | root (r : Nat) : Fresh w a (.root r)
  | handler (c : Handler) : Fresh w a (.handler w.slot.generation c w.installs)
  | requestStop {n r : Nat} (ha : a = .requestStop n) (hn : w.handle n = some r) :
      Fresh w a (.stopLoop r .handle)
  | releaseStop (r : Nat) : Fresh w a (.stopLoop r .release)
  | releaseEnd (r : Nat) : Fresh w a (.releaseEnd r)
  | assignEnd {dst src : Nat} (hd : dst < w.made) (hne : dst ≠ src) :
      Fresh w a (.assignEnd dst src)
  | destroyEnd {h : Nat} (hd : h < w.made) : Fresh w a (.destroyEnd h)
  | deliver (r : Nat) (rest : List Coro) : Fresh w a (.deliver r rest)
  | batonEnd (r : Nat) : Fresh w a (.batonEnd r)
  | spawning (r : Nat) : Fresh w a (.spawning r)

section
variable {w w' : World} {a : Act} {f : Frame}

/-- `release()` under an activation `g` of its caller -/
theorem release_mem {g : Frame} {h : Nat} (hg : Fresh w a g)
    (hf : f ∈ ((w.push g).release h).stack) : f ∈ w.stack ∨ Fresh w a f := by
  have hpush (hm : f ∈ g :: w.stack) : f ∈ w.stack ∨ Fresh w a f := by
    rcases List.mem_cons.mp hm with rfl | hm
    · exact Or.inr hg
    · exact Or.inl hm
  cases hh : w.handle h with
  | none =>
    have hsame : (w.push g).release h = w.push g := by simp [World.release, World.push, hh]
    rw [hsame] at hf
    exact hpush hf
  | some r =>
    rcases release_stack (w.push g) (show (w.push g).handle h = some r from hh) with he | he | ⟨c, he⟩ <;>
      rw [he] at hf
    · rcases List.mem_cons.mp hf with rfl | hf
      · exact Or.inr (.releaseEnd r)
      · exact hpush hf
    · rcases List.mem_cons.mp hf with rfl | hf
      · exact Or.inr (.releaseStop r)
      · rcases List.mem_cons.mp hf with rfl | hf
        · exact Or.inr (.releaseEnd r)
        · exact hpush hf
    · rcases List.mem_cons.mp hf with rfl | hf
      · exact Or.inr (.handler c)
      · rcases List.mem_cons.mp hf with rfl | hf
        · exact Or.inr (.releaseEnd r)
        · exact hpush hf

/-- every activation on the stack was there before the step, or is one that the step makes -/
theorem step_mem (hs : step w a = some w') (hf : f ∈ w'.stack) : f ∈ w.stack ∨ Fresh w a f := by
  -- an activation of what is left after the one on top has gone
  have hpop {g : Frame} {k : List Frame} (hk : w.stack = g :: k) (hm : f ∈ k) :
      f ∈ w.stack ∨ Fresh w a f := Or.inl (hk ▸ List.mem_cons_of_mem g hm)
  have hpush {g : Frame} {k : List Frame} (hg : Fresh w a g)
      (hk : f ∈ k → f ∈ w.stack ∨ Fresh w a f) (hm : f ∈ g :: k) : f ∈ w.stack ∨ Fresh w a f := by
    rcases List.mem_cons.mp hm with rfl | hm
    · exact Or.inr hg
    · exact hk hm
  cases step_cases hs with
  | enter _ => exact hpush .user Or.inl hf
  | userRet hk | handlerRet hk | suspend hk | userAwait hk | rootAwait hk | spawning hk =>
    exact hpop hk hf
  | spawn _ hb => exact hpush (.root _) (hpush (.spawning _) Or.inl) hf
  | finish hk => exact hpush (.deliver _ _) (hpop hk) hf
  | resume _ hb => exact hpush (.root _) Or.inl hf
  | observe _ hh hc =>
    unfold World.observe at hf
    split at hf <;> exact Or.inl hf
  | @requestStop n r _ hh =>
    rcases requestStop_stack w r .handle with he | he <;> rw [he] at hf
    · exact Or.inl hf
    · exact hpush (.requestStop rfl hh) Or.inl hf
  | join | moveConstruct | setHandler => exact Or.inl hf
  | dropAwaiter _ ha =>
    rw [World.dropAwaiter, (drop_rest w _ _).2.1] at hf
    exact Or.inl hf
  | moveAssign _ hne hd => exact release_mem (.assignEnd hd hne) hf
  | destroyHandle _ hd => exact release_mem (.destroyEnd hd) hf
  | stopRound hk =>
    unfold World.stopRound at hf
    dsimp only at hf
    split at hf
    · exact hpop hk hf
    · exact hpush .user Or.inl hf
  | releaseEnd hk =>
    rw [World.dropToken, (drop_rest _ _ _).2.1] at hf
    exact hpop hk hf
  | assignEnd hk =>
    rw [World.assign, (discard_rest _ _ _).2] at hf
    exact hpop hk hf
  | destroyEnd hk =>
    rw [World.endDestroy, (discard_rest _ _ _).2] at hf
    exact hpop hk hf
  | @deliver r rest k hk =>
    unfold World.deliver at hf
    split at hf
    · exact hpush .user (hpush (.deliver _ _) (hpop hk)) hf
    · dsimp only at hf
      split at hf
      · rcases report_stack { w with stack := .batonEnd r :: k } r with he | ⟨c, he⟩ <;> rw [he] at hf
        · exact hpush (.batonEnd r) (hpop hk) hf
        · exact hpush (.handler c) (hpush (.batonEnd r) (hpop hk)) hf
      · exact hpush (.batonEnd r) (hpop hk) hf
  | batonEnd hk =>
    rw [World.dropBaton, (drop_rest _ _ _).2.1] at hf
    exact hpop hk hf

end

end Spawn
