import Mathlib.Data.List.Basic
import Mathlib.Logic.Function.Basic
import Uvpp.Machine.Run

/-!
# `resource_scope`

One scope (`co/resource_scope.hpp`), the owners that are moved into it, and the coroutine of an
attempt to finish it.  An owner is named by a number; `Res` is what the code knows about it: who
holds it, how far its native close is, whether borrowed I/O is active, and whether the access token
that its views share still points to it.

* `own`                  adoption, with every point where it can throw;
* `finish`               the start of `finish_impl`;
* `beginFinish`          `finish()` of one record up to its suspension: connections and sockets ask
                         for active I/O, listeners do not, a file submits `uv_fs_close`;
* `endFinish`            the same after the close completed;
* `tick`                 the loop of `finish_impl` around them;
* `sys`                  the machine: between two moves of the attempt anything else may happen.

A `std::terminate` ends the run.
-/

namespace Resource

/-- the name of an owner -/
abbrev Id := Nat

inductive Kind where
  | tcpListener
  | pipeListener
  | tcpConnection
  | pipeConnection
  | udpSocket
  | file
deriving DecidableEq

inductive CleanupPhase where
  | stopAdmission
  | closeResources
deriving DecidableEq

namespace Kind

/-- `phase()` of the record -/
def phase : Kind → CleanupPhase
  | .tcpListener | .pipeListener => .stopAdmission
  | _ => .closeResources

/-- the kinds with borrowed I/O that the scope must not close -/
def borrows : Kind → Bool
  | .tcpListener | .pipeListener => false
  | _ => true

end Kind

/-- how far the native close is -/
inductive Native where
  | opened
  | closing
  | closed
deriving DecidableEq

inductive Holder where
  | caller
  | scope
  /-- the owner is destroyed -/
  | gone
deriving DecidableEq

structure Res where
  holder : Holder := .caller
  native : Native := .opened
  /-- `close_status` of a file -/
  closeStatus : Int := 0
  /-- a read, write, send or export is active -/
  active : Bool := false
  /-- the access token points to the owner -/
  view : Bool := false
deriving DecidableEq

/-- a `resource_record` -/
structure Rec where
  id : Id
  /-- `released_` of a file record -/
  released : Bool := false
deriving DecidableEq

inductive CleanupState where
  | opened
  | active
  | interrupted
  | finished
deriving DecidableEq

inductive Exc where
  /-- `std::logic_error` -/
  | logicError
  | badAlloc
  /-- the error of a native status -/
  | status (e : Int)
deriving DecidableEq

/-- where the coroutine of the attempt is within its record -/
inductive Stage where
  /-- before the record -/
  | next
  /-- suspended on the close of the record -/
  | awaiting
  /-- resumed by the completion of the close -/
  | resumed
deriving DecidableEq

structure Attempt where
  phase : CleanupPhase := .stopAdmission
  index : Nat := 0
  stage : Stage := .next
deriving DecidableEq

/-- the attempt at the head of its loop -/
def Attempt.start : Attempt := {}

inductive Event where
  | adopted (r : Id)
  /-- `own()` threw -/
  | notAdopted (r : Id) (e : Exc)
  /-- an attempt was rejected -/
  | rejected (e : Exc)
  /-- an attempt found the scope finished -/
  | nothingToDo
  | began
  /-- `finish()` of the record is called -/
  | cleanup (r : Id)
  /-- `uv_close` or `uv_fs_close` -/
  | submitted (r : Id)
  /-- libuv reports the close -/
  | completed (r : Id)
  | invalidated (r : Id)
  /-- the owner is destroyed -/
  | destroyed (r : Id)
  /-- the record is given up -/
  | retired (r : Id)
  | failed (e : Exc)
  | succeeded
deriving DecidableEq

structure Config where
  kind : Id → Kind
  /-- the owner runs on the loop of the scope -/
  sameLoop : Id → Bool

structure World where
  res : Id → Res := fun _ => {}
  resources : List (Option Rec) := []
  state : CleanupState := .opened
  attempt : Option Attempt := none
  log : List Event := []
  terminated : Bool := false

/-- what the environment answers to a move of the attempt -/
structure Env where
  /-- the frame of `finish()` of the record cannot be allocated -/
  frameFails : Bool := false
  /-- the list of close waiters cannot grow -/
  waiterFails : Bool := false
  /-- the status of the submission of `uv_fs_close` -/
  submit : Int := 0
deriving DecidableEq

inductive Act where
  /-- `own()`; `allocFails`: one of its allocations does -/
  | own (r : Id) (allocFails : Bool)
  /-- a `finish()` task starts -/
  | finish (sameLoop : Bool) (allocFails : Bool)
  /-- the attempt goes on -/
  | tick (env : Env)
  /-- libuv reports the close of `r`, for a file with a status -/
  | closeDone (r : Id) (status : Int)
  | startIo (r : Id)
  | endIo (r : Id)
  /-- the caller closes an owner that it still holds; a file with the status of the submission -/
  | userClose (r : Id) (submit : Int)
deriving DecidableEq

namespace World

def emit (w : World) (es : List Event) : World := { w with log := w.log ++ es }

def setRes (w : World) (r : Id) (f : Res → Res) : World :=
  { w with res := Function.update w.res r (f (w.res r)) }

/-- `own()`: everything that can throw comes before the owner is moved -/
def own (cfg : Config) (w : World) (r : Id) (allocFails : Bool) : World :=
  if w.state ≠ .opened then w.emit [.notAdopted r .logicError]
  else if ¬ ((w.res r).holder = .caller ∧ cfg.sameLoop r) then w.emit [.notAdopted r .logicError]
  else if allocFails then w.emit [.notAdopted r .badAlloc]
  else
    ({ w with resources := w.resources ++ [some (Rec.mk r false)] }.setRes r
      ({ · with holder := .scope, view := true })).emit [.adopted r]

/-- `finish()` and the part of `finish_impl` before its loop -/
def finish (w : World) (sameLoop allocFails : Bool) : World :=
  if allocFails then w.emit [.rejected .badAlloc]
  else if !sameLoop then w.emit [.rejected .logicError]
  else
    match w.state with
    | .active => w.emit [.rejected .logicError]
    | .finished => w.emit [.nothingToDo]
    | _ => { w with state := .active, attempt := some .start }.emit [.began]

/-- the `catch` of `finish_impl` -/
def fail (w : World) (e : Exc) : World :=
  { w with state := .interrupted, attempt := none }.emit [.failed e]

/-- `resource.reset()` after the record finished, and the next round of the loop -/
def retire (w : World) (a : Attempt) (r : Id) : World :=
  { w with
      resources := w.resources.set a.index none
      attempt := some { phase := a.phase, index := a.index + 1 } }.emit [.retired r]

/-- the destructor of the owner: an open file or active I/O terminates -/
def destroyOwner (cfg : Config) (w : World) (r : Id) : World :=
  if (w.res r).active ∨ cfg.kind r = .file ∧ (w.res r).native = .opened then
    { w with terminated := true }
  else (w.setRes r ({ · with holder := .gone })).emit [.destroyed r]

/-- the views are invalidated, then the owner is destroyed -/
def releaseOwner (cfg : Config) (w : World) (r : Id) : World :=
  ((w.setRes r ({ · with view := false })).emit [.invalidated r]).destroyOwner cfg r

/-- `finish()` of the record after its close, which ended with `status` -/
def endFinish (cfg : Config) (w : World) (a : Attempt) (r : Id) (status : Int) : World :=
  let v := w.releaseOwner cfg r
  if v.terminated then v
  else if cfg.kind r = .file ∧ status < 0 then
    { v with resources := v.resources.set a.index (some { id := r, released := true }) }.fail
      (.status status)
  else v.retire a r

/-- the close is submitted, unless it was begun already, and the attempt waits for it -/
def submitAndWait (w : World) (a : Attempt) (r : Id) : World :=
  if (w.res r).native = .opened then
    { w.setRes r ({ · with native := .closing }) with
        attempt := some { a with stage := .awaiting } }.emit [.submitted r]
  else { w with attempt := some { a with stage := .awaiting } }

/-- `finish()` of a file record that is not released -/
def finishFile (cfg : Config) (w : World) (a : Attempt) (r : Id) (env : Env) : World :=
  if (w.res r).active ∨ (w.res r).native = .closing then w.fail .logicError
  else if (w.res r).native = .closed then w.endFinish cfg a r (w.res r).closeStatus
  else if env.submit < 0 then
    -- the awaiter has restored the open state; the record does not look at the status
    w.endFinish cfg a r env.submit
  else w.submitAndWait a r

/-- `finish()` of a listener, connection or socket record -/
def finishHandle (cfg : Config) (w : World) (a : Attempt) (r : Id) (env : Env) : World :=
  if (cfg.kind r).borrows ∧ (w.res r).active then w.fail .logicError
  else if (w.res r).native = .closed then w.endFinish cfg a r 0
  else if env.waiterFails then w.fail .badAlloc
  else w.submitAndWait a r

/-- `co_await resource->finish()` up to its suspension -/
def beginFinish (cfg : Config) (w : World) (a : Attempt) (x : Rec) (env : Env) : World :=
  if env.frameFails then w.fail .badAlloc
  else
    let w := w.emit [.cleanup x.id]
    match cfg.kind x.id with
    | .file => if x.released then w.retire a x.id else w.finishFile cfg a x.id env
    | _ => w.finishHandle cfg a x.id env

/-- the end of the loop over one phase -/
def endPhase (w : World) (a : Attempt) : World :=
  match a.phase with
  | .stopAdmission => { w with attempt := some { phase := .closeResources } }
  | .closeResources =>
    { w with resources := [], state := .finished, attempt := none }.emit [.succeeded]

/-- a round of the loop before the record at the index -/
def round (cfg : Config) (w : World) (a : Attempt) (env : Env) : World :=
  match w.resources[a.index]? with
  | none => w.endPhase a
  | some none => { w with attempt := some { a with index := a.index + 1 } }
  | some (some x) =>
    if (cfg.kind x.id).phase = a.phase then w.beginFinish cfg a x env
    else { w with attempt := some { a with index := a.index + 1 } }

/-- the attempt goes on -/
def tick (cfg : Config) (w : World) (env : Env) : Option World :=
  match w.attempt with
  | none => none
  | some a =>
    match a.stage with
    | .next => some (w.round cfg a env)
    | .awaiting => none
    | .resumed =>
      match w.resources[a.index]? with
      | some (some x) => some (w.endFinish cfg a x.id (w.res x.id).closeStatus)
      | _ => none

/-- the attempt waits for the close of `r` -/
def awaits (w : World) (r : Id) : Option Attempt :=
  match w.attempt with
  | some a =>
    match a.stage, w.resources[a.index]? with
    | .awaiting, some (some x) => if x.id = r then some a else none
    | _, _ => none
  | none => none

/-- libuv reports the close, and the attempt that waits for it is resumed -/
def closeDone (cfg : Config) (w : World) (r : Id) (status : Int) : World :=
  let w' := (w.setRes r fun x => { x with
    native := .closed
    closeStatus := if cfg.kind r = .file then status else 0 }).emit [.completed r]
  match w.awaits r with
  | some a => { w' with attempt := some { a with stage := .resumed } }
  | none => w'

/-- a borrowed operation starts, through a view or by the caller -/
def startIo (cfg : Config) (w : World) (r : Id) : World :=
  if (cfg.kind r).borrows ∧ (w.res r).native = .opened ∧
      ((w.res r).holder = .caller ∨ (w.res r).holder = .scope ∧ (w.res r).view) then
    w.setRes r ({ · with active := true })
  else w

/-- the caller closes an owner: active operations are rejected -/
def userClose (cfg : Config) (w : World) (r : Id) (submit : Int) : World :=
  if (w.res r).active ∨ (w.res r).native ≠ .opened ∨ cfg.kind r = .file ∧ submit < 0 then w
  else (w.setRes r ({ · with native := .closing })).emit [.submitted r]

end World

/-- one action; after `std::terminate` there is none -/
def step (cfg : Config) (w : World) (a : Act) : Option World :=
  if w.terminated then none
  else
    match a with
    | .own r allocFails => some (w.own cfg r allocFails)
    | .finish sameLoop allocFails => some (w.finish sameLoop allocFails)
    | .tick env => w.tick cfg env
    | .closeDone r status =>
      if (w.res r).native = .closing then some (w.closeDone cfg r status) else none
    | .startIo r => some (w.startIo cfg r)
    | .endIo r =>
      if (w.res r).active then some (w.setRes r ({ · with active := false })) else none
    | .userClose r submit =>
      if (w.res r).holder = .caller then some (w.userClose cfg r submit) else none

def sys (cfg : Config) : Sys World Act := ⟨{}, step cfg⟩

end Resource
