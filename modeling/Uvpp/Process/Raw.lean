import Uvpp.Machine.Run
import Uvpp.Process.Options
import Uvpp.Core.Errno

/-!
# The life of a raw process

`raw::process` of `handles/process.hpp`: the object, the separately allocated storage with the
native handle, and the storage that a throwing constructor leaves to libuv.  A trampoline does
nothing after the callback it calls, so what that callback does comes after its action; an
exception of a callback ends the program.

* `World.submitSpawn`, `World.construct`   a spawn, and a spawn whose failure throws;
* `World.exitTrampoline`, `World.closes`   what libuv calls, at any time it may;
* `step`                  an object may be destroyed when its handle is not initialised or closed;
* `Tally`, `Phase`        what has been logged, and the states a process goes through;
* `raw_process_contract`  **the storage is freed once and never used after that, a handle is closed
                          once, at most one exit is reported and none of a failed constructor**;
* `storage_freed`         what a failed constructor leaves, libuv frees in two callbacks at most.
-/

namespace RawProcess
open Errno

structure ProcessExit where
  status : Int
  signal : Int
deriving DecidableEq

/-- the callback that is given to `spawn` or to `spawn_static` -/
inductive Dispatch where
  | runtime (cb : Option Nat)
  | static (cb : Nat)
deriving DecidableEq

def Dispatch.exitCallback : Dispatch → Option Nat
  | .runtime cb => cb
  | .static _ => none

def Dispatch.staticExit : Dispatch → Option Nat
  | .runtime _ => none
  | .static cb => some cb

/-- what `uv_spawn` returns, and the handle it leaves -/
structure Answer where
  rc : Int
  loop : Bool
  active : Bool

/-- Success is an active handle, and an active handle has its loop; a child may have been started
despite an error. -/
def Answer.lawful (a : Answer) : Bool := (decide (a.rc < 0) || a.active) && (!a.active || a.loop)

structure Call where
  options : ProcessOptions
  dispatch : Dispatch
  /-- one of the vectors cannot be allocated -/
  outOfMemory : Bool
  answer : Answer

/-- what `uv_close` is given -/
inductive Closer where
  | null
  | closeTrampoline
  | static (cb : Nat)
  | failedSpawnCloseTrampoline
deriving DecidableEq

structure Native where
  loop : Bool := false
  active : Bool := false
  closing : Option Closer := none
  /-- libuv has called back -/
  closed : Bool := false

structure Storage where
  owner : Bool := true
  exitCallback : Option Nat := none
  staticExit : Option Nat := none

inductive Event where
  | uvSpawn (options : NativeOptions) (dispatch : Dispatch)
  | uvClose
  | returned (status : Int)
  | badAlloc
  | threw (status : Int)
  | exit (cb : Nat) (e : ProcessExit)
  | closed (cb : Nat)
  | deleted
  /-- an access through a pointer that is dangling or null, or a second `uv_close` -/
  | fault
deriving DecidableEq

structure World where
  born : Bool := false
  object : Bool := false
  /-- `storage_` is not null -/
  holds : Bool := false
  storage : Option Storage := none
  native : Native := {}
  closeCallback : Option Nat := none
  log : List Event := []

namespace World

def say (w : World) (e : Event) : World := { w with log := w.log ++ [e] }

def update (w : World) (f : Storage → Storage) : World :=
  match w.storage with
  | none => w.say .fault
  | some s => { w with storage := some (f s) }

def delete (w : World) : World :=
  match w.storage with
  | none => w.say .fault
  | some _ => { w with storage := none }.say .deleted

def uvClose (w : World) (closer : Closer) : World :=
  if w.native.closing.isSome then w.say .fault
  else { w with native := { w.native with active := false, closing := some closer } }.say .uvClose

def clearExit (s : Storage) : Storage := { s with exitCallback := none, staticExit := none }

def make (w : World) : World :=
  { w with born := true, object := true, holds := true, storage := some {} }

def destructor (w : World) : World :=
  let w' := { w with object := false, holds := false, closeCallback := none }
  if w.holds then w'.delete else w'

/-- with `none` for an exception -/
def submitSpawn (w : World) (c : Call) : World × Option Int :=
  if w.native.loop then (w, some ealready)
  else if c.options.stdioEntries.length > 2 ^ 31 - 1 then (w, some e2big)
  else if c.outOfMemory then (w, none)
  else
    let w' := { w with native := { w.native with loop := c.answer.loop, active := c.answer.active } }.say
      (.uvSpawn c.options.native c.dispatch)
    let w'' := if c.answer.rc ≥ 0 ∨ c.answer.active then
        w'.update fun s =>
          { s with exitCallback := c.dispatch.exitCallback, staticExit := c.dispatch.staticExit }
      else w'
    (w'', some (min c.answer.rc 0))

def spawn (w : World) (c : Call) : World :=
  match w.submitSpawn c with
  | (w', none) => w'.say .badAlloc
  | (w', some status) => w'.say (.returned status)

/-- the part of `throw_on_spawn_failure` that leaves the storage to libuv -/
def abandon (w : World) : World :=
  if w.native.loop then
    let w' := { w with holds := false }.update fun s => { clearExit s with owner := false }
    if w'.native.active then w' else w'.uvClose .failedSpawnCloseTrampoline
  else w

def construct (w : World) (c : Call) : World :=
  match w.make.submitSpawn c with
  | (w', none) => (w'.say .badAlloc).destructor
  | (w', some status) => if status < 0 then (w'.abandon.say (.threw status)).destructor else w'

def closeBy (w : World) (closeCallback : Option Nat) (closer : Closer) : World :=
  if !w.native.loop || w.native.closing.isSome then w
  else ({ w with closeCallback := closeCallback }.uvClose closer).update clearExit

def close (w : World) : World := w.closeBy w.closeCallback .null
def closeWith (w : World) (cb : Option Nat) : World := w.closeBy cb .closeTrampoline
def closeStatic (w : World) (cb : Nat) : World := w.closeBy w.closeCallback (.static cb)

def exitTrampoline (w : World) (e : ProcessExit) : World :=
  match w.storage with
  | none => w.say .fault
  | some s =>
    if !s.owner then w.uvClose .failedSpawnCloseTrampoline
    else if !w.object then w.say .fault
    else
      let w' := w.update clearExit
      match s.staticExit, s.exitCallback with
      | some cb, _ => w'.say (.exit cb e)
      | none, some cb => w'.say (.exit cb e)
      | none, none => w'

/-- the callback of `uv_close` -/
def closes (w : World) : Closer → World
  | .null => w
  | .closeTrampoline =>
    if !w.object then w.say .fault
    else
      let w' := { w with closeCallback := none }
      match w.closeCallback with
      | some cb => w'.say (.closed cb)
      | none => w'
  | .static cb => if !w.object then w.say .fault else w.say (.closed cb)
  | .failedSpawnCloseTrampoline => w.delete

end World

inductive Action where
  | make
  | construct (c : Call)
  | spawn (c : Call)
  | close
  | closeWith (cb : Option Nat)
  | closeStatic (cb : Nat)
  | destroy
  /-- libuv: the child has ended -/
  | childExits (e : ProcessExit)
  /-- libuv: the handle is closed -/
  | handleClosed

def Action.ofLibuv : Action → Bool
  | .childExits _ => true
  | .handleClosed => true
  | _ => false

def step (w : World) : Action → Option World
  | .make => if w.born then none else some w.make
  | .construct c => if w.born || !c.answer.lawful then none else some (w.construct c)
  | .spawn c => if w.object && c.answer.lawful then some (w.spawn c) else none
  | .close => if w.object then some w.close else none
  | .closeWith cb => if w.object then some (w.closeWith cb) else none
  | .closeStatic cb => if w.object then some (w.closeStatic cb) else none
  | .destroy =>
    if w.object && (!w.native.loop || w.native.closed) then some w.destructor else none
  | .childExits e =>
    if w.native.active then
      some ({ w with native := { w.native with active := false } }.exitTrampoline e)
    else none
  | .handleClosed =>
    match w.native.closing with
    | none => none
    | some closer =>
      if w.native.closed then none
      else some ({ w with native := { w.native with closed := true } }.closes closer)

def sys : Sys World Action := ⟨{}, step⟩

def Event.isExit : Event → Bool
  | .exit .. => true
  | _ => false

def Event.isThrow : Event → Bool
  | .threw _ => true
  | _ => false

def Dispatch.gives (d : Dispatch) (cb : Nat) : Prop := d.exitCallback = some cb ∨ d.staticExit = some cb

/-- the events of a log, the exits and throws as bounds -/
structure Tally (log : List Event) (deletions closes exits throws : Nat) : Prop where
  sound : Event.fault ∉ log
  deletions : log.count .deleted = deletions
  closes : log.count .uvClose = closes
  exits : log.countP Event.isExit ≤ exits
  throws : log.countP Event.isThrow ≤ throws
  given : ∀ cb e, Event.exit cb e ∈ log → ∃ o d, Event.uvSpawn o d ∈ log ∧ d.gives cb

section
variable {log : List Event} {d c x t : Nat}

theorem Tally.nil : Tally [] 0 0 0 0 :=
  ⟨List.not_mem_nil, rfl, rfl, le_rfl, le_rfl, fun _ _ h => absurd h List.not_mem_nil⟩

theorem Tally.relax (h : Tally log d c 0 t) : Tally log d c 1 t :=
  { h with exits := h.exits.trans (Nat.zero_le 1) }

theorem Tally.append (h : Tally log d c x t) {e : Event} (hf : e ≠ .fault)
    (hg : ∀ cb e', e = .exit cb e' → ∃ o disp, Event.uvSpawn o disp ∈ log ∧ disp.gives cb) :
    Tally (log ++ [e]) (d + [e].count .deleted) (c + [e].count .uvClose)
      (x + [e].countP Event.isExit) (t + [e].countP Event.isThrow) where
  sound hm := by
    rcases List.mem_append.mp hm with hm | hm
    · exact h.sound hm
    · exact hf (List.mem_singleton.mp hm).symm
  deletions := by rw [List.count_append, h.deletions]
  closes := by rw [List.count_append, h.closes]
  exits := by
    rw [List.countP_append]
    exact Nat.add_le_add_right h.exits _
  throws := by
    rw [List.countP_append]
    exact Nat.add_le_add_right h.throws _
  given cb e' hm := by
    have hold : ∃ o disp, Event.uvSpawn o disp ∈ log ∧ disp.gives cb := by
      rcases List.mem_append.mp hm with hm | hm
      · exact h.given cb e' hm
      · exact hg cb e' (List.mem_singleton.mp hm).symm
    obtain ⟨o, disp, ho, hd⟩ := hold
    exact ⟨o, disp, List.mem_append_left _ ho, hd⟩

/-- neither a fault nor an exit -/
def Event.plain : Event → Bool
  | .fault => false
  | .exit .. => false
  | _ => true

theorem Tally.snoc (h : Tally log d c x t) (e : Event) (he : e.plain = true) :
    Tally (log ++ [e]) (d + [e].count .deleted) (c + [e].count .uvClose)
      (x + [e].countP Event.isExit) (t + [e].countP Event.isThrow) := by
  apply h.append
  · intro hf
    rw [hf] at he
    cases he
  · intro cb e' hx
    rw [hx] at he
    cases he

theorem Tally.exit (h : Tally log d c 0 t) {cb : Nat} {e : ProcessExit} {o : NativeOptions}
    {disp : Dispatch} (ho : Event.uvSpawn o disp ∈ log) (hd : disp.gives cb) :
    Tally (log ++ [.exit cb e]) d c 1 t := by
  apply h.append (e := .exit cb e) (fun hf => by cases hf)
  intro cb' e' hx
  cases hx
  exact ⟨o, disp, ho, hd⟩

end

/-- The states of a process.  `idle` is not initialised, `ended` initialised and not active: the
child has exited, or a spawn has failed without throwing. -/
inductive Phase : World → Prop where
  | unborn : Phase {}
  | idle {cb log} (h : Tally log 0 0 0 0) : Phase ⟨true, true, true, some {}, {}, cb, log⟩
  | running {o d cb log} (h : Tally log 0 0 0 0) (hd : Event.uvSpawn o d ∈ log) :
    Phase ⟨true, true, true, some ⟨true, d.exitCallback, d.staticExit⟩, ⟨true, true, none, false⟩, cb, log⟩
  | ended {cb log} (h : Tally log 0 0 1 0) :
    Phase ⟨true, true, true, some {}, ⟨true, false, none, false⟩, cb, log⟩
  | closing {closer b cb log} (hc : closer ≠ .failedSpawnCloseTrampoline) (h : Tally log 0 1 1 0) :
    Phase ⟨true, true, true, some {}, ⟨true, false, some closer, b⟩, cb, log⟩
  | failedRunning {cb log} (h : Tally log 0 0 0 1) :
    Phase ⟨true, false, false, some ⟨false, none, none⟩, ⟨true, true, none, false⟩, cb, log⟩
  | failedClosing {cb log} (h : Tally log 0 1 0 1) :
    Phase ⟨true, false, false, some ⟨false, none, none⟩,
      ⟨true, false, some .failedSpawnCloseTrampoline, false⟩, cb, log⟩
  | gone {n c x t cb log} (hn : n.active = false)
    (hclosed : n.loop = false ∧ n.closing = none ∨ n.closed = true)
    (hc : c ≤ 1) (hx : x ≤ 1) (hxt : x = 0 ∨ t = 0) (h : Tally log 1 c x t) :
    Phase ⟨true, false, false, none, n, cb, log⟩

/-- without a handle there is nothing to close -/
theorem Phase.freed {cb : Option Nat} {log : List Event} {t : Nat} (h : Tally log 1 0 0 t) :
    Phase ⟨true, false, false, none, {}, cb, log⟩ :=
  .gone rfl (.inl ⟨rfl, rfl⟩) (Nat.zero_le 1) (Nat.zero_le 1) (.inl rfl) h

/-- an idle process after `submit_spawn` -/
inductive Submitted (cb : Option Nat) : World × Option Int → Prop where
  | refused {log status} (h : Tally log 0 0 0 0) (hs : ∀ s ∈ status, s < 0) :
    Submitted cb (⟨true, true, true, some {}, {}, cb, log⟩, status)
  | failed {log} {s : Int} (h : Tally log 0 0 0 0) (hs : s < 0) :
    Submitted cb (⟨true, true, true, some {}, ⟨true, false, none, false⟩, cb, log⟩, some s)
  | started {o d log} {s : Int} (h : Tally log 0 0 0 0) (hd : Event.uvSpawn o d ∈ log) :
    Submitted cb (⟨true, true, true, some ⟨true, d.exitCallback, d.staticExit⟩,
      ⟨true, true, none, false⟩, cb, log⟩, some s)

section
variable {w w' : World} {cb : Option Nat} {log : List Event}

theorem submitSpawn_submitted {c : Call} (ha : c.answer.lawful = true) (h : Tally log 0 0 0 0) :
    Submitted cb (World.submitSpawn ⟨true, true, true, some {}, {}, cb, log⟩ c) := by
  obtain ⟨o, d, oom, rc, l, act⟩ := c
  have hlog : Tally (log ++ [.uvSpawn o.native d]) 0 0 0 0 := h.snoc _ rfl
  simp only [Answer.lawful, Bool.and_eq_true, Bool.or_eq_true, decide_eq_true_eq,
    Bool.not_eq_true'] at ha
  unfold World.submitSpawn
  rw [if_neg Bool.false_ne_true]
  split
  · refine .refused h fun s hs => ?_
    cases hs
    decide
  split
  · exact .refused h fun s hs => by cases hs
  cases act with
  | true =>
    obtain rfl : l = true := by simpa using ha.2
    simp only [or_true, if_true]
    exact .started hlog (List.mem_append_right _ (List.mem_singleton.mpr rfl))
  | false =>
    have hrc : rc < 0 := by simpa using ha.1
    have hno : ¬ (rc ≥ 0 ∨ false = true) := by
      rintro (h | h)
      · omega
      · cases h
    simp only [if_neg hno]
    have hs : min rc 0 < 0 := by omega
    cases l with
    | true => exact .failed hlog hs
    | false =>
      refine .refused hlog fun s hm => ?_
      cases hm
      exact hs

theorem Phase.spawn {c : Call} (ha : c.answer.lawful = true) (h : Phase w)
    (hobj : w.object = true) : Phase (w.spawn c) := by
  -- the status of a process that has its loop is logged, and that is all
  have hquiet : ∀ {d cl x t log} s, Tally log d cl x t →
      Tally (log ++ [Event.returned s]) d cl x t := fun s h => h.snoc _ rfl
  cases h with
  | @idle cb log h =>
    unfold World.spawn
    generalize hsub : World.submitSpawn _ c = r
    have hs := @submitSpawn_submitted cb log c ha h
    rw [hsub] at hs
    cases hs with
    | @refused log status h _ =>
      cases status with
      | none => exact .idle (h.snoc _ rfl)
      | some s => exact .idle (hquiet s h)
    | failed h _ => exact .ended (hquiet _ h).relax
    | started h hd => exact .running (hquiet _ h) (List.mem_append_left _ hd)
  | running h hd => exact .running (hquiet ealready h) (List.mem_append_left _ hd)
  | ended h => exact .ended (hquiet ealready h)
  | closing hc h => exact .closing hc (hquiet ealready h)
  | _ => cases hobj

theorem Phase.construct {c : Call} (ha : c.answer.lawful = true) : Phase (World.construct {} c) := by
  unfold World.construct
  generalize hsub : World.submitSpawn _ c = r
  have hs : Submitted none (World.submitSpawn (World.make {}) c) := submitSpawn_submitted ha Tally.nil
  rw [hsub] at hs
  cases hs with
  | @refused log status h hs =>
    cases status with
    | none =>
      exact .freed ((h.snoc .badAlloc rfl).snoc .deleted rfl)
    | some s =>
      show Phase (if s < 0 then _ else _)
      rw [if_pos (hs s rfl)]
      exact .freed ((h.snoc (.threw s) rfl).snoc .deleted rfl)
  | @failed log s h hs =>
    show Phase (if s < 0 then _ else _)
    rw [if_pos hs]
    exact .failedClosing ((h.snoc .uvClose rfl).snoc (.threw s) rfl)
  | @started o d log s h hd =>
    show Phase (if s < 0 then _ else _)
    split
    · exact .failedRunning (h.snoc (.threw s) rfl)
    · exact .running h hd

theorem Phase.closeBy (h : Phase w) (hobj : w.object = true) (cb : Option Nat) {closer : Closer}
    (hc : closer ≠ .failedSpawnCloseTrampoline) : Phase (w.closeBy cb closer) := by
  cases h with
  | idle h => exact .idle h
  | running h hd => exact .closing hc (h.snoc .uvClose rfl).relax
  | ended h => exact .closing hc (h.snoc .uvClose rfl)
  | closing hc' h => exact .closing hc' h
  | _ => cases hobj

theorem Phase.destroy (h : Phase w) (hobj : w.object = true)
    (hdone : w.native.loop = false ∨ w.native.closed = true) : Phase w.destructor := by
  cases h with
  | idle h => exact .freed (h.snoc .deleted rfl)
  | @closing closer b cb log hc h =>
    obtain rfl : b = true := hdone.resolve_left fun h => by cases h
    exact .gone rfl (.inr rfl) le_rfl le_rfl (.inr rfl)
      (h.snoc .deleted rfl)
  | running | ended => rcases hdone with h | h <;> cases h
  | _ => cases hobj

theorem Phase.childExits (h : Phase w) (hact : w.native.active = true) (e : ProcessExit) :
    Phase ({ w with native := { w.native with active := false } }.exitTrampoline e) := by
  cases h with
  | @running o d cb log h hd =>
    cases d with
    | static c => exact .ended (h.exit hd (.inr rfl))
    | runtime c =>
      cases c with
      | none => exact .ended h.relax
      | some c => exact .ended (h.exit hd (.inl rfl))
  | failedRunning h => exact .failedClosing (h.snoc .uvClose rfl)
  | gone hn => rw [hn] at hact; cases hact
  | _ => cases hact

theorem Phase.handleClosed (h : Phase w) {closer : Closer} (hc : w.native.closing = some closer)
    (hb : w.native.closed = false) :
    Phase ({ w with native := { w.native with closed := true } }.closes closer) := by
  cases h with
  | @closing closer' b cb log hne h =>
    cases hc
    cases closer with
    | null => exact .closing hne h
    | closeTrampoline =>
      cases cb with
      | none => exact .closing hne h
      | some c => exact .closing hne (h.snoc _ rfl)
    | static c => exact .closing hne (h.snoc _ rfl)
    | failedSpawnCloseTrampoline => exact absurd rfl hne
  | failedClosing h =>
    cases hc
    exact .gone rfl (.inr rfl) le_rfl (Nat.zero_le 1) (.inl rfl)
      (h.snoc .deleted rfl)
  | gone _ hclosed =>
    rcases hclosed with hclosed | hclosed
    · rw [hclosed.2] at hc; cases hc
    · rw [hclosed] at hb; cases hb
  | _ => cases hc

theorem Phase.step {a : Action} (h : Phase w) (hs : step w a = some w') : Phase w' := by
  have hborn : w.born = false → w = {} := by
    intro hw
    cases h <;> first | rfl | cases hw
  cases a <;> simp only [RawProcess.step, Option.ite_none_right_eq_some,
    Option.ite_none_left_eq_some, Option.some.injEq, Bool.and_eq_true, Bool.or_eq_true,
    Bool.not_eq_true', not_or, Bool.not_eq_true, Bool.not_eq_false] at hs
  case make =>
    obtain ⟨hw, rfl⟩ := hs
    rw [hborn hw]
    exact .idle Tally.nil
  case construct c =>
    obtain ⟨⟨hw, ha⟩, rfl⟩ := hs
    rw [hborn hw]
    exact .construct ha
  case spawn c =>
    obtain ⟨⟨hobj, ha⟩, rfl⟩ := hs
    exact h.spawn ha hobj
  case close =>
    obtain ⟨hobj, rfl⟩ := hs
    exact h.closeBy hobj _ (fun h => by cases h)
  case closeWith cb =>
    obtain ⟨hobj, rfl⟩ := hs
    exact h.closeBy hobj _ (fun h => by cases h)
  case closeStatic cb =>
    obtain ⟨hobj, rfl⟩ := hs
    exact h.closeBy hobj _ (fun h => by cases h)
  case destroy =>
    obtain ⟨⟨hobj, hdone⟩, rfl⟩ := hs
    exact h.destroy hobj hdone
  case childExits e =>
    obtain ⟨hact, rfl⟩ := hs
    exact h.childExits hact e
  case handleClosed =>
    cases hc : w.native.closing with
    | none => rw [hc] at hs; cases hs
    | some closer =>
      rw [hc] at hs
      obtain ⟨hb, hs⟩ := Option.ite_none_left_eq_some.mp hs
      obtain rfl := Option.some.inj hs
      have hp := h.handleClosed hc (Bool.eq_false_of_not_eq_true hb)
      simp only [hc] at hp
      exact hp

theorem phase_of_run {as : List Action} (hr : sys.run sys.init as = some w) : Phase w :=
  Sys.run_inv (P := Phase) (fun _ _ _ => Phase.step) .unborn hr

/-! ## what holds in every run -/

structure Contract (w : World) : Prop where
  sound : Event.fault ∉ w.log
  freed : w.log.count .deleted = if w.born && w.storage.isNone then 1 else 0
  /-- the memory of a handle that libuv still knows -/
  stable : w.native.loop = true → w.native.closed = false → w.storage ≠ none
  owned : w.object = true → w.holds = true ∧ ∃ s, w.storage = some s ∧ s.owner = true
  closes : w.log.count .uvClose ≤ 1
  exits : w.log.countP Event.isExit ≤ 1
  given : ∀ cb e, Event.exit cb e ∈ w.log → ∃ o d, Event.uvSpawn o d ∈ w.log ∧ d.gives cb
  thrown : ∀ s, Event.threw s ∈ w.log → w.log.countP Event.isExit = 0

theorem Phase.tally (h : Phase w) : ∃ c x t, c ≤ 1 ∧ x ≤ 1 ∧ (x = 0 ∨ t = 0) ∧
    Tally w.log (if w.born && w.storage.isNone then 1 else 0) c x t := by
  cases h with
  | unborn => exact ⟨0, 0, 0, Nat.zero_le 1, Nat.zero_le 1, .inl rfl, Tally.nil⟩
  | idle h | running h => exact ⟨0, 0, 0, Nat.zero_le 1, Nat.zero_le 1, .inl rfl, h⟩
  | ended h => exact ⟨0, 1, 0, Nat.zero_le 1, le_rfl, .inr rfl, h⟩
  | closing _ h => exact ⟨1, 1, 0, le_rfl, le_rfl, .inr rfl, h⟩
  | failedRunning h => exact ⟨0, 0, 1, Nat.zero_le 1, Nat.zero_le 1, .inl rfl, h⟩
  | failedClosing h => exact ⟨1, 0, 1, le_rfl, Nat.zero_le 1, .inl rfl, h⟩
  | gone _ _ hc hx hxt h => exact ⟨_, _, _, hc, hx, hxt, h⟩

theorem raw_process_contract (as : List Action) (w : World)
    (hr : sys.run sys.init as = some w) : Contract w := by
  have h := phase_of_run hr
  obtain ⟨c, x, t, hc, hx, hxt, ht⟩ := h.tally
  refine ⟨ht.sound, ht.deletions, ?_, ?_, ht.closes.trans_le hc, ht.exits.trans hx, ht.given, ?_⟩
  · intro hl hb hnone
    cases h with
    | unborn => cases hl
    | gone _ hclosed =>
      rcases hclosed with hclosed | hclosed
      · rw [hclosed.1] at hl; cases hl
      · rw [hclosed] at hb; cases hb
    | _ => cases hnone
  · intro hobj
    cases h with
    | idle | running | ended | closing => exact ⟨rfl, _, rfl, rfl⟩
    | _ => cases hobj
  · intro s hm
    rcases hxt with rfl | rfl
    · exact Nat.le_zero.mp ht.exits
    · exact absurd rfl (List.countP_eq_zero.mp (Nat.le_zero.mp ht.throws) _ hm)

/-- the constructor throws although the child has been started -/
def startedAndFailed : List Action :=
  [.construct { options := { file := [] }, dispatch := .runtime (some 7), outOfMemory := false,
                answer := ⟨-24, true, true⟩ }]

def endsAndFrees : List Action := [.childExits ⟨0, 0⟩, .handleClosed]

theorem raw_process_contract_failed : ∃ w, sys.run sys.init (startedAndFailed ++ endsAndFrees) =
    some w ∧ w.log.count .deleted = 1 ∧ Contract w :=
  ⟨_, rfl, rfl, raw_process_contract (startedAndFailed ++ endsAndFrees) _ rfl⟩

/-- the callbacks until the storage of a failed constructor is freed -/
def World.left (w : World) : Nat :=
  if w.storage.isNone then 0 else if w.native.closing.isNone then 2 else 1

theorem left_step {a : Action} (h : Phase w) (hborn : w.born = true) (hobj : w.object = false)
    (hs : step w a = some w') : w'.born = true ∧ w'.object = false ∧ w'.left + 1 = w.left := by
  cases h with
  | unborn => cases hborn
  | failedRunning | failedClosing =>
    cases a <;> cases hs
    exact ⟨rfl, rfl, rfl⟩
  | gone hn hclosed =>
    rcases hclosed with hclosed | hclosed <;> cases a <;>
      simp [RawProcess.step, hn, hclosed] at hs
    split at hs <;> cases hs
  | _ => cases hobj

theorem left_run {as : List Action} (h : Phase w) (hborn : w.born = true) (hobj : w.object = false)
    (hr : sys.run w as = some w') : Phase w' ∧ w'.object = false ∧ w'.left + as.length = w.left := by
  induction as generalizing w with
  | nil =>
    cases hr
    exact ⟨h, hobj, rfl⟩
  | cons a as ih =>
    obtain ⟨w1, hs, hr⟩ := sys.run_cons_some hr
    obtain ⟨hb, ho, hl⟩ := left_step h hborn hobj hs
    obtain ⟨hp, ho', hl'⟩ := ih (h.step hs) hb ho hr
    refine ⟨hp, ho', ?_⟩
    rw [List.length_cons]
    omega

end

/-- Without its object a process has only libuv to act, and after at most two of its callbacks,
the next of which can always come, nothing is left. -/
theorem storage_freed (as : List Action) (w : World) (hr : sys.run sys.init as = some w)
    (hborn : w.born = true) (hobj : w.object = false) (bs : List Action) (w' : World)
    (hr' : sys.run w bs = some w') : w'.storage = none ∨
      bs.length < 2 ∧ ∃ a, a.ofLibuv = true ∧ (step w' a).isSome = true := by
  have hleft : w.left ≤ 2 := by
    unfold World.left
    split
    · omega
    · split <;> omega
  obtain ⟨h, ho, hl⟩ := left_run (phase_of_run hr) hborn hobj hr'
  cases h with
  | unborn => exact .inl rfl
  | failedRunning _ =>
    change 2 + bs.length = w.left at hl
    exact .inr ⟨by omega, .childExits ⟨0, 0⟩, rfl, rfl⟩
  | failedClosing _ =>
    change 1 + bs.length = w.left at hl
    exact .inr ⟨by omega, .handleClosed, rfl, rfl⟩
  | gone _ _ => exact .inl rfl
  | _ => cases ho

theorem storage_freed_failed : ∃ w w', sys.run sys.init startedAndFailed = some w ∧
    w.object = false ∧ sys.run w endsAndFrees = some w' ∧ (w'.storage = none ∨
      endsAndFrees.length < 2 ∧ ∃ a, a.ofLibuv = true ∧ (step w' a).isSome = true) :=
  ⟨_, _, rfl, rfl, rfl, storage_freed startedAndFailed _ rfl rfl rfl endsAndFrees _ rfl⟩

end RawProcess
