import Mathlib.Data.List.Nodup
import Mathlib.Tactic.Common
import Uvpp.Close.State

/-!
# The closing life of a record

What the families have in common when a record is closed: the `async_close_state` in the record,
whether libuv has the close, whether the record is deleted, the call stack of the loop thread and
the history.  A family is a machine around a `Life ε`; `ε` is what it adds to the history.

* `Life.submit`, `Life.delete`, `Life.onClose`, `Life.tick`   the operations;
* `LifeInv`            the invariant;
* `*_inv`              each operation keeps it, under the condition the family has to provide.

`complete` resumes the coroutines held by its own locals, so a tick that resumes one does not
touch the record; the tick that ends `complete` does, and so does the rest of `request_close`.
Touching a deleted record is a `fault`.
-/

namespace Close

/-- an activation on the call stack of the loop thread -/
inductive Frame where
  /-- foreign code: a coroutine that was resumed, or any other caller -/
  | user
  /-- `request_close`, waiting for the coroutine it cancelled, before `uv_close` -/
  | closing
  /-- `async_close_state::complete` with the coroutines it has not resumed yet -/
  | complete (rest : List Coro)
deriving DecidableEq

/-- what happens to one record -/
inductive Event (ε : Type) where
  /-- a coroutine suspended on close -/
  | suspended (c : Coro)
  /-- the coroutine of a failed connect or accept handed over to the close -/
  | callbackSuspended (c : Coro)
  /-- `uv_close` -/
  | submitted
  /-- libuv calls the close callback -/
  | callbackBegan
  | resumed (c : Coro)
  | deleted
  /-- an event of the family -/
  | own (x : ε)
deriving DecidableEq

section
variable {ε : Type}

@[simp] def Event.suspends : Event ε → Option Coro
  | .suspended c => some c
  | _ => none

@[simp] def Event.callbackSuspends : Event ε → Option Coro
  | .callbackSuspended c => some c
  | _ => none

@[simp] def Event.resumes : Event ε → Option Coro
  | .resumed c => some c
  | _ => none

/-- coroutines that suspended on close, in order -/
def registered (log : List (Event ε)) : List Coro := log.filterMap Event.suspends
def callbackRegistered (log : List (Event ε)) : List Coro := log.filterMap Event.callbackSuspends
def resumedBy (log : List (Event ε)) : List Coro := log.filterMap Event.resumes

variable (log : List (Event ε)) (e : Event ε)

@[simp] theorem registered_snoc : registered (log ++ [e]) = registered log ++ e.suspends.toList := by
  cases e <;> simp [registered]

@[simp] theorem callbackRegistered_snoc :
    callbackRegistered (log ++ [e]) = callbackRegistered log ++ e.callbackSuspends.toList := by
  cases e <;> simp [callbackRegistered]

@[simp] theorem resumedBy_snoc : resumedBy (log ++ [e]) = resumedBy log ++ e.resumes.toList := by
  cases e <;> simp [resumedBy]

end

/-- coroutines that the activations on the stack still have to resume -/
def remaining (k : List Frame) : List Coro :=
  k.flatMap fun
    | .complete rest => rest
    | _ => []

/-- activations of `complete` on the stack -/
def completes (k : List Frame) : Nat :=
  k.countP fun
    | .complete _ => true
    | _ => false

/-- foreign code runs: nothing is on the stack, or foreign code is on top -/
def foreign : List Frame → Bool
  | [] => true
  | .user :: _ => true
  | _ => false

section
variable (k : List Frame) (rest : List Coro)

@[simp] theorem remaining_nil : remaining [] = [] := rfl
@[simp] theorem remaining_user : remaining (.user :: k) = remaining k := rfl
@[simp] theorem remaining_complete : remaining (.complete rest :: k) = rest ++ remaining k := rfl

@[simp] theorem completes_nil : completes [] = 0 := rfl
@[simp] theorem completes_user : completes (.user :: k) = completes k := by simp [completes]
@[simp] theorem completes_closing : completes (.closing :: k) = completes k := by simp [completes]
@[simp] theorem completes_complete : completes (.complete rest :: k) = completes k + 1 := by
  simp [completes]

end

theorem remaining_of_completes {k : List Frame} (h : completes k = 0) : remaining k = [] := by
  induction k with
  | nil => rfl
  | cons f k ih =>
    cases f with
    | user | closing => exact ih (by simpa using h)
    | complete rest => simp at h

/-! ## the operations -/

structure Life (ε : Type) where
  close : AsyncCloseState := {}
  /-- the record is not deleted -/
  live : Bool := true
  /-- libuv has the close and has not called back yet -/
  inFlight : Bool := false
  stack : List Frame := []
  log : List (Event ε) := []
  /-- the record was used after its deletion -/
  fault : Bool := false

namespace Life
variable {ε : Type}

def emit (l : Life ε) (e : Event ε) : Life ε := { l with log := l.log ++ [e] }

/-- `uv_close` on the native handle of the record -/
def submit (l : Life ε) : Life ε := { l with inFlight := true, log := l.log ++ [.submitted] }

/-- `delete this` -/
def delete (l : Life ε) : Life ε := { l with live := false, log := l.log ++ [.deleted] }

/-- a suspending close awaiter: `add_waiter` on a record that is not closed -/
def suspend (l : Life ε) (c : Coro) : Life ε :=
  { l with close := (l.close.addWaiter c).1, log := l.log ++ [.suspended c] }

def suspendCallback (l : Life ε) (c : Coro) : Life ε :=
  { l with close := l.close.setCallbackWaiter c, log := l.log ++ [.callbackSuspended c] }

/-- `close.begin()`, with nothing to quiesce before `uv_close` -/
def beginSubmit (l : Life ε) : Life ε := { l with close := l.close.begin.1 }.submit

/-- `close.begin()`, and a coroutine that is resumed before `uv_close` -/
def beginInline (l : Life ε) : Life ε :=
  { l with close := l.close.begin.1, stack := .user :: .closing :: l.stack }

def releaseOwner (l : Life ε) : Life ε := { l with close := l.close.setOwnerReleased }

/-- a coroutine is resumed -/
def enter (l : Life ε) : Life ε := { l with stack := .user :: l.stack }

/-- the close callback of libuv, up to the first resumption -/
def onClose (l : Life ε) : Life ε :=
  { l with
      close := l.close.beginComplete.1
      inFlight := false
      stack := .complete l.close.beginComplete.2 :: l.stack
      log := l.log ++ [.callbackBegan] }

/-- the end of `complete`, whose activation was on top of `k` -/
def endComplete (l : Life ε) (k : List Frame) : Life ε :=
  let l' : Life ε := { l with close := l.close.endComplete.1, stack := k }
  if l.close.endComplete.2 then l'.delete else l'

/-- the activation on top of the stack goes on -/
def tick (l : Life ε) : Option (Life ε) :=
  match l.stack with
  | .closing :: k =>
    if l.live then some { l with stack := k }.submit else some { l with stack := k, fault := true }
  | .complete (c :: rest) :: k =>
    some { l with stack := .user :: .complete rest :: k, log := l.log ++ [.resumed c] }
  | .complete [] :: k =>
    if l.live then some (l.endComplete k) else some { l with stack := k, fault := true }
  | _ => none

/-- the foreign code on top of the stack returns -/
def ret (l : Life ε) : Option (Life ε) :=
  match l.stack with
  | .user :: k => some { l with stack := k }
  | _ => none

/-- what happens next when the foreign code on the stack only returns -/
def next (l : Life ε) : Option (Life ε) :=
  match l.stack with
  | [] => if l.inFlight then some l.onClose else none
  | .user :: _ => l.ret
  | _ => l.tick

/-- the close callback was called and has returned -/
def closeFinished [DecidableEq ε] (l : Life ε) : Bool :=
  decide (.callbackBegan ∈ l.log) && completes l.stack == 0

/-- the coroutines suspended on the close of this record -/
def suspended (l : Life ε) : List Coro :=
  l.close.callbackWaiter.toList ++ l.close.waiters ++ remaining l.stack

end Life

/-! ## the invariant -/

structure LifeInv {ε : Type} [DecidableEq ε] (l : Life ε) : Prop where
  fault : l.fault = false
  /-- `uv_close` was submitted, or will be when the cancelled coroutine returns, but not both -/
  atMost : l.log.count .submitted + l.stack.count .closing ≤ 1
  claimed : l.close.phase ≠ .opened → l.log.count .submitted + l.stack.count .closing = 1
  began : l.log.count .callbackBegan = if l.close.phase = .closed then 1 else 0
  settled : l.close.phase = .closed → l.stack.count .closing = 0
  inFlight : l.inFlight = true ↔ l.log.count .submitted = 1 ∧ l.close.phase ≠ .closed
  active : completes l.stack = if l.close.completionActive then 1 else 0
  activeClosed : l.close.completionActive = true → l.close.phase = .closed
  live : l.live = !l.close.canDestroyNow
  deleted : l.log.count .deleted = if l.live then 0 else 1
  waiting : l.close.phase ≠ .closed → resumedBy l.log = [] ∧
    callbackRegistered l.log = l.close.callbackWaiter.toList ∧ registered l.log = l.close.waiters
  delivered : l.close.phase = .closed →
    resumedBy l.log ++ remaining l.stack = callbackRegistered l.log ++ registered l.log ∧
    l.close.callbackWaiter = none ∧ l.close.waiters = []
  nodup : (callbackRegistered l.log ++ registered l.log).Nodup

/-- in the open phase nothing was submitted -/
def Fresh {ε : Type} [DecidableEq ε] (l : Life ε) : Prop :=
  l.close.phase = .opened → l.log.count .submitted = 0 ∧ l.stack.count .closing = 0

/-- in the open phase nobody waits -/
def Quiet {ε : Type} (l : Life ε) : Prop :=
  l.close.phase = .opened → l.close.waiters = [] ∧ l.close.callbackWaiter = none

section
variable {ε : Type} [DecidableEq ε] {l : Life ε}

theorem lifeInv_init : LifeInv ({} : Life ε) := by
  constructor <;> simp [AsyncCloseState.canDestroyNow, resumedBy, registered, callbackRegistered]

theorem LifeInv.notActive (h : LifeInv l) (hp : l.close.phase ≠ .closed) :
    l.close.completionActive = false ∧ completes l.stack = 0 ∧ remaining l.stack = [] := by
  have ha : l.close.completionActive = false := by
    cases hc : l.close.completionActive with
    | false => rfl
    | true => exact absurd (h.activeClosed hc) hp
  have hk : completes l.stack = 0 := by rw [h.active, ha]; rfl
  exact ⟨ha, hk, remaining_of_completes hk⟩

theorem own_inv (h : LifeInv l) (x : ε) : LifeInv (l.emit (.own x)) := by
  obtain ⟨hf, hm, hc, hb, hs, hi, ha, hac, hl, hd, hw, hdl, hn⟩ := h
  constructor <;> simp_all [Life.emit]

theorem enter_inv (h : LifeInv l) : LifeInv l.enter := by
  obtain ⟨hf, hm, hc, hb, hs, hi, ha, hac, hl, hd, hw, hdl, hn⟩ := h
  constructor <;> simp_all [Life.enter]

theorem ret_inv (h : LifeInv l) {l' : Life ε} (hr : l.ret = some l') : LifeInv l' := by
  unfold Life.ret at hr
  split at hr
  · rename_i k hk
    cases hr
    obtain ⟨hf, hm, hc, hb, hs, hi, ha, hac, hl, hd, hw, hdl, hn⟩ := h
    simp only [hk, completes_user, remaining_user, List.count_cons] at *
    constructor <;> simp_all
  · cases hr

omit [DecidableEq ε] in
theorem Life.suspend_eq (hp : l.close.phase ≠ .closed) (c : Coro) :
    l.suspend c = { l with
      close := { l.close with waiters := l.close.waiters ++ [c] }
      log := l.log ++ [.suspended c] } := by
  rw [Life.suspend, AsyncCloseState.addWaiter, if_neg hp]

/-- a coroutine that is not suspended here suspends on the close -/
theorem suspend_inv (h : LifeInv l) (hp : l.close.phase ≠ .closed) {c : Coro}
    (hc : c ∉ l.suspended) : LifeInv (l.suspend c) := by
  obtain ⟨hres, hcb, hreg⟩ := h.waiting hp
  have hnew : c ∉ callbackRegistered l.log ++ registered l.log := by
    intro hm
    rw [hcb, hreg] at hm
    exact hc (List.mem_append_left _ hm)
  rw [Life.suspend_eq hp]
  refine { h with
    atMost := ?_, claimed := ?_, began := ?_, inFlight := ?_, deleted := ?_, waiting := ?_,
    delivered := ?_, nodup := ?_ }
  · simpa using h.atMost
  · simpa using h.claimed
  · simpa using h.began
  · simpa using h.inFlight
  · simpa using h.deleted
  · exact fun _ => by simp [hres, hcb, hreg]
  · exact fun hcl => absurd hcl hp
  · simp only [callbackRegistered_snoc, registered_snoc, Event.callbackSuspends,
      Event.suspends, Option.toList_none, Option.toList_some, List.append_nil]
    rw [← List.append_assoc]
    exact h.nodup.append (List.nodup_singleton c) (by simpa using hnew)

/-- the coroutine of a failed connect or accept, on a record nobody else waits for -/
theorem suspendCallback_inv (h : LifeInv l) (hp : l.close.phase ≠ .closed)
    (hw : l.close.waiters = []) (hcw : l.close.callbackWaiter = none) (c : Coro) :
    LifeInv (l.suspendCallback c) := by
  obtain ⟨hres, hcb, hreg⟩ := h.waiting hp
  rw [hcw] at hcb
  rw [hw] at hreg
  show LifeInv { l with
    close := { l.close with callbackWaiter := some c }
    log := l.log ++ [.callbackSuspended c] }
  refine { h with
    atMost := ?_, claimed := ?_, began := ?_, inFlight := ?_, deleted := ?_, waiting := ?_,
    delivered := ?_, nodup := ?_ }
  · simpa using h.atMost
  · simpa using h.claimed
  · simpa using h.began
  · simpa using h.inFlight
  · simpa using h.deleted
  · exact fun _ => by simp [hres, hcb, hreg, hw]
  · exact fun hcl => absurd hcl hp
  · simp [hcb, hreg]

theorem begin_opened {s : AsyncCloseState} (h : s.phase = .opened) :
    s.begin = ({ s with phase := .closing }, true) := by
  rw [AsyncCloseState.begin, h]

theorem begin_claimed {s : AsyncCloseState} (h : s.phase ≠ .opened) : s.begin = (s, false) := by
  unfold AsyncCloseState.begin
  cases hp : s.phase with
  | opened => exact absurd hp h
  | closing => rfl
  | closed => rfl

/-- `uv_close` on a record that does not have it yet -/
theorem submit_inv (h : LifeInv l) (hp : l.close.phase ≠ .closed) (hsub : l.log.count .submitted = 0)
    (hclo : l.stack.count .closing = 0) : LifeInv l.submit := by
  obtain ⟨hres, hcb, hreg⟩ := h.waiting hp
  have hbeg := h.began
  have hdel := h.deleted
  simp only [Life.submit]
  refine { h with
    atMost := ?_, claimed := ?_, began := ?_, inFlight := ?_, deleted := ?_, waiting := ?_,
    delivered := ?_, nodup := ?_ }
  · simp [hsub, hclo]
  · simp [hsub, hclo]
  · simpa using hbeg
  · simp [hsub, hp]
  · simpa using hdel
  · simp [hres, hcb, hreg]
  · exact fun hcl => absurd hcl hp
  · simpa using h.nodup

theorem beginSubmit_inv (h : LifeInv l) (hp : l.close.phase = .opened) (hf : Fresh l) :
    LifeInv l.beginSubmit := by
  have hne : l.close.phase ≠ .closed := by rw [hp]; exact nofun
  obtain ⟨hres, hcb, hreg⟩ := h.waiting hne
  obtain ⟨hact, hk, _⟩ := h.notActive hne
  obtain ⟨hsub, hclo⟩ := hf hp
  have hbeg := h.began
  have hlive := h.live
  have hdel := h.deleted
  simp only [Life.beginSubmit, Life.submit, begin_opened hp]
  constructor
  case fault => exact h.fault
  case atMost => simp [hsub, hclo]
  case claimed => simp [hsub, hclo]
  case began => simpa [hp] using hbeg
  case settled => exact nofun
  case inFlight => simp [hsub]
  case active => simp [hact, hk]
  case activeClosed => simp [hact]
  case live => simpa [AsyncCloseState.canDestroyNow, hp] using hlive
  case deleted => simpa using hdel
  case waiting => simp [hres, hcb, hreg]
  case delivered => exact nofun
  case nodup => simpa using h.nodup

theorem beginInline_inv (h : LifeInv l) (hp : l.close.phase = .opened) (hf : Fresh l) :
    LifeInv l.beginInline := by
  have hne : l.close.phase ≠ .closed := by rw [hp]; exact nofun
  obtain ⟨hres, hcb, hreg⟩ := h.waiting hne
  obtain ⟨hact, hk, _⟩ := h.notActive hne
  obtain ⟨hsub, hclo⟩ := hf hp
  have hbeg := h.began
  have hlive := h.live
  have hfly := h.inFlight
  simp only [Life.beginInline, begin_opened hp]
  constructor
  case fault => exact h.fault
  case atMost => simp [hsub, hclo]
  case claimed => simp [hsub, hclo]
  case began => simpa [hp] using hbeg
  case settled => exact nofun
  case inFlight => simpa [hsub] using hfly
  case active => simp [hact, hk]
  case activeClosed => simp [hact]
  case live => simpa [AsyncCloseState.canDestroyNow, hp] using hlive
  case deleted => exact h.deleted
  case waiting => simp [hres, hcb, hreg]
  case delivered => exact nofun
  case nodup => exact h.nodup

/-- the owner leaves a record that cannot be deleted yet -/
theorem releaseOwner_inv (h : LifeInv l) (hp : l.close.phase = .closed → l.close.completionActive = true) :
    LifeInv l.releaseOwner := by
  refine { h with live := ?_, deleted := ?_ }
  · have hlive := h.live
    by_cases hc : l.close.phase = .closed
    · simpa [Life.releaseOwner, AsyncCloseState.setOwnerReleased, AsyncCloseState.canDestroyNow, hp hc]
        using hlive
    · simpa [Life.releaseOwner, AsyncCloseState.setOwnerReleased, AsyncCloseState.canDestroyNow, hc]
        using hlive
  · exact h.deleted

/-- the owner leaves a record whose close was delivered: it is deleted -/
theorem releaseDelete_inv (h : LifeInv l) (hp : l.close.phase = .closed)
    (hact : l.close.completionActive = false) (ho : l.close.ownerReleased = false) :
    LifeInv l.releaseOwner.delete := by
  have hlive : l.live = true := by simpa [AsyncCloseState.canDestroyNow, ho] using h.live
  have hdel := h.deleted
  rw [hlive] at hdel
  show LifeInv { l with
    close := { l.close with ownerReleased := true }
    live := false
    log := l.log ++ [.deleted] }
  refine { h with
    atMost := ?_, claimed := ?_, began := ?_, inFlight := ?_, live := ?_, deleted := ?_,
    waiting := ?_, delivered := ?_, nodup := ?_ }
  · simpa using h.atMost
  · simpa using h.claimed
  · simpa using h.began
  · simpa using h.inFlight
  · simp [AsyncCloseState.canDestroyNow, hp, hact]
  · simpa using hdel
  · exact fun hne => absurd hp hne
  · exact fun _ => by simpa using h.delivered hp
  · simpa using h.nodup

theorem onClose_inv (h : LifeInv l) (hk : l.stack = []) (hf : l.inFlight = true) :
    LifeInv l.onClose := by
  obtain ⟨hsub, hne⟩ := h.inFlight.mp hf
  obtain ⟨hres, hcb, hreg⟩ := h.waiting hne
  have hbeg := h.began
  rw [if_neg hne] at hbeg
  have hlive : l.live = true := by simpa [AsyncCloseState.canDestroyNow, hne] using h.live
  have hdel := h.deleted
  rw [hlive] at hdel
  simp only [Life.onClose, AsyncCloseState.beginComplete, hk]
  constructor
  case fault => exact h.fault
  case atMost => simp [hsub]
  case claimed => simp [hsub]
  case began => simp [hbeg]
  case settled => simp
  case inFlight => simp
  case active => simp
  case activeClosed => simp
  case live => simp [AsyncCloseState.canDestroyNow, hlive]
  case deleted => simpa [hlive] using hdel
  case waiting => exact fun hn => absurd rfl hn
  case delivered => simp [hres, hcb, hreg]
  case nodup => simpa using h.nodup

/-- the end of `complete`: the record is deleted if its owner left meanwhile -/
theorem endComplete_inv (h : LifeInv l) {k : List Frame} (hk : l.stack = .complete [] :: k)
    (hlive : l.live = true) : LifeInv (l.endComplete k) := by
  have hact : l.close.completionActive = true := by
    have ha := h.active
    rw [hk, completes_complete] at ha
    cases hc : l.close.completionActive with
    | true => rfl
    | false => rw [hc] at ha; simp at ha
  have hcl := h.activeClosed hact
  have hstk : l.stack.count .closing = k.count .closing := by rw [hk]; simp
  have hcomp : completes k = 0 := by
    have ha := h.active
    rw [hk, completes_complete, hact] at ha
    simpa using ha
  have hdel := h.deleted
  rw [hlive] at hdel
  have hdlv := h.delivered hcl
  rw [hk, remaining_complete, List.nil_append] at hdlv
  have hmost := h.atMost
  have hclaim := h.claimed (by rw [hcl]; exact nofun)
  have hset := h.settled hcl
  rw [hstk] at hmost hclaim hset
  cases ho : l.close.ownerReleased with
  | true =>
    simp only [Life.endComplete, AsyncCloseState.endComplete, ho, ite_true, Life.delete]
    constructor
    case fault => exact h.fault
    case atMost => simpa using hmost
    case claimed => exact fun _ => by simpa using hclaim
    case began => simpa using h.began
    case settled => exact fun _ => hset
    case inFlight => simpa using h.inFlight
    case active => simp [hcomp]
    case activeClosed => simp
    case live => simp [AsyncCloseState.canDestroyNow, hcl]
    case deleted => simpa using hdel
    case waiting => exact fun hne => absurd hcl hne
    case delivered => exact fun _ => by simpa using hdlv
    case nodup => simpa using h.nodup
  | false =>
    simp only [Life.endComplete, AsyncCloseState.endComplete, ho, Bool.false_eq_true, ite_false]
    constructor
    case fault => exact h.fault
    case atMost => exact hmost
    case claimed => exact fun _ => hclaim
    case began => exact h.began
    case settled => exact fun _ => hset
    case inFlight => exact h.inFlight
    case active => simp [hcomp]
    case activeClosed => simp
    case live => simp [AsyncCloseState.canDestroyNow, hlive]
    case deleted => simpa [hlive] using hdel
    case waiting => exact fun hne => absurd hcl hne
    case delivered => exact fun _ => hdlv
    case nodup => exact h.nodup

/-- The activation on top goes on.  With `complete` or `request_close` on the stack the record
is not deleted, so the tick is no fault. -/
theorem tick_inv (h : LifeInv l) {l' : Life ε} (ht : l.tick = some l') : LifeInv l' := by
  unfold Life.tick at ht
  split at ht
  · rename_i k hk
    have hcount : l.stack.count .closing = k.count .closing + 1 := by rw [hk]; simp
    have hmost := h.atMost
    rw [hcount] at hmost
    have hne : l.close.phase ≠ .closed := fun hcl => by
      have := h.settled hcl
      omega
    have hlive : l.live = true := by simpa [AsyncCloseState.canDestroyNow, hne] using h.live
    rw [if_pos hlive] at ht
    cases ht
    have hact := h.active
    have hdel := h.deleted
    rw [hk, completes_closing] at hact
    obtain ⟨hres, hcb, hreg⟩ := h.waiting hne
    simp only [Life.submit]
    constructor
    case fault => exact h.fault
    case atMost => simp; omega
    case claimed => intro _; simp; omega
    case began => simpa using h.began
    case settled => exact fun hcl => absurd hcl hne
    case inFlight => simp [hne]; omega
    case active => exact hact
    case activeClosed => exact h.activeClosed
    case live => exact h.live
    case deleted => simpa using hdel
    case waiting => intro _; simp [hres, hcb, hreg]
    case delivered => exact fun hcl => absurd hcl hne
    case nodup => simpa using h.nodup
  · rename_i c rest k hk
    cases ht
    obtain ⟨hf, hm, hc, hb, hs, hi, ha, hac, hl, hd, hw, hdl, hn⟩ := h
    simp only [hk, completes_complete, remaining_complete, List.count_cons] at *
    have hcl : l.close.phase = .closed := hac (by
      cases hca : l.close.completionActive with
      | true => rfl
      | false => simp [hca] at ha)
    constructor <;> simp_all
  · rename_i k hk
    have hlive : l.live = true := by
      have ha := h.active
      rw [hk, completes_complete] at ha
      have hact : l.close.completionActive = true := by
        cases hc : l.close.completionActive with
        | true => rfl
        | false => rw [hc] at ha; simp at ha
      simpa [AsyncCloseState.canDestroyNow, hact] using h.live
    rw [if_pos hlive] at ht
    cases ht
    exact endComplete_inv h hk hlive
  · cases ht

omit [DecidableEq ε] in
theorem tick_close {l' : Life ε} (ht : l.tick = some l') :
    l'.close.phase = l.close.phase ∧ l'.close.ownerReleased = l.close.ownerReleased := by
  unfold Life.tick at ht
  split at ht
  · split at ht <;> cases ht <;> exact ⟨rfl, rfl⟩
  · cases ht
    exact ⟨rfl, rfl⟩
  · split at ht <;> cases ht
    · unfold Life.endComplete AsyncCloseState.endComplete
      split <;> exact ⟨rfl, rfl⟩
    · exact ⟨rfl, rfl⟩
  · cases ht

/-- without `request_close` on the stack a tick submits nothing -/
theorem tick_submits (hk : l.stack.count .closing = 0) {l' : Life ε} (ht : l.tick = some l') :
    l'.stack.count .closing = 0 ∧ l'.log.count .submitted = l.log.count .submitted := by
  unfold Life.tick at ht
  split at ht
  · rename_i k hs
    rw [hs] at hk
    simp at hk
  · rename_i c rest k hs
    cases ht
    rw [hs] at hk
    exact ⟨by simpa using hk, by simp⟩
  · rename_i k hs
    rw [hs] at hk
    have hk' : k.count .closing = 0 := by simpa using hk
    split at ht <;> cases ht
    · unfold Life.endComplete AsyncCloseState.endComplete
      split
      · exact ⟨hk', by simp [Life.delete]⟩
      · exact ⟨hk', rfl⟩
    · exact ⟨hk', rfl⟩
  · cases ht

/-- in the open phase there is nothing to go on with -/
theorem tick_claimed (h : LifeInv l) (hf : Fresh l) {l' : Life ε} (ht : l.tick = some l') :
    l.close.phase ≠ .opened := by
  intro hp
  obtain ⟨_, hc⟩ := hf hp
  obtain ⟨_, hk, _⟩ := h.notActive (by rw [hp]; exact nofun)
  unfold Life.tick at ht
  split at ht
  · rename_i hs
    simp [hs] at hc
  · rename_i hs
    simp [hs] at hk
  · rename_i hs
    simp [hs] at hk
  · cases ht

omit [DecidableEq ε] in
theorem next_cases {l' : Life ε} (hn : l.next = some l') :
    (l.stack = [] ∧ l.inFlight = true ∧ l' = l.onClose) ∨ l.ret = some l' ∨ l.tick = some l' := by
  unfold Life.next at hn
  split at hn
  · rename_i hk
    split at hn
    · rename_i hf
      cases hn
      exact .inl ⟨hk, hf, rfl⟩
    · cases hn
  · exact .inr (.inl hn)
  · exact .inr (.inr hn)

theorem next_inv (h : LifeInv l) {l' : Life ε} (hn : l.next = some l') : LifeInv l' := by
  rcases next_cases hn with ⟨hk, hf, rfl⟩ | hr | ht
  · exact onClose_inv h hk hf
  · exact ret_inv h hr
  · exact tick_inv h ht

omit [DecidableEq ε] in
/-- what happens when foreign code only returns is an action of a family that has the close
callback, the return and the tick -/
theorem next_lift {W A : Type} {f : Life ε → W} (step : W → A → Option W) (ret tick callback : A)
    (hc : ∀ l : Life ε, l.stack = [] → l.inFlight = true → step (f l) callback = some (f l.onClose))
    (hr : ∀ l : Life ε, step (f l) ret = l.ret.map f)
    (ht : ∀ l : Life ε, step (f l) tick = l.tick.map f) {l' : Life ε} (hn : l.next = some l') :
    ∃ a ∈ [ret, tick, callback], step (f l) a = some (f l') := by
  rcases next_cases hn with ⟨hk, hf, rfl⟩ | hr' | ht'
  · exact ⟨callback, by simp, hc l hk hf⟩
  · exact ⟨ret, by simp, by rw [hr, hr']; rfl⟩
  · exact ⟨tick, by simp, by rw [ht, ht']; rfl⟩

end

end Close
