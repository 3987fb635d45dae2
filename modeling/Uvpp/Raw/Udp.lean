import Uvpp.Machine.Run
import Uvpp.Callback.Lending
import Uvpp.Core.Errno

/-!
# Receiving from a raw UDP socket

The receive side of `handles/udp.hpp`.  With `recvmmsg` one buffer of the allocator is delivered in
chunks, so the loan outlives the deliveries of the chunks.  Libuv delivers from the loop only; a
receiver may start, stop and close.

* `receiveStart`, `receiveStartStatic`, `receiveStop`, `close`   the calls;
* `alloc`, `receive`, `ret`      the trampolines, the second one up to the call of the receiver and
                                 after it;
* `closeDone`                    the close callback;
* `receive_pairs`                the contract, as long as the generation does not wrap;
* `wrapped_back`                 what happens when it does.
-/

namespace RawUdp
open Errno Callback

/-- the foreign code that runs -/
inductive Frame where
  /-- the receiver of a subscription; `chunk`: the notification is one of several -/
  | receiver (d : Delivery Nat) (chunk : Bool)
  /-- the close callback of the user -/
  | closeCallback

inductive Event where
  /-- a call returned this status -/
  | returned (e : Int)
  /-- the allocator that supplied a buffer -/
  | allocated (s : Option Nat)
  /-- the receiver that a notification was delivered to -/
  | received (s : Option Nat) (n : Int) (chunk : Bool)
  | closed
deriving DecidableEq

inductive Act where
  | init
  /-- `stop`, `start`: what `uv_udp_recv_stop` and `uv_udp_recv_start` answer, if they are called -/
  | receiveStart (valid : Bool) (stop start : Int)
  | receiveStartStatic (stop start : Int)
  | receiveStop (e : Int)
  /-- `callback`: the user has a close callback -/
  | close (callback : Bool)
  | alloc
  | receive (n : Int) (chunk : Bool) (stop : Int)
  /-- the foreign code returns -/
  | ret
  | closeDone
deriving DecidableEq

structure World where
  receives : Lending := {}
  receiving : Bool := false
  phase : Phase := .fresh
  /-- the user has a close callback -/
  callback : Bool := false
  frame : Option Frame := none
  log : List Event := []
  terminated : Bool := false

namespace World

def emit (w : World) (e : Event) : World := { w with log := w.log ++ [e] }

def isReady (w : World) : Bool := w.phase = .ready

/-- libuv may call -/
def native (w : World) : Bool := w.frame.isNone && (w.phase = .ready ∨ w.phase = .closing)

def retireReceive (w : World) : World :=
  { w with receiving := false, receives := w.receives.retire }

/-- the new subscription is there only after `uv_udp_recv_start` succeeded -/
def beginReceive (w : World) (start : Int) : World :=
  if start < 0 then w.emit (.returned start)
  else { w with receives := w.receives.publish, receiving := true }.emit (.returned start)

def startReceive (w : World) (stop start : Int) : World :=
  if w.receiving then
    if stop < 0 then w.emit (.returned stop) else w.retireReceive.beginReceive start
  else w.beginReceive start

def receiveStart (w : World) (valid : Bool) (stop start : Int) : World :=
  if !w.isReady then w.emit (.returned ebadf)
  else if !valid then w.emit (.returned einval)
  else w.startReceive stop start

def receiveStartStatic (w : World) (stop start : Int) : World :=
  if !w.isReady then w.emit (.returned ebadf) else w.startReceive stop start

def receiveStop (w : World) (e : Int) : World :=
  if !w.isReady then w.emit (.returned ebadf)
  else if e < 0 then w.emit (.returned e)
  else w.retireReceive.emit (.returned e)

def close (w : World) (callback : Bool) : World :=
  if !w.isReady then w else { w.retireReceive with phase := .closing, callback := callback }

/-- `alloc_trampoline`; the allocator only supplies a buffer -/
def alloc (w : World) : World :=
  { w with receives := w.receives.allocate }.emit (.allocated w.receives.allocate.loan.callback)

/-- the end of `receive_trampoline` -/
def endReceive (w : World) (d : Delivery Nat) (chunk : Bool) : World :=
  { w with receives := if chunk then w.receives.keep d else w.receives.giveBack d }

/-- `receive_trampoline` up to the call of the receiver -/
def receive (w : World) (n : Int) (chunk : Bool) (stop : Int) : World :=
  if n < 0 ∧ stop < 0 then { w with terminated := true }
  else
    let d := w.receives.pickUp.2
    let v : World := { w with receives := w.receives.pickUp.1 }.emit (.received d.callback n chunk)
    let v := if n < 0 then v.retireReceive else v
    match d.callback with
    | some _ => { v with frame := some (.receiver d chunk) }
    | none => v.endReceive d chunk

def ret (w : World) : Option World :=
  match w.frame with
  | some (.receiver d chunk) => some ({ w with frame := none }.endReceive d chunk)
  | some .closeCallback => some { w with frame := none }
  | none => none

/-- the loan is given up before the close callback of the user runs -/
def closeDone (w : World) : World :=
  { w with
      phase := .closed
      receives := w.receives.drop
      callback := false
      frame := if w.callback then some .closeCallback else none }.emit .closed

end World

def step (w : World) (a : Act) : Option World :=
  if w.terminated then none
  else
    match a with
    | .init => if w.phase = .fresh then some { w with phase := .ready } else none
    | .receiveStart valid stop start => some (w.receiveStart valid stop start)
    | .receiveStartStatic stop start => some (w.receiveStartStatic stop start)
    | .receiveStop e => some (w.receiveStop e)
    | .close callback => some (w.close callback)
    | .alloc => if w.native then some w.alloc else none
    | .receive n chunk stop => if w.native then some (w.receive n chunk stop) else none
    | .ret => w.ret
    | .closeDone => if w.phase = .closing ∧ w.frame.isNone then some w.closeDone else none

def sys : Sys World Act := ⟨{}, step⟩

/-! ## the invariant -/

/-- the delivery whose receiver runs -/
def running : Option Frame → List (Delivery Nat)
  | some (.receiver d _) => [d]
  | _ => []

/-- the subscription whose buffer libuv has: that of the last allocation, until a notification that
is not a chunk -/
def owed (log : List Event) : Option Nat :=
  log.foldl (fun o e => match e with
    | .allocated s => s
    | .received _ _ chunk => if chunk then o else none
    | .closed => none
    | .returned _ => o) none

/-- the subscription that is lent: a chunk keeps the one it was delivered to -/
def lent (log : List Event) : Option Nat :=
  log.foldl (fun o e => match e with
    | .allocated s => s
    | .received s _ chunk => if chunk then s else none
    | .closed => none
    | .returned _ => o) none

structure Inv (w : World) : Prop where
  sound : w.receives.Sound (running w.frame)
  flag : w.receiving = w.receives.live.isSome
  closing : w.phase = .closing ∨ w.phase = .closed → w.receives.live = none
  /-- the delivery whose receiver runs holds the subscription, and so long there is no loan -/
  busy : ∀ d chunk, w.frame = some (.receiver d chunk) → w.receives.loan.callback = none ∧
    d.callback.isSome ∧ lent w.log = if chunk then d.callback else none
  loan : running w.frame = [] → w.receives.loan.callback = lent w.log
  closed : w.phase = .closed → lent w.log = none
  callback : w.frame = some .closeCallback → w.phase = .closed
  owed : ∀ s, owed w.log = some s → lent w.log = some s

/-- the generation does not wrap: a step replaces at most twice -/
def Fresh (w : World) (_ : Act) : Prop := w.receives.slot.generation + 2 < 2 ^ 64

instance (w : World) (a : Act) : Decidable (Fresh w a) := inferInstanceAs (Decidable (_ < _))

section
variable {w w' : World}

section
variable (log : List Event)

@[simp] theorem owed_returned (e : Int) : owed (log ++ [.returned e]) = owed log := by
  simp [owed]

@[simp] theorem lent_returned (e : Int) : lent (log ++ [.returned e]) = lent log := by
  simp [lent]

@[simp] theorem owed_allocated (s : Option Nat) : owed (log ++ [.allocated s]) = s := by
  simp [owed]

@[simp] theorem lent_allocated (s : Option Nat) : lent (log ++ [.allocated s]) = s := by
  simp [lent]

@[simp] theorem owed_received (s : Option Nat) (n : Int) (chunk : Bool) :
    owed (log ++ [.received s n chunk]) = if chunk then owed log else none := by
  simp [owed]

@[simp] theorem lent_received (s : Option Nat) (n : Int) (chunk : Bool) :
    lent (log ++ [.received s n chunk]) = if chunk then s else none := by
  simp [lent]

@[simp] theorem owed_closed : owed (log ++ [.closed]) = none := by
  simp [owed]

@[simp] theorem lent_closed : lent (log ++ [.closed]) = none := by
  simp [lent]

end

theorem inv_init : Inv {} where
  sound := Lending.sound_init
  flag := rfl
  closing := fun _ => rfl
  busy := nofun
  loan := fun _ => rfl
  closed := fun _ => rfl
  callback := nofun
  owed := nofun

theorem Inv.returned (h : Inv w) (e : Int) : Inv (w.emit (.returned e)) := by
  have hl : lent (w.emit (.returned e)).log = lent w.log := lent_returned w.log e
  have ho : RawUdp.owed (w.emit (.returned e)).log = RawUdp.owed w.log := owed_returned w.log e
  refine ⟨h.sound, h.flag, h.closing, ?_, ?_, ?_, h.callback, ?_⟩
  · rw [hl]
    exact h.busy
  · rw [hl]
    exact h.loan
  · rw [hl]
    exact h.closed
  · rw [hl, ho]
    exact h.owed

theorem Inv.retire (h : Inv w) (hw : w.receives.slot.generation + 1 < 2 ^ 64) :
    Inv w.retireReceive :=
  ⟨h.sound.retire hw, rfl, fun _ => rfl, h.busy, h.loan, h.closed, h.callback, h.owed⟩

theorem beginReceive_inv (h : Inv w) (hw : w.receives.slot.generation + 1 < 2 ^ 64)
    (hp : w.phase = .ready) (start : Int) : Inv (w.beginReceive start) := by
  unfold World.beginReceive
  split
  · exact h.returned start
  · have hbegun : Inv { w with receives := w.receives.publish, receiving := true } := by
      refine ⟨h.sound.publish hw, rfl, ?_, h.busy, h.loan, h.closed, h.callback, h.owed⟩
      show w.phase = .closing ∨ w.phase = .closed → _
      rw [hp]
      rintro (h | h) <;> cases h
    exact hbegun.returned start

theorem startReceive_inv (h : Inv w) (hw : w.receives.slot.generation + 2 < 2 ^ 64)
    (hp : w.phase = .ready) (stop start : Int) : Inv (w.startReceive stop start) := by
  have hw1 : w.receives.slot.generation + 1 < 2 ^ 64 := by omega
  unfold World.startReceive
  split
  · split
    · exact h.returned stop
    · refine beginReceive_inv (h.retire hw1) ?_ hp start
      show w.receives.retire.slot.generation + 1 < 2 ^ 64
      rw [Lending.retire_generation _ hw1]
      omega
  · exact beginReceive_inv h hw1 hp start

theorem close_inv (h : Inv w) (hw : w.receives.slot.generation + 1 < 2 ^ 64) (b : Bool) :
    Inv (w.close b) := by
  unfold World.close
  split
  · exact h
  · rename_i hr
    have hp := Phase.eq_ready hr
    refine ⟨h.sound.retire hw, rfl, fun _ => rfl, h.busy, h.loan, nofun, fun hf => ?_, h.owed⟩
    have hc := h.callback hf
    rw [hp] at hc
    cases hc

/-! ## the trampolines -/

theorem native_frame (hn : w.native = true) : w.frame = none ∧ w.phase ≠ .closed := by
  unfold World.native at hn
  obtain ⟨hf, hp⟩ := Bool.and_eq_true_iff.mp hn
  refine ⟨by simpa using hf, fun hc => ?_⟩
  rw [hc] at hp
  simp at hp

theorem alloc_inv (h : Inv w) (hn : w.native = true) : Inv w.alloc := by
  obtain ⟨hf, hp⟩ := native_frame hn
  have hlent : lent w.alloc.log = w.receives.allocate.loan.callback := lent_allocated w.log _
  refine ⟨h.sound.allocate ?_, h.flag, h.closing, ?_, ?_, fun hc => absurd hc hp, h.callback, ?_⟩
  · rw [hf]
    exact nofun
  · intro d chunk hd
    have hd' : w.frame = some (.receiver d chunk) := hd
    rw [hf] at hd'
    cases hd'
  · exact fun _ => hlent.symm
  · intro s hs
    rw [hlent]
    exact (owed_allocated w.log _).symm.trans hs

/-- what the receiver had goes back to where the next notification finds it -/
theorem endReceive_inv {d : Delivery Nat} {chunk : Bool} (h : Inv w)
    (hf : w.frame = some (.receiver d chunk)) : Inv ({ w with frame := none }.endReceive d chunk) := by
  obtain ⟨hloan, hd, hlent⟩ := h.busy d chunk hf
  obtain ⟨s, hd⟩ := Option.isSome_iff_exists.mp hd
  have hsound : w.receives.Sound [d] := by
    have hs := h.sound
    rw [hf] at hs
    exact hs
  unfold World.endReceive
  cases chunk with
  | true =>
    exact ⟨hsound.keep hd hloan, h.flag, h.closing, nofun, fun _ => hlent.symm, h.closed, nofun,
      h.owed⟩
  | false =>
    exact ⟨hsound.giveBack hd, h.flag, h.closing, nofun, fun _ => hloan.trans hlent.symm, h.closed,
      nofun, h.owed⟩

/-- nobody was there for the notification, and nothing is kept for the next chunk -/
theorem endReceive_nobody {d : Delivery Nat} {chunk : Bool} (h : Inv w) (hf : w.frame = none)
    (hslot : w.receives.slot.callback = none) (hloan : w.receives.loan.callback = none)
    (hd : d.callback = none) (hgen : d.generation ≤ w.receives.slot.generation) :
    Inv (w.endReceive d chunk) := by
  unfold World.endReceive
  cases chunk with
  | false =>
    simp only [Bool.false_eq_true, if_false, Lending.giveBack_none _ _ hslot hd]
    exact h
  | true =>
    have hsound : w.receives.Sound [] := by
      have hs := h.sound
      rw [hf] at hs
      exact hs
    refine ⟨?_, h.flag, h.closing, fun d' chunk' hd' => ?_, fun hr => ?_, h.closed, h.callback,
      h.owed⟩
    · show (w.receives.keep d).Sound (running w.frame)
      rw [hf]
      exact hsound.keep_none hd hgen (hsound.live_none hslot hloan) hloan
    · have hd'' : w.frame = some (.receiver d' chunk') := hd'
      rw [hf] at hd''
      cases hd''
    · show d.callback = lent w.log
      rw [hd, ← h.loan hr, hloan]

theorem receive_inv (h : Inv w) (hw : w.receives.slot.generation + 1 < 2 ^ 64)
    (hn : w.native = true) (n : Int) (chunk : Bool) (stop : Int) :
    Inv (w.receive n chunk stop) := by
  obtain ⟨hf, hp⟩ := native_frame hn
  unfold World.receive
  split
  · exact ⟨h.sound, h.flag, h.closing, h.busy, h.loan, h.closed, h.callback, h.owed⟩
  dsimp only
  set d := w.receives.pickUp.2 with hd
  set v : World :=
    { w with receives := w.receives.pickUp.1 }.emit (.received d.callback n chunk) with hv
  have hsound : w.receives.Sound [] := by
    have hs := h.sound
    rw [hf] at hs
    exact hs
  have hflag : v.receiving = v.receives.live.isSome := by
    show w.receiving = w.receives.pickUp.1.live.isSome
    rw [Lending.pickUp_live]
    exact h.flag
  have hclosing : v.phase = .closing ∨ v.phase = .closed → v.receives.live = none := by
    show _ → w.receives.pickUp.1.live = none
    rw [Lending.pickUp_live]
    exact h.closing
  have hloan : v.receives.loan.callback = none := by
    show w.receives.pickUp.1.loan.callback = none
    rw [Lending.pickUp_loan]
  have hlent : lent v.log = if chunk then d.callback else none := lent_received w.log _ n chunk
  have hw' : v.receives.slot.generation + 1 < 2 ^ 64 := by
    show w.receives.pickUp.1.slot.generation + 1 < 2 ^ 64
    rwa [Lending.pickUp_generation]
  -- what is owed is delivered to the subscription that owes it
  have howed : ∀ s, owed v.log = some s → lent v.log = some s := by
    intro s hs
    rw [show owed v.log = _ from owed_received w.log _ n chunk] at hs
    rw [hlent]
    cases chunk with
    | false => cases hs
    | true =>
      have hl : w.receives.loan.callback = some s := by
        rw [h.loan (by rw [hf]; rfl)]
        exact h.owed s hs
      show w.receives.pickUp.2.callback = some s
      rw [Lending.pickUp_of_loan _ hl]
      exact hl
  cases hcb : d.callback with
  | some s =>
    have hpush : Inv { v with frame := some (.receiver d chunk) } := by
      refine ⟨hsound.pickUp_some hcb, hflag, hclosing, ?_, nofun, fun hc => absurd hc hp, nofun,
        howed⟩
      rintro d' chunk' ⟨⟩
      exact ⟨hloan, by rw [hcb]; rfl, hlent⟩
    dsimp only
    split
    · exact hpush.retire hw'
    · exact hpush
  | none =>
    obtain ⟨hpick, hslot, hempty, hgen⟩ := hsound.pickUp_none hcb
    have hslot' : v.receives.slot.callback = none := by
      show w.receives.pickUp.1.slot.callback = none
      rw [hslot, hempty]
    have hnone : lent v.log = none := by
      rw [hlent, hcb]
      split <;> rfl
    have hframe : v.frame = none := hf
    have hsame : Inv v := by
      refine ⟨?_, hflag, hclosing, ?_, fun _ => hloan.trans hnone.symm, fun _ => hnone, ?_, howed⟩
      · rw [hframe]
        exact hpick
      · intro d' chunk' hd'
        rw [hframe] at hd'
        cases hd'
      · intro hc
        rw [hframe] at hc
        cases hc
    have hgen' : d.generation = v.receives.slot.generation := by
      show d.generation = w.receives.pickUp.1.slot.generation
      rw [Lending.pickUp_generation]
      exact hgen
    dsimp only
    split
    · refine endReceive_nobody (hsame.retire hw') hframe rfl hloan hcb ?_
      show d.generation ≤ v.receives.retire.slot.generation
      rw [Lending.retire_generation _ hw', hgen']
      omega
    · exact endReceive_nobody hsame hframe hslot' hloan hcb (Nat.le_of_eq hgen')

theorem ret_inv (h : Inv w) (hs : w.ret = some w') : Inv w' := by
  unfold World.ret at hs
  split at hs
  · rename_i d chunk hf
    cases hs
    exact endReceive_inv h hf
  · rename_i hf
    cases hs
    have hsound := h.sound
    rw [hf] at hsound
    refine ⟨hsound, h.flag, h.closing, nofun, fun _ => h.loan ?_, h.closed, nofun, h.owed⟩
    rw [hf]
    rfl
  · cases hs

theorem closeDone_inv (h : Inv w) (hp : w.phase = .closing) (hf : w.frame = none) :
    Inv w.closeDone := by
  have hlent : lent w.closeDone.log = none := lent_closed w.log
  have hrun : running w.closeDone.frame = [] := by
    unfold World.closeDone World.emit
    dsimp only
    split <;> rfl
  refine ⟨?_, h.flag, fun _ => h.closing (.inl hp), ?_, fun _ => hlent.symm, fun _ => hlent,
    fun _ => rfl, ?_⟩
  · rw [hrun]
    have hsound := h.sound.drop (h.closing (.inl hp))
    rw [hf] at hsound
    exact hsound
  · intro d chunk hd
    rw [hd] at hrun
    cases hrun
  · intro s hs
    rw [show owed w.closeDone.log = none from owed_closed w.log] at hs
    cases hs

theorem step_inv (h : Inv w) {a : Act} (hf : Fresh w a) (hs : step w a = some w') : Inv w' := by
  have hw : w.receives.slot.generation + 1 < 2 ^ 64 := by
    unfold Fresh at hf
    omega
  unfold step at hs
  split at hs
  · cases hs
  cases a with
  | init =>
    obtain ⟨hp, rfl⟩ := by simpa using hs
    refine ⟨h.sound, h.flag, ?_, h.busy, h.loan, nofun, fun hc => ?_, h.owed⟩
    · rintro (h | h) <;> cases h
    · rw [h.callback hc] at hp
      cases hp
  | receiveStart valid stop start =>
    cases hs
    unfold World.receiveStart
    split
    · exact h.returned _
    rename_i hp
    split
    · exact h.returned _
    · exact startReceive_inv h hf (Phase.eq_ready hp) stop start
  | receiveStartStatic stop start =>
    cases hs
    unfold World.receiveStartStatic
    split
    · exact h.returned _
    · rename_i hp
      exact startReceive_inv h hf (Phase.eq_ready hp) stop start
  | receiveStop e =>
    cases hs
    unfold World.receiveStop
    repeat' split
    · exact h.returned _
    · exact h.returned _
    · exact (h.retire hw).returned _
  | close b =>
    cases hs
    exact close_inv h hw b
  | alloc =>
    obtain ⟨hn, rfl⟩ := by simpa using hs
    exact alloc_inv h hn
  | receive n chunk stop =>
    obtain ⟨hn, rfl⟩ := by simpa using hs
    exact receive_inv h hw hn n chunk stop
  | ret => exact ret_inv h hs
  | closeDone =>
    obtain ⟨⟨hp, hfr⟩, rfl⟩ := by simpa using hs
    exact closeDone_inv h hp hfr

theorem run_inv {as : List Act} (hr : sys.run sys.init as = some w)
    (hf : sys.Meets Fresh sys.init as) : Inv w :=
  Sys.run_inv_meets (P := Inv) (fun _ _ _ hi hc hs => step_inv hi hc hs) inv_init hf hr

/-! ## the contract -/

/-- the step retires what was started before: a stop, a replacement, an error or a close -/
def Retires (w : World) : Act → Prop
  | .receiveStart valid stop start =>
    w.phase = .ready ∧ valid = true ∧ (w.receiving = true → 0 ≤ stop) ∧ 0 ≤ start
  | .receiveStartStatic stop start =>
    w.phase = .ready ∧ (w.receiving = true → 0 ≤ stop) ∧ 0 ≤ start
  | .receiveStop e => w.phase = .ready ∧ 0 ≤ e
  | .close _ => w.phase = .ready
  | .receive n _ stop => n < 0 ∧ 0 ≤ stop
  | _ => False

structure Paired (w : World) : Prop where
  orderly : w.receives.Orderly (running w.frame) w.receiving
  /-- a notification goes to the subscription whose buffer libuv has -/
  delivers : ∀ s n chunk stop w', owed w.log = some s → (n < 0 → 0 ≤ stop) →
    step w (.receive n chunk stop) = some w' →
    w'.log = w.log ++ [.received (some s) n chunk]
  /-- the loan is that of the last allocation or chunk, and while a receiver runs there is none -/
  loan : w.receives.loan.callback = if running w.frame = [] then lent w.log else none
  retires : ∀ a w', Retires w a → step w a = some w' →
    ∀ s < w.receives.started, s ∈ w'.receives.retired
  /-- and for good -/
  stays : ∀ a w', step w a = some w' → w.receives.retired ⊆ w'.receives.retired
  closed : w.frame = some .closeCallback → w.receives.loan.callback = none

theorem receive_owed (h : Inv w) {s : Nat} {n : Int} {chunk : Bool} {stop : Int}
    (ho : owed w.log = some s) (hstop : n < 0 → 0 ≤ stop)
    (hs : step w (.receive n chunk stop) = some w') :
    w'.log = w.log ++ [.received (some s) n chunk] := by
  unfold step at hs
  split at hs
  · cases hs
  obtain ⟨hn, rfl⟩ := by simpa using hs
  have hloan : w.receives.loan.callback = some s := by
    rw [h.loan (by rw [(native_frame hn).1]; rfl)]
    exact h.owed s ho
  have hd : w.receives.pickUp.2.callback = some s := by
    rw [Lending.pickUp_of_loan _ hloan]
    exact hloan
  unfold World.receive
  rw [if_neg (by omega)]
  dsimp only
  rw [hd]
  dsimp only
  split <;> rfl

theorem startReceive_passes (stop start : Int) :
    w.receives.Passes (w.startReceive stop start).receives
      ((w.receiving = true → 0 ≤ stop) ∧ 0 ≤ start) := by
  unfold World.startReceive World.beginReceive
  repeat' split
  · rename_i hr hstop
    exact .kept fun h => absurd (h.1 hr) (by omega)
  · exact .inl rfl
  · exact .inl (List.append_nil _)
  · exact .kept fun h => absurd h.2 (by omega)
  · exact .inl rfl

theorem endReceive_retired (d : Delivery Nat) (chunk : Bool) :
    (w.endReceive d chunk).receives.retired = w.receives.retired := by
  unfold World.endReceive
  cases chunk <;> rfl

theorem receive_retired (n : Int) (chunk : Bool) (stop : Int) :
    (w.receive n chunk stop).receives.retired =
      if n < 0 ∧ 0 ≤ stop then w.receives.retire.retired else w.receives.retired := by
  unfold World.receive
  by_cases hn : n < 0
  · by_cases hstop : stop < 0
    · rw [if_pos ⟨hn, hstop⟩, if_neg (by omega)]
    · rw [if_neg (by omega), if_pos (by omega)]
      dsimp only
      rw [if_pos hn]
      split <;> simp [endReceive_retired, World.retireReceive, World.emit, Lending.retire]
  · rw [if_neg (by omega), if_neg (by omega)]
    dsimp only
    rw [if_neg hn]
    split <;> simp [endReceive_retired, World.emit]

theorem step_passes {a : Act} (hs : step w a = some w') :
    w.receives.Passes w'.receives (Retires w a) := by
  have hready : ¬ (!w.isReady) = false → w.phase ≠ .ready := by simp [World.isReady]
  unfold step at hs
  split at hs
  · cases hs
  cases a with
  | init | alloc | closeDone =>
    obtain ⟨-, rfl⟩ := by simpa using hs
    exact .kept id
  | receiveStart valid stop start =>
    cases hs
    unfold World.receiveStart
    split
    · rename_i hp
      exact .kept fun h => hready (by simp [hp]) h.1
    split
    · rename_i hv
      exact .kept fun h => by simp [h.2.1] at hv
    · exact (startReceive_passes stop start).weaken fun h => h.2.2
  | receiveStartStatic stop start =>
    cases hs
    unfold World.receiveStartStatic
    split
    · rename_i hp
      exact .kept fun h => hready (by simp [hp]) h.1
    · exact (startReceive_passes stop start).weaken fun h => h.2
  | receiveStop e =>
    cases hs
    unfold World.receiveStop
    split
    · rename_i hp
      exact .kept fun h => hready (by simp [hp]) h.1
    split
    · exact .kept fun h => absurd h.2 (by omega)
    · exact .inl rfl
  | close b =>
    cases hs
    unfold World.close
    split
    · rename_i hp
      exact .kept (hready (by simp [hp]))
    · exact .inl rfl
  | receive n chunk stop =>
    obtain ⟨-, rfl⟩ := by simpa using hs
    unfold Lending.Passes
    rw [receive_retired]
    split
    · exact .inl rfl
    · rename_i hn
      exact .inr ⟨hn, rfl⟩
  | ret =>
    have hs' : w.ret = some w' := hs
    unfold World.ret at hs'
    split at hs' <;> cases hs'
    · exact .inr ⟨id, endReceive_retired ..⟩
    · exact .kept id

/-- receiving from a raw UDP socket, as long as the generation does not wrap -/
theorem receive_pairs (as : List Act) (w : World) (hr : sys.run sys.init as = some w)
    (hf : sys.Meets Fresh sys.init as) : Paired w := by
  have h := run_inv hr hf
  refine ⟨h.sound.orderly h.flag, fun s n chunk stop w' ho hstop hs => receive_owed h ho hstop hs,
    ?_, fun a w' hret hs s hlt => (step_passes hs).retires hret h.sound hlt, fun a w' hs => (step_passes hs).stays,
    fun hc => ?_⟩
  · cases hfr : w.frame with
    | none => exact h.loan (by rw [hfr]; rfl)
    | some f =>
      cases f with
      | receiver d chunk => exact (h.busy d chunk hfr).1
      | closeCallback => exact h.loan (by rw [hfr]; rfl)
  · rw [h.loan (by rw [hc]; rfl)]
    exact h.closed (h.callback hc)

end

/-- A receiver replaces its subscription within the first chunk of a buffer and closes within the
last one; both chunks are its own. -/
def chunkRun : List Act :=
  [.init, .receiveStart true 0 0, .alloc, .receive 8 true 0, .receiveStartStatic 0 0, .ret,
    .receive 8 true 0, .close true, .ret, .closeDone]

theorem receive_pairs_chunkRun : ∃ w, sys.run sys.init chunkRun = some w ∧
    .received (some 0) 8 true ∈ w.log ∧ w.receives.retired = [0, 1] ∧ Paired w :=
  ⟨_, rfl, by decide, rfl, receive_pairs chunkRun _ rfl (by decide)⟩

/-! ## a generation that wraps -/

/-- the receiver of the first subscription has stopped it once -/
def stoppedInside : List Act :=
  [.init, .receiveStart true 0 0, .alloc, .receive 1 false 0, .receiveStop 0]

/-- after `k` more stops -/
structure Stopped (k : Nat) (w : World) : Prop where
  phase : w.phase = .ready
  running : w.terminated = false
  receiving : w.receiving = false
  frame : w.frame = some (.receiver ⟨some 0, 1⟩ false)
  retired : 0 ∈ w.receives.retired
  generation : w.receives.slot.generation = (2 + k) % 2 ^ 64

theorem Stopped.stop {k : Nat} {w : World} (h : Stopped k w) :
    ∃ w', sys.step w (.receiveStop 0) = some w' ∧ Stopped (k + 1) w' := by
  refine ⟨w.retireReceive.emit (.returned 0), ?_, h.phase, h.running, rfl, h.frame,
    List.mem_append_left _ h.retired, ?_⟩
  · simp [sys, step, h.running, World.receiveStop, World.isReady, h.phase]
  · show (w.receives.slot.generation + 1) % 2 ^ 64 = _
    rw [h.generation, Nat.mod_add_mod, Nat.add_assoc]

/-- A receiver that stops `2 ^ 64` times: its subscription is retired, and when the receiver
returns it is active again, although the socket does not receive. -/
theorem wrapped_back : ∃ as w, sys.run sys.init as = some w ∧ w.receiving = false ∧
    0 ∈ w.receives.retired ∧ w.receives.slot.callback = some 0 := by
  obtain ⟨w0, hrun0, h0⟩ : ∃ w, sys.run sys.init stoppedInside = some w ∧ Stopped 0 w :=
    ⟨_, rfl, rfl, rfl, rfl, rfl, List.mem_singleton_self 0, rfl⟩
  obtain ⟨w1, hrun1, h1⟩ := Sys.run_replicate (S := sys) (P := Stopped)
    (fun k w h => h.stop) (2 ^ 64 - 1) h0
  have hone : w1.receives.slot.generation = 1 := h1.generation
  have hret : sys.step w1 .ret =
      some { w1 with frame := none, receives := w1.receives.giveBack ⟨some 0, 1⟩ } := by
    have hs : step w1 .ret = w1.ret := if_neg (by simp [h1.running])
    show step w1 .ret = _
    rw [hs]
    unfold World.ret
    rw [h1.frame]
    rfl
  refine ⟨stoppedInside ++ (List.replicate (2 ^ 64 - 1) (.receiveStop 0) ++ [.ret]),
    { w1 with frame := none, receives := w1.receives.giveBack ⟨some 0, 1⟩ }, ?_, h1.receiving,
    h1.retired, ?_⟩
  · rw [Sys.run_append, hrun0]
    show sys.run w0 _ = _
    rw [Sys.run_append, hrun1]
    exact sys.run_of_step hret []
  · show (w1.receives.slot.restore ⟨some 0, 1⟩).callback = some 0
    unfold Slot.restore
    rw [if_pos hone]

end RawUdp
