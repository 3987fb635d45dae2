import Uvpp.Machine.Run
import Uvpp.Callback.Lending
import Uvpp.Core.Errno

/-!
# Reading from a raw stream

The read side of `handles/stream.hpp`.  Libuv calls the allocation and the read trampoline from the
loop, or inline while `uv_read_start` runs; a reader is foreign code that may start, stop and close
in turn, so the calls that have not returned are a stack.

* `readStart`, `readStartStatic`, `startReturns`   `read_start`, `read_start_static`: up to the
                                                   native call, and after it;
* `readStop`, `close`, `closeReset`                the other calls;
* `alloc`, `read`, `ret`                           the trampolines, the second one up to the call
                                                   of the reader and after it;
* `closeDone`                                      the close callback;
* `read_pairs`                                     the contract.
-/

namespace RawStream
open Errno Callback

/-- a call that has not returned -/
inductive Frame where
  /-- `uv_read_start`, called at this generation -/
  | starting (generation : Nat)
  /-- the reader of a subscription -/
  | reader (d : Delivery Nat)
  /-- the close callback of the user -/
  | closeCallback

inductive Event where
  /-- a call returned this status -/
  | returned (e : Int)
  /-- the allocator that supplied a buffer -/
  | allocated (s : Option Nat)
  /-- the reader that a notification was delivered to -/
  | read (s : Option Nat) (n : Int)
deriving DecidableEq

inductive Act where
  | init
  /-- `valid`: the handle can listen, and neither callback nor backlog are empty -/
  | listen (valid : Bool) (e : Int) (active : Bool)
  /-- an accept error with which native listening ended -/
  | acceptError
  /-- `stop`: what `uv_read_stop` answers, if it is called -/
  | readStart (valid : Bool) (stop : Int)
  | readStartStatic (stop : Int)
  /-- `uv_read_start` returns -/
  | startReturns (e : Int)
  | readStop (e : Int)
  /-- `callback`: the user has a close callback -/
  | close (callback : Bool)
  | closeReset (callback : Bool) (e : Int)
  | alloc
  | read (n : Int) (stop : Int)
  /-- the foreign code on top returns -/
  | ret
  | closeDone
deriving DecidableEq

structure World where
  reads : Lending := {}
  reading : Bool := false
  listening : Bool := false
  phase : Phase := .fresh
  /-- the user has a close callback -/
  callback : Bool := false
  stack : List Frame := []
  log : List Event := []
  terminated : Bool := false

namespace World

def returns (w : World) (e : Int) : World := { w with log := w.log ++ [.returned e] }

def isReady (w : World) : Bool := w.phase = .ready

/-- foreign code may run: the loop is at rest, or a callback is on top -/
def user (w : World) : Bool :=
  match w.stack with
  | .starting _ :: _ => false
  | _ => true

/-- libuv may call: from the loop, or from within `uv_read_start` -/
def native (w : World) : Bool :=
  match w.stack with
  | [] | .starting _ :: _ => w.phase = .ready ∨ w.phase = .closing
  | _ => false

def listen (w : World) (valid : Bool) (e : Int) (active : Bool) : World :=
  if !w.isReady then w.returns ebadf
  else if !valid then w.returns einval
  else if 0 ≤ e then { w with listening := true }.returns e
  else { w with listening := w.listening && active }.returns e

/-- `reading_` is cleared and the active subscription retired -/
def stopReading (w : World) : World := { w with reading := false, reads := w.reads.retire }

/-- the new subscription is there before `uv_read_start` is called -/
def beginRead (w : World) : World :=
  { w with
      reads := w.reads.publish
      reading := true
      stack := .starting w.reads.publish.slot.generation :: w.stack }

def startRead (w : World) (stop : Int) : World :=
  if w.listening then w.returns einval
  else if w.reading then
    if stop < 0 then w.returns stop else w.stopReading.beginRead
  else w.beginRead

def readStart (w : World) (valid : Bool) (stop : Int) : World :=
  if !w.isReady then w.returns ebadf
  else if !valid then w.returns einval
  else w.startRead stop

def readStartStatic (w : World) (stop : Int) : World :=
  if !w.isReady then w.returns ebadf else w.startRead stop

/-- `start_read` after `uv_read_start` -/
def startReturns (w : World) (e : Int) : Option World :=
  match w.stack with
  | .starting g :: rest =>
    let w := { w with stack := rest }
    if e < 0 ∧ w.reads.slot.generation = g then some (w.stopReading.returns e)
    else some (w.returns e)
  | _ => none

def readStop (w : World) (e : Int) : World :=
  if !w.isReady then w.returns ebadf
  else if e < 0 then w.returns e
  else w.stopReading.returns e

/-- `uv_close` and `release_callbacks` -/
def beginClose (w : World) (callback : Bool) : World :=
  { w.stopReading with phase := .closing, listening := false, callback := callback }

def close (w : World) (callback : Bool) : World :=
  if !w.isReady then w else w.beginClose callback

def closeReset (w : World) (callback : Bool) (e : Int) : World :=
  if !w.isReady then w.returns ebadf
  else if e < 0 then w.returns e
  else (w.beginClose callback).returns e

/-- `alloc_trampoline`; the allocator only supplies a buffer -/
def alloc (w : World) : World :=
  { w with
      reads := w.reads.allocate
      log := w.log ++ [.allocated w.reads.allocate.loan.callback] }

/-- `read_trampoline` up to the call of the reader -/
def read (w : World) (n stop : Int) : World :=
  if n < 0 ∧ stop < 0 then { w with terminated := true }
  else
    let d := w.reads.pickUp.2
    let v : World := { w with reads := w.reads.pickUp.1, log := w.log ++ [.read d.callback n] }
    let v := if n < 0 then v.stopReading else v
    match d.callback with
    | some _ => { v with stack := .reader d :: v.stack }
    | none => { v with reads := v.reads.giveBack d }

def ret (w : World) : Option World :=
  match w.stack with
  | .reader d :: rest => some { w with reads := w.reads.giveBack d, stack := rest }
  | .closeCallback :: rest => some { w with stack := rest }
  | _ => none

/-- the loan is given up before the close callback of the user runs -/
def closeDone (w : World) : World :=
  { w with
      phase := .closed
      reads := w.reads.drop
      callback := false
      stack := if w.callback then [.closeCallback] else [] }

end World

def step (w : World) (a : Act) : Option World :=
  if w.terminated then none
  else
    match a with
    | .init => if w.user ∧ w.phase = .fresh then some { w with phase := .ready } else none
    | .listen valid e active => if w.user then some (w.listen valid e active) else none
    | .acceptError => if w.stack.isEmpty then some { w with listening := false } else none
    | .readStart valid stop => if w.user then some (w.readStart valid stop) else none
    | .readStartStatic stop => if w.user then some (w.readStartStatic stop) else none
    | .startReturns e => w.startReturns e
    | .readStop e => if w.user then some (w.readStop e) else none
    | .close callback => if w.user then some (w.close callback) else none
    | .closeReset callback e => if w.user then some (w.closeReset callback e) else none
    | .alloc => if w.native then some w.alloc else none
    | .read n stop => if w.native then some (w.read n stop) else none
    | .ret => w.ret
    | .closeDone => if w.phase = .closing ∧ w.stack.isEmpty then some w.closeDone else none

def sys : Sys World Act := ⟨{}, step⟩

/-! ## the invariant -/

/-- the deliveries whose readers run -/
def running (stack : List Frame) : List (Delivery Nat) :=
  stack.filterMap fun
    | .reader d => some d
    | _ => none

/-- the subscription whose buffer libuv has: the last allocation, unless it was read into -/
def owed (log : List Event) : Option Nat :=
  log.foldl (fun o e => match e with
    | .allocated s => s
    | .read .. => none
    | .returned _ => o) none

/-- the deliveries below `uv_read_start` are older than the subscription it was called for -/
def Below : Frame → Frame → Prop
  | .starting g, .reader d => d.generation < g
  | _, _ => True

structure Inv (w : World) : Prop where
  sound : w.reads.Sound (running w.stack)
  flag : w.reading = w.reads.live.isSome
  below : w.stack.Pairwise Below
  starting : ∀ g, .starting g ∈ w.stack → g ≤ w.reads.slot.generation
  closing : w.phase = .closing ∨ w.phase = .closed → w.reads.live = none
  closed : w.phase = .closed → w.reads.loan.callback = none
  callback : .closeCallback ∈ w.stack → w.phase = .closed
  readers : ∀ d ∈ running w.stack, d.callback.isSome
  owed : w.phase ≠ .closed → ∀ s, owed w.log = some s → w.reads.loan.callback = some s

/-- the generation does not wrap: a step replaces at most twice -/
def Fresh (w : World) (_ : Act) : Prop := w.reads.slot.generation + 2 < 2 ^ 64

instance (w : World) (a : Act) : Decidable (Fresh w a) := inferInstanceAs (Decidable (_ < _))

section
variable {w w' : World}

theorem owed_returned (log : List Event) (e : Int) : owed (log ++ [.returned e]) = owed log := by
  simp [owed]

theorem owed_allocated (log : List Event) (s : Option Nat) : owed (log ++ [.allocated s]) = s := by
  simp [owed]

theorem owed_read (log : List Event) (s : Option Nat) (n : Int) :
    owed (log ++ [.read s n]) = none := by
  simp [owed]

theorem inv_init : Inv {} where
  sound := Lending.sound_init
  flag := rfl
  below := .nil
  starting := nofun
  closing := fun _ => rfl
  closed := fun _ => rfl
  callback := nofun
  readers := nofun
  owed := nofun

theorem Inv.returns (h : Inv w) (e : Int) : Inv (w.returns e) :=
  ⟨h.sound, h.flag, h.below, h.starting, h.closing, h.closed, h.callback, h.readers,
    fun hp s hs => h.owed hp s ((owed_returned w.log e).symm.trans hs)⟩

theorem Inv.setListening (h : Inv w) (b : Bool) : Inv { w with listening := b } :=
  ⟨h.sound, h.flag, h.below, h.starting, h.closing, h.closed, h.callback, h.readers, h.owed⟩

theorem Inv.stopReading (h : Inv w) (hw : w.reads.slot.generation + 1 < 2 ^ 64) :
    Inv w.stopReading where
  sound := h.sound.retire hw
  flag := rfl
  below := h.below
  starting := fun g hg => by
    have hle := h.starting g hg
    show g ≤ w.reads.retire.slot.generation
    rw [Lending.retire_generation _ hw]
    omega
  closing := fun _ => rfl
  closed := h.closed
  callback := h.callback
  readers := h.readers
  owed := h.owed

theorem Inv.beginRead (h : Inv w) (hw : w.reads.slot.generation + 1 < 2 ^ 64)
    (hp : w.phase = .ready) : Inv w.beginRead where
  sound := h.sound.publish hw
  flag := rfl
  below := by
    refine List.pairwise_cons.mpr ⟨?_, h.below⟩
    intro f hf
    cases f with
    | reader d =>
      have hd : d ∈ running w.stack := List.mem_filterMap.mpr ⟨_, hf, rfl⟩
      have hle := (h.sound.fits d (List.mem_cons_of_mem _ hd)).1
      show d.generation < (w.reads.slot.generation + 1) % 2 ^ 64
      rw [Nat.mod_eq_of_lt hw]
      omega
    | starting g => trivial
    | closeCallback => trivial
  starting := by
    intro g hg
    rcases List.mem_cons.mp hg with hg | hg
    · cases hg
      exact Nat.le_refl _
    · have hle := h.starting g hg
      show g ≤ (w.reads.slot.generation + 1) % 2 ^ 64
      rw [Nat.mod_eq_of_lt hw]
      omega
  closing := by
    show w.phase = .closing ∨ w.phase = .closed → _
    rw [hp]
    rintro (h | h) <;> cases h
  closed := fun hc => by
    have hc' : w.phase = .closed := hc
    rw [hp] at hc'
    cases hc'
  callback := by
    intro hm
    rcases List.mem_cons.mp hm with hm | hm
    · cases hm
    · exact h.callback hm
  readers := h.readers
  owed := h.owed

theorem startRead_inv (h : Inv w) (hw : w.reads.slot.generation + 2 < 2 ^ 64)
    (hp : w.phase = .ready) (stop : Int) : Inv (w.startRead stop) := by
  have hw1 : w.reads.slot.generation + 1 < 2 ^ 64 := by omega
  unfold World.startRead
  split
  · exact h.returns _
  split
  · split
    · exact h.returns _
    · refine (h.stopReading hw1).beginRead ?_ hp
      show w.reads.retire.slot.generation + 1 < 2 ^ 64
      rw [Lending.retire_generation _ hw1]
      omega
  · exact h.beginRead hw1 hp

/-- a call on top returns -/
theorem Inv.pop (h : Inv w) {f : Frame} {rest : List Frame} (hst : w.stack = f :: rest)
    (hs : w.reads.Sound (running rest)) : Inv { w with stack := rest } where
  sound := hs
  readers := by
    intro d hd
    obtain ⟨e, he, heq⟩ := List.mem_filterMap.mp hd
    exact h.readers d (List.mem_filterMap.mpr ⟨e, hst ▸ List.mem_cons_of_mem _ he, heq⟩)
  flag := h.flag
  below := (List.pairwise_cons.mp (hst ▸ h.below)).2
  starting := fun g hg => h.starting g (hst ▸ List.mem_cons_of_mem _ hg)
  closing := h.closing
  closed := h.closed
  callback := fun hm => h.callback (hst ▸ List.mem_cons_of_mem _ hm)
  owed := h.owed

theorem startReturns_inv (h : Inv w) (hw : w.reads.slot.generation + 2 < 2 ^ 64) {e : Int}
    (hs : w.startReturns e = some w') : Inv w' := by
  unfold World.startReturns at hs
  split at hs
  · rename_i g rest hst
    have hpop : Inv { w with stack := rest } := by
      refine h.pop hst ?_
      have hsound := h.sound
      rw [hst] at hsound
      exact hsound
    dsimp only at hs
    split at hs <;> cases hs
    · exact (hpop.stopReading (show w.reads.slot.generation + 1 < 2 ^ 64 by omega)).returns e
    · exact hpop.returns e
  · cases hs

theorem beginClose_inv (h : Inv w) (hw : w.reads.slot.generation + 1 < 2 ^ 64)
    (hp : w.phase = .ready) (b : Bool) : Inv (w.beginClose b) := by
  have hstop := h.stopReading hw
  refine ⟨hstop.sound, rfl, hstop.below, hstop.starting, fun _ => rfl, nofun, fun hm => ?_,
    h.readers, fun _ => h.owed (by rw [hp]; exact nofun)⟩
  have hc := h.callback hm
  rw [hp] at hc
  cases hc

/-! ## the trampolines -/

/-- libuv does not call after the close -/
theorem native_phase (hn : w.native = true) : w.phase ≠ .closed := by
  unfold World.native at hn
  intro hc
  rw [hc] at hn
  split at hn <;> simp at hn

/-- when libuv asks for a buffer, every running reader is that of an older subscription -/
theorem native_old (h : Inv w) (hn : w.native = true) :
    ∀ d ∈ running w.stack, d.generation ≠ w.reads.slot.generation := by
  unfold World.native at hn
  intro d hd
  split at hn
  · rename_i hst
    rw [hst] at hd
    cases hd
  · rename_i g rest hst
    have hbelow := h.below
    have hle := h.starting g (hst ▸ List.mem_cons_self)
    rw [hst] at hd hbelow
    obtain ⟨f, hf, heq⟩ := List.mem_filterMap.mp hd
    rcases List.mem_cons.mp hf with rfl | hf
    · cases heq
    · have hlt := (List.pairwise_cons.mp hbelow).1 f hf
      cases f with
      | reader e =>
        cases heq
        exact Nat.ne_of_lt (Nat.lt_of_lt_of_le hlt hle)
      | starting g => cases heq
      | closeCallback => cases heq
  · cases hn

theorem alloc_inv (h : Inv w) (hn : w.native = true) : Inv w.alloc where
  sound := h.sound.allocate (native_old h hn)
  flag := h.flag
  below := h.below
  starting := fun g hg => by
    show g ≤ w.reads.allocate.slot.generation
    rw [Lending.allocate_generation]
    exact h.starting g hg
  closing := h.closing
  closed := fun hc => absurd hc (native_phase hn)
  callback := h.callback
  readers := h.readers
  owed := fun _ s hs => (owed_allocated w.log _).symm.trans hs

theorem read_inv (h : Inv w) (hw : w.reads.slot.generation + 1 < 2 ^ 64) (hn : w.native = true)
    (n stop : Int) : Inv (w.read n stop) := by
  unfold World.read
  split
  · exact ⟨h.sound, h.flag, h.below, h.starting, h.closing, h.closed, h.callback, h.readers, h.owed⟩
  dsimp only
  set v : World :=
    { w with reads := w.reads.pickUp.1, log := w.log ++ [.read w.reads.pickUp.2.callback n] } with hv
  have hflag : v.reading = v.reads.live.isSome := by rw [hv, Lending.pickUp_live]; exact h.flag
  have hstarting : ∀ g, .starting g ∈ v.stack → g ≤ v.reads.slot.generation := by
    rw [hv, Lending.pickUp_generation]
    exact h.starting
  have hclosing : v.phase = .closing ∨ v.phase = .closed → v.reads.live = none := by
    rw [hv, Lending.pickUp_live]
    exact h.closing
  have howed : v.phase ≠ .closed → ∀ s, owed v.log = some s → v.reads.loan.callback = some s := by
    intro _ s hs
    rw [hv, owed_read] at hs
    cases hs
  have hw' : v.reads.slot.generation + 1 < 2 ^ 64 := by rwa [hv, Lending.pickUp_generation]
  have hopen := native_phase hn
  cases hd : w.reads.pickUp.2.callback with
  | some s =>
    have hpush : Inv { v with stack := .reader w.reads.pickUp.2 :: v.stack } := by
      refine ⟨h.sound.pickUp_some hd, hflag, ?_, ?_, hclosing, fun hc => absurd hc hopen, ?_, ?_,
        howed⟩
      · exact List.pairwise_cons.mpr ⟨fun f _ => by cases f <;> trivial, h.below⟩
      · intro g hg
        exact hstarting g ((List.mem_cons.mp hg).resolve_left nofun)
      · intro hm
        exact h.callback ((List.mem_cons.mp hm).resolve_left nofun)
      · intro d hmem
        rcases List.mem_cons.mp hmem with rfl | hmem
        · rw [hd]
          rfl
        · exact h.readers d hmem
    dsimp only
    split
    · exact hpush.stopReading hw'
    · exact hpush
  | none =>
    obtain ⟨hsound, hslot, hcb, -⟩ := h.sound.pickUp_none hd
    have hsame : Inv v := ⟨hsound, hflag, h.below, hstarting, hclosing, fun hc => absurd hc hopen,
      h.callback, h.readers, howed⟩
    have hempty : v.reads.slot.callback = none := by
      show w.reads.pickUp.1.slot.callback = none
      rw [hslot, hcb]
    dsimp only
    split
    · rw [Lending.giveBack_none _ _ rfl hd]
      exact hsame.stopReading hw'
    · rw [Lending.giveBack_none _ _ hempty hd]
      exact hsame

theorem ret_inv (h : Inv w) (hs : w.ret = some w') : Inv w' := by
  unfold World.ret at hs
  split at hs
  · rename_i d rest hst
    cases hs
    have hsound := h.sound
    rw [hst] at hsound
    obtain ⟨s, hd⟩ := Option.isSome_iff_exists.mp (h.readers d (by rw [hst]; exact List.mem_cons_self))
    -- the subscription is back before the frame is gone
    have hback : Inv { w with reads := w.reads.giveBack d, stack := rest } := by
      refine ⟨hsound.giveBack hd, h.flag, (List.pairwise_cons.mp (hst ▸ h.below)).2, ?_, h.closing,
        h.closed, ?_, ?_, h.owed⟩
      · intro g hg
        show g ≤ (w.reads.giveBack d).slot.generation
        rw [Lending.giveBack_generation]
        exact h.starting g (hst ▸ List.mem_cons_of_mem _ hg)
      · exact fun hm => h.callback (hst ▸ List.mem_cons_of_mem _ hm)
      · intro e he
        refine h.readers e ?_
        rw [hst]
        exact List.mem_cons_of_mem _ he
    exact hback
  · rename_i rest hst
    cases hs
    refine h.pop hst ?_
    have hsound := h.sound
    rw [hst] at hsound
    exact hsound
  · cases hs

theorem closeDone_inv (h : Inv w) (hp : w.phase = .closing) (hst : w.stack = []) :
    Inv w.closeDone where
  sound := by
    have hsound := h.sound.drop (h.closing (.inl hp))
    rw [hst] at hsound
    unfold World.closeDone
    dsimp only
    split <;> exact hsound
  flag := h.flag
  below := by
    unfold World.closeDone
    dsimp only
    split <;> simp
  starting := by
    unfold World.closeDone
    dsimp only
    split <;> simp
  closing := fun _ => h.closing (.inl hp)
  closed := fun _ => rfl
  callback := fun _ => rfl
  readers := by
    unfold World.closeDone
    dsimp only
    split <;> exact nofun
  owed := fun hc => absurd rfl hc

theorem step_inv (h : Inv w) {a : Act} (hf : Fresh w a) (hs : step w a = some w') : Inv w' := by
  have hw : w.reads.slot.generation + 1 < 2 ^ 64 := by
    unfold Fresh at hf
    omega
  unfold step at hs
  split at hs
  · cases hs
  cases a with
  | init =>
    obtain ⟨⟨-, hp⟩, rfl⟩ := by simpa using hs
    refine ⟨h.sound, h.flag, h.below, h.starting, ?_, nofun, fun hm => ?_, h.readers, fun _ => ?_⟩
    · rintro (h | h) <;> cases h
    · rw [h.callback hm] at hp
      cases hp
    · exact h.owed (by rw [hp]; exact nofun)
  | listen valid e active =>
    obtain ⟨-, rfl⟩ := by simpa using hs
    unfold World.listen
    repeat' split
    · exact h.returns _
    · exact h.returns _
    · exact (h.setListening _).returns _
    · exact (h.setListening _).returns _
  | acceptError =>
    obtain ⟨-, rfl⟩ := by simpa using hs
    exact h.setListening false
  | readStart valid stop =>
    obtain ⟨-, rfl⟩ := by simpa using hs
    unfold World.readStart
    split
    · exact h.returns _
    rename_i hp
    split
    · exact h.returns _
    · exact startRead_inv h hf (Phase.eq_ready hp) stop
  | readStartStatic stop =>
    obtain ⟨-, rfl⟩ := by simpa using hs
    unfold World.readStartStatic
    split
    · exact h.returns _
    · rename_i hp
      exact startRead_inv h hf (Phase.eq_ready hp) stop
  | startReturns e => exact startReturns_inv h hf hs
  | readStop e =>
    obtain ⟨-, rfl⟩ := by simpa using hs
    unfold World.readStop
    repeat' split
    · exact h.returns _
    · exact h.returns _
    · exact (h.stopReading hw).returns _
  | close b =>
    obtain ⟨-, rfl⟩ := by simpa using hs
    unfold World.close
    split
    · exact h
    · rename_i hp
      exact beginClose_inv h hw (Phase.eq_ready hp) b
  | closeReset b e =>
    obtain ⟨-, rfl⟩ := by simpa using hs
    unfold World.closeReset
    split
    · exact h.returns _
    rename_i hp
    split
    · exact h.returns _
    · exact (beginClose_inv h hw (Phase.eq_ready hp) b).returns _
  | alloc =>
    obtain ⟨hn, rfl⟩ := by simpa using hs
    exact alloc_inv h hn
  | read n stop =>
    obtain ⟨hn, rfl⟩ := by simpa using hs
    exact read_inv h hw hn n stop
  | ret => exact ret_inv h hs
  | closeDone =>
    obtain ⟨⟨hp, hst⟩, rfl⟩ := by simpa using hs
    exact closeDone_inv h hp hst

theorem run_inv {as : List Act} (hr : sys.run sys.init as = some w)
    (hf : sys.Meets Fresh sys.init as) : Inv w :=
  Sys.run_inv_meets (P := Inv) (fun _ _ _ hi hc hs => step_inv hi hc hs) inv_init hf hr

/-! ## the contract -/

/-- the step retires what was started before: a stop, a replacement, a terminal error or a close -/
def Retires (w : World) : Act → Prop
  | .readStart valid stop =>
    w.phase = .ready ∧ valid = true ∧ w.listening = false ∧ (w.reading = true → 0 ≤ stop)
  | .readStartStatic stop =>
    w.phase = .ready ∧ w.listening = false ∧ (w.reading = true → 0 ≤ stop)
  | .readStop e => w.phase = .ready ∧ 0 ≤ e
  | .close _ => w.phase = .ready
  | .closeReset _ e => w.phase = .ready ∧ 0 ≤ e
  | .read n stop => n < 0 ∧ 0 ≤ stop
  | _ => False

structure Paired (w : World) : Prop where
  orderly : w.reads.Orderly (running w.stack) w.reading
  /-- a notification goes to the subscription whose buffer libuv has -/
  delivers : ∀ s n stop w', owed w.log = some s → (n < 0 → 0 ≤ stop) →
    step w (.read n stop) = some w' → w'.log = w.log ++ [.read (some s) n]
  retires : ∀ a w', Retires w a → step w a = some w' →
    ∀ s < w.reads.started, s ∈ w'.reads.retired
  /-- and for good -/
  stays : ∀ a w', step w a = some w' → w.reads.retired ⊆ w'.reads.retired
  closed : .closeCallback ∈ w.stack → w.reads.loan.callback = none

section
variable (h : Inv w)

include h

theorem read_owed {s : Nat} {n stop : Int} (ho : owed w.log = some s) (hstop : n < 0 → 0 ≤ stop)
    (hs : step w (.read n stop) = some w') : w'.log = w.log ++ [.read (some s) n] := by
  unfold step at hs
  split at hs
  · cases hs
  obtain ⟨hn, rfl⟩ := by simpa using hs
  have hloan := h.owed (native_phase hn) s ho
  have hd : w.reads.pickUp.2.callback = some s := by
    rw [Lending.pickUp_of_loan _ hloan]
    exact hloan
  unfold World.read
  rw [if_neg (by omega)]
  dsimp only
  rw [hd]
  dsimp only
  split <;> rfl

end

theorem startRead_passes (stop : Int) : w.reads.Passes (w.startRead stop).reads
    (w.listening = false ∧ (w.reading = true → 0 ≤ stop)) := by
  unfold World.startRead
  repeat' split
  · rename_i hl
    exact .kept fun h => by simp [hl] at h
  · rename_i hr hstop
    exact .kept fun h => absurd (h.2 hr) (by omega)
  · exact .inl (List.append_nil _)
  · exact .inl rfl

theorem read_retired (n stop : Int) : (w.read n stop).reads.retired =
    if n < 0 ∧ 0 ≤ stop then w.reads.retire.retired else w.reads.retired := by
  unfold World.read
  by_cases hn : n < 0
  · by_cases hstop : stop < 0
    · rw [if_pos ⟨hn, hstop⟩, if_neg (by omega)]
    · rw [if_neg (by omega), if_pos (by omega)]
      dsimp only
      rw [if_pos hn]
      split <;> simp [World.stopReading, Lending.retire, Lending.giveBack]
  · rw [if_neg (by omega), if_neg (by omega)]
    dsimp only
    rw [if_neg hn]
    split <;> simp [Lending.giveBack]

theorem step_passes {a : Act} (hs : step w a = some w') :
    w.reads.Passes w'.reads (Retires w a) := by
  have hready : ¬ (!w.isReady) = false → w.phase ≠ .ready := by simp [World.isReady]
  unfold step at hs
  split at hs
  · cases hs
  cases a with
  | init | acceptError | alloc | closeDone =>
    obtain ⟨-, rfl⟩ := by simpa using hs
    exact .kept id
  | listen valid e active =>
    obtain ⟨-, rfl⟩ := by simpa using hs
    unfold World.listen
    repeat' split
    all_goals exact .kept id
  | readStart valid stop =>
    obtain ⟨-, rfl⟩ := by simpa using hs
    unfold World.readStart
    split
    · rename_i hp
      exact .kept fun h => hready (by simp [hp]) h.1
    split
    · rename_i hv
      exact .kept fun h => by simp [h.2.1] at hv
    · exact (startRead_passes stop).weaken fun h => h.2.2
  | readStartStatic stop =>
    obtain ⟨-, rfl⟩ := by simpa using hs
    unfold World.readStartStatic
    split
    · rename_i hp
      exact .kept fun h => hready (by simp [hp]) h.1
    · exact (startRead_passes stop).weaken fun h => h.2
  | startReturns e =>
    have hs' : w.startReturns e = some w' := hs
    unfold World.startReturns at hs'
    split at hs'
    · dsimp only at hs'
      split at hs' <;> cases hs'
      · exact .inl rfl
      · exact .kept id
    · cases hs'
  | readStop e =>
    obtain ⟨-, rfl⟩ := by simpa using hs
    unfold World.readStop
    split
    · rename_i hp
      exact .kept fun h => hready (by simp [hp]) h.1
    split
    · exact .kept fun h => absurd h.2 (by omega)
    · exact .inl rfl
  | close b =>
    obtain ⟨-, rfl⟩ := by simpa using hs
    unfold World.close
    split
    · rename_i hp
      exact .kept (hready (by simp [hp]))
    · exact .inl rfl
  | closeReset b e =>
    obtain ⟨-, rfl⟩ := by simpa using hs
    unfold World.closeReset
    split
    · rename_i hp
      exact .kept fun h => hready (by simp [hp]) h.1
    split
    · exact .kept fun h => absurd h.2 (by omega)
    · exact .inl rfl
  | read n stop =>
    obtain ⟨-, rfl⟩ := by simpa using hs
    unfold Lending.Passes
    rw [read_retired]
    split
    · exact .inl rfl
    · rename_i hn
      exact .inr ⟨hn, rfl⟩
  | ret =>
    have hs' : w.ret = some w' := hs
    unfold World.ret at hs'
    split at hs' <;> cases hs'
    · exact .kept id
    · exact .kept id

/-- reading from a raw stream, as long as the generation does not wrap -/
theorem read_pairs (as : List Act) (w : World) (hr : sys.run sys.init as = some w)
    (hf : sys.Meets Fresh sys.init as) : Paired w := by
  have h := run_inv hr hf
  exact {
    orderly := h.sound.orderly h.flag
    delivers := fun s n stop w' ho hstop hs => read_owed h ho hstop hs
    retires := fun a w' hret hs s hlt => (step_passes hs).retires hret h.sound hlt
    stays := fun a w' hs => (step_passes hs).stays
    closed := fun hm => h.closed (h.callback hm) }

end

/-- A buffer of the first subscription is outstanding when a second one is started; `uv_read_start`
delivers to it inline, its reader starts a third one, and the outer start fails.  At the end of the
stream the third reader starts a fourth one and closes. -/
def inlineRun : List Act :=
  [.init, .readStart true 0, .startReturns 0, .alloc, .readStartStatic 0, .alloc, .read 4 0,
    .readStart true 0, .startReturns 0, .ret, .startReturns (-12), .alloc, .read (-4095) 0,
    .readStartStatic 0, .startReturns 0, .close true, .ret, .closeDone]

theorem read_pairs_inlineRun : ∃ w, sys.run sys.init inlineRun = some w ∧
    w.stack = [.closeCallback] ∧ w.reads.retired = [0, 1, 2, 3] ∧ Paired w :=
  ⟨_, rfl, rfl, rfl, read_pairs inlineRun _ rfl (by decide)⟩

end RawStream
