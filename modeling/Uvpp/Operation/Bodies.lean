import Uvpp.Operation.Books
import Uvpp.Operation.Bound

/-!
# What an operation leaves behind

While transfer `n` is being started, the world stays bound and booked (`During`), and until its
native call it is not in the history of libuv (`Before`).  `body_spec` says so of every operation at
its end (`Ended`): a task that suspends waits for something on its own loop, and an operation that
ended early never reached libuv.

* `require_then`, ...   one rule for each step of an awaiter;
* `readSome_spec`, ...  the operations.
-/

namespace Operation
open Errno Throwing

/-- the operation with number `n`, and the span of its caller, is being started -/
structure During (p : Platform) (L : Object → Option LoopId) (n : Nat) (span : Option Span)
    (w : World) : Prop where
  bound : Bound w
  booked : Booked p w
  loop : w.loop = L
  fresh : ∀ t x, w.transfer t = some x → x.number ≠ n
  numbered : n < w.count
  called : ∀ x ∈ span, .called n x ∈ w.log
  kept : .refused n ∉ w.log
  untaken : taken n w.log = 0

structure Before (p : Platform) (L : Object → Option LoopId) (n : Nat) (span : Option Span)
    (w : World) : Prop extends During p L n span w where
  quiet : ∀ e ∈ w.log, e.number = n → e.native = false

/-- how `await_suspend` may end -/
def Ended (p : Platform) (L : Object → Option LoopId) (t : TaskId) (n : Nat) (span : Option Span) :
    Except Exit Resumer → World → Prop
  | .ok r, w => During p L n span w ∧ (∃ l, L (.task t) = some l ∧ loopOf L r = some l) ∧
      ∀ c, r ≠ .child c
  | .error e, w => During p L n span w ∧
      (e.early = true → ∀ x ∈ w.log, x.number = n → x.native = false)

section
variable {p : Platform} {L : Object → Option LoopId} {t : TaskId} {o : OwnerId} {n : Nat}
  {span : Option Span} {P : World → Prop} {w v : World}

theorem During.calm (h : During p L n span w) (hb : Bound v) (hc : Calm w v) :
    During p L n span v where
  bound := hb
  booked := h.booked.calm hc
  loop := hc.loop.trans h.loop
  fresh t x hx := h.fresh t x (hc.transfer t x hx)
  numbered := hc.count ▸ h.numbered
  called := hc.log ▸ h.called
  kept := hc.log ▸ h.kept
  untaken := hc.log ▸ h.untaken

theorem Before.calm (h : Before p L n span w) (hb : Bound v) (hc : Calm w v) :
    Before p L n span v :=
  { h.toDuring.calm hb hc with quiet := hc.log ▸ h.quiet }

theorem Before.ended (h : Before p L n span w) (e : Exit) : Ended p L t n span (.error e) w :=
  ⟨h.toDuring, fun _ => h.quiet⟩

theorem During.failed (h : During p L n span w) {e : Exit} (he : e.early = false) :
    Ended p L t n span (.error e) w :=
  ⟨h, fun he' => by rw [he] at he'; cases he'⟩

/-! ## the changes an awaiter makes -/

theorem Before.claim (h : Before p L n span w) {s : Slot} (hj : Joint L (.owner o) t) :
    Before p L n span (w.claim o s t) :=
  h.calm (h.bound.claim (h.loop ▸ hj)) .setOwner

theorem Before.release (h : Before p L n span w) {s : Slot} : Before p L n span (w.release o s) :=
  h.calm h.bound.release .setOwner

theorem During.release (h : During p L n span w) {s : Slot} : During p L n span (w.release o s) :=
  h.calm h.bound.release .setOwner

theorem During.register (h : During p L n span w) : During p L n span (w.register t) :=
  h.calm h.bound.register .register

theorem Before.register (h : Before p L n span w) : Before p L n span (w.register t) :=
  h.calm h.bound.register .register

theorem During.unregister (h : During p L n span w) : During p L n span (w.unregister t) :=
  h.calm h.bound.unregister .unregister

/-- the event of the native call -/
theorem Before.emit {x : Span} (h : Before p L n (some x) w) {e : Event} (hn : e.number = n)
    (hnative : e.native = true) (hbytes : ∀ m, e.bytes m = 0) (hlaw : Law p w.log e) :
    During p L n (some x) (w.emit e) where
  bound := h.bound.emit e
  booked := h.booked.emit hlaw (hn ▸ h.numbered) (fun _ _ _ => hbytes _) (by
    rintro q y - rfl
    cases hnative)
  loop := h.loop
  fresh := h.fresh
  numbered := h.numbered
  called y hy := List.mem_append_left _ (h.called y hy)
  kept := by
    intro hm
    rcases List.mem_append.mp hm with hm | hm
    · exact h.kept hm
    · rw [← List.mem_singleton.mp hm] at hnative
      cases hnative
  untaken := by
    show taken n (w.log ++ [e]) = 0
    rw [taken_emit, h.untaken, hbytes]

theorem Before.started {x : Span} (h : Before p L n (some x) w) :
    During p L n (some x) (w.emit (.started n)) :=
  h.emit rfl rfl (fun _ => rfl) ⟨h.kept, x, h.called x rfl⟩

/-- a length that was checked is submitted whole -/
theorem makeNativeBuffer_eq {length : Nat} (base : Nat) (h : bufferLengthFits p length = true) :
    makeNativeBufferUnchecked p base length = { base := base, len := length } := by
  have hle : length ≤ 2 ^ p.lengthBits - 1 := of_decide_eq_true h
  have hpos : 0 < 2 ^ p.lengthBits := Nat.two_pow_pos _
  rw [makeNativeBufferUnchecked, Nat.mod_eq_of_lt (by omega)]

theorem Before.submitted {x : Span} (h : Before p L n (some x) w)
    (hfits : bufferLengthFits p x.size = true) :
    During p L n (some x)
      (w.emit (.submitted n (makeNativeBufferUnchecked p x.data x.size))) :=
  h.emit rfl rfl (fun _ => rfl)
    ⟨h.kept, x, h.called x rfl, makeNativeBuffer_eq x.data hfits⟩

/-! ## the steps of an awaiter -/

theorem exec_require (b : World → Bool) (e : Exit) (w : World) :
    exec (require b e) w = if b w then (.ok (), w) else (.error e, w) := rfl

theorem exec_loopAt (e : Object) (w : World) :
    exec (loopAt e) w =
      match w.loop e with
      | some l => (.ok l, w)
      | none => (.error .misuse, w) := rfl

theorem exec_native (c : Int) (undo : World → World) (w : World) :
    exec (native c undo) w = if c < 0 then (.error (.native c), undo w) else (.ok (), w) := rfl

theorem exec_registerOr (t : TaskId) (e : Exit) (undo : World → World) (w : World) :
    exec (registerOr t e undo) w =
      if w.stopRequested t then (.error e, undo w) else (.ok (), w.register t) := rfl

theorem exec_sameLoop (t : TaskId) (e : Object) (w : World) :
    exec (sameLoop t e) w =
      match w.loop (.task t) with
      | none => (.error .misuse, w)
      | some l => if w.loop e = some l then (.ok (), w) else (.error .affinity, w) := by
  rw [sameLoop, exec_bind, exec_loopAt]
  cases w.loop (.task t) with
  | none => rfl
  | some l =>
    dsimp only
    rw [exec_require]
    simp only [decide_eq_true_eq]

variable {α : Type} {Q : Except Exit α → World → Prop}

theorem require_and {b : World → Bool} {e : Exit} {k : Unit → Cmd Exit World α}
    (he : ∀ w, P w → Q (.error e) w) (hk : Spec (fun w => P w ∧ b w = true) (k ()) Q) :
    Spec P (require b e >>= k) Q := by
  intro w hw
  rw [exec_bind, exec_require]
  by_cases hb : b w = true
  · rw [if_pos hb]
    exact hk w ⟨hw, hb⟩
  · rw [if_neg hb]
    exact he w hw

theorem require_then {b : World → Bool} {e : Exit} {k : Unit → Cmd Exit World α}
    (he : ∀ w, P w → Q (.error e) w) (hk : Spec P (k ()) Q) : Spec P (require b e >>= k) Q :=
  require_and he fun w hw => hk w hw.1

/-- a condition that does not depend on the state is known from then on -/
theorem require_given {b : Bool} {e : Exit} {k : Unit → Cmd Exit World α}
    (he : ∀ w, P w → Q (.error e) w) (hk : b = true → Spec P (k ()) Q) :
    Spec P (require (fun _ => b) e >>= k) Q := by
  cases b with
  | true => exact require_then he (hk rfl)
  | false => exact he

theorem native_then {c : Int} {undo : World → World} {k : Unit → Cmd Exit World α}
    (he : ∀ w, P w → Q (.error (.native c)) (undo w)) (hk : Spec P (k ()) Q) :
    Spec P (native c undo >>= k) Q := by
  intro w hw
  rw [exec_bind, exec_native]
  by_cases hc : c < 0
  · rw [if_pos hc]
    exact he w hw
  · rw [if_neg hc]
    exact hk w hw

theorem registerOr_then {e : Exit} {undo : World → World} {P' : World → Prop}
    {k : Unit → Cmd Exit World α} (he : ∀ w, P w → Q (.error e) (undo w))
    (hr : ∀ w, P w → P' (w.register t)) (hk : Spec P' (k ()) Q) :
    Spec P (registerOr t e undo >>= k) Q := by
  intro w hw
  rw [exec_bind, exec_registerOr]
  by_cases hs : w.stopRequested t = true
  · rw [if_pos hs]
    exact he w hw
  · rw [if_neg hs]
    exact hk _ (hr w hw)

theorem loopAt_and {e : Object} {k : LoopId → Cmd Exit World α}
    (he : ∀ w, P w → Q (.error .misuse) w)
    (hk : ∀ l, Spec (fun w => P w ∧ w.loop e = some l) (k l) Q) : Spec P (loopAt e >>= k) Q := by
  intro w hw
  rw [exec_bind, exec_loopAt]
  cases hl : w.loop e with
  | none => exact he w hw
  | some l => exact hk l w ⟨hw, hl⟩

theorem sameLoop_then {e : Object} {k : Unit → Cmd Exit World α} (hP : ∀ w, P w → w.loop = L)
    (he : ∀ w x, P w → Q (.error x) w) (hk : Joint L e t → Spec P (k ()) Q) :
    Spec P (sameLoop t e >>= k) Q := by
  intro w hw
  rw [exec_bind, exec_sameLoop, hP w hw]
  cases ht : L (.task t) with
  | none => exact he w _ hw
  | some l =>
    dsimp only
    by_cases hl : L e = some l
    · rw [if_pos hl]
      exact hk ⟨l, hl, ht⟩ w hw
    · rw [if_neg hl]
      exact he w _ hw

end

/-! ## the operations -/

section
variable {p : Platform} {L : Object → Option LoopId} {t : TaskId} {o : OwnerId} {n : Nat}
  {span : Option Span} {k : Unit → Cmd Exit World Resumer} {w : World}

theorem check {b : World → Bool} {e : Exit}
    (hk : Spec (Before p L n span) (k ()) (Ended p L t n span)) :
    Spec (Before p L n span) (require b e >>= k) (Ended p L t n span) :=
  require_then (fun _ hw => hw.ended e) hk

theorem affine {e : Object}
    (hk : Joint L e t → Spec (Before p L n span) (k ()) (Ended p L t n span)) :
    Spec (Before p L n span) (sameLoop t e >>= k) (Ended p L t n span) :=
  sameLoop_then (fun _ hw => hw.loop) (fun _ x hw => hw.ended x) hk

theorem located {e : Object} {k : LoopId → Cmd Exit World Resumer}
    (hk : ∀ l, L e = some l → Spec (Before p L n span) (k l) (Ended p L t n span)) :
    Spec (Before p L n span) (loopAt e >>= k) (Ended p L t n span) :=
  loopAt_and (fun _ hw => hw.ended .misuse) fun l w hw => hk l (hw.1.loop ▸ hw.2) w hw.1

theorem changed {g : World → World} (hg : ∀ w, Before p L n span w → Before p L n span (g w))
    (hk : Spec (Before p L n span) (k ()) (Ended p L t n span)) :
    Spec (Before p L n span) (modify g >>= k) (Ended p L t n span) :=
  Spec.change hg hk

/-- the event of the native call -/
theorem called {g : World → World} (hg : ∀ w, Before p L n span w → During p L n span (g w))
    (hk : Spec (During p L n span) (k ()) (Ended p L t n span)) :
    Spec (Before p L n span) (modify g >>= k) (Ended p L t n span) :=
  Spec.change hg hk

/-- a change after the native call -/
theorem changedAfter {g : World → World} (hg : ∀ w, During p L n span w → During p L n span (g w))
    (hk : Spec (During p L n span) (k ()) (Ended p L t n span)) :
    Spec (During p L n span) (modify g >>= k) (Ended p L t n span) :=
  Spec.change hg hk

theorem entered
    (hk : Joint L (.owner o) t → Spec (Before p L n span) (k ()) (Ended p L t n span)) :
    Spec (Before p L n span) (enter t o >>= k) (Ended p L t n span) := by
  rw [enter, bind_assoc]
  refine check ?_
  rw [bind_assoc]
  refine affine fun hj => ?_
  exact check (hk hj)

/-- the task waits at an object of its loop -/
theorem waits {P : World → Prop} {r : Resumer} {e : Object} (hP : ∀ w, P w → During p L n span w)
    (hj : Joint L e t) (hr : loopOf L r = L e) (hc : ∀ c, r ≠ .child c) :
    Spec P (pure r : Cmd Exit World Resumer) (Ended p L t n span) := by
  refine Spec.pure fun w hw => ⟨hP w hw, ?_, hc⟩
  obtain ⟨l, hl, ht⟩ := hj
  exact ⟨l, ht, hr.trans hl⟩

/-- the task waits for a handle or request of its own -/
theorem waitsOwn {P : World → Prop} {l : LoopId} (hP : ∀ w, P w → During p L n span w)
    (ht : L (.task t) = some l) :
    Spec P (pure (.request l) : Cmd Exit World Resumer) (Ended p L t n span) :=
  Spec.pure fun w hw => ⟨hP w hw, ⟨l, ht, rfl⟩, nofun⟩

theorem submit_spec (a : Answers) :
    Spec (Before p L n span) (submit t a) (Ended p L t n span) := by
  refine check ?_
  refine located fun l hl => ?_
  refine native_then (fun w hw => hw.ended _) ?_
  refine changed (fun w hw => hw.register) ?_
  exact waitsOwn (fun _ hw => hw.toDuring) hl

theorem sleep_spec (a : Answers) :
    Spec (Before p L n span) (sleep t a) (Ended p L t n span) := by
  refine check ?_
  refine located fun l hl => ?_
  refine native_then (fun w hw => hw.ended _) ?_
  split
  · exact waitsOwn (fun _ hw => hw.toDuring) hl
  · refine changed (fun w hw => hw.register) ?_
    exact waitsOwn (fun _ hw => hw.toDuring) hl

theorem connect_spec (a : Answers) :
    Spec (Before p L n span) (connect t a) (Ended p L t n span) := by
  refine check ?_
  refine check ?_
  refine located fun l hl => ?_
  refine native_then (fun w hw => hw.ended _) ?_
  exact waitsOwn (fun _ hw => hw.toDuring) hl

/-- a read is started, and taken back if that fails or no stop callback can be registered -/
theorem startRead_spec {x : Span} {a : Answers} (hj : Joint L (.owner o) t) :
    Spec (Before p L n (some x))
      (do
        modify (·.claim o .reader t)
        modify (·.emit (.started n))
        native a.native (·.release o .reader)
        registerOr t .withdrawn (·.release o .reader)
        return .slot o .reader)
      (Ended p L t n (some x)) := by
  refine changed (fun w hw => hw.claim hj) ?_
  refine called (fun w hw => hw.started) ?_
  refine native_then (fun w hw => hw.release.failed rfl) ?_
  refine registerOr_then (fun w hw => hw.release.failed rfl) (fun w hw => hw.register) ?_
  exact waits (fun _ hw => hw) hj rfl nofun

theorem readSome_spec (x : Span) (a : Answers) :
    Spec (Before p L n (some x)) (readSome t o n x a) (Ended p L t n (some x)) := by
  refine entered fun hj => ?_
  refine check (check ?_)
  exact startRead_spec hj

theorem receiveHandle_spec (x : Span) (a : Answers) :
    Spec (Before p L n (some x)) (receiveHandle t o n x a) (Ended p L t n (some x)) := by
  refine entered fun hj => ?_
  refine check (check (check (check ?_)))
  exact startRead_spec hj

theorem recvFrom_spec (x : Span) (a : Answers) :
    Spec (Before p L n (some x)) (recvFrom t o n a) (Ended p L t n (some x)) := by
  refine entered fun hj => ?_
  refine check ?_
  refine changed (fun w hw => hw.claim hj) ?_
  refine registerOr_then (fun w hw => hw.release.ended _) (fun w hw => hw.register) ?_
  refine called (fun w hw => hw.started) ?_
  refine native_then (fun w hw => hw.release.unregister.failed rfl) ?_
  exact waits (fun _ hw => hw) hj rfl nofun

theorem Before.setExported (h : Before p L n span w) {b : Bool} :
    Before p L n span (w.setExported o b) :=
  h.calm (h.bound.setExported b) .setOwner

theorem acquired (hk : Spec (Before p L n span) (k ()) (Ended p L t n span)) :
    Spec (Before p L n span) (acquireExport o >>= k) (Ended p L t n span) := by
  rw [acquireExport, bind_assoc]
  refine check ?_
  rw [bind_assoc]
  refine check ?_
  exact changed (fun w hw => hw.setExported) hk

theorem streamWrite_spec (x : Span) (pin : Option OwnerId) (submission : Int) (a : Answers)
    (hfits : bufferLengthFits p x.size = true) :
    Spec (Before p L n (some x)) (streamWrite p t o n x pin submission a)
      (Ended p L t n (some x)) := by
  refine check ?_
  refine affine fun hj => ?_
  cases pin with
  | none =>
    refine check (check (check ?_))
    refine changed (fun w hw => hw.claim hj) ?_
    refine called (fun w hw => hw.submitted hfits) ?_
    refine native_then (fun w hw => hw.release.failed rfl) ?_
    exact waits (fun _ hw => hw) hj rfl nofun
  | some h =>
    refine affine fun _ => ?_
    refine check (check (check (acquired ?_)))
    refine changed (fun w hw => hw.claim hj) ?_
    refine called (fun w hw => hw.submitted hfits) ?_
    refine native_then (fun w hw => ?_) ?_
    · exact (hw.release.calm (hw.release.bound.setExported false) .setOwner).failed rfl
    · refine changedAfter (fun w hw => hw.calm (hw.bound.setPin _) { Calm.refl w with }) ?_
      exact waits (fun _ hw => hw) hj rfl nofun

theorem write_spec (x : Span) (a : Answers) :
    Spec (Before p L n (some x)) (write p t o n x a) (Ended p L t n (some x)) :=
  require_given (fun _ hw => hw.ended _) (streamWrite_spec x none 0 a)

theorem writeWithHandle_spec (x : Span) (h : OwnerId) (a : Answers) :
    Spec (Before p L n (some x)) (writeWithHandle p t o h n x a) (Ended p L t n (some x)) := by
  refine require_given (fun w hw => hw.ended _) fun hfits => ?_
  refine Spec.read fun v => ?_
  split
  · exact streamWrite_spec x none ebadf a hfits
  · exact streamWrite_spec x (some h) _ a hfits

theorem sendTo_spec (x : Span) (a : Answers) :
    Spec (Before p L n (some x)) (sendTo p t o n x a) (Ended p L t n (some x)) := by
  refine require_given (fun w hw => hw.ended _) fun hfits => ?_
  refine entered fun hj => ?_
  refine check ?_
  refine changed (fun w hw => hw.claim hj) ?_
  refine called (fun w hw => hw.submitted hfits) ?_
  refine native_then (fun w hw => hw.release.failed rfl) ?_
  exact waits (fun _ hw => hw) hj rfl nofun

theorem fileTransfer_spec (s : Slot) (x : Span) (a : Answers) :
    Spec (Before p L n (some x)) (fileTransfer s p t o n x a) (Ended p L t n (some x)) := by
  refine require_given (fun w hw => hw.ended _) fun hfits => ?_
  refine entered fun hj => ?_
  refine check (check ?_)
  refine changed (fun w hw => hw.claim hj) ?_
  refine called (fun w hw => hw.submitted hfits) ?_
  refine native_then (fun w hw => hw.release.failed rfl) ?_
  refine changedAfter (fun w hw => hw.register) ?_
  exact waits (fun _ hw => hw) hj rfl nofun

theorem Before.setPhase (h : Before p L n span w) (x : Phase) :
    Before p L n span (w.setPhase o x) :=
  h.calm (h.bound.setPhase x) .setOwner

theorem Before.addCloser (h : Before p L n span w) (hj : Joint L (.owner o) t) :
    Before p L n span (w.addCloser o t) :=
  h.calm (h.bound.addCloser (h.loop ▸ hj)) .setOwner

theorem closeFile_spec (a : Answers) :
    Spec (Before p L n span) (closeFile t o a) (Ended p L t n span) := by
  refine check ?_
  refine affine fun hj => ?_
  refine check ?_
  refine Spec.read fun v => ?_
  split
  · refine changed (fun w hw => hw.addCloser hj) ?_
    exact waits (fun _ hw => hw.toDuring) hj rfl nofun
  · refine check ?_
    refine changed (fun w hw => hw.setPhase .closing) ?_
    refine changed (fun w hw => hw.addCloser hj) ?_
    refine native_then (fun w hw => ?_) ?_
    · have hb : Bound (w.setOwner o { w.owner o with phase := .opened, closers := [] }) :=
        hw.bound.setOwner (hw.bound.slot o) (fun _ hq => absurd hq List.not_mem_nil)
      exact (hw.calm hb .setOwner).ended _
    · exact waits (fun _ hw => hw.toDuring) hj rfl nofun

theorem accept_spec (a : Answers) :
    Spec (Before p L n span) (accept t o a) (Ended p L t n span) := by
  refine entered fun hj => ?_
  refine check (check ?_)
  refine located fun l hl => ?_
  refine native_then (fun w hw => hw.ended _) ?_
  refine changed (fun w hw => hw.claim hj) ?_
  refine Spec.read fun v => ?_
  split
  · refine changed (fun w hw => hw.release) ?_
    obtain ⟨m, hm, ht⟩ := hj
    rw [hl] at hm
    exact waitsOwn (fun _ hw => hw.toDuring) (ht.trans hm.symm)
  · refine changed (fun w hw => hw.register) ?_
    exact waits (fun _ hw => hw.toDuring) hj rfl nofun

/-- the waiter of a source or process -/
theorem claimWaiter_spec (hj : Joint L (.owner o) t) :
    Spec (Before p L n span)
      (do
        modify (·.claim o .waiter t)
        registerOr t (.status ecanceled) (·.release o .waiter)
        return .slot o .waiter)
      (Ended p L t n span) := by
  refine changed (fun w hw => hw.claim hj) ?_
  refine registerOr_then (fun w hw => hw.release.ended _) (fun w hw => hw.register) ?_
  exact waits (fun _ hw => hw.toDuring) hj rfl nofun

theorem wait_spec : Spec (Before p L n span) (wait t o) (Ended p L t n span) := by
  refine entered fun hj => ?_
  refine check (check ?_)
  exact claimWaiter_spec hj

theorem next_spec : Spec (Before p L n span) (next t o) (Ended p L t n span) := by
  refine entered fun hj => ?_
  refine Spec.read fun v => ?_
  split
  · refine changed (fun w hw => hw.calm (hw.bound.setPending false) .setOwner) ?_
    exact Spec.throw fun w hw => hw.ended _
  · refine check ?_
    exact claimWaiter_spec hj

theorem nextPoll_spec (valid : Bool) (a : Answers) :
    Spec (Before p L n span) (nextPoll t o valid a) (Ended p L t n span) := by
  refine entered fun hj => ?_
  refine check ?_
  refine changed (fun w hw => hw.claim hj) ?_
  dsimp only
  split
  · refine changed (fun w hw => hw.release) ?_
    exact Spec.throw fun w hw => hw.ended _
  · refine registerOr_then (fun w hw => hw.release.ended _) (fun w hw => hw.register) ?_
    refine native_then (fun w hw => hw.toDuring.unregister.release.failed rfl) ?_
    exact waits (fun _ hw => hw.toDuring) hj rfl nofun

theorem close_spec (reject : Bool) :
    Spec (Before p L n span) (close t o reject) (Ended p L t n span) := by
  refine check ?_
  refine affine fun hj => ?_
  refine check (check ?_)
  refine changed (fun w hw => hw.addCloser hj) ?_
  refine changed (fun w hw => hw.calm hw.bound.requestClose .requestClose) ?_
  exact waits (fun _ hw => hw.toDuring) hj rfl nofun

theorem Bound.requestDrain (h : Bound w) (q : PostingId) : Bound (requestDrain q w) := by
  rw [Operation.requestDrain]
  split
  · exact h.setPosting (h.drainer q)
  · exact h

theorem Calm.requestDrain (q : PostingId) : Calm w (requestDrain q w) := by
  rw [Operation.requestDrain]
  split
  · exact { Calm.refl w with }
  · exact .refl w

theorem mem_snoc {β : Type} {l : List β} {a : β} {P : β → Prop} (hl : ∀ x ∈ l, P x) (ha : P a) :
    ∀ x ∈ l ++ [a], P x := by
  intro x hx
  rcases List.mem_append.mp hx with hx | hx
  · exact hl x hx
  · exact List.mem_singleton.mp hx ▸ ha

theorem closePosting_spec (q : PostingId) :
    Spec (Before p L n span) (closePosting t q) (Ended p L t n span) := by
  refine affine fun hj => ?_
  refine check ?_
  refine changed (fun w hw => ?_) (changed (fun w hw => ?_) ?_)
  · exact hw.calm (hw.bound.setPosting (mem_snoc (hw.bound.drainer q) (hw.loop ▸ hj)))
      { Calm.refl w with }
  · exact hw.calm (hw.bound.requestDrain q) (.requestDrain q)
  · exact waits (fun _ hw => hw.toDuring) hj rfl nofun

theorem join_spec (h : RootId) :
    Spec (Before p L n span) (join t h) (Ended p L t n span) := by
  refine affine fun hj => ?_
  refine check ?_
  refine changed (fun w hw => ?_) (waits (fun _ hw => hw.toDuring) hj rfl nofun)
  exact hw.calm (hw.bound.setRoot rfl (mem_snoc (hw.bound.joiner h) (hw.loop ▸ hj)))
    { Calm.refl w with }

theorem Before.setScope (h : Before p L n span w) {s : ScopeId} {x : Scope}
    (hchildren : ∀ c ∈ x.children, c ∈ (w.scope s).children)
    (hx : ∀ t, x.joiner = some t → Joint L (.scope s) t) : Before p L n span (w.setScope s x) :=
  h.calm (h.bound.setScope hchildren (h.loop ▸ hx)) { Calm.refl w with }

theorem joinScope_spec (s : ScopeId) :
    Spec (Before p L n span) (joinScope t s) (Ended p L t n span) := by
  have hold : ∀ w, Before p L n span w → ∀ q, (w.scope s).joiner = some q → Joint L (.scope s) q :=
    fun w hw => hw.loop ▸ hw.bound.scopeJoiner s
  refine affine fun hj => ?_
  refine check ?_
  refine changed (fun w hw => hw.setScope (fun _ hc => hc) (hold w hw)) ?_
  refine Spec.read fun v => ?_
  split
  · refine changed (fun w hw => hw.setScope nofun (hold w hw)) ?_
    exact Spec.throw fun w hw => hw.ended _
  · refine changed (fun w hw => hw.setScope (fun _ hc => hc) fun q hq => ?_)
      (waits (fun _ hw => hw.toDuring) hj rfl nofun)
    exact Option.some.inj hq ▸ hj

theorem finish_spec (r : ResourcesId) :
    Spec (Before p L n span) (finish t r) (Ended p L t n span) := by
  refine affine fun hj => ?_
  refine check (check ?_)
  refine changed (fun w hw => hw.calm (hw.bound.setResources r _) { Calm.refl w with }) ?_
  exact Spec.throw fun w hw => hw.ended _

end

/-- every operation, with the span it has -/
theorem body_spec (p : Platform) (L : Object → Option LoopId) (t : TaskId) (n : Nat) (a : Answers)
    (op : Op) :
    Spec (Before p L n (op.region.map Prod.fst)) (op.body p t n a)
      (Ended p L t n (op.region.map Prod.fst)) := by
  cases op with
  | sleep => exact sleep_spec a
  | resolve => exact submit_spec a
  | openFile => exact submit_spec a
  | connect => exact connect_spec a
  | readSome o x => exact readSome_spec x a
  | write o x => exact write_spec x a
  | writeWithHandle o h x => exact writeWithHandle_spec x h a
  | receiveHandle o x => exact receiveHandle_spec x a
  | recvFrom o x => exact recvFrom_spec x a
  | sendTo o x => exact sendTo_spec x a
  | readFile o x => exact fileTransfer_spec .reader x a
  | writeFile o x => exact fileTransfer_spec .writer x a
  | closeFile o => exact closeFile_spec a
  | accept o => exact accept_spec a
  | wait o => exact wait_spec
  | next o => exact next_spec
  | nextPoll o valid => exact nextPoll_spec valid a
  | close o reject => exact close_spec reject
  | closePosting q => exact closePosting_spec q
  | join h => exact join_spec h
  | joinScope s => exact joinScope_spec s
  | finish r => exact finish_spec r

end Operation
