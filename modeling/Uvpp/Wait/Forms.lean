import Uvpp.Wait.Model

/-!
# The forms a step can take

* `SrcInv`, `Inv`        the invariant: the slot of a source holds the operation suspended on it,
                         the cancellation list holds the same operations, and a native source
                         that runs per wait runs exactly while its slot is held;
* `Moved`                what a step can do to a state that satisfies it;
* `await_moved`          what `await_suspend` of the six awaiters does.

Three of the four ways to end a suspended operation (native callback, stop, close of the source)
pass through states that do not satisfy the invariant; `World.handed` is the state they all end in.
-/

namespace Wait
open Cancel (enlist delist delist_enlist)

/-- what ties the fields of one source together -/
structure SrcInv (f : Family) (x : Src) : Prop where
  held : x.slot.isSome → x.closing = false ∧ x.pendingSignal = none ∧ x.pendingEvent = none ∧
    x.exit = none
  armed : f.perWait → x.armed = x.slot.isSome
  signalOnly : x.pendingSignal.isSome → f = .signal
  eventOnly : x.pendingEvent.isSome → f = .fsEvent
  exitOnly : x.exit.isSome → f = .process

def Event.resumes (o : Op) : Event → Bool
  | .resumed o' _ => o' = o
  | _ => false

/-- how often the operation was suspended -/
def suspensions (log : List Event) (o : Op) : Nat := log.count (.suspended o)

/-- how often its coroutine was resumed -/
def resumptions (log : List Event) (o : Op) : Nat := log.countP (Event.resumes o)

/-- what the history says about an operation -/
def History (log : List Event) (o : Op) : Status → Prop
  | .fresh => suspensions log o = 0 ∧ resumptions log o = 0
  | .suspended => suspensions log o = 1 ∧ resumptions log o = 0
  | .finished => resumptions log o = suspensions log o ∧ suspensions log o ≤ 1

structure Inv (cfg : Config) (w : World) : Prop where
  fault : w.fault = false
  src : ∀ s, SrcInv (cfg.family s) (w.src s)
  slot : ∀ s o, (w.src s).slot = some o ↔ (w.op o).status = .suspended ∧ (w.op o).source = s
  regs : ∀ c o, o ∈ (w.stops c).regs.map Prod.fst ↔
    (w.op o).status = .suspended ∧ (w.op o).task = some c
  nodup : ∀ c, ((w.stops c).regs.map Prod.fst).Nodup
  cancellation : ∀ o, (w.op o).cancellation =
    if (w.op o).status = .suspended then (w.op o).task else none
  history : ∀ o, History w.log o (w.op o).status
  /-- a stop that was requested is still being carried out, or has reached every operation -/
  stopping : ∀ c, (w.stops c).requested = true → .stopping c ∈ w.stack ∨ (w.stops c).regs = []
  tails : ∀ s, .closeTail s ∈ w.stack → (w.src s).closing = true

section
variable {f : Family} {x : Src}

theorem SrcInv.noSignal (h : SrcInv f x) (hf : f ≠ .signal) : x.pendingSignal = none :=
  Option.not_isSome_iff_eq_none.mp fun hs => hf (h.signalOnly hs)

theorem SrcInv.noEvent (h : SrcInv f x) (hf : f ≠ .fsEvent) : x.pendingEvent = none :=
  Option.not_isSome_iff_eq_none.mp fun hs => hf (h.eventOnly hs)

theorem SrcInv.noExit (h : SrcInv f x) (hf : f ≠ .process) : x.exit = none :=
  Option.not_isSome_iff_eq_none.mp fun hs => hf (h.exitOnly hs)

/-- an open source without anything to hand out takes an operation -/
theorem SrcInv.hold (h : SrcInv f x) (hc : x.closing = false) (hp : x.pendingSignal = none)
    (he : x.pendingEvent = none) (hx : x.exit = none) (o : Op) {a : Bool}
    (ha : f.perWait → a = true) : SrcInv f { x with slot := some o, armed := a } where
  held := fun _ => ⟨hc, hp, he, hx⟩
  armed := ha
  signalOnly := h.signalOnly
  eventOnly := h.eventOnly
  exitOnly := h.exitOnly

/-- the slot is emptied, with the native source stopped if it runs per wait -/
theorem SrcInv.free (h : SrcInv f x) {c a : Bool} (ha : f.perWait → a = false) :
    SrcInv f { x with slot := none, closing := c, armed := a } where
  held := nofun
  armed := ha
  signalOnly := h.signalOnly
  eventOnly := h.eventOnly
  exitOnly := h.exitOnly

end

/-! ## the forms a step can take -/

namespace World

/-- the operation `q` ended without suspending -/
def rejected (w : World) (q : Request) (r : Outcome) (x : Source → Src) : World :=
  { w with
      src := x
      op := Function.update w.op q.op { status := .finished, source := q.source, task := q.task }
      log := w.log ++ [.ended q.op r] }

/-- the operation `q` is suspended -/
def admitted (w : World) (q : Request) (x : Source → Src) : World :=
  { w with
      src := x
      op := Function.update w.op q.op
        { status := .suspended, source := q.source, task := q.task, cancellation := q.task }
      stops := enlist w.stops q.op q.task
      log := w.log ++ [.suspended q.op] }

/-- the suspended operation `o` is resumed; its slot is empty in `x` -/
def handed (w : World) (o : Op) (r : Outcome) (x : Source → Src) (k : List Frame) : World :=
  { w with
      src := x
      op := Function.update w.op o { w.op o with status := .finished, cancellation := none }
      stops := delist w.stops o (w.op o).cancellation
      stack := .user :: k
      log := w.log ++ [.resumed o r] }

end World

/-- what a step does to the stack, when the sources become `x` and the stack `k` -/
structure KeepsStack (w : World) (x : Source → Src) (k : List Frame) : Prop where
  loops : ∀ c, .stopping c ∈ w.stack → .stopping c ∈ k ∨ (w.stops c).regs = []
  tails : ∀ s, .closeTail s ∈ k → .closeTail s ∈ w.stack ∨ (x s).closing = true

inductive Moved (cfg : Config) (w : World) : World → Prop
  /-- no operation begins or ends -/
  | still (x : Source → Src) (k : List Frame) (t : Bool) (hslot : ∀ s, (x s).slot = (w.src s).slot)
      (hc : ∀ s, (w.src s).closing = true → (x s).closing = true)
      (hx : ∀ s, SrcInv (cfg.family s) (x s)) (hk : KeepsStack w x k) :
      Moved cfg w { w with src := x, stack := k, terminated := t }
  | stop (c : CancelId) (hr : (w.stops c).requested = false) :
      Moved cfg w ((w.setStops c { w.stops c with requested := true }).push (.stopping c))
  | rejected (q : Request) (r : Outcome) (x : Source → Src) (ho : (w.op q.op).status = .fresh)
      (hslot : ∀ s, (x s).slot = (w.src s).slot)
      (hc : ∀ s, (w.src s).closing = true → (x s).closing = true)
      (hx : ∀ s, SrcInv (cfg.family s) (x s)) : Moved cfg w (w.rejected q r x)
  | admitted (q : Request) (x : Source → Src) (ho : (w.op q.op).status = .fresh)
      (hs : (w.src q.source).slot = none) (hr : w.stopRequested q.task = false)
      (hslot : ∀ s, (x s).slot = if s = q.source then some q.op else (w.src s).slot)
      (hc : ∀ s, (w.src s).closing = true → (x s).closing = true)
      (hx : ∀ s, SrcInv (cfg.family s) (x s)) : Moved cfg w (w.admitted q x)
  | handed (s : Source) (o : Op) (r : Outcome) (x : Source → Src) (k : List Frame)
      (hs : (w.src s).slot = some o)
      (hslot : ∀ s', (x s').slot = if s' = s then none else (w.src s').slot)
      (hc : ∀ s', (w.src s').closing = true → (x s').closing = true)
      (hx : ∀ s', SrcInv (cfg.family s') (x s')) (hk : KeepsStack w x k) :
      Moved cfg w (w.handed o r x k)

section
variable {cfg : Config} {w w' : World}

theorem keepsStack_self (w : World) (x : Source → Src) : KeepsStack w x w.stack where
  loops := fun _ hc => .inl hc
  tails := fun _ hs => .inl hs

theorem keepsStack_user (w : World) (x : Source → Src) : KeepsStack w x (.user :: w.stack) where
  loops := fun _ hc => .inl (List.mem_cons_of_mem _ hc)
  tails := by
    intro s hs
    rcases List.mem_cons.mp hs with hs | hs
    · cases hs
    · exact .inl hs

theorem keepsStack_tail (w : World) {x : Source → Src} {s : Source} (hx : (x s).closing = true) :
    KeepsStack w x (.closeTail s :: w.stack) where
  loops := fun _ hc => .inl (List.mem_cons_of_mem _ hc)
  tails := by
    intro s' hs
    rcases List.mem_cons.mp hs with hs | hs
    · cases hs
      exact .inr hx
    · exact .inl hs

/-- the frame on top of the stack is left; if it is a stop loop, it is through -/
theorem keepsStack_leave {f : Frame} {k : List Frame} (hk : w.stack = f :: k)
    (hf : ∀ c, f = .stopping c → (w.stops c).regs = []) (x : Source → Src) :
    KeepsStack w x k where
  loops := by
    intro c hc
    rw [hk] at hc
    rcases List.mem_cons.mp hc with hc | hc
    · exact .inr (hf c hc.symm)
    · exact .inl hc
  tails := fun s hs => .inl (hk ▸ List.mem_cons_of_mem f hs)

/-- one source changes -/
theorem Inv.src_update (h : Inv cfg w) {s : Source} {x : Src} (hx : SrcInv (cfg.family s) x) :
    ∀ s', SrcInv (cfg.family s') (Function.update w.src s x s') :=
  (Function.forall_update_iff w.src fun s' y => SrcInv (cfg.family s') y).mpr
    ⟨hx, fun s' _ => h.src s'⟩

theorem closing_update {s : Source} {x : Src}
    (hx : (w.src s).closing = true → x.closing = true) :
    ∀ s', (w.src s').closing = true → (Function.update w.src s x s').closing = true :=
  (Function.forall_update_iff w.src fun s' y => (w.src s').closing = true → y.closing = true).mpr
    ⟨hx, fun _ _ => id⟩

theorem Moved.refl (h : Inv cfg w) : Moved cfg w w :=
  .still w.src w.stack w.terminated (fun _ => rfl) (fun _ => id) h.src (keepsStack_self w _)

/-- a step that changes one source and the stack, and nobody's slot -/
theorem Moved.ofSrc (h : Inv cfg w) {s : Source} {f : Src → Src} {k : List Frame}
    (hslot : (f (w.src s)).slot = (w.src s).slot)
    (hc : (w.src s).closing = true → (f (w.src s)).closing = true)
    (hx : SrcInv (cfg.family s) (f (w.src s))) (hk : KeepsStack w (w.setSrc s f).src k) :
    Moved cfg w { w.setSrc s f with stack := k } := by
  refine .still _ k w.terminated ?_ (closing_update hc) (h.src_update hx) hk
  exact (Function.forall_update_iff w.src fun s' y => y.slot = _).mpr ⟨hslot, fun _ _ => rfl⟩

theorem Moved.ofSetSrc (h : Inv cfg w) {s : Source} {f : Src → Src}
    (hslot : (f (w.src s)).slot = (w.src s).slot)
    (hc : (w.src s).closing = true → (f (w.src s)).closing = true)
    (hx : SrcInv (cfg.family s) (f (w.src s))) : Moved cfg w (w.setSrc s f) :=
  .ofSrc h hslot hc hx (keepsStack_self w _)

/-! ## the delivery to a suspended operation -/

theorem deliver_none {s : Source} (hs : (w.src s).slot = none) (r : Outcome) :
    w.deliver s r = w := by
  simp [World.deliver, hs]

theorem unregister_resume (w : World) (o : Op) (r : Outcome) :
    (w.unregister o).resume o r = w.handed o r w.src w.stack := by
  unfold World.unregister World.handed
  cases hc : (w.op o).cancellation with
  | none =>
    have hop : w.op o = { w.op o with cancellation := none } := by rw [← hc]
    simp only [World.resume, World.setOp, World.emit, World.push, delist]
    rw [hop]
  | some c =>
    simp [World.resume, World.setOp, World.emit, World.push, World.setStops, delist]

/-- the source `s` after the delivery, when its record was changed by `f` before -/
theorem deliver_some {s : Source} {o : Op} (hs : (w.src s).slot = some o) (r : Outcome) :
    w.deliver s r =
      w.handed o r (Function.update w.src s { w.src s with slot := none }) w.stack := by
  simp only [World.deliver, hs, unregister_resume]
  rfl

theorem releaseAndResume_some {s : Source} {o : Op} (hs : (w.src s).slot = some o) (r : Outcome) :
    w.releaseAndResume s o r =
      w.handed o r (Function.update w.src s { w.src s with slot := none }) w.stack := by
  simp only [World.releaseAndResume, World.release, hs, if_true, unregister_resume]
  rfl

/-- The delivery to `o`, with its source as `x` and the stack as `k` below the resumed coroutine. -/
theorem Moved.ofHanded (h : Inv cfg w) {s : Source} {o : Op} (hs : (w.src s).slot = some o)
    (r : Outcome) {x : Src} {k : List Frame} (hnone : x.slot = none)
    (hx : SrcInv (cfg.family s) x) (hc : (w.src s).closing = true → x.closing = true)
    (hk : KeepsStack w (Function.update w.src s x) k) :
    Moved cfg w (w.handed o r (Function.update w.src s x) k) := by
  refine .handed s o r _ k hs ?_ (closing_update hc) (h.src_update hx) hk
  refine (Function.forall_update_iff w.src fun s' y => y.slot = _).mpr ⟨?_, fun s' hne => ?_⟩
  · rw [hnone, if_pos rfl]
  · rw [if_neg hne]

/-! ## `await_suspend` -/

theorem begin_endInline (w : World) (q : Request) (r : Outcome) :
    (w.begin q).endInline q.op r = w.rejected q r w.src := by
  simp [World.begin, World.endInline, World.setOp, World.emit, World.rejected]

/-- claiming an empty slot and giving it up again changes nothing -/
theorem claim_release {s : Source} (hs : (w.src s).slot = none) (o : Op) :
    (w.claim s o).release s o = w := by
  have hsrc : Function.update w.src s { w.src s with slot := none } = w.src := by
    rw [Function.update_eq_self_iff, ← hs]
  simp only [World.claim, World.release, World.setSrc_src, if_true]
  simp [World.setSrc, hsrc]

/-- `register_callback` while no stop is requested -/
theorem register_open {o : Op} {t : Option CancelId} (hr : w.stopRequested t = false)
    (ho : (w.op o).cancellation = none) :
    w.register o t =
      ({ w with
          op := Function.update w.op o { w.op o with cancellation := t }
          stops := enlist w.stops o t }, true) := by
  cases t with
  | none =>
    have hop : Function.update w.op o { w.op o with cancellation := none } = w.op := by
      rw [Function.update_eq_self_iff, ← ho]
    simp [World.register, enlist, hop]
  | some c =>
    have hc : (w.stops c).requested = false := hr
    simp [World.register, enlist, Cancel.Stops.register, hc, World.setOp, World.setStops]

theorem refusal_none {q : Request} (h : w.refusal q = none) :
    (w.src q.source).closing = false ∧ w.stopRequested q.task = false := by
  unfold World.refusal at h
  split at h
  · cases h
  split at h
  · cases h
  split at h
  · cases h
  simp_all

/-- the claim of the slot and the registration, both successful -/
theorem claim_register {q : Request} (hr : w.stopRequested q.task = false) :
    ((w.begin q).claim q.source q.op).register q.op q.task =
      ({ w with
          src := Function.update w.src q.source { w.src q.source with slot := some q.op }
          op := Function.update w.op q.op
            { source := q.source, task := q.task, cancellation := q.task }
          stops := enlist w.stops q.op q.task }, true) := by
  have hopen : ((w.begin q).claim q.source q.op).stopRequested q.task = false := hr
  rw [register_open hopen (by simp [World.claim, World.begin, World.setOp])]
  simp only [World.claim, World.begin, World.setOp, World.setSrc, Function.update_self,
    Function.update_idem]

theorem Inv.fresh_unlisted (h : Inv cfg w) {o : Op} (ho : (w.op o).status = .fresh) :
    ∀ c, o ∉ (w.stops c).regs.map Prod.fst := by
  intro c hm
  have hs := ((h.regs c o).mp hm).1
  rw [ho] at hs
  cases hs

/-- the source of a per-wait family with the operation `o` suspended on it -/
theorem Inv.hold (h : Inv cfg w) {s : Source} (hc : (w.src s).closing = false)
    (hf : (cfg.family s).perWait) (o : Op) :
    SrcInv (cfg.family s) { w.src s with slot := some o, armed := true } := by
  have hsrc := h.src s
  refine hsrc.hold hc (hsrc.noSignal ?_) (hsrc.noEvent ?_) (hsrc.noExit ?_) o fun _ => rfl
  all_goals
    intro he
    rw [he] at hf
    cases hf

/-- the slot and the registration do not depend on each other -/
theorem unregister_release (w : World) (s : Source) (o : Op) :
    (w.unregister o).release s o = (w.release s o).unregister o := by
  unfold World.unregister World.release
  cases hc : (w.op o).cancellation with
  | none =>
    dsimp only
    split <;> simp [hc]
  | some c =>
    have hsrc : (((w.setOp o ({ · with cancellation := none })).setStops c
        ((w.stops c).unregister o)).src s).slot = (w.src s).slot := rfl
    simp only [hsrc]
    split
    · simp only [World.setSrc_op, hc]
      rfl
    · simp only [hc]

section
variable (h : Inv cfg w) {q : Request} (ho : (w.op q.op).status = .fresh)

include h ho

/-- the operation ends at once, and the slots are as before -/
theorem Moved.ofRejected (r : Outcome) : Moved cfg w ((w.begin q).endInline q.op r) := by
  rw [begin_endInline]
  exact .rejected q r w.src ho (fun _ => rfl) (fun _ => id) h.src

/-- the operation ends at once with what the source retained -/
theorem Moved.ofConsumed (r : Outcome) {f : Src → Src}
    (hslot : (f (w.src q.source)).slot = (w.src q.source).slot)
    (hc : (w.src q.source).closing = true → (f (w.src q.source)).closing = true)
    (hx : SrcInv (cfg.family q.source) (f (w.src q.source))) :
    Moved cfg w (((w.begin q).setSrc q.source f).endInline q.op r) := by
  have heq : ((w.begin q).setSrc q.source f).endInline q.op r =
      w.rejected q r (Function.update w.src q.source (f (w.src q.source))) := by
    simp [World.begin, World.endInline, World.setOp, World.emit, World.rejected, World.setSrc]
  rw [heq]
  refine .rejected q r _ ho ?_ (closing_update hc) (h.src_update hx)
  exact (Function.forall_update_iff w.src fun s y => y.slot = _).mpr ⟨hslot, fun _ _ => rfl⟩

/-- the operation is suspended in the slot of its source -/
theorem Moved.ofAdmitted (hs : (w.src q.source).slot = none) (hr : w.stopRequested q.task = false)
    {x : Src} (hslot : x.slot = some q.op) (hx : SrcInv (cfg.family q.source) x)
    (hc : (w.src q.source).closing = true → x.closing = true) :
    Moved cfg w (w.admitted q (Function.update w.src q.source x)) := by
  refine .admitted q _ ho hs hr ?_ (closing_update hc) (h.src_update hx)
  refine (Function.forall_update_iff w.src fun s y => y.slot = _).mpr ⟨?_, fun s hne => ?_⟩
  · rw [hslot, if_pos rfl]
  · rw [if_neg hne]

/-- the slot and the registration of `q` are given up again after a failed start -/
theorem giveUp_rejected (hs : (w.src q.source).slot = none) (hr : w.stopRequested q.task = false)
    (r : Outcome) :
    (((((w.begin q).claim q.source q.op).register q.op q.task).1.release q.source q.op).unregister
      q.op).endInline q.op r = w.rejected q r w.src := by
  have hsrc : Function.update w.src q.source { w.src q.source with slot := none } = w.src := by
    rw [Function.update_eq_self_iff, ← hs]
  have hlist := delist_enlist q.task (h.fresh_unlisted ho)
  rw [claim_register hr]
  simp only [World.release, Function.update_self, if_true, World.setSrc, Function.update_idem, hsrc]
  cases ht : q.task with
  | none =>
    simp [World.unregister, World.endInline, World.setOp, World.emit, World.rejected, enlist, ht]
  | some c =>
    rw [ht] at hlist
    simp only [World.unregister, World.endInline, World.setOp, World.setStops, World.emit,
      World.rejected, Function.update_self, Function.update_idem, ht]
    rw [show Function.update _ c _ = delist (enlist w.stops q.op (some c)) q.op (some c) from rfl,
      hlist]

section
variable (hr : w.refusal q = none)

include hr

theorem claimAndRegister_moved (hf : (cfg.family q.source).perWait = false)
    (hp : (w.src q.source).pendingSignal = none) (he : (w.src q.source).pendingEvent = none)
    (hx : (w.src q.source).exit = none) : Moved cfg w ((w.begin q).claimAndRegister q) := by
  obtain ⟨hc, hstop⟩ := refusal_none hr
  unfold World.claimAndRegister
  split
  · exact .ofRejected h ho _
  rename_i hslot
  have hs : (w.src q.source).slot = none := by simpa using hslot
  rw [claim_register hstop]
  have hm := Moved.ofAdmitted h ho hs hstop rfl
    ((h.src q.source).hold hc hp he hx q.op (a := (w.src q.source).armed) (by simp [hf])) id
  simpa [World.suspend, World.setOp, World.emit, World.admitted] using hm

theorem awaitSignal_moved (hf : cfg.family q.source = .signal) :
    Moved cfg w ((w.begin q).awaitSignal q) := by
  have hsrc := h.src q.source
  unfold World.awaitSignal
  split
  · refine .ofConsumed h ho _ rfl id ⟨?_, hsrc.armed, nofun, hsrc.eventOnly, hsrc.exitOnly⟩
    exact fun hs => ⟨(hsrc.held hs).1, rfl, (hsrc.held hs).2.2⟩
  · rename_i hp
    refine claimAndRegister_moved h ho hr (by rw [hf]; rfl) hp (hsrc.noEvent ?_) (hsrc.noExit ?_)
    all_goals
      rw [hf]
      exact nofun

theorem awaitFsEvent_moved (hf : cfg.family q.source = .fsEvent) :
    Moved cfg w ((w.begin q).awaitFsEvent q) := by
  have hsrc := h.src q.source
  unfold World.awaitFsEvent
  split
  · refine .ofConsumed h ho _ rfl id ⟨?_, hsrc.armed, hsrc.signalOnly, nofun, hsrc.exitOnly⟩
    exact fun hs => ⟨(hsrc.held hs).1, (hsrc.held hs).2.1, rfl, (hsrc.held hs).2.2.2⟩
  · rename_i he
    refine claimAndRegister_moved h ho hr (by rw [hf]; rfl) (hsrc.noSignal ?_) he (hsrc.noExit ?_)
    all_goals
      rw [hf]
      exact nofun

theorem awaitExit_moved (hf : cfg.family q.source = .process) :
    Moved cfg w ((w.begin q).awaitExit q) := by
  have hsrc := h.src q.source
  unfold World.awaitExit
  split
  · exact .ofRejected h ho _
  · rename_i hx
    refine claimAndRegister_moved h ho hr (by rw [hf]; rfl) (hsrc.noSignal ?_) (hsrc.noEvent ?_) hx
    all_goals
      rw [hf]
      exact nofun

theorem awaitRead_moved (hf : (cfg.family q.source).perWait) :
    Moved cfg w ((w.begin q).awaitRead q) := by
  obtain ⟨hc, hstop⟩ := refusal_none hr
  unfold World.awaitRead
  split
  · exact .ofRejected h ho _
  rename_i hslot
  have hs : (w.src q.source).slot = none := by simpa using hslot
  split
  · exact .ofRejected h ho _
  split
  · rw [claim_release (w := w.begin q) hs]
    exact .ofRejected h ho _
  -- the native start is part of the record that is claimed and registered
  have hopen : (((w.begin q).claim q.source q.op).arm q.source).stopRequested q.task = false :=
    hstop
  rw [register_open hopen (by simp [World.arm, World.claim, World.begin, World.setOp])]
  have hm := Moved.ofAdmitted h ho hs hstop rfl (h.hold hc hf q.op) id
  simpa [World.suspend, World.setOp, World.emit, World.admitted, World.arm, World.claim,
    World.begin, World.setSrc] using hm

theorem awaitReceive_moved (hf : (cfg.family q.source).perWait) :
    Moved cfg w ((w.begin q).awaitReceive q) := by
  obtain ⟨hc, hstop⟩ := refusal_none hr
  unfold World.awaitReceive
  split
  · exact .ofRejected h ho _
  rename_i hslot
  have hs : (w.src q.source).slot = none := by simpa using hslot
  rw [claim_register hstop]
  dsimp only
  split
  · have heq := giveUp_rejected h ho hs hstop (.error (.native q.start))
    rw [claim_register hstop] at heq
    rw [heq]
    exact .rejected q _ w.src ho (fun _ => rfl) (fun _ => id) h.src
  · have hm := Moved.ofAdmitted h ho hs hstop rfl (h.hold hc hf q.op) id
    simpa [World.suspend, World.setOp, World.emit, World.admitted, World.arm, World.setSrc] using hm

theorem awaitPoll_moved (hf : (cfg.family q.source).perWait) :
    Moved cfg w ((w.begin q).awaitPoll cfg q) := by
  obtain ⟨hc, hstop⟩ := refusal_none hr
  unfold World.awaitPoll
  split
  · exact .ofRejected h ho _
  rename_i hslot
  have hs : (w.src q.source).slot = none := by simpa using hslot
  split
  · rw [claim_release (w := w.begin q) hs]
    exact .ofRejected h ho _
  have heq := giveUp_rejected h ho hs hstop (.error (.native q.start))
  rw [claim_register hstop] at heq ⊢
  dsimp only at heq ⊢
  split
  · rw [unregister_release, heq]
    exact .rejected q _ w.src ho (fun _ => rfl) (fun _ => id) h.src
  · have hm := Moved.ofAdmitted h ho hs hstop rfl (h.hold hc hf q.op) id
    simpa [World.suspend, World.setOp, World.emit, World.admitted, World.arm, World.setSrc] using hm

end

theorem await_moved : Moved cfg w (w.await cfg q) := by
  unfold World.await
  split
  · exact .ofRejected h ho _
  rename_i hr
  split
  · rename_i hf
    exact awaitRead_moved h ho hr (by rw [hf]; rfl)
  · rename_i hf
    exact awaitReceive_moved h ho hr (by rw [hf]; rfl)
  · rename_i hf
    exact awaitSignal_moved h ho hr hf
  · rename_i hf
    exact awaitFsEvent_moved h ho hr hf
  · rename_i hf
    exact awaitPoll_moved h ho hr (by rw [hf]; rfl)
  · rename_i hf
    exact awaitExit_moved h ho hr hf

end

end

end Wait
