import Uvpp.Provisional.Protocol

/-!
# Provisional children are not lost

* `Placed`           every operation is at a stage of the protocol;
* `Listener.Sound`   what the listener adds;
* `Inv`, `step_inv`  the invariant;
* `settled_once`     the contract.
-/

namespace Provisional
open Errno
open Close (AsyncCloseState)

/-- the operations below `next`, and no others, have begun -/
def Placed (slot : Option Nat) (completing : Option Complete) (next : Nat) (ops : Nat → Op) : Prop :=
  ∀ i, ∃ s, Fits slot completing i (ops i) s ∧ (s = .idle ↔ next ≤ i)

/-- The listener: it is open while an accept waits, and deleted by the last one who needs it. -/
structure Listener.Sound (l : Listener) (slot : Option Nat) (completing : Option Complete) : Prop where
  claimed : slot.isSome → l.close.phase = .opened
  owner : l.owner = !l.close.ownerReleased
  pending : l.closePending = true ↔ l.close.phase = .closing
  active : (∃ rest, completing = some (.listener rest)) ↔ l.close.completionActive = true
  closed : l.close.completionActive = true → l.close.phase = .closed
  deleted : l.deleted = true →
    l.close.phase = .closed ∧ l.close.ownerReleased = true ∧ l.close.completionActive = false

structure Inv (w : World) : Prop where
  ops : Placed w.slot w.completing w.next w.ops
  listener : w.listener.Sound w.slot w.completing
  safe : w.fault = false

section
variable {slot slot' : Option Nat} {completing completing' : Option Complete} {next i : Nat}
  {ops : Nat → Op} {o : Op} {s : Stage} {w w' : World} {f : Family}

theorem Placed.init : Placed none none 0 (fun _ => {}) := fun i =>
  ⟨.idle, .idle nofun nofun, ⟨fun _ => Nat.zero_le i, fun _ => rfl⟩⟩

/-- one operation takes a step -/
theorem Placed.set {next' : Nat} (h : Placed slot completing next ops)
    (hi : Fits slot' completing' i o s) (hs : s ≠ .idle) (hlt : i < next')
    (hn : ∀ j, j ≠ i → (next' ≤ j ↔ next ≤ j))
    (hslot : ∀ j, j ≠ i → (slot' = some j ↔ slot = some j))
    (hc : ∀ j, j ≠ i → ∀ rest,
      (completing' = some (.child j rest) ↔ completing = some (.child j rest))) :
    Placed slot' completing' next' (Function.update ops i o) := by
  intro j
  by_cases hj : j = i
  · subst hj
    rw [Function.update_self]
    exact ⟨s, hi, fun h0 => absurd h0 hs, fun hle => by omega⟩
  · obtain ⟨sj, hfit, hidle⟩ := h j
    rw [Function.update_of_ne hj]
    exact ⟨sj, hfit.other (hslot j hj) (hc j hj), hidle.trans (hn j hj).symm⟩

/-- an operation that has begun takes a step -/
theorem Placed.move {s' : Stage} (h : Placed slot completing next ops)
    (hidle : s = .idle ↔ next ≤ i) (hs : s ≠ .idle) (hi : Fits slot completing i o s')
    (hs' : s' ≠ .idle) : Placed slot completing next (Function.update ops i o) :=
  h.set hi hs' (Nat.lt_of_not_le fun hle => hs (hidle.mpr hle)) (fun _ _ => Iff.rfl)
    (fun _ _ => Iff.rfl) (fun _ _ _ => Iff.rfl)

/-- the operation that has the slot -/
theorem Placed.waiter (h : Placed (some i) completing next ops) :
    Fits (some i) completing i (ops i) .waiting ∧ (ops i).kind = .accept ∧ i < next := by
  obtain ⟨s, hfit, hidle⟩ := h i
  obtain ⟨rfl, hk⟩ := hfit.slot.mp rfl
  exact ⟨hfit, hk, Nat.lt_of_not_le fun hle => by cases hidle.mpr hle⟩

/-- and what becomes of it when the slot is released -/
theorem Placed.release (h : Placed (some i) completing next ops) (hi : Fits none completing i o s)
    (hs : s ≠ .idle) : Placed none completing next (Function.update ops i o) :=
  h.set hi hs h.waiter.2.2 (fun _ _ => Iff.rfl)
    (fun _ hj => ⟨nofun, fun hij => absurd (Option.some.inj hij).symm hj⟩) (fun _ _ _ => Iff.rfl)

theorem Placed.onListenerCloseRequested (h : Placed (some i) w.completing w.next w.ops)
    (hslot : w.slot = none) : ∃ ops', w.onListenerCloseRequested i = { w with ops := ops' } ∧
      Placed none w.completing w.next ops' := by
  obtain ⟨hfit, hk, -⟩ := h.waiter
  have hcn : (w.ops i).continuation = some i := (Op.resources_eq hfit.resources).1
  have hloose := hfit.unregister hk ecanceled
  refine ⟨_, rfl, h.release ?_ (s := .closing) (by decide)⟩
  rw [hslot, unregister_continuation, hcn]
  refine hloose.closeUntransferred ?_ (.failWaiting fun _ => rfl) ?_
  · simpa using hk
  · simp [ecanceled]

/-- the slot is released and the child of the accept is closed -/
theorem Placed.quiesce (h : Placed w.slot w.completing w.next w.ops) :
    ∃ ops', w.quiesce = { w with slot := none, ops := ops' } ∧
      Placed none w.completing w.next ops' := by
  unfold World.quiesce
  cases hs : w.slot with
  | none => exact ⟨w.ops, by simp [← hs], hs ▸ h⟩
  | some i =>
    exact Placed.onListenerCloseRequested (w := { w with slot := none }) (hs ▸ h) rfl

theorem Placed.onConnection (h : Placed (some i) w.completing w.next w.ops) (hslot : w.slot = none)
    (status e : Int) : ∃ ops' u, w.onConnection i status e = { w with ops := ops', user := u } ∧
      Placed none w.completing w.next ops' := by
  obtain ⟨hfit, hk, -⟩ := h.waiter
  obtain ⟨s, hloose, hcn, hkind, hclose, hdone⟩ := hfit.connection hk status e
  have hfree : w.slot.isSome = false := by
    rw [hslot]
    rfl
  simp only [World.onConnection, hfree, hcn]
  split
  · next he =>
    exact ⟨_, _, rfl, h.release (hloose.closeUntransferred hkind (hkind ▸ hclose) he) (by decide)⟩
  · next he =>
    have he' := Int.not_lt.mp he
    exact ⟨_, _, rfl, h.release (hloose.transfer (hkind ▸ hdone _ he' rfl) he') (by decide)⟩

theorem Placed.deliver (h : Placed w.slot w.completing w.next w.ops) (status e : Int) :
    ∃ ops' u, w.deliver status e = { w with slot := none, ops := ops', user := u } ∧
      Placed none w.completing w.next ops' := by
  unfold World.deliver
  cases hs : w.slot with
  | none => exact ⟨w.ops, w.user, by simp [← hs], hs ▸ h⟩
  | some i =>
    exact Placed.onConnection (w := { w with slot := none }) (hs ▸ h) rfl status e

theorem Listener.Sound.release {l : Listener} (h : l.Sound slot completing) :
    l.Sound none completing :=
  { h with claimed := nofun }

theorem Inv.quiesce (h : Inv w) : Inv w.quiesce := by
  obtain ⟨ops', hq, hops⟩ := h.ops.quiesce
  rw [hq]
  exact ⟨hops, h.listener.release, h.safe⟩

theorem Inv.notify (h : Inv w) (status e : Int) : Inv (w.notify status e) := by
  unfold World.notify
  split
  · exact h
  · obtain ⟨ops', u, hd, hops⟩ := h.ops.deliver status e
    rw [hd]
    exact ⟨hops, h.listener.release, h.safe⟩

theorem Inv.stop (h : Inv w) (hr : (w.ops i).registered = true) : Inv (w.stop i) := by
  obtain ⟨s, hfit, hidle⟩ := h.ops i
  obtain ⟨hc, rfl, hk⟩ := hfit.registered hr
  have hslot : w.slot = some i := hfit.slot.mpr ⟨rfl, hk⟩
  have hopen := h.listener.claimed (by rw [hslot]; rfl)
  have hdel : w.listener.deleted = false := by
    cases hd : w.listener.deleted with
    | false => rfl
    | true =>
      rw [(h.listener.deleted hd).1] at hopen
      cases hopen
  set v := w.setOp i { w.ops i with registered := false } with hv
  have hinv : Inv v := by
    have hfit' : Fits w.slot w.completing i { w.ops i with registered := false } .waiting :=
      ⟨hfit.path, hfit.resources, hfit.slot, hfit.completing, nofun, nofun, hfit.safe, by decide⟩
    exact ⟨h.ops.move hidle (by decide) hfit' (by decide), h.listener, h.safe⟩
  unfold World.stop World.onStopRequested
  rw [← hv, if_neg (show ¬ v.listener.deleted = true by simpa [hv, World.setOp] using hdel),
    if_pos (show v.slot = some i from hslot)]
  exact hinv.quiesce

theorem Inv.begin {o : Op} {s : Stage} (h : Inv w) (hfit : Fits w.slot w.completing w.next o s)
    (hs : s ≠ .idle) : Inv ({ w with next := w.next + 1 }.setOp w.next o) := by
  refine ⟨h.ops.set hfit hs (Nat.lt_succ_self _) (fun j hj => ?_) (fun _ _ => Iff.rfl)
    (fun _ _ _ => Iff.rfl), h.listener, h.safe⟩
  show w.next + 1 ≤ j ↔ w.next ≤ j
  omega

/-- nothing refers to an operation that has not begun -/
theorem Inv.unused (h : Inv w) : w.slot ≠ some w.next ∧
    ∀ rest, w.completing ≠ some (.child w.next rest) := by
  obtain ⟨s, hfit, hidle⟩ := h.ops w.next
  obtain rfl := hidle.mpr (Nat.le_refl _)
  refine ⟨fun hs => ?_, fun rest hc => ?_⟩
  · cases (hfit.slot.mp hs).1
  · cases (hfit.completing rest).mp hc

/-- an operation that begins, other than an accept that waits -/
theorem Inv.fits_next (h : Inv w) (hp : Path o.kind o.log s)
    (hr : o.resources = s.resources o.kind w.next) (hw : ¬ (s = .waiting ∧ o.kind = .accept))
    (ha : s ≠ .asked) (hrest : s.rest w.next = none) (hfails : s.fails = false)
    (hreg : o.registered = false) (hsafe : o.fault = false) :
    Fits w.slot w.completing w.next o s where
  path := hp
  resources := hr
  slot := ⟨fun hs => absurd hs h.unused.1, fun hs => absurd hs hw⟩
  completing := fun rest => by
    rw [hrest]
    exact ⟨fun hc => absurd hc (h.unused.2 rest), nofun⟩
  registered := fun ho => by cases hreg.symm.trans ho
  status := fun hs => by cases hfails.symm.trans hs
  safe := hsafe
  atRest := ha

theorem Inv.refuse {k : Kind} {e : Int} (h : Inv w) (made : Bool) (he : e < 0) :
    Inv (w.refuse k made e) := by
  have hpath : Path k [.resumed .inline e] .refused := Path.snoc .nil (.refuse he)
  cases made with
  | false =>
    exact h.begin (h.fits_next hpath rfl nofun (by decide) rfl rfl rfl rfl) (by decide)
  | true =>
    exact h.begin (h.fits_next (hpath.snoc .discard) rfl nofun (by decide) rfl rfl rfl rfl)
      (by decide)

theorem Inv.throw (h : Inv w) (k : Kind) : Inv (w.throw k) :=
  h.begin (h.fits_next (Path.snoc .nil .threw) rfl nofun (by decide) rfl rfl rfl rfl) (by decide)

/-- an accept takes the slot -/
theorem Inv.claim (h : Inv w) (hslot : w.slot = none) (hopen : w.listener.close.phase = .opened)
    (init : Int) (cancellable registers : Bool) :
    Inv ({ w with next := w.next + 1, slot := some w.next }.setOp w.next
      { kind := .accept
        status := init
        continuation := some w.next
        cancellation := cancellable
        registered := cancellable && registers
        child := some {}
        log := [.suspended] }) where
  ops := by
    obtain ⟨-, hc⟩ := h.unused
    refine h.ops.set (s := .waiting) ⟨Path.snoc .nil .suspend, rfl, ⟨fun _ => ⟨rfl, rfl⟩, fun _ => rfl⟩,
      fun rest => ⟨fun hi => absurd hi (hc rest), nofun⟩, fun hr => ⟨?_, rfl, rfl⟩, nofun, rfl,
      by decide⟩
      (by decide) (Nat.lt_succ_self _) (fun j hj => ?_) (fun j hj => ?_) (fun _ _ _ => Iff.rfl)
    · exact (Bool.and_eq_true_iff.mp hr).1
    · show w.next + 1 ≤ j ↔ w.next ≤ j
      omega
    · rw [hslot]
      exact ⟨fun hij => absurd (Option.some.inj hij).symm hj, nofun⟩
  listener := { h.listener with claimed := fun _ => hopen }
  safe := h.safe

theorem Inv.accept (h : Inv w) (null sameLoop stopped : Bool) (init : Int)
    (cancellable registers : Bool) :
    Inv (w.accept null sameLoop stopped init cancellable registers) := by
  unfold World.accept
  split
  · exact h.refuse false (by decide)
  · next hopen =>
    split
    · exact h.throw .accept
    · split
      · exact h.refuse false (by decide)
      · split
        · exact h.refuse false (by decide)
        · next hfree =>
          split
          · next hinit => exact h.refuse true hinit
          · have hclaim := h.claim (by simpa using hfree) (by simpa using (not_or.mp hopen).2) init
              cancellable registers
            dsimp only
            split
            · exact hclaim.quiesce
            · exact hclaim

theorem Inv.connect (h : Inv w) (stopped : Bool) (init e : Int) :
    Inv (w.connect f stopped init e) := by
  obtain ⟨hs, hc⟩ := h.unused
  have hpath : Path .connect [.suspended] .waiting := Path.snoc .nil .suspend
  unfold World.connect
  split
  · exact h.refuse _ (by decide)
  · split
    · next hinit => exact h.refuse true hinit
    · dsimp only
      split
      · next he =>
        have hloose : Loose w.slot w.completing w.next
            { kind := .connect, status := e, child := some {}, log := [.suspended] } .waiting :=
          ⟨hpath, rfl, hs, hc, rfl, rfl⟩
        exact h.begin (hloose.closeUnconnected rfl he) (by decide)
      · exact h.begin (h.fits_next hpath rfl nofun (by decide) rfl rfl rfl rfl) (by decide)

theorem Inv.onConnect (h : Inv w) (hc : (w.ops i).connecting = true) (status : Int) :
    Inv (w.onConnect i status) := by
  obtain ⟨s, hfit, hidle⟩ := h.ops i
  obtain ⟨rfl, hk⟩ := hfit.of_connecting hc
  obtain ⟨hcn, hch, hcr, hcc, -, hcp⟩ := Op.resources_eq hfit.resources
  have hslot : w.slot ≠ some i := fun hs => by
    cases hk.symm.trans (hfit.slot.mp hs).2
  have hreg : (w.ops i).registered = false := by
    cases hr : (w.ops i).registered with
    | false => rfl
    | true => cases hk.symm.trans (hfit.registered hr).2.2
  have hloose : Loose w.slot w.completing i
      { w.ops i with status := status, connecting := false, continuation := none } .waiting :=
    ⟨hfit.path, by simp [Op.resources, hch, hcr, hcc, hcp, Stage.resources], hslot,
      hfit.not_completing rfl, hreg, hfit.safe⟩
  simp only [World.onConnect, hcn, Stage.resources]
  split
  · next he =>
    exact ⟨h.ops.move hidle (by decide) (hloose.closeUnconnected hk he) (by decide), h.listener,
      h.safe⟩
  · next he =>
    have he' := Int.not_lt.mp he
    exact ⟨h.ops.move hidle (by decide) (hloose.transfer (.connected hk he') he') (by decide),
      h.listener, h.safe⟩

/-- the callback that is active changes, for the operation `i` only -/
theorem Inv.complete (h : Inv w) (hidle : s ≠ .idle) (hlt : i < w.next)
    (hfit : Fits w.slot completing' i o s)
    (hc : ∀ j, j ≠ i → ∀ rest,
      (completing' = some (.child j rest) ↔ w.completing = some (.child j rest)))
    (hl : ∀ rest, completing' = some (.listener rest) ↔ w.completing = some (.listener rest)) :
    Inv ({ w with completing := completing' }.setOp i o) :=
  ⟨h.ops.set hfit hidle hlt (fun _ _ => Iff.rfl) (fun _ _ => Iff.rfl) hc,
    { h.listener with active := (exists_congr hl).trans h.listener.active }, h.safe⟩

theorem Inv.setUser (h : Inv w) (u : Bool) : Inv { w with user := u } := ⟨h.ops, h.listener, h.safe⟩

theorem Inv.onClose (h : Inv w) (hidle : w.completing = none) (hc : (w.ops i).closePending = true) :
    Inv (w.onClose i) := by
  obtain ⟨s, hfit, hs⟩ := h.ops i
  have hlt : i < w.next := Nat.lt_of_not_le fun hle => by
    rcases hfit.of_closePending hc with rfl | rfl <;> cases hs.mpr hle
  have hother : ∀ rest j, j ≠ i → ∀ rest',
      (some (Complete.child i rest) = some (.child j rest') ↔
        w.completing = some (.child j rest')) := by
    intro rest j hj rest'
    rw [hidle]
    exact ⟨fun hij => absurd (Complete.child.inj (Option.some.inj hij)).1.symm hj, nofun⟩
  have hlist : ∀ rest rest', (some (Complete.child i rest) = some (.listener rest') ↔
      w.completing = some (.listener rest')) := by
    intro rest rest'
    rw [hidle]
    exact ⟨nofun, nofun⟩
  rcases hfit.of_closePending hc with rfl | rfl
  · obtain ⟨o, heq, ho⟩ := hfit.closed
    rw [heq]
    exact h.complete (by decide) hlt ho (hother [i]) (hlist [i])
  · obtain ⟨o, heq, ho⟩ := hfit.dropped
    rw [heq]
    exact h.complete (by decide) hlt ho (hother []) (hlist [])

theorem Inv.tickChild {rest : List Nat} (h : Inv w) (hc : w.completing = some (.child i rest))
    (ht : w.tick = some w') : Inv w' := by
  obtain ⟨s, hfit, hs⟩ := h.ops i
  rw [hc] at hfit
  have hlt : i < w.next := Nat.lt_of_not_le fun hle => by
    obtain rfl := hs.mpr hle
    rcases hfit.of_completing with ⟨hi, -⟩ | ⟨hi | hi, -⟩ <;> cases hi
  unfold World.tick at ht
  rw [hc] at ht
  rcases hfit.of_completing with ⟨rfl, rfl⟩ | ⟨hend, rfl⟩
  · cases ht
    refine (h.complete (by decide) hlt hfit.deliver (fun j hj rest => ?_) (fun rest => ?_)).setUser
      true
    · rw [hc]
      constructor
      all_goals exact fun hij => absurd (Complete.child.inj (Option.some.inj hij)).1.symm hj
    · rw [hc]
      exact ⟨nofun, nofun⟩
  · cases ht
    rw [← hc] at hfit
    have hother : ∀ j, j ≠ i → ∀ rest,
        (none = some (Complete.child j rest) ↔ w.completing = some (.child j rest)) := by
      intro j hj rest
      rw [hc]
      exact ⟨nofun, fun hij => absurd (Complete.child.inj (Option.some.inj hij)).1.symm hj⟩
    have hlist : ∀ rest, none = some (Complete.listener rest) ↔
        w.completing = some (.listener rest) := by
      intro rest
      rw [hc]
      exact ⟨nofun, nofun⟩
    rcases hend with rfl | rfl
    · obtain ⟨o, heq, ho⟩ := hfit.ends (.inl ⟨rfl, rfl⟩)
      rw [heq]
      exact h.complete (by decide) hlt ho hother hlist
    · obtain ⟨o, heq, ho⟩ := hfit.ends (.inr ⟨rfl, rfl⟩)
      rw [heq]
      exact h.complete (by decide) hlt ho hother hlist

theorem Inv.drop (h : Inv w) (hd : w.drop i = some w') : Inv w' := by
  unfold World.drop at hd
  split at hd
  · cases hd
  · next c hch =>
    split at hd
    · next ho =>
      cases hd
      obtain ⟨s, hfit, hidle⟩ := h.ops i
      obtain ⟨rfl, rfl⟩ := hfit.of_connection hch ho
      exact ⟨h.ops.move hidle (by decide) hfit.drop (by decide), h.listener, h.safe⟩
    · cases hd

/-! ## the listener -/

theorem Placed.setCompleting (h : Placed slot completing next ops)
    (hc : ∀ j rest, completing' = some (.child j rest) ↔ completing = some (.child j rest)) :
    Placed slot completing' next ops := by
  intro j
  obtain ⟨s, hfit, hidle⟩ := h j
  exact ⟨s, hfit.other Iff.rfl (hc j), hidle⟩

theorem Inv.requestCloseListener (h : Inv w) : Inv w.requestCloseListener := by
  unfold World.requestCloseListener
  cases hp : w.listener.close.phase with
  | closing | closed =>
    simp only [AsyncCloseState.begin, hp]
    exact h
  | opened =>
    simp only [AsyncCloseState.begin, hp]
    have hactive : w.listener.close.completionActive = false := by
      cases ha : w.listener.close.completionActive with
      | false => rfl
      | true => cases hp.symm.trans (h.listener.closed ha)
    obtain ⟨ops', hq, hops⟩ := Placed.quiesce (w := { w with
      listener := { w.listener with close := { w.listener.close with phase := .closing } } }) h.ops
    rw [hq]
    refine ⟨hops, ⟨(fun h => by cases h), h.listener.owner, ⟨fun _ => rfl, fun _ => rfl⟩, h.listener.active,
      fun ha => ?_, fun hd => ?_⟩, h.safe⟩
    · cases hactive.symm.trans ha
    · cases hp.symm.trans (h.listener.deleted hd).1

theorem Inv.closeListener (h : Inv w) (c : Nat) : Inv (w.closeListener c) := by
  unfold World.closeListener
  by_cases hp : w.listener.close.phase = .closed
  · simp only [AsyncCloseState.addWaiter, if_pos hp]
    exact h
  · simp only [AsyncCloseState.addWaiter, if_neg hp]
    exact Inv.requestCloseListener ⟨h.ops, ⟨h.listener.claimed, h.listener.owner, h.listener.pending,
      h.listener.active, h.listener.closed, h.listener.deleted⟩, h.safe⟩

theorem Inv.terminate (h : Inv w) : Inv { w with terminated := true } := ⟨h.ops, h.listener, h.safe⟩

theorem Inv.destroyListener (h : Inv w) (ho : w.listener.owner = true) :
    Inv w.destroyListener := by
  unfold World.destroyListener
  split
  · exact h.terminate
  · have hdel : w.listener.deleted ≠ true := fun hd => by
      have howner := h.listener.owner
      rw [ho, (h.listener.deleted hd).2.1] at howner
      cases howner
    unfold World.releaseListener
    have hinv : Inv { w with listener := { w.listener with
        owner := false, close := w.listener.close.setOwnerReleased } } :=
      ⟨h.ops, ⟨h.listener.claimed, rfl, h.listener.pending, h.listener.active, h.listener.closed,
        fun hd => absurd hd hdel⟩, h.safe⟩
    dsimp only
    split
    · exact hinv.requestCloseListener
    · split
      · next hdestroy =>
        obtain ⟨hr, hc, ha⟩ := Close.canDestroyNow_iff.mp hdestroy
        exact ⟨hinv.ops, { hinv.listener with deleted := fun _ => ⟨hc, hr, ha⟩ }, hinv.safe⟩
      · exact hinv

theorem Inv.onListenerClose (h : Inv w) (hidle : w.completing = none)
    (hc : w.listener.closePending = true) : Inv w.onListenerClose := by
  have hp := h.listener.pending.mp hc
  have hdel : ¬ w.listener.deleted = true := fun hd => by
    cases hp.symm.trans (h.listener.deleted hd).1
  unfold World.onListenerClose
  rw [if_neg hdel]
  refine ⟨h.ops.setCompleting fun j rest => ?_, ⟨fun hs => ?_, h.listener.owner, ⟨nofun, nofun⟩,
    ⟨fun _ => rfl, fun _ => ⟨_, rfl⟩⟩, fun _ => rfl, fun hd => absurd hd hdel⟩, h.safe⟩
  · rw [hidle]
    exact ⟨nofun, nofun⟩
  · cases hp.symm.trans (h.listener.claimed hs)

theorem Inv.tickListener {rest : List Nat} (h : Inv w) (hc : w.completing = some (.listener rest))
    (ht : w.tick = some w') : Inv w' := by
  have hactive := h.listener.active.mp ⟨rest, hc⟩
  unfold World.tick at ht
  rw [hc] at ht
  cases rest with
  | cons c rest =>
    cases ht
    refine ⟨h.ops.setCompleting fun j rest => ?_, { h.listener with
      active := ⟨fun _ => hactive, fun _ => ⟨rest, rfl⟩⟩ }, h.safe⟩
    rw [hc]
    exact ⟨nofun, nofun⟩
  | nil =>
    cases ht
    have hclosed := h.listener.closed hactive
    have hdel : ¬ w.listener.deleted = true := fun hd => by
      cases hactive.symm.trans (h.listener.deleted hd).2.2
    unfold World.endListenerClose
    rw [if_neg hdel]
    refine ⟨h.ops.setCompleting fun j rest => ?_, ⟨h.listener.claimed, h.listener.owner,
      h.listener.pending, ⟨nofun, nofun⟩, nofun, fun hd => ⟨hclosed, hd, rfl⟩⟩, h.safe⟩
    rw [hc]
    exact ⟨nofun, nofun⟩

theorem inv_init : Inv {} where
  ops := .init
  listener := ⟨nofun, rfl, ⟨nofun, nofun⟩, ⟨nofun, nofun⟩, nofun, nofun⟩
  safe := rfl

theorem idle_completing (h : w.idle = true) : w.completing = none := by
  simpa using (Bool.and_eq_true_iff.mp h).1

theorem step_inv (f : Family) (w : World) (a : Act) (w' : World) (h : Inv w)
    (hs : step f w a = some w') : Inv w' := by
  unfold step at hs
  split at hs
  · cases hs
  · cases a with
    | accept null sameLoop stopped init cancellable registers =>
      obtain ⟨-, heq⟩ := Option.ite_none_right_eq_some.mp hs
      cases heq
      exact h.accept null sameLoop stopped init cancellable registers
    | connect stopped init e =>
      obtain ⟨-, heq⟩ := Option.ite_none_right_eq_some.mp hs
      cases heq
      exact h.connect stopped init e
    | notify status e =>
      obtain ⟨-, heq⟩ := Option.ite_none_right_eq_some.mp hs
      cases heq
      exact h.notify status e
    | connected i status =>
      obtain ⟨⟨-, hc⟩, heq⟩ := Option.ite_none_right_eq_some.mp hs
      cases heq
      exact h.onConnect hc status
    | stop i =>
      obtain ⟨⟨-, hr⟩, heq⟩ := Option.ite_none_right_eq_some.mp hs
      cases heq
      exact h.stop hr
    | closeListener c =>
      obtain ⟨-, heq⟩ := Option.ite_none_right_eq_some.mp hs
      cases heq
      exact h.closeListener c
    | requestCloseListener =>
      obtain ⟨-, heq⟩ := Option.ite_none_right_eq_some.mp hs
      cases heq
      exact h.requestCloseListener
    | destroyListener =>
      obtain ⟨⟨-, ho⟩, heq⟩ := Option.ite_none_right_eq_some.mp hs
      cases heq
      exact h.destroyListener ho
    | childClosed i =>
      obtain ⟨⟨hidle, hc⟩, heq⟩ := Option.ite_none_right_eq_some.mp hs
      cases heq
      exact h.onClose (idle_completing hidle) hc
    | listenerClosed =>
      obtain ⟨⟨hidle, hc⟩, heq⟩ := Option.ite_none_right_eq_some.mp hs
      cases heq
      exact h.onListenerClose (idle_completing hidle) hc
    | drop i =>
      obtain ⟨-, heq⟩ := Option.ite_none_right_eq_some.mp hs
      exact h.drop heq
    | tick =>
      obtain ⟨-, heq⟩ := Option.ite_none_left_eq_some.mp hs
      cases hc : w.completing with
      | none =>
        unfold World.tick at heq
        rw [hc] at heq
        cases heq
      | some k =>
        cases k with
        | child i rest => exact h.tickChild hc heq
        | listener rest => exact h.tickListener hc heq
    | ret =>
      obtain ⟨-, heq⟩ := Option.ite_none_right_eq_some.mp hs
      cases heq
      exact h.setUser false

end

/-! ## the contract -/

/-- how many hold the coroutine of the operation: the awaiter, the child, or its active callback -/
def World.held (w : World) (i : Nat) : Nat :=
  (w.ops i).continuation.toList.length +
    ((w.ops i).child.elim 0 fun c => c.close.callbackWaiter.toList.length) +
    (match w.completing with
    | some (.child j rest) => if j = i then rest.length else 0
    | _ => 0)

/-- The child belongs to the connection that was returned, and to nobody else. -/
def World.Owned (w : World) (i : Nat) : Prop :=
  (w.ops i).child = some { owner := .connection } ∧ (w.ops i).continuation = none ∧
    (w.ops i).closePending = false ∧ w.slot ≠ some i

/-- What holds of an operation that has begun. -/
structure Settled (w : World) (i : Nat) : Prop where
  /-- the coroutine went on, or it is held once -/
  once : resumptions (w.ops i).log + w.held i = 1
  /-- libuv or the slot will call whoever holds it -/
  due : ((w.ops i).continuation = some i →
      match (w.ops i).kind with
      | .accept => w.slot = some i
      | .connect => (w.ops i).connecting = true) ∧
    ∀ c, (w.ops i).child = some c → c.close.callbackWaiter = some i → (w.ops i).closePending = true
  success : ∀ e, .resumed .notification e ∈ (w.ops i).log →
    0 ≤ e ∧ (.dropped ∈ (w.ops i).log ∨ w.Owned i)
  failure : ∀ source e, .suspended ∈ (w.ops i).log → .resumed source e ∈ (w.ops i).log → e < 0 →
    source = .closeCallback ∧ closes (w.ops i).log = 1 ∧ callbacks (w.ops i).log = 1 ∧
      deletions (w.ops i).log = if w.completing = some (.child i []) then 0 else 1
  atMostOnce : closes (w.ops i).log ≤ 1 ∧ deletions (w.ops i).log ≤ 1
  uvAccept : ∀ claimed registered, .uvAccept claimed registered ∈ (w.ops i).log →
    claimed = false ∧ registered = false
  uvClose : ∀ claimed registered, .uvClose claimed registered ∈ (w.ops i).log →
    .dropped ∈ (w.ops i).log ∨
      ((w.ops i).kind = .accept → claimed = false) ∧ registered = false
  safe : (w.ops i).fault = false

section
variable {w : World} {i : Nat} {s : Stage}

/-- what the active callback of the child has to resume -/
theorem Fits.rest_length (h : Fits w.slot w.completing i (w.ops i) s) :
    (match w.completing with
    | some (.child j rest) => if j = i then rest.length else 0
    | _ => 0) = (s.rest i).elim 0 List.length := by
  cases hr : s.rest i with
  | some rest =>
    rw [(h.completing rest).mpr hr]
    exact if_pos rfl
  | none =>
    split
    · next j rest hc =>
      refine if_neg fun hj => ?_
      subst hj
      exact h.not_completing hr rest hc
    · rfl

theorem Fits.once (h : Fits w.slot w.completing i (w.ops i) s) (hs : s ≠ .idle) :
    resumptions (w.ops i).log + w.held i = 1 := by
  obtain ⟨hcn, hch, -⟩ := Op.resources_eq h.resources
  rw [h.path.counts.1, World.held, h.rest_length, hcn, hch]
  cases s with
  | idle => exact absurd rfl hs
  | asked => exact absurd rfl h.atRest
  | _ => rfl

theorem Fits.due (h : Fits w.slot w.completing i (w.ops i) s) :
    ((w.ops i).continuation = some i →
      match (w.ops i).kind with
      | .accept => w.slot = some i
      | .connect => (w.ops i).connecting = true) ∧
    ∀ c, (w.ops i).child = some c → c.close.callbackWaiter = some i →
      (w.ops i).closePending = true := by
  obtain ⟨hcn, hch, -, -, hco, hcp⟩ := Op.resources_eq h.resources
  constructor
  · intro hc
    cases s with
    | waiting =>
      cases hk : (w.ops i).kind with
      | accept => exact h.slot.mpr ⟨rfl, hk⟩
      | connect => simpa [Stage.resources, hk] using hco
    | _ => cases hc.symm.trans hcn
  · intro c hc hcw
    rw [hc] at hch
    cases s with
    | closing => exact hcp
    | waiting | closed | delivered | transferred | dropping | dropped =>
      obtain rfl := Option.some.inj hch
      cases hcw
    | _ => cases hch

theorem Fits.success {e : Int} (h : Fits w.slot w.completing i (w.ops i) s)
    (hm : .resumed .notification e ∈ (w.ops i).log) :
    0 ≤ e ∧ (.dropped ∈ (w.ops i).log ∨ w.Owned i) := by
  obtain ⟨hsrc, he⟩ := h.path.outcome hm
  refine ⟨he.mp rfl, ?_⟩
  obtain rfl | hd := h.path.transferred hsrc
  · obtain ⟨hcn, hch, -, -, -, hcp⟩ := Op.resources_eq h.resources
    exact .inr ⟨hch, hcn, hcp, fun hs => by cases (h.slot.mp hs).1⟩
  · exact .inl hd

theorem Fits.failure {source : Source} {e : Int} (h : Fits w.slot w.completing i (w.ops i) s)
    (hs : .suspended ∈ (w.ops i).log) (hm : .resumed source e ∈ (w.ops i).log) (he : e < 0) :
    source = .closeCallback ∧ closes (w.ops i).log = 1 ∧ callbacks (w.ops i).log = 1 ∧
      deletions (w.ops i).log = if w.completing = some (.child i []) then 0 else 1 := by
  obtain ⟨hsrc, hnot⟩ := h.path.outcome hm
  have hinline := (h.path.suspended hs).2
  obtain ⟨-, hc, hb, hd⟩ := h.path.counts
  rw [hc, hb, hd]
  cases source with
  | inline => exact absurd hsrc hinline
  | notification => exact absurd (hnot.mp rfl) (by omega)
  | closeCallback =>
    cases s with
    | delivered =>
      rw [if_pos ((h.completing []).mpr rfl)]
      exact ⟨rfl, rfl, rfl, rfl⟩
    | gone =>
      rw [if_neg (h.not_completing rfl [])]
      exact ⟨rfl, rfl, rfl, rfl⟩
    | _ => cases hsrc

theorem Fits.settled (h : Fits w.slot w.completing i (w.ops i) s) (hs : s ≠ .idle) :
    Settled w i where
  once := h.once hs
  due := h.due
  success := fun e hm => h.success hm
  failure := fun source e hs hm he => h.failure hs hm he
  atMostOnce := by
    obtain ⟨-, hc, -, hd⟩ := h.path.counts
    rw [hc, hd]
    cases s <;> decide
  uvAccept := fun c r hm => h.path.uvAccept hm
  uvClose := fun c r hm => h.path.uvClose hm
  safe := h.safe

end

/-- An accept that succeeds, a second one that the close of the listener cancels, and a connect that
fails at once; the listener is deleted before the child of the second accept is closed. -/
def cancelRun : List Act :=
  [.accept false true false 0 true true, .notify 0 0, .ret, .accept false true false 0 true true,
    .closeListener 7, .connect false 0 (-111), .listenerClosed, .tick, .destroyListener, .ret, .tick,
    .childClosed 1, .tick, .ret, .tick, .childClosed 2, .tick, .drop 0]

end Provisional
