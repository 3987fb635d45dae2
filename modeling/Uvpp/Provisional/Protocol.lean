import Uvpp.Provisional.Model

/-!
# The protocol of one operation

What an operation is for, apart from how it is done: the stages it may go through, and what is held
for it at each of them.

* `Next`, `Path`        the stages and the histories that lead to them;
* `Path.counts`         how often the coroutine went on and the child was closed and deleted;
* `Stage.resources`     who holds the coroutine and the child;
* `Fits`                an operation of the machine that is at a stage;
* `Fits.fail` and so on the operations of the machine are steps of the protocol.
-/

namespace Provisional
open Close (AsyncCloseState)

inductive Stage where
  | idle
  /-- went on at once -/
  | refused
  /-- and its child, which was not initialised, is deleted -/
  | discarded
  | waiting
  /-- `uv_accept` was called -/
  | asked
  /-- the child is being closed, and the coroutine waits for it -/
  | closing
  /-- the close callback of the child was called -/
  | closed
  | delivered
  | gone
  /-- the child is a connection -/
  | transferred
  /-- that was destroyed -/
  | released
  | dropping
  | dropped
  | dropGone
deriving DecidableEq

inductive Next (k : Kind) : Stage → Event → Stage → Prop where
  | threw : Next k .idle .threw .refused
  | refuse {e : Int} : e < 0 → Next k .idle (.resumed .inline e) .refused
  | discard : Next k .refused .deleted .discarded
  | suspend : Next k .idle .suspended .waiting
  | ask : k = .accept → Next k .waiting (.uvAccept false false) .asked
  | failWaiting {c : Bool} : (k = .accept → c = false) → Next k .waiting (.uvClose c false) .closing
  | failAsked : Next k .asked (.uvClose false false) .closing
  | accepted {e : Int} : 0 ≤ e → Next k .asked (.resumed .notification e) .transferred
  | connected {e : Int} : k = .connect → 0 ≤ e →
      Next k .waiting (.resumed .notification e) .transferred
  | callback : Next k .closing .closeCallback .closed
  | deliver {e : Int} : e < 0 → Next k .closed (.resumed .closeCallback e) .delivered
  | delete : Next k .delivered .deleted .gone
  | drop : Next k .transferred .dropped .released
  | dropClose {c r : Bool} : Next k .released (.uvClose c r) .dropping
  | dropCallback : Next k .dropping .closeCallback .dropped
  | dropDelete : Next k .dropped .deleted .dropGone

/-- the histories that lead to a stage -/
inductive Path (k : Kind) : List Event → Stage → Prop where
  | nil : Path k [] .idle
  | snoc {es : List Event} {e : Event} {s s' : Stage} :
      Path k es s → Next k s e s' → Path k (es ++ [e]) s'

def Event.goesOn : Event → Bool
  | .threw | .resumed .. => true
  | _ => false

def Event.closes : Event → Bool
  | .uvClose .. => true
  | _ => false

/-- how often the coroutine went on -/
def resumptions (log : List Event) : Nat := log.countP Event.goesOn
/-- how often the child was closed -/
def closes (log : List Event) : Nat := log.countP Event.closes
def callbacks (log : List Event) : Nat := log.count .closeCallback
def deletions (log : List Event) : Nat := log.count .deleted

namespace Stage

def resumptions : Stage → Nat
  | .idle | .waiting | .asked | .closing | .closed => 0
  | _ => 1

def closes : Stage → Nat
  | .closing | .closed | .delivered | .gone | .dropping | .dropped | .dropGone => 1
  | _ => 0

def callbacks : Stage → Nat
  | .closed | .delivered | .gone | .dropped | .dropGone => 1
  | _ => 0

def deletions : Stage → Nat
  | .discarded | .gone | .dropGone => 1
  | _ => 0

/-- where the coroutine went on from -/
def source : Stage → Option Source
  | .refused | .discarded => some .inline
  | .delivered | .gone => some .closeCallback
  | .transferred | .released | .dropping | .dropped | .dropGone => some .notification
  | _ => none

end Stage

section
variable {k : Kind} {es : List Event} {e : Event} {s s' : Stage}

theorem Path.counts (h : Path k es s) : resumptions es = s.resumptions ∧ closes es = s.closes ∧
    callbacks es = s.callbacks ∧ deletions es = s.deletions := by
  induction h with
  | nil => exact ⟨rfl, rfl, rfl, rfl⟩
  | snoc _ hn ih =>
    obtain ⟨hr, hc, hb, hd⟩ := ih
    unfold Provisional.resumptions at hr ⊢
    unfold Provisional.closes at hc ⊢
    unfold Provisional.callbacks at hb ⊢
    unfold Provisional.deletions at hd ⊢
    simp only [List.countP_append, List.count_append, hr, hc, hb, hd]
    cases hn <;> exact ⟨rfl, rfl, rfl, rfl⟩

/-- a stage after the coroutine went on -/
theorem Path.outcome (h : Path k es s) {src : Source} {i : Int} (hm : .resumed src i ∈ es) :
    s.source = some src ∧ (src = .notification ↔ 0 ≤ i) := by
  induction h with
  | nil => cases hm
  | snoc _ hn ih =>
    rcases List.mem_append.mp hm with hm | hm
    · obtain ⟨hs, hi⟩ := ih hm
      refine ⟨?_, hi⟩
      cases hn <;> first | exact hs | cases hs
    · obtain rfl := List.mem_singleton.mp hm
      cases hn with
      | refuse | deliver => exact ⟨rfl, by simp; omega⟩
      | accepted he | connected _ he => exact ⟨rfl, by simp [he]⟩

/-- a coroutine that suspended did not go on at once -/
theorem Path.suspended (h : Path k es s) (hm : .suspended ∈ es) :
    s ≠ .idle ∧ s.source ≠ some .inline := by
  induction h with
  | nil => cases hm
  | snoc _ hn ih =>
    rcases List.mem_append.mp hm with hm | hm
    · obtain ⟨hidle, hs⟩ := ih hm
      cases hn with
      | threw | refuse | suspend => exact absurd rfl hidle
      | discard => exact absurd rfl hs
      | _ => exact ⟨by decide, by decide⟩
    · obtain rfl := List.mem_singleton.mp hm
      cases hn
      exact ⟨by decide, by decide⟩

/-- a connection is given up only when it is destroyed -/
theorem Path.transferred (h : Path k es s) (hs : s.source = some .notification) :
    s = .transferred ∨ .dropped ∈ es := by
  induction h with
  | nil => cases hs
  | snoc _ hn ih =>
    cases hn with
    | accepted | connected => exact .inl rfl
    | drop => exact .inr (List.mem_append_right _ (List.mem_singleton.mpr rfl))
    | dropClose | dropCallback | dropDelete =>
      obtain hs' | hm := ih rfl
      · cases hs'
      · exact .inr (List.mem_append_left _ hm)
    | _ => cases hs

theorem Path.uvAccept (h : Path k es s) {c r : Bool} (hm : .uvAccept c r ∈ es) :
    c = false ∧ r = false := by
  induction h with
  | nil => cases hm
  | snoc _ hn ih =>
    rcases List.mem_append.mp hm with hm | hm
    · exact ih hm
    · obtain rfl := List.mem_singleton.mp hm
      cases hn
      exact ⟨rfl, rfl⟩

theorem Path.uvClose (h : Path k es s) {c r : Bool} (hm : .uvClose c r ∈ es) :
    .dropped ∈ es ∨ (k = .accept → c = false) ∧ r = false := by
  induction h with
  | nil => cases hm
  | snoc hp hn ih =>
    rcases List.mem_append.mp hm with hm | hm
    · exact (ih hm).imp_left (List.mem_append_left _)
    · obtain rfl := List.mem_singleton.mp hm
      cases hn with
      | failWaiting hc => exact .inr ⟨hc, rfl⟩
      | failAsked => exact .inr ⟨fun _ => rfl, rfl⟩
      | dropClose =>
        obtain hs | hd := hp.transferred rfl
        · cases hs
        · exact .inl (List.mem_append_left _ hd)

end

/-! ## what is held at a stage -/

structure Resources where
  continuation : Option Nat := none
  child : Option Child := none
  closeRequired : Bool := false
  closeCompleted : Bool := false
  connecting : Bool := false
  closePending : Bool := false
deriving DecidableEq

def Op.resources (o : Op) : Resources :=
  ⟨o.continuation, o.child, o.closeRequired, o.closeCompleted, o.connecting, o.closePending⟩

/-- the state of a child whose close callback is active -/
def closedChild : Child :=
  { close := { phase := .closed, ownerReleased := true, completionActive := true }
    owner := .nobody }

namespace Stage

/-- What is held for the operation `i` when no call is active in the middle of it.  The two flags and
the destination are those of accept. -/
def resources (k : Kind) (i : Nat) : Stage → Resources
  | .waiting => { continuation := some i, child := some {}, connecting := k = .connect }
  | .closing =>
    { child := some
        { close := { phase := .closing, callbackWaiter := some i, ownerReleased := true }
          owner := .nobody
          destination := k = .accept }
      closeRequired := k = .accept
      closePending := true }
  | .closed | .delivered =>
    { child := some closedChild, closeRequired := k = .accept, closeCompleted := k = .accept }
  | .gone => { closeRequired := k = .accept, closeCompleted := k = .accept }
  | .transferred => { child := some { owner := .connection } }
  | .dropping =>
    { child := some { close := { phase := .closing, ownerReleased := true }, owner := .nobody }
      closePending := true }
  | .dropped => { child := some closedChild }
  | _ => {}

/-- what the active close callback of the child has to resume -/
def rest (i : Nat) : Stage → Option (List Nat)
  | .closed => some [i]
  | .delivered | .dropped => some []
  | _ => none

/-- the operation failed or was cancelled after it suspended -/
def fails : Stage → Bool
  | .closing | .closed | .delivered | .gone => true
  | _ => false

end Stage

/-- The operation `i` of the machine is at the stage `s`. -/
structure Fits (slot : Option Nat) (completing : Option Complete) (i : Nat) (o : Op) (s : Stage) :
    Prop where
  path : Path o.kind o.log s
  resources : o.resources = s.resources o.kind i
  slot : slot = some i ↔ s = .waiting ∧ o.kind = .accept
  completing : ∀ rest, completing = some (.child i rest) ↔ s.rest i = some rest
  registered : o.registered = true → o.cancellation = true ∧ s = .waiting ∧ o.kind = .accept
  status : s.fails = true → o.status < 0
  safe : o.fault = false
  atRest : s ≠ .asked := by decide

section
variable {slot slot' : Option Nat} {completing completing' : Option Complete} {i : Nat} {o : Op}
  {s : Stage} {claimed : Bool}

/-- the slot and the active callback may change in what does not concern the operation -/
theorem Fits.other (h : Fits slot completing i o s) (hs : slot' = some i ↔ slot = some i)
    (hc : ∀ rest, completing' = some (.child i rest) ↔ completing = some (.child i rest)) :
    Fits slot' completing' i o s :=
  { h with
    slot := hs.trans h.slot
    completing := fun rest => (hc rest).trans (h.completing rest) }

theorem Fits.not_completing (h : Fits slot completing i o s) (hs : s.rest i = none) (rest : List Nat) :
    completing ≠ some (.child i rest) := fun hc => by
  cases hs.symm.trans ((h.completing rest).mp hc)

theorem Fits.idle (hs : slot ≠ some i) (hc : ∀ rest, completing ≠ some (.child i rest)) :
    Fits slot completing i {} .idle where
  path := .nil
  resources := rfl
  slot := ⟨fun h => absurd h hs, nofun⟩
  completing := fun rest => ⟨fun h => absurd h (hc rest), nofun⟩
  registered := nofun
  status := nofun
  safe := rfl

theorem closeUntransferred_eq (hc : o.child = some {}) (k : Option Nat) :
    o.closeUntransferred claimed k = { o with
      closeRequired := true
      child := some
        { close := { phase := .closing, callbackWaiter := k, ownerReleased := true }
          owner := .nobody
          destination := true }
      closePending := true
      log := o.log ++ [.uvClose claimed o.registered] } := by
  simp [Op.closeUntransferred, hc, Op.releaseOwner, Op.requestClose, Op.requestCloseFromCallback,
    AsyncCloseState.setOwnerReleased, AsyncCloseState.begin, Op.emit]

theorem closeUnconnected_eq (hc : o.child = some {}) (k : Option Nat) :
    o.closeUnconnected claimed k = { o with
      child := some
        { close := { phase := .closing, callbackWaiter := k, ownerReleased := true }
          owner := .nobody }
      closePending := true
      log := o.log ++ [.uvClose claimed o.registered] } := by
  simp [Op.closeUnconnected, hc, Op.releaseOwner, Op.requestClose, Op.requestCloseFromCallback,
    AsyncCloseState.setOwnerReleased, AsyncCloseState.begin, Op.emit]

/-- An awaiter that the slot and the stop callbacks have let go of, in the middle of its callback. -/
structure Loose (slot : Option Nat) (completing : Option Complete) (i : Nat) (o : Op) (s : Stage) :
    Prop where
  path : Path o.kind o.log s
  resources : o.resources = { child := some {} }
  slot : slot ≠ some i
  completing : ∀ rest, completing ≠ some (.child i rest)
  registered : o.registered = false
  safe : o.fault = false

theorem Op.resources_eq {o : Op} {r : Resources} (h : o.resources = r) :
    o.continuation = r.continuation ∧ o.child = r.child ∧ o.closeRequired = r.closeRequired ∧
      o.closeCompleted = r.closeCompleted ∧ o.connecting = r.connecting ∧
      o.closePending = r.closePending := by
  subst h
  exact ⟨rfl, rfl, rfl, rfl, rfl, rfl⟩

theorem Loose.emit {e : Event} {s' : Stage} (h : Loose slot completing i o s)
    (hn : Next o.kind s e s') : Loose slot completing i (o.emit e) s' :=
  { h with path := h.path.snoc hn }

theorem Loose.setStatus (h : Loose slot completing i o s) (e : Int) :
    Loose slot completing i { o with status := e } s :=
  ⟨h.path, h.resources, h.slot, h.completing, h.registered, h.safe⟩

/-- the end of the callback -/
theorem Loose.fits {o' : Op} {s' : Stage} (h : Loose slot completing i o s) (hs : s' ≠ .waiting)
    (ha : s' ≠ .asked) (hrest : s'.rest i = none) (hr : o'.registered = o.registered) (hf : o'.fault = o.fault)
    (hp : Path o'.kind o'.log s') (hres : o'.resources = s'.resources o'.kind i)
    (he : s'.fails = true → o'.status < 0) : Fits slot completing i o' s' where
  path := hp
  resources := hres
  slot := ⟨fun hi => absurd hi h.slot, fun hw => absurd hw.1 hs⟩
  completing := fun rest => by
    rw [hrest]
    exact ⟨fun hc => absurd hc (h.completing rest), nofun⟩
  registered := fun ho => by
    rw [hr, h.registered] at ho
    cases ho
  status := he
  safe := hf.trans h.safe
  atRest := ha

theorem Loose.closeUntransferred (h : Loose slot completing i o s) (hk : o.kind = .accept)
    (hn : Next o.kind s (.uvClose claimed false) .closing) (he : o.status < 0) :
    Fits slot completing i (o.closeUntransferred claimed (some i)) .closing := by
  obtain ⟨hcn, hch, -, hcc, hco, -⟩ := Op.resources_eq h.resources
  rw [closeUntransferred_eq hch]
  refine h.fits (by decide) (by decide) rfl rfl rfl ?_ ?_ fun _ => he
  · rw [h.registered]
    exact h.path.snoc hn
  · simp [Op.resources, Stage.resources, hk, hcn, hcc, hco]

theorem Loose.closeUnconnected (h : Loose slot completing i o .waiting) (hk : o.kind = .connect)
    (he : o.status < 0) :
    Fits slot completing i (o.closeUnconnected claimed (some i)) .closing := by
  obtain ⟨hcn, hch, hcr, hcc, hco, -⟩ := Op.resources_eq h.resources
  rw [closeUnconnected_eq hch]
  refine h.fits (by decide) (by decide) rfl rfl rfl ?_ ?_ fun _ => he
  · rw [h.registered]
    exact h.path.snoc (.failWaiting fun hacc => by rw [hk] at hacc; cases hacc)
  · simp [Op.resources, Stage.resources, hk, hcn, hcr, hcc, hco]

theorem Loose.transfer (h : Loose slot completing i o s)
    (hn : Next o.kind s (.resumed .notification o.status) .transferred) (he : 0 ≤ o.status) :
    Fits slot completing i (o.resume (some i) .notification) .transferred := by
  obtain ⟨hcn, hch, hcr, hcc, hco, hcp⟩ := Op.resources_eq h.resources
  have hres : o.resume (some i) .notification =
      { o with child := some { owner := .connection } }.emit (.resumed .notification o.status) := by
    simp [Op.resume, hcr, hch, show ¬ o.status < 0 by omega]
  rw [hres]
  refine h.fits (by decide) (by decide) rfl rfl rfl (h.path.snoc hn) ?_ nofun
  simp [Op.resources, Op.emit, Stage.resources, hcn, hcr, hcc, hco, hcp]

@[simp] theorem unregister_continuation : o.unregister.continuation = o.continuation := by
  unfold Op.unregister
  split <;> rfl

@[simp] theorem unregister_status : o.unregister.status = o.status := by
  unfold Op.unregister
  split <;> rfl

@[simp] theorem unregister_kind : o.unregister.kind = o.kind := by
  unfold Op.unregister
  split <;> rfl

/-- A registration that is still in the list is taken out by the callback, which lets the awaiter
loose. -/
theorem Fits.unregister (h : Fits slot completing i o .waiting) (hk : o.kind = .accept) (e : Int) :
    Loose none completing i { { o with status := e }.unregister with continuation := none }
      .waiting := by
  obtain ⟨hcn, hch, hcr, hcc, hco, hcp⟩ := Op.resources_eq h.resources
  have hreg : o.cancellation = false → o.registered = false := fun hc => by
    cases hr : o.registered with
    | false => rfl
    | true =>
      rw [(h.registered hr).1] at hc
      cases hc
  have hidle := h.not_completing rfl
  unfold Op.unregister
  split
  · exact ⟨h.path, by simp [Op.resources, hch, hcr, hcc, hco, hcp, Stage.resources, hk], nofun, hidle,
      rfl, h.safe⟩
  · next hc =>
    exact ⟨h.path, by simp [Op.resources, hch, hcr, hcc, hco, hcp, Stage.resources, hk], nofun, hidle,
      hreg (by simpa using hc), h.safe⟩

/-- a notification, with `uv_accept` if it is called -/
theorem Fits.connection (h : Fits slot completing i o .waiting) (hk : o.kind = .accept)
    (status e : Int) : ∃ s, Loose none completing i
        { o.connection false status e with continuation := none } s ∧
      (o.connection false status e).continuation = some i ∧
      (o.connection false status e).kind = .accept ∧
      Next .accept s (.uvClose false false) .closing ∧
      ∀ r, 0 ≤ r → (o.connection false status e).status = r →
        Next .accept s (.resumed .notification r) .transferred := by
  have hloose := h.unregister hk status
  have hcn : o.continuation = some i := (Op.resources_eq h.resources).1
  set u := ({ o with status := status } : Op).unregister with hu
  have hkind : u.kind = .accept := by simpa [hu] using hk
  have hcont : u.continuation = some i := by simpa [hu] using hcn
  unfold Op.connection
  simp only [← hu]
  split
  · have hreg : u.registered = false := hloose.registered
    have hask : Next u.kind .waiting (.uvAccept false u.registered) .asked := hreg ▸ .ask hkind
    exact ⟨.asked, (hloose.setStatus e).emit hask, hcont, hkind, .failAsked,
      fun r hr _ => .accepted hr⟩
  · next hneg =>
    exact ⟨.waiting, hloose, hcont, hkind, .failWaiting fun _ => rfl,
      fun r hr hst => absurd (hst ▸ hr) hneg⟩

/-- the active callback of the child is at the next stage -/
theorem Fits.advance {o' : Op} {s' : Stage} (h : Fits slot completing i o s) (hw : s ≠ .waiting)
    (hw' : s' ≠ .waiting ∧ s' ≠ .asked) (hc : ∀ rest, completing' = some (.child i rest) ↔ s'.rest i = some rest)
    (hr : o'.registered = o.registered) (hf : o'.fault = o.fault) (hp : Path o'.kind o'.log s')
    (hres : o'.resources = s'.resources o'.kind i) (he : s'.fails = true → o'.status < 0) :
    Fits slot completing' i o' s' where
  path := hp
  resources := hres
  slot := ⟨fun hi => absurd (h.slot.mp hi).1 hw, fun hi => absurd hi.1 hw'.1⟩
  completing := hc
  registered := fun ho => absurd (h.registered (hr.symm.trans ho)).2.1 hw
  status := he
  safe := hf.trans h.safe
  atRest := hw'.2

/-- the close callback of a child that a coroutine waits for -/
theorem Fits.closed {w : World} (h : Fits w.slot w.completing i (w.ops i) .closing) :
    ∃ o, w.onClose i = { w with completing := some (.child i [i]) }.setOp i o ∧
      Fits w.slot (some (.child i [i])) i o .closed := by
  obtain ⟨hcn, hch, hcr, hcc, hco, hcp⟩ := Op.resources_eq h.resources
  set o := w.ops i with ho
  refine ⟨{ o with
      closePending := false
      closeCompleted := o.kind = .accept
      child := some closedChild
      log := o.log ++ [.closeCallback] }, ?_, ?_⟩
  · cases hk : o.kind <;>
      simp [World.onClose, ← ho, hch, Stage.resources, hk, Op.emit, AsyncCloseState.beginComplete,
        closedChild, hcc]
  · refine h.advance (by decide) (by decide) (fun rest => ?_) rfl rfl (h.path.snoc .callback) ?_
      fun _ => h.status rfl
    · simp [Stage.rest]
    · simp [Op.resources, Stage.resources, hcn, hcr, hco]

/-- and of a connection -/
theorem Fits.dropped {w : World} (h : Fits w.slot w.completing i (w.ops i) .dropping) :
    ∃ o, w.onClose i = { w with completing := some (.child i []) }.setOp i o ∧
      Fits w.slot (some (.child i [])) i o .dropped := by
  obtain ⟨hcn, hch, hcr, hcc, hco, hcp⟩ := Op.resources_eq h.resources
  set o := w.ops i with ho
  refine ⟨{ o with
      closePending := false, child := some closedChild, log := o.log ++ [.closeCallback] }, ?_, ?_⟩
  · simp [World.onClose, ← ho, hch, Stage.resources, Op.emit, AsyncCloseState.beginComplete,
      closedChild]
  · refine h.advance (by decide) (by decide) (fun rest => ?_) rfl rfl (h.path.snoc .dropCallback) ?_
      nofun
    · simp [Stage.rest]
    · simp [Op.resources, Stage.resources, hcn, hcr, hcc, hco]

theorem Fits.deliver (h : Fits slot completing i o .closed) :
    Fits slot (some (.child i [])) i (o.resume (some i) .closeCallback) .delivered := by
  obtain ⟨hcn, hch, hcr, hcc, hco, hcp⟩ := Op.resources_eq h.resources
  have he := h.status rfl
  have hres : o.resume (some i) .closeCallback = o.emit (.resumed .closeCallback o.status) := by
    simp [Op.resume, hcr, hcc, Stage.resources, he]
  rw [hres]
  refine h.advance (by decide) (by decide) (fun rest => ?_) rfl rfl (h.path.snoc (.deliver he)) ?_
    fun _ => he
  · simp [Stage.rest, eq_comm]
  · exact h.resources

/-- the end of the close callback -/
theorem Fits.ends {w : World} {s' : Stage} (h : Fits w.slot w.completing i (w.ops i) s)
    (hs : s = .delivered ∧ s' = .gone ∨ s = .dropped ∧ s' = .dropGone) :
    ∃ o, w.endClose i = { w with completing := none }.setOp i o ∧ Fits w.slot none i o s' := by
  obtain ⟨hcn, hch, hcr, hcc, hco, hcp⟩ := Op.resources_eq h.resources
  set o := w.ops i with ho
  refine ⟨{ o with child := none }.emit .deleted, ?_, ?_⟩
  · have hchild : o.child = some closedChild := by
      rcases hs with ⟨rfl, -⟩ | ⟨rfl, -⟩ <;> exact hch
    simp [World.endClose, ← ho, hchild, AsyncCloseState.endComplete, closedChild]
  · rcases hs with ⟨rfl, rfl⟩ | ⟨rfl, rfl⟩
    · refine h.advance (by decide) (by decide) (fun rest => ?_) rfl rfl (h.path.snoc .delete) ?_
        fun _ => h.status rfl
      · simp [Stage.rest]
      · simp [Op.resources, Op.emit, Stage.resources, hcn, hcr, hcc, hco, hcp]
    · refine h.advance (by decide) (by decide) (fun rest => ?_) rfl rfl (h.path.snoc .dropDelete) ?_
        nofun
      · simp [Stage.rest]
      · simp [Op.resources, Op.emit, Stage.resources, hcn, hcr, hcc, hco, hcp]

/-- the connection that was returned is destroyed -/
theorem Fits.drop (h : Fits slot completing i o .transferred) :
    Fits slot completing i (({ o with child := some { owner := .nobody } }.emit
      .dropped).releaseOwner claimed) .dropping := by
  obtain ⟨hcn, hch, hcr, hcc, hco, hcp⟩ := Op.resources_eq h.resources
  have hres : ({ o with child := some { owner := .nobody } }.emit .dropped).releaseOwner claimed =
      { o with
        child := some { close := { phase := .closing, ownerReleased := true }, owner := .nobody }
        closePending := true
        log := o.log ++ [.dropped] ++ [.uvClose claimed o.registered] } := by
    simp [Op.emit, Op.releaseOwner, AsyncCloseState.setOwnerReleased, Op.requestClose,
      AsyncCloseState.begin]
  rw [hres]
  refine h.advance (by decide) (by decide) (fun rest => h.completing rest) rfl rfl
    ((h.path.snoc .drop).snoc .dropClose) ?_ nofun
  simp [Op.resources, Stage.resources, hcn, hcr, hcc, hco]

/-! what is held tells the stage -/

theorem Fits.of_connecting (h : Fits slot completing i o s) (hc : o.connecting = true) :
    s = .waiting ∧ o.kind = .connect := by
  obtain ⟨-, -, -, -, hco, -⟩ := Op.resources_eq h.resources
  rw [hc] at hco
  cases s with
  | waiting => exact ⟨rfl, by simpa [Stage.resources] using hco⟩
  | _ => cases hco

theorem Fits.of_closePending (h : Fits slot completing i o s) (hc : o.closePending = true) :
    s = .closing ∨ s = .dropping := by
  obtain ⟨-, -, -, -, -, hcp⟩ := Op.resources_eq h.resources
  rw [hc] at hcp
  cases s with
  | closing => exact .inl rfl
  | dropping => exact .inr rfl
  | _ => cases hcp

theorem Fits.of_connection {c : Child} (h : Fits slot completing i o s) (hc : o.child = some c)
    (ho : c.owner = .connection) : s = .transferred ∧ c = { owner := .connection } := by
  obtain ⟨-, hch, -⟩ := Op.resources_eq h.resources
  rw [hc] at hch
  cases s with
  | transferred => exact ⟨rfl, Option.some.inj hch⟩
  | waiting | closing | closed | delivered | dropping | dropped =>
    obtain rfl := Option.some.inj hch
    cases ho
  | _ => cases hch

theorem Fits.of_completing {rest : List Nat} (h : Fits slot (some (.child i rest)) i o s) :
    s = .closed ∧ rest = [i] ∨ (s = .delivered ∨ s = .dropped) ∧ rest = [] := by
  have hr := (h.completing rest).mp rfl
  cases s with
  | closed => exact .inl ⟨rfl, (Option.some.inj hr).symm⟩
  | delivered => exact .inr ⟨.inl rfl, (Option.some.inj hr).symm⟩
  | dropped => exact .inr ⟨.inr rfl, (Option.some.inj hr).symm⟩
  | _ => cases hr

end

end Provisional
