import Uvpp.Stream.Write

/-!
# What a step does to the flags

A step of the machine of connections does one of four things (`Move`): it changes neither flag of
any record (`Quiet`), it turns a call down and changes nothing, it submits a write (`Submits`), or
libuv completes one (`complete`, described by `Completes`).

* `awaitSuspend_spec`    a write is turned down without a trace, or it passed every check;
* `await_move`           a write as a move;
* `startRead_move`, `ownerRequestClose_move`, `awaitClose_move`, `finishResource_move`
                         reads and closes as moves;
* `complete_completes`   both flags are down when the writer is resumed.
-/

namespace StreamWrite
open Errno

open World

variable {cfg : Config} {w w' w'' : World} {x : Awaiter} {i j : Nat}

/-! ## Records after an update -/

theorem alter_self (f : Stream → Stream) :
    (w.alter i f).streams i = f (w.streams i) := Function.update_self ..

theorem alter_of_ne {m : Nat} (h : m ≠ i) (f : Stream → Stream) :
    (w.alter i f).streams m = w.streams m := Function.update_of_ne h ..

/-- a field that the update of one record keeps -/
theorem alter_field {α : Type} (g : Stream → α) {f : Stream → Stream}
    (hf : g (f (w.streams i)) = g (w.streams i)) (m : Nat) :
    g ((w.alter i f).streams m) = g (w.streams m) := by
  by_cases hm : m = i
  · subst hm
    rw [alter_self, hf]
  · rw [alter_of_ne hm]

theorem alter_alter (f g : Stream → Stream) : (w.alter i f).alter i g = w.alter i (g ∘ f) := by
  simp [World.alter]

theorem alter_eq_self {f : Stream → Stream} (h : f (w.streams i) = w.streams i) :
    w.alter i f = w := by
  simp [World.alter, h]

@[simp] theorem setWrite_writeActive (b : Bool) (m : Nat) :
    ((w.setWrite i b).streams m).writeActive
      = if m = i then b else (w.streams m).writeActive := by
  by_cases hm : m = i
  · subst hm
    rw [if_pos rfl, World.setWrite, alter_self]
  · rw [if_neg hm, World.setWrite, alter_of_ne hm]

@[simp] theorem setWrite_handleExportActive (b : Bool) (m : Nat) :
    ((w.setWrite i b).streams m).handleExportActive = (w.streams m).handleExportActive :=
  alter_field Stream.handleExportActive rfl m

@[simp] theorem setExport_writeActive (b : Bool) (m : Nat) :
    ((w.setExport j b).streams m).writeActive = (w.streams m).writeActive :=
  alter_field Stream.writeActive rfl m

@[simp] theorem setExport_handleExportActive (b : Bool) (m : Nat) :
    ((w.setExport j b).streams m).handleExportActive
      = if m = j then b else (w.streams m).handleExportActive := by
  by_cases hm : m = j
  · subst hm
    rw [if_pos rfl, World.setExport, alter_self]
  · rw [if_neg hm, World.setExport, alter_of_ne hm]

@[simp] theorem setWrite_owner (b : Bool) (m : Nat) :
    ((w.setWrite i b).streams m).owner = (w.streams m).owner := alter_field Stream.owner rfl m

@[simp] theorem setExport_owner (b : Bool) (m : Nat) :
    ((w.setExport j b).streams m).owner = (w.streams m).owner := alter_field Stream.owner rfl m

@[simp] theorem setWrite_activeRead (b : Bool) (m : Nat) :
    ((w.setWrite i b).streams m).activeRead = (w.streams m).activeRead :=
  alter_field Stream.activeRead rfl m

@[simp] theorem setExport_activeRead (b : Bool) (m : Nat) :
    ((w.setExport j b).streams m).activeRead = (w.streams m).activeRead :=
  alter_field Stream.activeRead rfl m

/-! ## A write is turned down without a trace, or it passed every check -/

/-- `write_active` is set and cleared again when the submission fails -/
theorem submit_failed {native : Int} (hn : native < 0) (hfree : (w.streams i).writeActive = false) :
    w.submit x i native = (w.releasePin x, .status native) := by
  have hback : (w.setWrite i true).setWrite i false = w := by
    rw [World.setWrite, World.setWrite, alter_alter]
    refine alter_eq_self ?_
    rw [Function.comp, ← hfree]
  simp only [World.submit, if_pos hn, hback]

/-- the pin that was acquired is released again when the submission fails -/
theorem releasePin_setExport (hpin : x.pin = some j) (hacq : x.pinAcquired = true)
    (hfree : (w.streams j).handleExportActive = false) : (w.setExport j true).releasePin x = w := by
  have hback : (w.setExport j true).setExport j false = w := by
    rw [World.setExport, World.setExport, alter_alter]
    refine alter_eq_self ?_
    rw [Function.comp, ← hfree]
  simp only [World.releasePin, hpin, hacq, World.releaseHandleExport, hback,
    setExport_handleExportActive, if_pos, Bool.not_true, Bool.or_false]
  rfl

/-- the handle that the write passes on may be taken -/
structure Pinnable (cfg : Config) (t : Task) (w : World) (j : Nat) : Prop where
  loop : cfg.taskLoop t = cfg.loop j
  opened : (w.streams j).closing = false
  free : (w.streams j).handleExportActive = false

/-- the checks that an accepted write has passed -/
structure Accepts (cfg : Config) (t : Task) (native : Int) (w : World) (x : Awaiter)
    (i : Nat) : Prop where
  state : x.state = some i
  opened : (w.streams i).closing = false
  loop : cfg.taskLoop t = cfg.loop i
  running : w.stopped t = false
  status : ¬ x.handleSubmissionStatus < 0
  free : (w.streams i).writeActive = false
  pin : ∀ j, x.pin = some j → Pinnable cfg t w j
  native : ¬ native < 0

/-- the record of the pin marked, if there is one -/
def World.pinned (w : World) : Option Nat → World
  | none => w
  | some j => w.setExport j true

/-- the world after a submission that libuv accepted -/
def World.accepted (w : World) (x : Awaiter) (i : Nat) : World :=
  { (w.pinned x.pin).setWrite i true with
    pending := w.pending ++ [{ x with pinAcquired := x.pin.isSome }] }

theorem acquireHandleExport_spec (w : World) (j : Nat) :
    (∃ s, s < 0 ∧ w.acquireHandleExport j = (w, s)) ∨
    ((w.streams j).closing = false ∧ (w.streams j).handleExportActive = false ∧
      w.acquireHandleExport j = (w.setExport j true, 0)) := by
  unfold World.acquireHandleExport
  split_ifs with hclosing hexported
  · exact .inl ⟨ebadf, by decide, rfl⟩
  · exact .inl ⟨ebusy, by decide, rfl⟩
  · exact .inr ⟨by simpa using hclosing, by simpa using hexported, rfl⟩

theorem awaitSuspend_spec (cfg : Config) (t : Task) (native : Int) (w : World) (x : Awaiter)
    (hx : x.pinAcquired = false) :
    (∃ o, awaitSuspend cfg t native w x = (w, o) ∧ o ≠ .suspended) ∨
    ∃ i, Accepts cfg t native w x i ∧
      awaitSuspend cfg t native w x = (w.accepted x i, .suspended) := by
  unfold awaitSuspend
  cases hstate : x.state with
  | none => exact .inl ⟨_, rfl, nofun⟩
  | some i =>
    simp only
    split_ifs with hclosing hloop hpinLoop hstopped hstatus hbusy
    · exact .inl ⟨_, rfl, nofun⟩
    · exact .inl ⟨_, rfl, nofun⟩
    · exact .inl ⟨_, rfl, nofun⟩
    · exact .inl ⟨_, rfl, nofun⟩
    · exact .inl ⟨_, rfl, nofun⟩
    · exact .inl ⟨_, rfl, nofun⟩
    have hfree : (w.streams i).writeActive = false := by simpa using hbusy
    have hbase : (∀ j, x.pin = some j → Pinnable cfg t w j) → ¬ native < 0 →
        Accepts cfg t native w x i := fun hp hn =>
      ⟨hstate, by simpa using hclosing, not_not.mp hloop, by simpa using hstopped, hstatus, hfree,
        hp, hn⟩
    cases hpin : x.pin with
    | none =>
      by_cases hn : native < 0
      · refine .inl ⟨.status native, ?_, nofun⟩
        simp only [submit_failed hn hfree, World.releasePin, hpin]
      · refine .inr ⟨i, hbase (fun j hj => by rw [hpin] at hj; cases hj) hn, ?_⟩
        have hsame : { x with pinAcquired := x.pin.isSome } = x := by
          rw [hpin, Option.isSome_none, ← hpin, ← hx]
        rw [World.accepted, hsame, hpin]
        simp only [World.submit, if_neg hn]
        rfl
    | some j =>
      obtain ⟨s, hs, hacquire⟩ | ⟨hopened, hunexported, hacquire⟩ := acquireHandleExport_spec w j
      · refine .inl ⟨.status s, ?_, nofun⟩
        simp only [hacquire, if_pos hs]
      · have hpinnable : Pinnable cfg t w j :=
          ⟨by simpa [hpin] using hpinLoop, hopened, hunexported⟩
        simp only [hacquire, if_neg (Int.lt_irrefl 0)]
        by_cases hn : native < 0
        · refine .inl ⟨.status native, ?_, nofun⟩
          rw [submit_failed hn (by simpa using hfree), releasePin_setExport rfl rfl hunexported]
        · refine .inr ⟨i, hbase (fun j' hj' => ?_) hn, ?_⟩
          · rw [hpin] at hj'
            cases hj'
            exact hpinnable
          · simp only [World.submit, if_neg hn, World.accepted, hpin, hstate]
            rfl

/-! ## What a step can do -/

/-- a `uv_close` that finds no export on a TCP record -/
def CloseOk (cfg : Config) (e : Event) : Prop :=
  ∃ i b, e = .uvClose i b ∧ (cfg.kind i = .tcp → b = false)

/-- only a receive on an IPC pipe occupies a read slot as such -/
def Receives (cfg : Config) (s : Stream) (i : Nat) : Prop :=
  ∀ r, s.activeRead = some r → r.receives = true → cfg.ipc i = true

/-- the records keep their flags and libuv its writes -/
structure Still (cfg : Config) (w w' : World) : Prop where
  write : ∀ m, (w'.streams m).writeActive = (w.streams m).writeActive
  exported : ∀ m, (w'.streams m).handleExportActive = (w.streams m).handleExportActive
  held : ∀ m, (w.streams m).handleExportActive = true → (w.streams m).owner = .held →
    (w'.streams m).owner = .held
  reads : ∀ m, Receives cfg (w.streams m) m → Receives cfg (w'.streams m) m
  pending : w'.pending = w.pending
  fault : w'.fault = w.fault

/-- nothing but closing handles -/
structure Quiet (cfg : Config) (w w' : World) : Prop extends Still cfg w w' where
  next : w'.next = w.next
  log : ∃ es, w'.log = w.log ++ es ∧ ∀ e ∈ es, CloseOk cfg e

/-- the records are the same -/
theorem Still.of_streams (hs : w'.streams = w.streams) (hp : w'.pending = w.pending)
    (hf : w'.fault = w.fault) : Still cfg w w' :=
  ⟨fun m => by rw [hs], fun m => by rw [hs], fun m _ h => by rwa [hs], fun m h => by rwa [hs],
    hp, hf⟩

namespace Quiet

theorem refl (cfg : Config) (w : World) : Quiet cfg w w :=
  ⟨.of_streams rfl rfl rfl, rfl, [], (List.append_nil _).symm, nofun⟩

theorem trans (h : Quiet cfg w w') (h' : Quiet cfg w' w'') : Quiet cfg w w'' where
  write := fun m => (h'.write m).trans (h.write m)
  exported := fun m => (h'.exported m).trans (h.exported m)
  held := fun m he ho => h'.held m ((h.exported m).trans he) (h.held m he ho)
  reads := fun m hr => h'.reads m (h.reads m hr)
  pending := h'.pending.trans h.pending
  fault := h'.fault.trans h.fault
  next := h'.next.trans h.next
  log := by
    obtain ⟨es, hes, hok⟩ := h.log
    obtain ⟨es', hes', hok'⟩ := h'.log
    refine ⟨es ++ es', by rw [hes', hes, List.append_assoc], fun e he => ?_⟩
    exact (List.mem_append.mp he).elim (hok e) (hok' e)

/-- one record changes and keeps its flags -/
theorem alter {f : Stream → Stream}
    (hwrite : (f (w.streams i)).writeActive = (w.streams i).writeActive)
    (hexported : (f (w.streams i)).handleExportActive = (w.streams i).handleExportActive)
    (hheld : (w.streams i).handleExportActive = true → (w.streams i).owner = .held →
      (f (w.streams i)).owner = .held)
    (hreads : Receives cfg (w.streams i) i → Receives cfg (f (w.streams i)) i) :
    Quiet cfg w (w.alter i f) where
  write := alter_field Stream.writeActive hwrite
  exported := alter_field Stream.handleExportActive hexported
  held := fun m => by
    by_cases hm : m = i
    · subst hm
      rw [alter_self]
      exact hheld
    · rw [alter_of_ne hm]
      exact fun _ h => h
  reads := fun m => by
    by_cases hm : m = i
    · subst hm
      rw [alter_self]
      exact hreads
    · rw [alter_of_ne hm]
      exact id
  pending := rfl
  fault := rfl
  next := rfl
  log := ⟨[], (List.append_nil _).symm, nofun⟩

theorem setClose (cfg : Config) (w : World) (i : Nat) (c : Close.AsyncCloseState) :
    Quiet cfg w (w.setClose i c) := alter rfl rfl (fun _ h => h) id

theorem clearRead (cfg : Config) (w : World) (i : Nat) : Quiet cfg w (w.setRead i none) :=
  alter rfl rfl (fun _ h => h) fun _ => nofun

theorem requestClose (h : cfg.kind i = .tcp → (w.streams i).handleExportActive = false) :
    Quiet cfg w (w.requestClose i) := by
  unfold World.requestClose
  cases (w.streams i).close.begin with
  | mk c claimed =>
    cases claimed with
    | false => exact refl cfg w
    | true =>
      refine (setClose cfg w i c).trans ?_
      exact ⟨.of_streams rfl rfl rfl, rfl, [_], rfl, fun e he =>
        ⟨i, _, List.mem_singleton.mp he, h⟩⟩

theorem stop (cfg : Config) (w : World) (t : Task) : Quiet cfg w (w.stop t) := by
  have hrecord : ∀ m, (w.stop t).streams m = w.streams m ∨
      (w.stop t).streams m = { w.streams m with activeRead := none } := fun m => by
    by_cases hm : (w.streams m).activeRead.any (fun r => decide (r.task = t)) = true
    · exact .inr (if_pos hm)
    · exact .inl (if_neg hm)
  refine ⟨⟨fun m => ?_, fun m => ?_, fun m _ ho => ?_, fun m hr => ?_, rfl, rfl⟩, rfl, [],
    (List.append_nil _).symm, nofun⟩
  · rcases hrecord m with h | h <;> rw [h]
  · rcases hrecord m with h | h <;> rw [h]
  · rcases hrecord m with h | h <;> rw [h] <;> exact ho
  · rcases hrecord m with h | h <;> rw [h]
    · exact hr
    · exact nofun

theorem releaseOwner (h : (w.streams i).handleExportActive = false) :
    Quiet cfg w (w.releaseOwner i) := by
  have hreleased : Quiet cfg w
      (w.alter i fun s => { s with owner := .gone, close := s.close.setOwnerReleased }) :=
    alter rfl rfl (fun he => by rw [h] at he; cases he) id
  unfold World.releaseOwner
  split_ifs
  · exact hreleased.trans (requestClose fun _ => (hreleased.exported i).trans h)
  · exact hreleased

theorem initFailed (h : (w.streams i).handleExportActive = false) (c : Task) :
    Quiet cfg w (w.initFailed i c) := by
  have hreleased : Quiet cfg w (w.releaseOwner i) := releaseOwner h
  have hwaits := hreleased.trans (setClose cfg (w.releaseOwner i) i
    (((w.releaseOwner i).streams i).close.setCallbackWaiter c))
  exact hwaits.trans (requestClose fun _ => (hwaits.exported i).trans h)

theorem closePipeAfterProtocolFailure (h : cfg.kind i ≠ .tcp) :
    Quiet cfg w (w.closePipeAfterProtocolFailure i) := by
  unfold World.closePipeAfterProtocolFailure
  simp only
  split_ifs
  · exact clearRead cfg w i
  · exact (clearRead cfg w i).trans (requestClose fun htcp => absurd htcp h)

end Quiet

/-- a handle that may be passed on: a TCP connection has it -/
structure Exportable (cfg : Config) (w : World) (j : Nat) : Prop where
  owner : (w.streams j).owner = .held
  kind : cfg.kind j = .tcp

/-- a write is submitted -/
structure Submits (cfg : Config) (w : World) (x : Awaiter) (i : Nat) (w' : World) : Prop where
  state : x.state = some i
  id : x.id = w.next
  acquired : x.pinAcquired = x.pin.isSome
  free : (w.streams i).writeActive = false
  source : ∀ j, x.pin = some j → (w.streams j).handleExportActive = false ∧ Exportable cfg w j
  write : ∀ m, (w'.streams m).writeActive = (decide (x.state = some m) || (w.streams m).writeActive)
  exported : ∀ m, (w'.streams m).handleExportActive
    = (decide (x.pin = some m) || (w.streams m).handleExportActive)
  owner : ∀ m, (w'.streams m).owner = (w.streams m).owner
  activeRead : ∀ m, (w'.streams m).activeRead = (w.streams m).activeRead
  pending : w'.pending = w.pending ++ [x]
  fault : w'.fault = w.fault
  next : w'.next = w.next + 1
  log : w'.log = w.log ++ [.submitted x.id i x.pin]

/-- what a step does -/
inductive Move (cfg : Config) (w w' : World) : Prop where
  | quiet (h : Quiet cfg w w')
  | rejected (o : Outcome) (h : w' = w.reject o)
  | submitted (x : Awaiter) (i : Nat) (h : Submits cfg w x i w')
  | completed (x : Awaiter) (status : Int) (hx : x ∈ w.pending) (h : w' = w.complete x status)

/-! ## Writes as moves -/

theorem pinned_handleExportActive (pin : Option Nat) (m : Nat) :
    ((w.pinned pin).streams m).handleExportActive
      = (decide (pin = some m) || (w.streams m).handleExportActive) := by
  cases pin with
  | none => rfl
  | some j =>
    by_cases hm : m = j
    · subst hm
      simp [World.pinned]
    · simp [World.pinned, hm, Ne.symm hm]

/-- every other field of the records is untouched by a pin -/
theorem pinned_field {α : Type} (g : Stream → α)
    (hg : ∀ s b, g { s with handleExportActive := b } = g s) (pin : Option Nat) (m : Nat) :
    g ((w.pinned pin).streams m) = g (w.streams m) := by
  cases pin with
  | none => rfl
  | some j => exact alter_field (f := ({ · with handleExportActive := true })) g (hg _ true) m

theorem pinned_rest (w : World) (pin : Option Nat) :
    (w.pinned pin).fault = w.fault ∧ (w.pinned pin).stopped = w.stopped := by
  cases pin <;> exact ⟨rfl, rfl⟩

theorem Accepts.submits {t : Task} {native : Int} (h : Accepts cfg t native w x i)
    (hid : x.id = w.next) (hpin : ∀ j, x.pin = some j → Exportable cfg w j) :
    Submits cfg w { x with pinAcquired := x.pin.isSome } i
      { w.accepted x i with next := w.next + 1, log := w.log ++ [.submitted x.id i x.pin] } where
  state := h.state
  id := hid
  acquired := rfl
  free := h.free
  source := fun j hj => ⟨(h.pin j hj).free, hpin j hj⟩
  write := fun m => by
    simp only [World.accepted, setWrite_writeActive, h.state, Option.some.injEq,
      pinned_field Stream.writeActive (fun _ _ => rfl)]
    by_cases hm : m = i
    · simp [hm]
    · simp [hm, Ne.symm hm]
  exported := fun m => by
    simp only [World.accepted, setWrite_handleExportActive, pinned_handleExportActive]
  owner := fun m => by
    simp only [World.accepted, setWrite_owner, pinned_field Stream.owner (fun _ _ => rfl)]
  activeRead := fun m => by
    simp only [World.accepted, setWrite_activeRead, pinned_field Stream.activeRead (fun _ _ => rfl)]
  pending := rfl
  fault := (pinned_rest w x.pin).1
  next := rfl
  log := rfl

/-- a rejected write leaves the world as it was -/
theorem await_of_rejected {t : Task} {native : Int} {o : Outcome}
    (h : awaitSuspend cfg t native w x = (w, o)) (ho : o ≠ .suspended) :
    w.await cfg t native x = w.reject o := by
  unfold World.await
  rw [h]
  cases o with
  | suspended => exact absurd rfl ho
  | status s => rfl
  | logicError => rfl
  | lengthError => rfl

theorem await_of_accepted {t : Task} {native : Int} (h : Accepts cfg t native w x i)
    (hs : awaitSuspend cfg t native w x = (w.accepted x i, .suspended)) :
    w.await cfg t native x =
      { w.accepted x i with next := w.next + 1, log := w.log ++ [.submitted x.id i x.pin] } := by
  unfold World.await
  rw [hs, h.state]

theorem await_move (t : Task) (native : Int) (hx : x.pinAcquired = false) (hid : x.id = w.next)
    (hpin : ∀ j, x.pin = some j → Exportable cfg w j) :
    Move cfg w (w.await cfg t native x) := by
  obtain ⟨o, hs, ho⟩ | ⟨i, hi, hs⟩ := awaitSuspend_spec cfg t native w x hx
  · exact .rejected o (await_of_rejected hs ho)
  · rw [await_of_accepted hi hs]
    exact .submitted _ i (hi.submits hid hpin)

theorem write_move (t : Task) (state : Option Nat) (length : Nat) (native : Int) :
    Move cfg w (w.write cfg t state length native) := by
  unfold World.write
  split_ifs
  · exact .rejected _ rfl
  · exact await_move t native rfl rfl nofun

theorem owned_some (h : w.owned (some i) = true) : (w.streams i).owner = .held := by
  simpa [World.owned] using h

theorem writeWithHandle_move (t : Task) (state : Option Nat) {handle : Option Nat}
    (hheld : w.owned handle = true) (htcp : handle.all cfg.isTcp = true) (length : Nat) (native : Int) :
    Move cfg w (w.writeWithHandle cfg t state handle length native) := by
  unfold World.writeWithHandle
  split_ifs
  · exact .rejected _ rfl
  · cases state with
    | none => exact await_move t native rfl rfl nofun
    | some i =>
      cases handle with
      | none => exact await_move t native rfl rfl nofun
      | some source =>
        refine await_move t native rfl rfl fun j hj => ?_
        cases hj
        exact ⟨owned_some hheld, of_decide_eq_true htcp⟩

/-! ## Reads and closes as moves -/

theorem startRead_move (t : Task) (receives empty : Bool) (native : Int) (state : Option Nat) :
    Move cfg w (w.startRead cfg t receives empty native state) := by
  cases state with
  | none => exact .rejected _ rfl
  | some i =>
    unfold World.startRead
    simp only
    split_ifs with hclosing hloop hstopped hipc hbusy hempty hn
    · exact .rejected _ rfl
    · exact .rejected _ rfl
    · exact .rejected _ rfl
    · exact .rejected _ rfl
    · exact .rejected _ rfl
    · exact .rejected _ rfl
    · -- the slot was empty, so claiming and clearing it leaves the record as it was
      have hslot : (w.streams i).activeRead = none := by simpa using hbusy
      have hback : (w.setRead i (some ⟨t, receives⟩)).setRead i none = w := by
        rw [World.setRead, World.setRead, alter_alter]
        refine alter_eq_self ?_
        rw [Function.comp, ← hslot]
      rw [hback]
      exact .rejected _ rfl
    · refine .quiet (Quiet.alter rfl rfl (fun _ h => h) fun _ r hr hreceives => ?_)
      cases hr
      simpa [show receives = true from hreceives] using hipc

/-- an idle TCP record is not exported -/
theorem not_exported_of_idle (h : w.hasActiveOperation cfg i = false) (htcp : cfg.kind i = .tcp) :
    (w.streams i).handleExportActive = false := by
  have htrue : cfg.isTcp i = true := decide_eq_true htcp
  simp only [World.hasActiveOperation, htrue, Bool.true_and, Bool.or_eq_false_iff] at h
  exact h.2

theorem requestClose_of_closed (h : (w.streams i).close.phase = .closed) : w.requestClose i = w := by
  simp only [World.requestClose, Close.AsyncCloseState.begin, h]

theorem ownerRequestClose_move (state : Option Nat) :
    Move cfg w (w.ownerRequestClose cfg state) := by
  cases state with
  | none => exact .rejected _ rfl
  | some i =>
    unfold World.ownerRequestClose
    simp only
    split_ifs with hactive
    · exact .rejected _ rfl
    · by_cases hclosed : (w.streams i).close.phase = .closed
      · rw [requestClose_of_closed hclosed]
        exact .quiet (Quiet.refl cfg w)
      · have hidle : w.hasActiveOperation cfg i = false := by simpa [hclosed] using hactive
        exact .quiet (Quiet.requestClose (not_exported_of_idle hidle))

theorem awaitClose_move (t : Task) {rejectActive : Bool} {state : Option Nat}
    (h : rejectActive = false → ∀ i, state = some i → w.hasActiveOperation cfg i = false) :
    Move cfg w (w.awaitClose cfg t rejectActive state) := by
  cases state with
  | none => exact .rejected _ rfl
  | some i =>
    unfold World.awaitClose
    simp only
    split_ifs with hloop hclosed hactive
    · exact .rejected _ rfl
    · exact .quiet (Quiet.refl cfg w)
    · exact .rejected _ rfl
    · have hidle : w.hasActiveOperation cfg i = false := by
        cases rejectActive with
        | false => exact h rfl i rfl
        | true => simpa using hactive
      cases (w.streams i).close.addWaiter t with
      | mk c added =>
        cases added with
        | false => exact .quiet (Quiet.refl cfg w)
        | true =>
          have hwaits := Quiet.setClose cfg w i c
          exact .quiet (hwaits.trans (Quiet.requestClose fun htcp =>
            (hwaits.exported i).trans (not_exported_of_idle hidle htcp)))

theorem finishResource_move (t : Task) (i : Nat) : Move cfg w (w.finishResource cfg t i) := by
  unfold World.finishResource
  split_ifs with hactive
  · exact .rejected _ rfl
  · refine awaitClose_move t fun _ i' hi' => ?_
    cases hi'
    simpa using hactive

/-! ## Completion -/

theorem releasePin_handleExportActive (hacq : x.pinAcquired = x.pin.isSome) (m : Nat) :
    ((w.releasePin x).streams m).handleExportActive
      = (!decide (x.pin = some m) && (w.streams m).handleExportActive) := by
  unfold World.releasePin
  cases hpin : x.pin with
  | none => rfl
  | some j =>
    rw [hacq, hpin]
    by_cases hm : m = j
    · subst hm
      simp [World.releaseHandleExport]
    · simp [World.releaseHandleExport, hm, Ne.symm hm]

theorem releasePin_field {α : Type} (g : Stream → α)
    (hg : ∀ s b, g { s with handleExportActive := b } = g s) (m : Nat) :
    g ((w.releasePin x).streams m) = g (w.streams m) := by
  unfold World.releasePin
  split
  · exact alter_field (f := ({ · with handleExportActive := false })) g (hg _ false) m
  · rfl

/-- what a released pin leaves alone; its assertion holds when the flag was set -/
theorem releasePin_rest (hset : ∀ j, x.pin = some j → (w.streams j).handleExportActive = true) :
    (w.releasePin x).pending = w.pending ∧ (w.releasePin x).next = w.next ∧
      (w.releasePin x).log = w.log ∧ (w.releasePin x).fault = w.fault := by
  unfold World.releasePin
  split
  · rename_i j hpin _
    refine ⟨rfl, rfl, rfl, ?_⟩
    show (w.fault || !(w.streams j).handleExportActive) = w.fault
    rw [hset j hpin, Bool.not_true, Bool.or_false]
  · exact ⟨rfl, rfl, rfl, rfl⟩

/-- libuv has completed a write: both flags are down when the writer is resumed -/
structure Completes (w : World) (x : Awaiter) (status : Int) (w' : World) : Prop where
  write : ∀ m, (w'.streams m).writeActive
    = (!decide (x.state = some m) && (w.streams m).writeActive)
  exported : ∀ m, (w'.streams m).handleExportActive
    = (!decide (x.pin = some m) && (w.streams m).handleExportActive)
  owner : ∀ m, (w'.streams m).owner = (w.streams m).owner
  activeRead : ∀ m, (w'.streams m).activeRead = (w.streams m).activeRead
  pending : w'.pending = w.pending.erase x
  fault : w'.fault = w.fault
  next : w'.next = w.next
  log : w'.log = w.log ++
    [.completed x.id status, .resumed x.id false (x.pin.map fun _ => false)]

theorem complete_completes (hstate : x.state = some i) (hacq : x.pinAcquired = x.pin.isSome)
    (hset : ∀ j, x.pin = some j → (w.streams j).handleExportActive = true) (status : Int) :
    Completes w x status (w.complete x status) := by
  let called : World :=
    { w with pending := w.pending.erase x, log := w.log ++ [.completed x.id status] }
  let released : World := (called.setWrite i false).releasePin x
  have hcomplete : w.complete x status = released.note (.resumed x.id
      (released.streams i).writeActive
      (x.pin.map fun j => (released.streams j).handleExportActive)) := by
    unfold World.complete World.onWrite
    rw [hstate]
  have hexported : ∀ m, (released.streams m).handleExportActive
      = (!decide (x.pin = some m) && (w.streams m).handleExportActive) := fun m => by
    rw [releasePin_handleExportActive hacq, setWrite_handleExportActive]
  have hwrite : ∀ m, (released.streams m).writeActive
      = (!decide (x.state = some m) && (w.streams m).writeActive) := fun m => by
    rw [releasePin_field Stream.writeActive (fun _ _ => rfl), setWrite_writeActive, hstate]
    by_cases hm : m = i
    · simp [hm]
    · simp [hm, Ne.symm hm, called]
  obtain ⟨hpending, hnext, hlog, hfault⟩ :=
    releasePin_rest (w := called.setWrite i false) (x := x) (fun j hj => by
      rw [setWrite_handleExportActive]
      exact hset j hj)
  have hflags : (x.pin.map fun j => (released.streams j).handleExportActive)
      = x.pin.map fun _ => false := by
    cases hpin : x.pin with
    | none => rfl
    | some j => simp [hexported j, hpin]
  rw [hcomplete, hflags, show (released.streams i).writeActive = false by simp [hwrite, hstate]]
  refine ⟨hwrite, hexported, fun m => ?_, fun m => ?_, hpending, hfault, hnext, ?_⟩
  · exact (releasePin_field Stream.owner (fun _ _ => rfl) m).trans (setWrite_owner false m)
  · exact (releasePin_field Stream.activeRead (fun _ _ => rfl) m).trans (setWrite_activeRead false m)
  · show released.log ++ _ = _
    rw [show released.log = w.log ++ [.completed x.id status] from hlog, List.append_assoc]
    rfl

end StreamWrite
