import Uvpp.Operation.Bodies

/-!
# What every run keeps

`Inv` is kept by every step: by an operation with `body_spec`, by the callbacks because they only
take pointers away, and by a new task or object because nothing points to it yet.  `run_inv` is the
same for whole runs.
-/

namespace Operation
open Throwing History

structure Inv (p : Platform) (w : World) : Prop where
  bound : Bound w
  booked : Booked p w

section
variable {p : Platform} {w v : World} {t : TaskId} {o : OwnerId}

theorem Inv.calm (h : Inv p w) (hb : Bound v) (hc : Calm w v) : Inv p v := ⟨hb, h.booked.calm hc⟩

/-! ## an operation -/

theorem begin_log (op : Op) :
    (w.begin op).log = w.log ++ (op.region.map Prod.fst).toList.map (.called w.count) := by
  rw [World.begin]
  cases op.region <;> rfl

/-- the history up to now is about earlier operations -/
theorem Booked.number_ne (h : Booked p w) : ∀ e ∈ w.log, e.number ≠ w.count :=
  fun e he => Nat.ne_of_lt (h.below e he)

theorem Booked.begin (h : Booked p w) (op : Op) : Booked p (w.begin op) := by
  have hcount : Booked p { w with count := w.count + 1 } :=
    { h with below := fun e he => Nat.lt_succ_of_lt (h.below e he) }
  rw [World.begin]
  cases op.region with
  | none =>
    rw [Option.toList_none, List.map_nil, List.append_nil]
    exact hcount
  | some x =>
    exact hcount.emit h.number_ne (Nat.lt_succ_self _) (fun _ _ _ => rfl) (fun _ _ _ => nofun)

theorem Inv.before (h : Inv p w) (op : Op) :
    Before p w.loop w.count (op.region.map Prod.fst) (w.begin op) where
  bound := { h.bound with }
  booked := h.booked.begin op
  loop := rfl
  fresh t x hx := h.booked.number_ne _ (h.booked.holds t x hx).called
  numbered := Nat.lt_succ_self _
  called := by
    intro x hx
    rw [begin_log, Option.mem_def.mp hx]
    exact List.mem_append_right _ (List.mem_singleton.mpr rfl)
  kept := by
    intro hm
    rw [begin_log] at hm
    rcases List.mem_append.mp hm with hm | hm
    · exact h.booked.number_ne _ hm rfl
    · obtain ⟨x, -, hx⟩ := List.mem_map.mp hm
      cases hx
  untaken := by
    rw [begin_log, taken, List.map_append, List.sum_append, ← taken,
      taken_other h.booked.number_ne]
    cases op.region <;> rfl
  quiet := by
    intro e he hn
    rw [begin_log] at he
    rcases List.mem_append.mp he with he | he
    · exact absurd hn (h.booked.number_ne e he)
    · obtain ⟨x, -, rfl⟩ := List.mem_map.mp he
      rfl

/-- an operation that ended early is refused -/
theorem Inv.settle_error {n : Nat} {op : Op} {e : Exit}
    (h : Ended p w.loop t n (op.region.map Prod.fst) (.error e) v) :
    Inv p (v.settle t n op (.error e)) := by
  obtain ⟨hd, hquiet⟩ := h
  rw [World.settle]
  split
  · rename_i he
    cases hop : op.region with
    | none =>
      rw [Option.toList_none, List.map_nil, List.append_nil]
      exact ⟨hd.bound, hd.booked⟩
    | some x =>
      have hcalled : .called n x.1 ∈ v.log := hd.called x.1 (by rw [hop]; rfl)
      have hlaw : Law p v.log (.refused n) := ⟨⟨x.1, hcalled⟩, hquiet he⟩
      refine ⟨hd.bound.emit (.refused n), hd.booked.emit hlaw hd.numbered (fun _ _ _ => rfl) ?_⟩
      rintro q y hy heq
      exact hd.fresh q y hy (Event.refused.inj heq).symm
  · exact ⟨hd.bound, hd.booked⟩

/-- an operation that suspended has its awaiter -/
theorem Inv.settle_ok {n : Nat} {op : Op} {r : Resumer}
    (h : Ended p w.loop t n (op.region.map Prod.fst) (.ok r) v) :
    Inv p (v.settle t n op (.ok r)) := by
  obtain ⟨hd, hr, hchild⟩ := h
  have hs : Bound (v.suspend t r) :=
    hd.bound.suspend (hd.loop ▸ hr) fun c hc => absurd hc (hchild c)
  have hb : Booked p (v.suspend t r) := { hd.booked with }
  rw [World.settle]
  refine ⟨hs.setTransfer _, ?_⟩
  cases hop : op.region with
  | none => exact hb.calm .endTransfer
  | some x =>
    have hcalled : .called n x.1 ∈ v.log := hd.called x.1 (by rw [hop]; rfl)
    refine hb.newTransfer ?_ (fun q y hy => hd.fresh q y hy)
    exact
      { called := hcalled
        kept := hd.kept
        taken := hd.untaken.symm
        whole := fun _ => rfl
        room := Nat.zero_le _
        offered := nofun }

theorem Inv.await (h : Inv p w) (op : Op) (a : Answers) : Inv p (w.await p t op a) := by
  have hbody := body_spec p w.loop t w.count a op (w.begin op) (h.before op)
  rw [World.await]
  generalize exec (op.body p t w.count a) (w.begin op) = r at hbody
  rcases r with ⟨e | r, v⟩
  · exact Inv.settle_error hbody
  · exact Inv.settle_ok hbody

/-! ## new tasks -/

theorem bind_loop {l : LoopId} {x : Option Cancel} {e : Object} (hne : e ≠ .task t) :
    (w.bind t l x).loop e = w.loop e := Function.update_of_ne hne ..

/-- a spawned root knows its task -/
theorem Inv.spawn (h : Inv p w) {l : LoopId} {k : RootId} (hcold : w.status t = .cold)
    (hnew : w.loop (.root k) = none) : Inv p (w.spawn l t k) := by
  have hbind : Bound (w.bind t l (some (.root k))) := h.bound.bind hcold
  have hother : Object.root k ≠ .task t := nofun
  have hloop : (w.bind t l (some (.root k))).loop (.root k) = none := (bind_loop hother).trans hnew
  have hroot := hbind.bindObject (l := l) hloop nofun
  refine ⟨{ hroot with joiner := ?_, root := ?_ }, { h.booked with }⟩
  · exact (Function.forall_update_iff w.root fun k' x => ∀ q ∈ x.joiners,
      Joint (w.spawn l t k).loop (.root k') q).mpr
        ⟨fun _ hq => absurd hq List.not_mem_nil, fun k' _ => hroot.joiner k'⟩
  · refine (Function.forall_update_iff w.root fun k' x => ∀ c, x.task = some c →
      Joint (w.spawn l t k).loop (.root k') c ∧ (w.spawn l t k).cancel c = some (.root k')).mpr
        ⟨fun c hc => ?_, fun k' _ => hroot.root k'⟩
    obtain rfl := Option.some.inj hc
    refine ⟨⟨l, Function.update_self .., ?_⟩, Function.update_self ..⟩
    show Function.update (Function.update w.loop (.task t) (some l)) (.root k) (some l) (.task t) = _
    rw [Function.update_of_ne hother.symm, Function.update_self]

theorem Inv.awaitChild (h : Inv p w) {c : TaskId} {l : LoopId} (hl : w.loop (.task t) = some l)
    (ht : w.status t = .running) (hcold : w.status c = .cold) : Inv p (w.awaitChild t c l) := by
  have hne : t ≠ c := by
    rintro rfl
    rw [ht] at hcold
    cases hcold
  have hbind : Bound (w.bind c l (w.cancel t)) := h.bound.bind hcold
  have hloopt : (w.bind c l (w.cancel t)).loop (.task t) = some l :=
    (bind_loop fun he => hne (Object.task.inj he)).trans hl
  have hloopc : (w.bind c l (w.cancel t)).loop (.task c) = some l := Function.update_self ..
  have hcancel : (w.bind c l (w.cancel t)).cancel c = (w.bind c l (w.cancel t)).cancel t := by
    rw [World.bind]
    dsimp only
    rw [Function.update_self, Function.update_of_ne hne]
  have hsuspend := hbind.suspend (t := t) (r := .child c) ⟨l, hloopt, hloopc⟩
    (fun c' hc' => Resumer.child.inj hc' ▸ hcancel)
  refine ⟨{ hsuspend with parent := ?_ }, { h.booked with }⟩
  refine (Function.forall_update_iff w.parent fun c' x => ∀ q, x = some q →
    Joint (w.awaitChild t c l).loop (.task c') q ∧
      (w.awaitChild t c l).cancel c' = (w.awaitChild t c l).cancel q).mpr
        ⟨fun q hq => ?_, fun c' _ => hsuspend.parent c'⟩
  obtain rfl := Option.some.inj hq
  exact ⟨⟨l, hloopc, hloopt⟩, hcancel⟩

/-- a child of a scope is bound to the loop and the cancellation state of the scope -/
theorem Inv.spawnIn (h : Inv p w) {s : ScopeId} {c : TaskId} {l : LoopId}
    (hl : w.loop (.scope s) = some l) (hcold : w.status c = .cold) :
    Inv p
      { w.bind c l (some (.scope s)) with
        home := Function.update w.home c (some (.scope s))
        scope := Function.update w.scope s
          { w.scope s with
            children := (w.scope s).children ++ [c]
            active := (w.scope s).active + 1 } } := by
  have hbind : Bound (w.bind c l (some (.scope s))) := h.bound.bind hcold
  have hother : Object.scope s ≠ .task c := nofun
  have hloop : (w.bind c l (some (.scope s))).loop (.scope s) = some l :=
    (bind_loop hother).trans hl
  refine ⟨{ hbind with scopeJoiner := ?_, child := ?_ }, { h.booked with }⟩
  · exact (Function.forall_update_iff w.scope fun s' x => ∀ q, x.joiner = some q →
      Joint (w.bind c l (some (.scope s))).loop (.scope s') q).mpr
        ⟨hbind.scopeJoiner s, fun s' _ => hbind.scopeJoiner s'⟩
  · refine (Function.forall_update_iff w.scope fun s' x => ∀ q ∈ x.children,
      Joint (w.bind c l (some (.scope s))).loop (.scope s') q ∧
        (w.bind c l (some (.scope s))).cancel q = some (.scope s')).mpr
          ⟨mem_snoc (hbind.child s) ?_, fun s' _ => hbind.child s'⟩
    exact ⟨⟨l, hloop, Function.update_self ..⟩, Function.update_self ..⟩

theorem Inv.call (h : Inv p w) (c : Call) : Inv p (exec c.body w).2 := by
  suffices hspec : Spec (Inv p) c.body (fun _ => Inv p) from hspec w h
  cases c with
  | requestClose o =>
    refine require_then (fun _ hw => hw) (require_then (fun _ hw => hw) ?_)
    exact fun w hw => hw.calm hw.bound.requestClose .requestClose
  | requestDrain q => exact fun w hw => hw.calm (hw.bound.requestDrain q) (.requestDrain q)
  | spawn s c =>
    refine require_then (fun _ hw => hw) (require_and (fun _ hw => hw) ?_)
    refine loopAt_and (fun _ hw => hw.1) fun l w hw => ?_
    obtain ⟨⟨hw, hcold⟩, hl⟩ := hw
    exact hw.spawnIn hl (of_decide_eq_true hcold)
  | own r o =>
    refine require_then (fun _ hw => hw) (loopAt_and (fun _ hw => hw) fun l => ?_)
    refine require_then (fun _ hw => hw.1) fun w hw => ?_
    exact ⟨hw.1.bound.setResources r _, { hw.1.booked with }⟩
  | requestStop c => exact fun w hw => ⟨hw.bound.setStopped _, { hw.booked with }⟩

/-! ## callbacks -/

theorem Inv.finishRead (h : Inv p w) (ht : w.loop (.task t) ≠ none) : Inv p (w.finishRead o t) :=
  h.calm (h.bound.release.resume ht) (.trans .setOwner (.resume t))

/-- a released slot, and the child of the accept or receive is closed first -/
theorem Inv.closeUntransferred (h : Inv p w) (hj : Joint w.loop (.owner o) t) :
    Inv p (w.closeUntransferred o t) :=
  h.calm (h.bound.closeUntransferred hj) .closeUntransferred

theorem Inv.release (h : Inv p w) {s : Slot} : Inv p (w.release o s) :=
  h.calm h.bound.release .setOwner

theorem Inv.resumeAll (h : Inv p w) {ts : List TaskId} (hts : ∀ t ∈ ts, w.loop (.task t) ≠ none) :
    Inv p (w.resumeAll ts) :=
  h.calm (h.bound.resumeAll hts) (.resumeAll ts)

theorem Inv.resume (h : Inv p w) (ht : w.loop (.task t) ≠ none) : Inv p (w.resume t) :=
  h.calm (h.bound.resume ht) (.resume t)

theorem Inv.unregister (h : Inv p w) : Inv p (w.unregister t) :=
  h.calm h.bound.unregister .unregister

theorem Inv.requestClose (h : Inv p w) : Inv p (w.requestClose o) :=
  h.calm h.bound.requestClose .requestClose

theorem Inv.settleHandle (h : Inv p w) (hj : Joint w.loop (.owner o) t) (full : Bool)
    (pending : Pending) : Inv p (w.settleHandle o t full pending) := by
  cases pending with
  | none =>
    rw [World.settleHandle]
    split
    · exact h.finishRead hj.ne_none
    · exact h
  | adopted => exact h.finishRead hj.ne_none
  | broken initialized =>
    have hc : Calm w ((w.release o .reader).requestClose o) := .trans .setOwner .requestClose
    have hclosed : Inv p ((w.release o .reader).requestClose o) := h.release.requestClose
    rw [← hc.loop] at hj
    rw [World.settleHandle]
    split
    · exact Inv.closeUntransferred (hclosed.calm (hclosed.bound.setTransfer none) .endTransfer) hj
    · exact hclosed.resume hj.ne_none

theorem Bound.joint (h : Bound w) {s : Slot} (ht : w.status t = .suspended (.slot o s)) :
    Joint w.loop (.owner o) t := by
  obtain ⟨l, htask, ho⟩ := h.suspended t _ ht
  exact ⟨l, ho, htask⟩

theorem Inv.stop (h : Inv p w) : Inv p (w.stop t) := by
  rw [World.stop]
  split
  · rename_i o ht
    split
    · exact h.unregister
    · exact h.finishRead (h.bound.joint ht).ne_none
  · rename_i o ht
    split
    · exact Inv.closeUntransferred h.release (h.bound.joint ht)
    · exact h.release.resume (h.bound.joint ht).ne_none
  · exact h.unregister

theorem Inv.completeRequest (h : Inv p w) {s : Slot} (ht : (w.owner o).slot s = some t) :
    Inv p (w.completeRequest o s t) := by
  have hj := (h.bound.slot o s t ht).ne_none
  rw [World.completeRequest, World.unpin]
  split
  · exact h.release.resume hj
  · exact (h.release.calm (h.release.bound.setExported false) .setOwner).resume hj

theorem Inv.noteExit (h : Inv p w) : Inv p (w.noteExit o) := by
  rw [World.noteExit]
  split
  · exact h.calm (h.bound.setOwner_same rfl rfl) .setOwner
  · exact h

theorem noteExit_loop : (w.noteExit o).loop = w.loop := by
  rw [World.noteExit]
  split <;> rfl

theorem Inv.deliverTo (h : Inv p w) (ok : Bool) : Inv p (w.deliverTo o ok) := by
  rw [World.deliverTo]
  split
  · split
    · exact h.noteExit.calm (h.noteExit.bound.setPending true) .setOwner
    · exact h.noteExit
  · rename_i t ht
    have hj := h.bound.slot o .waiter t ht
    rw [← noteExit_loop] at hj
    split
    · exact Inv.closeUntransferred h.noteExit.release hj
    · exact h.noteExit.release.resume hj.ne_none

theorem Inv.closedOwner (h : Inv p w) : Inv p (w.closedOwner o) := by
  have hb : Bound (w.setOwner o { w.owner o with phase := .closed, closers := [] }) :=
    h.bound.setOwner (h.bound.slot o) (fun _ hq => absurd hq List.not_mem_nil)
  exact (h.calm hb .setOwner).resumeAll fun t ht => (h.bound.closer o t ht).ne_none

theorem Inv.closedPosting (h : Inv p w) (q : PostingId) : Inv p (w.closedPosting q) := by
  have hb : Bound (w.setPosting q { phase := .closed }) :=
    h.bound.setPosting (fun _ hq => absurd hq List.not_mem_nil)
  exact (h.calm hb { Calm.refl w with }).resumeAll fun t ht => (h.bound.drainer q t ht).ne_none

theorem Inv.completeRoot (h : Inv p w) (k : RootId) : Inv p (w.completeRoot k) := by
  have hb : Bound (w.setRoot k { w.root k with completed := true, joiners := [] }) :=
    h.bound.setRoot rfl (fun _ hq => absurd hq List.not_mem_nil)
  exact (h.calm hb { Calm.refl w with }).resumeAll fun t ht => (h.bound.joiner k t ht).ne_none

theorem Inv.noteFailure (h : Inv p w) (s : ScopeId) (failed : Bool) :
    Inv p (w.noteFailure s failed) := by
  rw [World.noteFailure]
  split
  · exact ⟨h.bound.setStopped _, { h.booked with }⟩
  · exact h

theorem noteFailure_scope (s : ScopeId) (failed : Bool) :
    (w.noteFailure s failed).scope = w.scope ∧ (w.noteFailure s failed).loop = w.loop := by
  rw [World.noteFailure]
  split <;> exact ⟨rfl, rfl⟩

/-- children and joiner of a scope may go -/
theorem Inv.setScope (h : Inv p w) {s : ScopeId} {x : Scope}
    (hchildren : ∀ c ∈ x.children, c ∈ (w.scope s).children)
    (hjoiner : ∀ q, x.joiner = some q → (w.scope s).joiner = some q) : Inv p (w.setScope s x) :=
  h.calm (h.bound.setScope hchildren fun q hq => h.bound.scopeJoiner s q (hjoiner q hq))
    { Calm.refl w with }

theorem Inv.completeChild (h : Inv p w) (s : ScopeId) (failed : Bool) :
    Inv p (w.completeChild s failed) := by
  have hf := h.noteFailure s failed
  obtain ⟨hscope, hloop⟩ := noteFailure_scope (w := w) s failed
  have hless : Inv p ((w.noteFailure s failed).setScope s
      { w.scope s with active := (w.scope s).active - 1 }) := by
    refine hf.setScope ?_ ?_ <;> rw [hscope]
    · exact fun _ hc => hc
    · exact fun _ hq => hq
  rw [World.completeChild]
  split
  · rename_i t ht
    split
    · refine Inv.resume (hf.setScope ?_ nofun) ?_
      · exact fun _ hc => absurd hc List.not_mem_nil
      · show (w.noteFailure s failed).loop _ ≠ _
        rw [hloop]
        exact (h.bound.scopeJoiner s t ht).ne_none
    · exact hless
  · exact hless

theorem Inv.finalSuspend (h : Inv p w) (failed : Bool) : Inv p (w.finalSuspend t failed) := by
  have hb : Bound { w with status := Function.update w.status t .done } :=
    h.bound.setStatusOf nofun nofun nofun
  have hdone : Inv p { w with status := Function.update w.status t .done } :=
    h.calm hb { Calm.refl w with }
  rw [World.finalSuspend]
  dsimp only
  split
  · rename_i q hq
    exact hdone.resume (h.bound.parent t q hq).1.ne_none
  · split
    · exact hdone.completeRoot _
    · exact hdone.completeChild _ failed
    · exact hdone

/-! ## steps and runs -/

theorem Inv.offer (h : Inv p w) {x : Transfer} (hx : w.transfer t = some x) :
    Inv p (w.offer p t x) :=
  ⟨(h.bound.emit _).setTransfer _, h.booked.offer hx⟩

/-- the region of the last allocation is used up -/
theorem Inv.useOffered (h : Inv p w) {x : Transfer} (hx : w.transfer t = some x) :
    Inv p (w.setTransfer t (some { x with offered := none })) :=
  ⟨h.bound.setTransfer _,
    h.booked.setTransfer hx rfl { h.booked.holds t x hx with offered := nofun }⟩

theorem Inv.keep (h : Inv p w) {x : Transfer} (hx : w.transfer t = some x) (hipc : x.path = .ipc)
    {nread : Int} (hpos : 0 < nread) (hlen : x.delivers nread = true) :
    Inv p (w.keep t x nread.toNat) := by
  rw [Transfer.delivers, Bool.or_eq_true, decide_eq_true_eq] at hlen
  cases hoff : x.offered with
  | none =>
    rw [hoff, Option.any_none] at hlen
    rcases hlen with hlen | hlen
    · omega
    · cases hlen
  | some len =>
    rw [hoff, Option.any_some, decide_eq_true_eq] at hlen
    exact ⟨(h.bound.emit _).setTransfer _, h.booked.keep hx hipc hoff (by omega)⟩

theorem reading_some {x : Transfer} (h : w.reading o = some (t, x)) :
    (w.owner o).slot .reader = some t ∧ w.transfer t = some x := by
  rw [World.reading, Option.bind_eq_some_iff] at h
  obtain ⟨q, hq, hx⟩ := h
  obtain ⟨y, hy, heq⟩ := Option.map_eq_some_iff.mp hx
  cases heq
  exact ⟨hq, hy⟩

theorem Inv.onRead (h : Inv p w) {x : Transfer} (hr : w.reading o = some (t, x)) (nread : Int) :
    Inv p (w.onRead o t x nread) := by
  obtain ⟨hslot, hx⟩ := reading_some hr
  rw [World.onRead]
  split
  · exact h.useOffered hx
  · exact h.finishRead (h.bound.slot o .reader t hslot).ne_none

theorem Inv.onReceive (h : Inv p w) {x : Transfer} (hr : w.reading o = some (t, x)) (nread : Int)
    (peer : Bool) : Inv p (w.onReceive o t x nread peer) := by
  obtain ⟨hslot, hx⟩ := reading_some hr
  rw [World.onReceive]
  split
  · exact h.useOffered hx
  · exact h.finishRead (h.bound.slot o .reader t hslot).ne_none

theorem Inv.onReadHandle (h : Inv p w) {x : Transfer} (hr : w.reading o = some (t, x))
    (hipc : x.path = .ipc) {nread : Int} (hlen : x.delivers nread = true) (pending : Pending) :
    Inv p (w.onReadHandle o t x nread pending) := by
  obtain ⟨hslot, hx⟩ := reading_some hr
  have hj := h.bound.slot o .reader t hslot
  rw [World.onReadHandle]
  split
  · rename_i hpos
    exact Inv.settleHandle (h.keep hx hipc hpos hlen) hj _ pending
  · split
    · exact Inv.settleHandle (h.useOffered hx) hj _ pending
    · exact h.finishRead hj.ne_none

theorem guarded {c : Prop} [Decidable c] {v x : World} (h : (if c then some x else none) = some v) :
    c ∧ x = v := by
  split at h
  · exact ⟨‹c›, Option.some.inj h⟩
  · cases h

theorem step_inv {p : Platform} {w v : World} {a : Action} (h : Inv p w)
    (hstep : step p w a = some v) : Inv p v := by
  cases a with
  | construct o k l ipc =>
    obtain ⟨hnew, rfl⟩ := guarded hstep
    have hb : Bound { w with loop := Function.update w.loop (.owner o) (some l) } :=
      h.bound.bindObject hnew nofun
    exact ⟨hb.setOwner nofun (fun _ hq => absurd hq List.not_mem_nil), { h.booked with }⟩
  | makeScope s l =>
    obtain ⟨hnew, rfl⟩ := guarded hstep
    have hb : Bound { w with loop := Function.update w.loop (.scope s) (some l) } :=
      h.bound.bindObject hnew nofun
    exact ⟨hb.setScope (fun _ hq => absurd hq List.not_mem_nil) nofun, { h.booked with }⟩
  | makePosting q l =>
    obtain ⟨hnew, rfl⟩ := guarded hstep
    have hb : Bound { w with loop := Function.update w.loop (.posting q) (some l) } :=
      h.bound.bindObject hnew nofun
    exact ⟨hb.setPosting (fun _ hq => absurd hq List.not_mem_nil), { h.booked with }⟩
  | makeResources r l =>
    obtain ⟨hnew, rfl⟩ := guarded hstep
    have hb : Bound { w with loop := Function.update w.loop (.resources r) (some l) } :=
      h.bound.bindObject hnew nofun
    exact ⟨hb.setResources r {}, { h.booked with }⟩
  | create t =>
    obtain ⟨habsent, rfl⟩ := guarded hstep
    refine h.calm (h.bound.setStatusOf nofun nofun fun _ => ?_) { Calm.refl w with }
    exact h.bound.cold t (.inl habsent)
  | spawn l t k =>
    obtain ⟨hg, rfl⟩ := guarded hstep
    exact h.spawn hg.1 hg.2
  | awaitChild t c =>
    rw [step] at hstep
    split at hstep
    · cases hstep
    · rename_i l hl
      obtain ⟨⟨ht, hcold⟩, rfl⟩ := guarded hstep
      exact h.awaitChild hl ht hcold
  | await t op a =>
    obtain ⟨-, rfl⟩ := guarded hstep
    exact h.await op a
  | call t c =>
    obtain ⟨-, rfl⟩ := guarded hstep
    exact h.call c
  | finished r ok =>
    obtain ⟨-, rfl⟩ := guarded hstep
    exact h.calm (h.bound.setResources r _) { Calm.refl w with }
  | finalSuspend t failed =>
    obtain ⟨-, rfl⟩ := guarded hstep
    exact h.finalSuspend failed
  | stopCallback t =>
    obtain ⟨-, rfl⟩ := guarded hstep
    exact h.stop
  | alloc o =>
    rw [step] at hstep
    split at hstep
    · obtain ⟨-, rfl⟩ := guarded hstep
      exact h
    · rename_i t x hr
      obtain ⟨-, rfl⟩ := guarded hstep
      exact h.offer (reading_some hr).2
  | read o nread =>
    rw [step] at hstep
    split at hstep
    · cases hstep
    · rename_i t x hr
      obtain ⟨-, rfl⟩ := guarded hstep
      exact h.onRead hr nread
  | readHandle o nread pending =>
    rw [step] at hstep
    split at hstep
    · cases hstep
    · rename_i t x hr
      obtain ⟨⟨hipc, hlen⟩, rfl⟩ := guarded hstep
      exact h.onReadHandle hr hipc hlen pending
  | receive o nread peer =>
    rw [step] at hstep
    split at hstep
    · obtain ⟨-, rfl⟩ := guarded hstep
      exact h
    · rename_i t x hr
      obtain ⟨-, rfl⟩ := guarded hstep
      exact h.onReceive hr nread peer
  | complete o s =>
    rw [step] at hstep
    split at hstep
    · cases hstep
    · rename_i t ht
      obtain ⟨-, rfl⟩ := guarded hstep
      exact h.completeRequest ht
  | deliver o ok =>
    obtain ⟨-, rfl⟩ := guarded hstep
    exact h.deliverTo ok
  | ended t =>
    rw [step] at hstep
    split at hstep
    · rename_i l ht
      obtain ⟨m, hm, -⟩ := h.bound.suspended t _ ht
      refine Option.some.inj hstep ▸ h.resume ?_
      rw [hm]
      exact nofun
    · cases hstep
  | closed o =>
    obtain ⟨-, rfl⟩ := guarded hstep
    exact h.closedOwner
  | drained q =>
    obtain ⟨-, rfl⟩ := guarded hstep
    exact h.closedPosting q

theorem run_inv {p : Platform} {as : List Action} {w : World}
    (h : (sys p).run (sys p).init as = some w) : Inv p w :=
  Sys.run_inv (P := Inv p) (fun _ _ _ hw hs => step_inv hw hs) ⟨bound_init, booked_init p⟩ h

end

end Operation
