import Uvpp.Wait.Forms

/-!
# What a step can do

* `notify_moved`, `onStopRequested_moved`, `requestClose_moved`   the three ways to end a suspended
                         operation: native callback, stop, close of the source;
* `step_moved`           every step of a state with the invariant has one of the forms of `Moved`.
-/

namespace Wait
open Cancel (delist)

section
variable {cfg : Config} {w w' : World}

/-! ## stop, close and native callbacks -/

/-- `releaseAndResume` after the record of the source became `x` -/
theorem Moved.ofReleased (h : Inv cfg w) {s : Source} {o : Op} (hs : (w.src s).slot = some o)
    (r : Outcome) {v : World} {x : Src} (hv : v = { w with src := Function.update w.src s x })
    (hslot : x.slot = some o) (hc : (w.src s).closing = true → x.closing = true)
    (hx : SrcInv (cfg.family s) { x with slot := none }) :
    Moved cfg w (v.releaseAndResume s o r) := by
  subst hv
  rw [releaseAndResume_some (by simpa using hslot)]
  simpa [World.handed] using Moved.ofHanded h hs r rfl hx hc (keepsStack_self w _)

/-- `deliver` after the record of the source became `x` and frames were pushed -/
theorem Moved.ofDelivered (h : Inv cfg w) {s : Source} (r : Outcome) {v : World} {x : Src}
    {k : List Frame} (hv : v = { w with src := Function.update w.src s x, stack := k })
    (hslot : x.slot = (w.src s).slot) (hc : (w.src s).closing = true → x.closing = true)
    (hx : SrcInv (cfg.family s) { x with slot := none })
    (hk : ∀ y, y.closing = x.closing → KeepsStack w (Function.update w.src s y) k) :
    Moved cfg w (v.deliver s r) := by
  subst hv
  cases hs : (w.src s).slot with
  | none =>
    have hxs : x.slot = none := hslot.trans hs
    rw [deliver_none (by simpa using hxs)]
    refine .ofSrc h (f := fun _ => x) hslot hc ?_ (hk x rfl)
    rwa [show { x with slot := none } = x by rw [← hxs]] at hx
  | some o =>
    rw [deliver_some (by simpa using hslot.trans hs)]
    simpa [World.handed] using Moved.ofHanded h hs r rfl hx hc (hk _ rfl)

/-- an operation is suspended on a source that runs per wait -/
theorem Inv.armed_slot (h : Inv cfg w) {s : Source} (hf : (cfg.family s).perWait)
    (ha : (w.src s).armed = true) : ∃ o, (w.src s).slot = some o :=
  Option.isSome_iff_exists.mp (((h.src s).armed hf).symm.trans ha)

theorem onRead_moved (h : Inv cfg w) {s : Source} (hf : (cfg.family s).perWait)
    (ha : (w.src s).armed = true) (nread : Int) : Moved cfg w (w.onRead s nread) := by
  obtain ⟨o, hs⟩ := h.armed_slot hf ha
  simp only [World.onRead, hs]
  split
  · exact .refl h
  · exact .ofReleased h hs _ rfl hs id ((h.src s).free fun _ => rfl)

theorem onReceive_moved (h : Inv cfg w) (s : Source) (nread : Int) (peer : Bool)
    (flags : BitVec 32) : Moved cfg w (w.onReceive s nread peer flags) := by
  unfold World.onReceive
  split
  · exact .refl h
  rename_i o hs
  split
  · exact .refl h
  · exact .ofReleased h hs _ rfl hs id ((h.src s).free fun _ => rfl)

/-- a source that is started once delivers -/
theorem deliver_moved (h : Inv cfg w) {s : Source} (hf : (cfg.family s).perWait = false)
    (r : Outcome) : Moved cfg w (w.deliver s r) :=
  .ofDelivered h r (k := w.stack) (by simp) rfl id
    ((h.src s).free (a := (w.src s).armed) (by simp [hf])) fun _ _ => keepsStack_self w _

theorem onSignal_moved (h : Inv cfg w) {s : Source} (hf : cfg.family s = .signal) (signum : Nat) :
    Moved cfg w (w.onSignal s signum) := by
  have hsrc := h.src s
  unfold World.onSignal
  split
  · exact .refl h
  split
  · exact deliver_moved h (by rw [hf]; rfl) _
  · rename_i hs
    exact .ofSetSrc h rfl id ⟨fun hsome => absurd hsome hs, hsrc.armed, fun _ => hf, hsrc.eventOnly,
      hsrc.exitOnly⟩

theorem onFsEvent_moved (h : Inv cfg w) {s : Source} (hf : cfg.family s = .fsEvent)
    (x : FsOutcome) : Moved cfg w (w.onFsEvent s x) := by
  have hsrc := h.src s
  have hd := deliver_moved h (s := s) (by rw [hf]; rfl) (.value (.fs x))
  have hretain : ¬ (w.src s).slot.isSome → ∀ y,
      Moved cfg w (w.setSrc s ({ · with pendingEvent := some y })) := fun hs y =>
    .ofSetSrc h rfl id ⟨fun hsome => absurd hsome hs, hsrc.armed, hsrc.signalOnly, fun _ => hf,
      hsrc.exitOnly⟩
  unfold World.onFsEvent
  split
  · exact .refl h
  split
  · split
    · exact hd
    · rename_i hs
      exact hretain hs _
  · split
    · exact .refl h
    split
    · exact hd
    rename_i hs
    split
    · exact hretain hs _
    · exact hretain hs _

theorem onPoll_moved (h : Inv cfg w) (s : Source) (status : Int) (events : BitVec 32) :
    Moved cfg w (w.onPoll s status events) :=
  .ofDelivered h _ (k := w.stack) rfl rfl id ((h.src s).free fun _ => rfl) fun _ _ =>
    keepsStack_self w _

/-- the record of a process after its exit, closed or not -/
theorem Inv.exited_src (h : Inv cfg w) {s : Source} (hf : cfg.family s = .process)
    (x : ProcessExit) (c b : Bool) : SrcInv (cfg.family s)
      { w.src s with slot := none, exit := some x, armed := false, closing := c, submitted := b } :=
  ⟨nofun, fun _ => rfl, (h.src s).signalOnly, (h.src s).eventOnly, fun _ => hf⟩

theorem onExit_moved (h : Inv cfg w) {s : Source} (hf : cfg.family s = .process)
    (x : ProcessExit) : Moved cfg w (w.onExit cfg s x) := by
  have hmoved : ∀ v c b, ((w.src s).closing = true → c = true) → v = { w with
      src := Function.update w.src s
        { w.src s with exit := some x, armed := false, closing := c, submitted := b } } →
      Moved cfg w (v.deliver s (.value (.exit x))) := fun v c b hc hv =>
    .ofDelivered h _ (k := w.stack) hv rfl hc (h.exited_src hf x c b) fun _ _ =>
      keepsStack_self w _
  unfold World.onExit World.requestClose
  simp only [hf, World.setSrc_src, if_true, Option.isNone_some, Bool.false_eq_true, if_false]
  split
  · split
    · exact hmoved _ _ _ id rfl
    · exact hmoved _ true true (fun _ => rfl) (by simp [World.submit, World.setSrc])
  · exact hmoved _ _ _ id rfl

theorem notify_moved (h : Inv cfg w) {s : Source} (ha : (w.src s).armed = true) {n : Notice}
    (hn : n.fits (cfg.family s)) : Moved cfg w (w.notify cfg s n) := by
  cases n with
  | read nread => 
    refine onRead_moved h ?_ ha nread
    revert hn
    cases cfg.family s <;> simp [Notice.fits, Family.perWait]
  | datagram nread peer flags => exact onReceive_moved h s nread peer flags
  | signal signum =>
    refine onSignal_moved h ?_ signum
    revert hn
    cases cfg.family s <;> simp [Notice.fits]
  | fsEvent filename events status throws =>
    refine onFsEvent_moved h ?_ _
    revert hn
    cases cfg.family s <;> simp [Notice.fits]
  | poll status events => exact onPoll_moved h s status events
  | exit status signal =>
    refine onExit_moved h ?_ _
    revert hn
    cases cfg.family s <;> simp [Notice.fits]

/-- `request_close` of a source on which no borrowed operation is active -/
theorem requestClose_moved (h : Inv cfg w) {s : Source}
    (hs : (cfg.family s).borrows → (w.src s).slot = none) (b : Bool) :
    Moved cfg w ((w.setSrc s ({ · with ownerGone := b })).requestClose cfg s) := by
  have hsrc := h.src s
  have hstay : Moved cfg w (w.setSrc s ({ · with ownerGone := b })) := .ofSetSrc h rfl id
    ⟨hsrc.held, hsrc.armed, hsrc.signalOnly, hsrc.eventOnly, hsrc.exitOnly⟩
  have hnow : (w.src s).slot = none → Moved cfg w
      (((w.setSrc s ({ · with ownerGone := b })).setSrc s ({ · with closing := true })).submit s) := by
    intro hn
    have heq : ((w.setSrc s ({ · with ownerGone := b })).setSrc s
        ({ · with closing := true })).submit s = w.setSrc s
          ({ · with ownerGone := b, closing := true, submitted := true, armed := false }) := by
      simp [World.submit, World.setSrc]
    rw [heq]
    refine .ofSetSrc h rfl (fun _ => rfl) ⟨?_, fun _ => ?_, hsrc.signalOnly, hsrc.eventOnly, hsrc.exitOnly⟩
    · exact fun hsome => absurd hsome (by simp [hn])
    · simp [hn]
  -- the waiter is resumed before `uv_close`, with the rest of the function below it
  have hwait : ∀ v, v = { w with
      src := Function.update w.src s
        { w.src s with ownerGone := b, closing := true, armed := false }
      stack := .closeTail s :: w.stack } → Moved cfg w (v.deliver s (.error .canceled)) :=
    fun v hv => .ofDelivered h _ hv rfl (fun _ => rfl)
      ⟨(fun h => by cases h), fun _ => rfl, hsrc.signalOnly, hsrc.eventOnly, hsrc.exitOnly⟩ fun y hy =>
        keepsStack_tail w (by rw [Function.update_self, hy])
  unfold World.requestClose
  split
  · exact hstay
  cases hf : cfg.family s with
  | read | receive => exact hnow (hs (by rw [hf]; rfl))
  | process =>
    dsimp only
    split
    · exact hstay
    · rename_i hx
      refine hnow (Option.not_isSome_iff_eq_none.mp fun hsome => hx ?_)
      simpa using (hsrc.held hsome).2.2.2
  | poll | signal | fsEvent =>
    simp only [World.cancelWaiter, hf]
    exact hwait _ (by simp [World.disarm, World.push, World.setSrc])

/-- an operation that the owner does not reject is not active -/
theorem not_borrowed {s : Source} {other : Bool}
    (hb : ¬ ((cfg.family s).borrows ∧ ((w.src s).slot.isSome ∨ other))) :
    (cfg.family s).borrows → (w.src s).slot = none := fun hf =>
  Option.not_isSome_iff_eq_none.mp fun hsome => hb ⟨hf, .inl hsome⟩

theorem ownerRequestClose_moved (h : Inv cfg w) (s : Source) (other : Bool) :
    Moved cfg w (w.ownerRequestClose cfg s other) := by
  unfold World.ownerRequestClose
  split
  · exact .refl h
  rename_i hb
  have hsame : w.setSrc s ({ · with ownerGone := (w.src s).ownerGone }) = w := by
    simp [World.setSrc]
  have hm := requestClose_moved h (not_borrowed hb) (w.src s).ownerGone
  rwa [hsame] at hm

theorem destroy_moved (h : Inv cfg w) (s : Source) (other : Bool) :
    Moved cfg w (w.destroy cfg s other) := by
  unfold World.destroy
  split
  · exact .still w.src w.stack true (fun _ => rfl) (fun _ => id) h.src (keepsStack_self w _)
  · rename_i hb
    exact requestClose_moved h (not_borrowed hb) true

theorem closeTail_moved (h : Inv cfg w) {s : Source} {k : List Frame}
    (hk : w.stack = .closeTail s :: k) : Moved cfg w ({ w with stack := k }.closeTail cfg s) := by
  have hsrc := h.src s
  have hs : (w.src s).slot = none := Option.not_isSome_iff_eq_none.mp fun hsome => by
    have hc := h.tails s (hk ▸ List.mem_cons_self)
    rw [(hsrc.held hsome).1] at hc
    cases hc
  have hsubmit : ∀ p, (p.isSome → cfg.family s = .fsEvent) → Moved cfg w
      { w.setSrc s ({ · with submitted := true, armed := false, pendingEvent := p }) with
        stack := k } := fun p hp =>
    .ofSrc h rfl id ⟨fun hsome => absurd hsome (by simp [hs]), fun _ => by simp [hs],
      hsrc.signalOnly, hp, hsrc.exitOnly⟩ (keepsStack_leave hk (fun _ => nofun) _)
  unfold World.closeTail
  split
  · have hm := hsubmit none nofun
    simpa [World.submit, World.setSrc] using hm
  · have hm := hsubmit (w.src s).pendingEvent hsrc.eventOnly
    simpa [World.submit, World.setSrc] using hm

theorem onAlloc_moved (h : Inv cfg w) {s : Source} (ha : (w.src s).armed = true) :
    Moved cfg w (w.onAlloc cfg s) := by
  unfold World.onAlloc
  split
  · rename_i hf hs
    obtain ⟨o, ho⟩ := h.armed_slot (s := s) (by rw [hf]; rfl) ha
    rw [hs] at ho
    cases ho
  · exact .refl h

/-- the state in which the popped registration's callback is called, with its operation resumed -/
theorem popped_handed {c : CancelId} {o : Op} {t : Cancel.Stops Op Unit}
    (hp : (w.stops c).pop = some ((o, ()), t)) (hc : (w.op o).cancellation = some c) (r : Outcome)
    (x : Source → Src) (k : List Frame) : (w.setStops c t).handed o r x k = w.handed o r x k := by
  have hsame : t.unregister o = (w.stops c).unregister o := by
    revert hp
    cases hl : (w.stops c).regs with
    | nil => simp [Cancel.Stops.pop, hl]
    | cons p ps =>
      intro hp
      obtain ⟨rfl, rfl⟩ : p = (o, ()) ∧ { w.stops c with regs := ps } = t := by
        simpa [Cancel.Stops.pop, hl] using hp
      simp [Cancel.Stops.unregister, hl]
  simp [World.handed, World.setStops, delist, hc, hsame]

theorem pop_mem {l : Cancel.Stops Op Unit} {o : Op} {t : Cancel.Stops Op Unit}
    (hp : l.pop = some ((o, ()), t)) : o ∈ l.regs.map Prod.fst := by
  unfold Cancel.Stops.pop at hp
  split at hp
  · cases hp
  · rename_i p ps hl
    cases hp
    simp [hl]

/-- the callback of a stop registration resumes its operation, whatever the family -/
theorem onStopRequested_handed (h : Inv cfg w) {c : CancelId} {o : Op}
    {t : Cancel.Stops Op Unit} (hp : (w.stops c).pop = some ((o, ()), t)) :
    ∃ a, ((cfg.family (w.op o).source).perWait → a = false) ∧
      (w.setStops c t).onStopRequested cfg o =
        w.handed o (.error .canceled) (Function.update w.src (w.op o).source
          { w.src (w.op o).source with slot := none, armed := a }) w.stack := by
  obtain ⟨hsusp, htask⟩ := (h.regs c o).mp (pop_mem hp)
  have hcanc : (w.op o).cancellation = some c := by rw [h.cancellation, if_pos hsusp, htask]
  have hs : ((w.setStops c t).src (w.op o).source).slot = some o :=
    (h.slot _ o).mpr ⟨hsusp, rfl⟩
  have hop : (w.setStops c t).op = w.op := rfl
  have hd : (((w.setStops c t).disarm (w.op o).source).src (w.op o).source).slot = some o := by
    simpa [World.disarm] using hs
  have hdisarm : ((w.setStops c t).disarm (w.op o).source).handed o (.error .canceled)
      (Function.update ((w.setStops c t).disarm (w.op o).source).src (w.op o).source
        { ((w.setStops c t).disarm (w.op o).source).src (w.op o).source with slot := none })
      w.stack = w.handed o (.error .canceled) (Function.update w.src (w.op o).source
        { w.src (w.op o).source with slot := none, armed := false }) w.stack := by
    rw [← popped_handed hp hcanc]
    simp [World.handed, World.disarm, World.setSrc, World.setStops]
  have hnext : (w.setStops c t).deliver (w.op o).source (.error .canceled) =
      w.handed o (.error .canceled) (Function.update w.src (w.op o).source
        { w.src (w.op o).source with slot := none }) w.stack := by
    rw [deliver_some hs, ← popped_handed hp hcanc]
    rfl
  unfold World.onStopRequested
  rw [hop]
  cases hf : cfg.family (w.op o).source with
  | read | receive =>
    exact ⟨false, fun _ => rfl, by rw [if_pos hs, releaseAndResume_some hd, ← hdisarm]; rfl⟩
  | poll =>
    simp only [World.cancelWaiter, hf]
    exact ⟨false, fun _ => rfl, by rw [deliver_some hd, ← hdisarm]; rfl⟩
  | signal | fsEvent | process =>
    simp only [World.cancelWaiter, hf]
    exact ⟨_, (fun h => by cases h), hnext⟩

theorem onStopRequested_moved (h : Inv cfg w) {c : CancelId} {o : Op} {t : Cancel.Stops Op Unit}
    (hp : (w.stops c).pop = some ((o, ()), t)) :
    Moved cfg w ((w.setStops c t).onStopRequested cfg o) := by
  obtain ⟨a, ha, heq⟩ := onStopRequested_handed h hp
  rw [heq]
  have hs := (h.slot _ o).mpr ⟨((h.regs c o).mp (pop_mem hp)).1, rfl⟩
  exact .ofHanded h hs _ rfl ((h.src _).free ha) id (keepsStack_self w _)

theorem tick_moved (h : Inv cfg w) (hs : w.tick cfg = some w') : Moved cfg w w' := by
  unfold World.tick at hs
  split at hs
  · rename_i c k hk
    split at hs
    · rename_i hp
      cases hs
      refine .still w.src k w.terminated (fun _ => rfl) (fun _ => id) h.src
        (keepsStack_leave hk (fun c' hc => ?_) _)
      cases hc
      unfold Cancel.Stops.pop at hp
      split at hp
      · rename_i hl
        exact hl
      · cases hp
    · rename_i o t hp
      cases hs
      exact onStopRequested_moved h hp
  · rename_i s k hk
    cases hs
    exact closeTail_moved h hk
  · cases hs

theorem requestStop_moved (h : Inv cfg w) (c : CancelId) : Moved cfg w (w.requestStop c) := by
  unfold World.requestStop Cancel.Stops.exchange
  cases hr : (w.stops c).requested with
  | true => simpa [hr] using Moved.refl h
  | false => simpa [hr] using Moved.stop c hr

/-- what a step of a state with the invariant does -/
theorem step_moved (h : Inv cfg w) {a : Act} (hs : step cfg w a = some w') : Moved cfg w w' := by
  unfold step at hs
  split at hs
  · cases hs
  cases a with
  | enter =>
    dsimp only at hs
    split at hs <;> cases hs
    exact .still w.src _ w.terminated (fun _ => rfl) (fun _ => id) h.src (keepsStack_user w _)
  | ret =>
    dsimp only at hs
    split at hs <;> cases hs
    rename_i k hk
    exact .still w.src k w.terminated (fun _ => rfl) (fun _ => id) h.src
      (keepsStack_leave hk (fun _ => nofun) _)
  | tick => exact tick_moved h hs
  | await q =>
    obtain ⟨⟨-, ho⟩, rfl⟩ := by simpa using hs
    exact await_moved h ho
  | requestStop c =>
    obtain ⟨-, rfl⟩ := by simpa using hs
    exact requestStop_moved h c
  | requestClose s other =>
    obtain ⟨-, rfl⟩ := by simpa using hs
    exact ownerRequestClose_moved h s other
  | destroy s other =>
    obtain ⟨-, rfl⟩ := by simpa using hs
    exact destroy_moved h s other
  | alloc s =>
    obtain ⟨⟨-, ha⟩, rfl⟩ := by simpa using hs
    exact onAlloc_moved h ha
  | notify s n =>
    obtain ⟨⟨-, ha, hn⟩, rfl⟩ := by simpa using hs
    exact notify_moved h ha hn

end

end Wait
