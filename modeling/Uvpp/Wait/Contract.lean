import Mathlib.Algebra.GroupWithZero.Nat
import Mathlib.Algebra.Order.Group.Nat
import Mathlib.Algebra.Order.BigOperators.Group.List
import Uvpp.Wait.Coupling

/-!
# The contract of a suspended operation

* `Pending w o`          the coroutine of `o` is suspended and not resumed yet;
* `resumed_step`         what the step that resumes a coroutine leaves behind;
* `unwinds`              when the foreign code on the stack only returns, every stop that was
                         requested is carried out;
* `exclusive_wait`       the contract, in all runs.
-/

namespace Wait
open Cancel (delist delist_requested enlist_requested)

/-- the coroutine of `o` is suspended and was not resumed yet -/
def Pending (w : World) (o : Op) : Prop := resumptions w.log o < suspensions w.log o

/-- the operation holds no slot and no registration -/
def Released (w : World) (o : Op) : Prop :=
  (∀ s, (w.src s).slot ≠ some o) ∧ ∀ c, o ∉ (w.stops c).regs.map Prod.fst

section
variable {cfg : Config} {w w' : World}

theorem pending_iff (h : Inv cfg w) {o : Op} : Pending w o ↔ (w.op o).status = .suspended := by
  have hh := h.history o
  unfold Pending
  revert hh
  cases (w.op o).status <;> simp [History] <;> omega

theorem released_iff (h : Inv cfg w) {o : Op} : Released w o ↔ ¬ Pending w o := by
  rw [pending_iff h]
  constructor
  · rintro ⟨hs, -⟩ ho
    exact hs _ ((h.slot _ o).mpr ⟨ho, rfl⟩)
  · intro ho
    exact ⟨fun s hs => ho (h.slot_status hs), fun c hc => ho ((h.regs c o).mp hc).1⟩

/-! ## the step that resumes -/

/-- a step that resumes `o` finds it suspended, and leaves its slot, its registration and its
native source behind before the coroutine runs -/
theorem resumed_step (h : Inv cfg w) (hm : Moved cfg w w') {o : Op}
    (hr : resumptions w'.log o ≠ resumptions w.log o) :
    Pending w o ∧ ¬ Pending w' o ∧ (∃ k, w'.stack = .user :: k) ∧
      ((cfg.family (w.op o).source).perWait → (w'.src (w.op o).source).armed = false) := by
  have h' := moved_inv h hm
  cases hm with
  | still x k t => exact absurd rfl hr
  | stop c => exact absurd rfl hr
  | rejected q r x => simp [World.rejected, Event.resumes] at hr
  | admitted q x => simp [World.admitted, Event.resumes] at hr
  | handed s o' r x k hs hslot hc hx hk =>
    obtain rfl : o' = o := by
      simpa [World.handed, Event.resumes] using hr
    obtain ⟨hsusp, rfl⟩ := (h.slot s o').mp hs
    refine ⟨(pending_iff h).mpr hsusp, fun hp => ?_, ⟨k, rfl⟩, fun hf => ?_⟩
    · rw [pending_iff h'] at hp
      simp [World.handed] at hp
    · have harm := (hx (w.op o').source).armed hf
      rw [hslot, if_pos rfl] at harm
      exact harm

/-- the rejections leave everything but the awaiter as it was -/
theorem await_stopped {q : Request} (hc : (w.src q.source).closing = false)
    (hg : (w.src q.source).ownerGone = false) (hl : q.sameLoop = true)
    (hr : w.stopRequested q.task = true) :
    w.await cfg q = w.rejected q (.error .canceled) w.src := by
  rw [← begin_endInline]
  simp [World.await, World.refusal, hc, hg, hl, hr]

theorem await_busy (h : Inv cfg w) {q : Request} (hg : (w.src q.source).ownerGone = false)
    (hl : q.sameLoop = true) (hr : w.stopRequested q.task = false)
    (hs : (w.src q.source).slot.isSome) :
    w.await cfg q = w.rejected q (.error .busy) w.src := by
  obtain ⟨hc, hp, he, hx⟩ := (h.src q.source).held hs
  have hnone : w.refusal q = none := by simp [World.refusal, hc, hg, hl, hr]
  rw [← begin_endInline]
  unfold World.await
  simp only [hnone]
  cases cfg.family q.source <;>
    simp [World.awaitRead, World.awaitReceive, World.awaitSignal, World.awaitFsEvent,
      World.awaitPoll, World.awaitExit, World.claimAndRegister, hs, hp, he, hx]

/-! ## what ends a suspended operation -/

theorem deliver_log {s : Source} {o : Op} (hs : (w.src s).slot = some o) (r : Outcome) :
    (w.deliver s r).log = w.log ++ [.resumed o r] := by
  rw [deliver_some hs]
  rfl

theorem releaseAndResume_log {s : Source} {o : Op} (hs : (w.src s).slot = some o) (r : Outcome) :
    (w.releaseAndResume s o r).log = w.log ++ [.resumed o r] := by
  rw [releaseAndResume_some hs]
  rfl

theorem requestClose_slot {s : Source} (hf : cfg.family s = .process) :
    ((w.requestClose cfg s).src s).slot = (w.src s).slot ∧
      (w.requestClose cfg s).log = w.log := by
  unfold World.requestClose
  split
  · exact ⟨rfl, rfl⟩
  simp only [hf]
  split
  · exact ⟨rfl, rfl⟩
  · refine ⟨?_, rfl⟩
    simp [World.submit]

/-- a native notification that is not empty ends the operation suspended on its source -/
theorem notify_log (h : Inv cfg w) {s : Source} {o : Op} (hs : (w.src s).slot = some o)
    {n : Notice} (hn : n.fits (cfg.family s)) (ht : n.terminal) :
    ∃ r, (w.notify cfg s n).log = w.log ++ [.resumed o r] := by
  obtain ⟨hc, hp, he, hx⟩ := (h.src s).held (by rw [hs]; rfl)
  have hd : ((w.disarm s).src s).slot = some o := by simpa [World.disarm] using hs
  cases n with
  | read nread =>
    have hne : ¬ nread = 0 := by simpa [Notice.terminal] using ht
    simp only [World.notify, World.onRead, hs, if_neg hne]
    exact ⟨_, releaseAndResume_log hd _⟩
  | datagram nread peer flags =>
    have hne : ¬ (nread = 0 && !peer) = true := by
      simpa [Notice.terminal, imp_iff_not_or] using ht
    simp only [World.notify, World.onReceive, hs, if_neg hne]
    exact ⟨_, releaseAndResume_log hd _⟩
  | signal signum =>
    simp only [World.notify, World.onSignal, hc, hs, Option.isSome_some, if_true,
      Bool.false_eq_true, if_false]
    exact ⟨_, deliver_log hs _⟩
  | fsEvent filename events status throws =>
    simp only [World.notify, World.onFsEvent, hc, hs, he, Option.isSome_some, if_true,
      Bool.false_eq_true, if_false]
    exact ⟨_, deliver_log hs _⟩
  | poll status events => exact ⟨_, deliver_log hd _⟩
  | exit status signal =>
    have hf : cfg.family s = .process := by
      revert hn
      cases cfg.family s <;> simp [Notice.fits]
    simp only [World.notify, World.onExit]
    split
    · obtain ⟨hslot, hlog⟩ := requestClose_slot (s := s)
        (w := w.setSrc s ({ · with exit := some ⟨status, signal⟩, armed := false })) hf
      refine ⟨.value (.exit ⟨status, signal⟩), ?_⟩
      rw [deliver_log (hslot.trans (by simpa using hs)), hlog]
      rfl
    · exact ⟨_, deliver_log (by simpa using hs) _⟩

/-- the families whose close ends the suspended operation -/
def Family.quiesces : Family → Bool
  | .signal | .fsEvent | .poll => true
  | _ => false

theorem requestClose_log {s : Source} {o : Op} (hs : (w.src s).slot = some o)
    (hc : (w.src s).closing = false) (hf : (cfg.family s).quiesces) :
    ∃ r, (w.requestClose cfg s).log = w.log ++ [.resumed o r] := by
  unfold World.requestClose
  rw [hc, if_neg (by simp)]
  refine ⟨.error .canceled, ?_⟩
  cases hfam : cfg.family s with
  | read | receive | process => rw [hfam] at hf; cases hf
  | poll | signal | fsEvent =>
    simp only [World.cancelWaiter, hfam]
    exact deliver_log (by simpa [World.disarm, World.push] using hs) _

theorem quiesces_borrows {f : Family} (hf : f.quiesces) : f.borrows = false := by
  revert hf
  cases f <;> simp [Family.quiesces, Family.borrows]

/-- closing a signal, fs-event or poll source, or destroying its owner, ends the operation -/
theorem close_log (h : Inv cfg w) {s : Source} {o : Op} (hs : (w.src s).slot = some o)
    (hf : (cfg.family s).quiesces) (other : Bool) :
    (∃ r, (w.ownerRequestClose cfg s other).log = w.log ++ [.resumed o r]) ∧
      ∃ r, (w.destroy cfg s other).log = w.log ++ [.resumed o r] := by
  obtain ⟨hc, -⟩ := (h.src s).held (by rw [hs]; rfl)
  have hb := quiesces_borrows hf
  unfold World.ownerRequestClose World.destroy
  simp only [hb, Bool.false_eq_true, false_and, if_false]
  exact ⟨requestClose_log hs hc hf,
    requestClose_log (w := w.setSrc s _) (by simpa using hs) (by simpa using hc) hf⟩

end

/-! ## a stop comes to its end -/

/-- the actions that happen when the foreign code on the stack only returns -/
def Act.winds : Act → Prop
  | .ret | .tick => True
  | _ => False

/-- the actions left in an activation -/
def frameRank (l : CancelId → Cancel.Stops Op Unit) : Frame → Nat
  | .stopping c => 2 * (l c).regs.length + 1
  | _ => 1

def rank (w : World) : Nat := (w.stack.map (frameRank w.stops)).sum

section
variable {cfg : Config} {w w' : World}

theorem delist_length (l : CancelId → Cancel.Stops Op Unit) (o : Op) (t : Option CancelId)
    (c : CancelId) : (delist l o t c).regs.length ≤ (l c).regs.length := by
  cases t with
  | none => exact le_rfl
  | some c' =>
    by_cases hc : c = c'
    · subst hc
      simpa [delist, Cancel.Stops.unregister] using List.length_filter_le _ (l c).regs
    · simp [delist, hc]

/-- resuming an operation makes no activation longer -/
theorem handed_frameRank (o : Op) (r : Outcome) (x : Source → Src) (k : List Frame) (f : Frame) :
    frameRank (w.handed o r x k).stops f ≤ frameRank w.stops f := by
  cases f with
  | stopping c =>
    have hl := delist_length w.stops o (w.op o).cancellation c
    simp only [frameRank, World.handed]
    omega
  | user => exact le_rfl
  | closeTail s => exact le_rfl

/-- the loop that the operation was popped from gets shorter -/
theorem popped_length (h : Inv cfg w) {c : CancelId} {o : Op} {t : Cancel.Stops Op Unit}
    (hp : (w.stops c).pop = some ((o, ()), t)) (r : Outcome) (x : Source → Src) (k : List Frame) :
    ((w.handed o r x k).stops c).regs.length < (w.stops c).regs.length := by
  obtain ⟨hsusp, htask⟩ := (h.regs c o).mp (pop_mem hp)
  have hcanc : (w.op o).cancellation = some c := by rw [h.cancellation, if_pos hsusp, htask]
  simp only [World.handed, hcanc, delist, Function.update_self, Cancel.Stops.unregister]
  obtain ⟨p, hpm, hpo⟩ := List.mem_map.mp (pop_mem hp)
  exact List.length_filter_lt_length_iff_exists.mpr ⟨p, hpm, by simp [hpo]⟩

theorem popped_rank (h : Inv cfg w) {c : CancelId} {o : Op} {t : Cancel.Stops Op Unit}
    (hp : (w.stops c).pop = some ((o, ()), t)) {k : List Frame} (hst : w.stack = .stopping c :: k)
    (r : Outcome) (x : Source → Src) : rank (w.handed o r x w.stack) < rank w := by
  have hlen := popped_length h hp r x w.stack
  have hsum : (k.map (frameRank (w.handed o r x w.stack).stops)).sum ≤
      (k.map (frameRank w.stops)).sum :=
    List.sum_le_sum fun f _ => handed_frameRank o r x w.stack f
  have hstack : (w.handed o r x w.stack).stack = .user :: .stopping c :: k := by
    rw [← hst]
    rfl
  generalize w.handed o r x w.stack = v at *
  simp only [rank, hstack, hst, List.map_cons, List.sum_cons, frameRank]
  omega

theorem closeTail_frame (cfg : Config) (w : World) (s : Source) :
    (w.closeTail cfg s).stack = w.stack ∧ (w.closeTail cfg s).stops = w.stops ∧
      (w.closeTail cfg s).terminated = w.terminated := by
  unfold World.closeTail
  split <;> exact ⟨rfl, rfl, rfl⟩

/-- while the stack is not empty, the activation on top of it can go on -/
theorem wind_step (h : Inv cfg w) (ht : w.terminated = false) (hk : w.stack ≠ []) :
    ∃ a w', a.winds ∧ step cfg w a = some w' ∧ w'.terminated = false ∧ rank w' < rank w := by
  have hpos : ∀ f k, w.stack = f :: k → ∀ l : List Frame, l = k →
      (l.map (frameRank w.stops)).sum < rank w := by
    rintro f k hst l rfl
    have hf : 0 < frameRank w.stops f := by cases f <;> simp [frameRank]
    simp only [rank, hst, List.map_cons, List.sum_cons]
    omega
  cases hst : w.stack with
  | nil => exact absurd hst hk
  | cons f k =>
    cases f with
    | user =>
      exact ⟨.ret, { w with stack := k }, trivial, by simp [step, ht, hst], ht, hpos _ k hst k rfl⟩
    | closeTail s =>
      obtain ⟨hs, hl, hterm⟩ := closeTail_frame cfg { w with stack := k } s
      refine ⟨.tick, { w with stack := k }.closeTail cfg s, trivial, ?_, hterm.trans ht, ?_⟩
      · simp [step, ht, World.tick, hst]
      · rw [rank, hl]
        exact hpos _ k hst _ hs
    | stopping c =>
      cases hp : (w.stops c).pop with
      | none =>
        refine ⟨.tick, { w with stack := k }, trivial, ?_, ht, hpos _ k hst k rfl⟩
        simp [step, ht, World.tick, hst, hp]
      | some p =>
        obtain ⟨⟨o, ⟨⟩⟩, t⟩ := p
        obtain ⟨a, -, heq⟩ := onStopRequested_handed h hp
        refine ⟨.tick, (w.setStops c t).onStopRequested cfg o, trivial, ?_, ?_, ?_⟩
        · simp [step, ht, World.tick, hst, hp]
        · rw [heq]
          exact ht
        · rw [heq]
          exact popped_rank h hp hst _ _

/-- when the foreign code on the stack only returns, the stack is left -/
theorem unwinds (h : Inv cfg w) (ht : w.terminated = false) :
    ∃ w', (sys cfg).Along Act.winds w w' ∧ w'.stack = [] := by
  obtain ⟨w', hrun, -, hk⟩ := Sys.Along.of_rank (S := sys cfg) (Q := Act.winds) (w := w)
    (P := fun v => Inv cfg v ∧ v.terminated = false) (G := fun v => v.stack = []) rank
    (fun v hv hne => by
      obtain ⟨a, v', ha, hs, hterm, hlt⟩ := wind_step hv.1 hv.2 hne
      exact ⟨a, v', ha, hs, ⟨moved_inv hv.1 (step_moved hv.1 hs), hterm⟩, hlt⟩) ⟨h, ht⟩
  exact ⟨w', hrun, hk⟩

theorem moved_requested (hm : Moved cfg w w') {c : CancelId}
    (hr : (w.stops c).requested = true) : (w'.stops c).requested = true := by
  cases hm with
  | still x k t => exact hr
  | stop c' =>
    by_cases hc : c = c'
    · subst hc
      simp [World.push, World.setStops]
    · simpa [World.push, World.setStops, hc] using hr
  | rejected q r x => exact hr
  | admitted q x => exact (enlist_requested ..).trans hr
  | handed s o r x k => exact (delist_requested ..).trans hr

/-- a stop that was requested reaches every operation of its tasks -/
theorem stop_reaches (h : Inv cfg w) (hk : w.stack = []) {c : CancelId}
    (hr : (w.stops c).requested = true) {o : Op} (ho : (w.op o).task = some c) :
    ¬ Pending w o := by
  rw [pending_iff h]
  intro hs
  have hl : (w.stops c).regs = [] := by
    rcases h.stopping c hr with hm | hl
    · rw [hk] at hm
      cases hm
    · exact hl
  have hm := (h.regs c o).mpr ⟨hs, ho⟩
  rw [hl] at hm
  cases hm

end

/-! ## the contract -/

/-- `q` ended at once with `c`, and no slot, registration or native source changed -/
def Rejects (w w' : World) (q : Request) (c : Code) : Prop :=
  w'.src = w.src ∧ w'.stops = w.stops ∧ w'.stack = w.stack ∧
    w'.log = w.log ++ [.ended q.op (.error c)]

/-- what holds in a state and of every step from it -/
structure ExclusiveWait (cfg : Config) (w : World) : Prop where
  /-- no callback runs through an empty slot -/
  sound : w.fault = false
  once : ∀ o, resumptions w.log o ≤ suspensions w.log o ∧ suspensions w.log o ≤ 1
  /-- while it is suspended, the operation holds the slot of its source and no other, and is
  registered with the cancellation state of its task and no other -/
  held : ∀ o, Pending w o → (w.src (w.op o).source).closing = false ∧
    (∀ s, (w.src s).slot = some o ↔ s = (w.op o).source) ∧
    ∀ c, o ∈ (w.stops c).regs.map Prod.fst ↔ (w.op o).task = some c
  /-- afterwards it holds nothing -/
  finished : ∀ o, ¬ Pending w o → Released w o
  /-- the native source of a read, receive or poll runs exactly for a suspended operation -/
  started : ∀ s, (cfg.family s).perWait →
    ((w.src s).armed = true ↔ ∃ o, Pending w o ∧ (w.op o).source = s)
  /-- when a coroutine is resumed, all this is released already -/
  resumed : ∀ a w' o, step cfg w a = some w' → resumptions w'.log o ≠ resumptions w.log o →
    Pending w o ∧ Released w' o ∧ (∃ k, w'.stack = .user :: k) ∧
      ((cfg.family (w.op o).source).perWait → (w'.src (w.op o).source).armed = false)
  /-- a native event, and a close that does not reject, resume the operation at once -/
  noticed : ∀ o n w', Pending w o → n.terminal → step cfg w (.notify (w.op o).source n) = some w' →
    ¬ Pending w' o
  closed : ∀ o other w', Pending w o → (cfg.family (w.op o).source).quiesces →
    step cfg w (.requestClose (w.op o).source other) = some w' ∨
      step cfg w (.destroy (w.op o).source other) = some w' → ¬ Pending w' o
  /-- a stop resumes every operation of its tasks by the time it returns -/
  stopped : w.terminated = false → ∃ w', (sys cfg).Along Act.winds w w' ∧ w'.stack = [] ∧
    ∀ c o, (w.stops c).requested = true → (w'.op o).task = some c → ¬ Pending w' o
  canceled : ∀ q w', step cfg w (.await q) = some w' → (w.src q.source).closing = false →
    (w.src q.source).ownerGone = false → q.sameLoop = true → w.stopRequested q.task = true →
    Rejects w w' q .canceled
  busy : ∀ q w', step cfg w (.await q) = some w' → (w.src q.source).ownerGone = false →
    q.sameLoop = true → w.stopRequested q.task = false → (w.src q.source).slot.isSome →
    Rejects w w' q .busy

section
variable {cfg : Config} {w w' : World}

theorem history_once (h : Inv cfg w) (o : Op) :
    resumptions w.log o ≤ suspensions w.log o ∧ suspensions w.log o ≤ 1 := by
  have hh := h.history o
  revert hh
  cases (w.op o).status <;> simp [History] <;> omega

/-- an operation whose resumption is the last event -/
theorem not_pending_of_log (h' : Inv cfg w') {o : Op} {r : Outcome}
    (hl : w'.log = w.log ++ [.resumed o r]) : ¬ Pending w' o := by
  have hs : suspensions w'.log o ≤ 1 := (history_once h' o).2
  unfold Pending at *
  rw [hl] at hs ⊢
  simp only [suspensions_snoc, resumptions_snoc, Event.resumes, decide_true, if_true] at *
  omega

theorem step_await {q : Request} (hs : step cfg w (.await q) = some w') : w' = w.await cfg q := by
  unfold step at hs
  split at hs
  · cases hs
  · obtain ⟨-, rfl⟩ := by simpa using hs
    rfl

theorem exclusiveWait_of_inv (h : Inv cfg w) : ExclusiveWait cfg w where
  sound := h.fault
  once := history_once h
  held := by
    intro o ho
    have hs := (pending_iff h).mp ho
    have hslot := (h.slot _ o).mpr ⟨hs, rfl⟩
    refine ⟨((h.src _).held (by rw [hslot]; rfl)).1, fun s => ?_, fun c => ?_⟩
    · rw [h.slot]
      exact ⟨fun hh => hh.2.symm, fun he => ⟨hs, he.symm⟩⟩
    · rw [h.regs]
      exact ⟨fun hh => hh.2, fun hc => ⟨hs, hc⟩⟩
  finished := fun o ho => (released_iff h).mpr ho
  started := by
    intro s hf
    rw [(h.src s).armed hf, Option.isSome_iff_exists]
    refine exists_congr fun o => ?_
    rw [h.slot, pending_iff h]
  resumed := by
    intro a w' o hs hr
    have hm := step_moved h hs
    obtain ⟨hp, hp', hk, harm⟩ := resumed_step h hm hr
    exact ⟨hp, (released_iff (moved_inv h hm)).mpr hp', hk, harm⟩
  noticed := by
    intro o n w' ho ht hs
    have h' := moved_inv h (step_moved h hs)
    have hslot := (h.slot _ o).mpr ⟨(pending_iff h).mp ho, rfl⟩
    unfold step at hs
    split at hs
    · cases hs
    obtain ⟨⟨-, -, hn⟩, rfl⟩ := by simpa using hs
    obtain ⟨r, hr⟩ := notify_log h hslot hn ht
    exact not_pending_of_log h' hr
  closed := by
    intro o other w' ho hf hs
    have h' : Inv cfg w' := hs.elim (fun hs => moved_inv h (step_moved h hs))
      fun hs => moved_inv h (step_moved h hs)
    have hslot := (h.slot _ o).mpr ⟨(pending_iff h).mp ho, rfl⟩
    obtain ⟨⟨r1, h1⟩, r2, h2⟩ := close_log h hslot hf other
    unfold step at hs
    split at hs
    · rcases hs with hs | hs <;> cases hs
    rcases hs with hs | hs
    · obtain ⟨-, rfl⟩ := by simpa using hs
      exact not_pending_of_log h' h1
    · obtain ⟨-, rfl⟩ := by simpa using hs
      exact not_pending_of_log h' h2
  stopped := by
    intro ht
    obtain ⟨w', hrun, hk⟩ := unwinds h ht
    have hkeep : Inv cfg w' ∧ ∀ c, (w.stops c).requested = true → (w'.stops c).requested = true :=
      Sys.Along.inv (P := fun v => Inv cfg v ∧
          ∀ c, (w.stops c).requested = true → (v.stops c).requested = true)
        (fun v a v' hv _ hs => by
          have hm := step_moved (a := a) hv.1 (show step cfg v a = some v' from hs)
          exact ⟨moved_inv hv.1 hm, fun c hr => moved_requested hm (hv.2 c hr)⟩)
        ⟨h, fun _ hr => hr⟩ hrun
    exact ⟨w', hrun, hk, fun c o hr ho => stop_reaches hkeep.1 hk (hkeep.2 c hr) ho⟩
  canceled := by
    intro q w' hs hc hg hl hr
    rw [step_await hs, await_stopped hc hg hl hr]
    exact ⟨rfl, rfl, rfl, rfl⟩
  busy := by
    intro q w' hs hg hl hr hslot
    rw [step_await hs, await_busy h hg hl hr hslot]
    exact ⟨rfl, rfl, rfl, rfl⟩

/-- a connection, a signal source, a poll source, and processes -/
def fourFamilies : Config where
  family
    | 0 => .read
    | 1 => .signal
    | 2 => .poll
    | _ => .process
  allowed := 15

/-- A read, a `next()` and a poll of one task are stopped in turn; the first coroutine that is
resumed closes the poll source of the third, and the stopped task then finds itself rejected. -/
def stoppedInTurn : List Act :=
  [.enter, .await { op := 0, source := 0, task := some 0 },
    .await { op := 1, source := 2, task := some 0 },
    .await { op := 2, source := 1, task := some 0 },
    .await { op := 3, source := 0, task := some 1 }, .requestStop 0, .tick,
    .requestClose 2 false, .ret, .tick, .ret, .tick,
    .await { op := 4, source := 0, task := some 0 }, .ret, .tick, .ret]

end

end Wait
