import Uvpp.Spawn.Outcome

/-!
# Unobserved failures and the handler of the loop

While a handler runs, its slot is empty unless somebody installed a handler since it began; a
failure that is reported at such a moment terminates the process.

* `handlers`, `covered`   the handlers that run, and whether the slot is filled in spite of them;
* `step_slot`        what a step does to the slot: nothing, or one of three things;
* `SlotInv`          the slot is filled exactly when the stack is covered;
* `Handled`          the contract: no termination, every unobserved failure handled once;
* `ReportSafe`       a failure is reported only when the stack is covered;
* `handler_contract_iff`   **the runs that keep the contract are those whose reports are safe**;
* `reported_inside`        a handler destroys the handle of another failed root.
-/

namespace Spawn

/-- the handlers that run, the innermost first: the generation and the number of installed handlers
at which each began -/
def handlers : List Frame → List (Nat × Nat)
  | [] => []
  | .handler g _ n :: k => (g, n) :: handlers k
  | _ :: k => handlers k

/-- no handler runs, or a handler was installed since the innermost one began -/
def covered (installs : Nat) (k : List Frame) : Bool :=
  match handlers k with
  | [] => true
  | (_, n) :: _ => n < installs

/-- whether `release()` of the handle `h` reports a failure -/
def releaseReports (w : World) (h : Nat) : Bool :=
  match w.handle h with
  | some r => (w.root r).completed && (w.root r).needsReport
  | none => false

/-- whether the failure of some root is reported in this step -/
def reports (w : World) : Act → Bool
  | .destroyHandle h | .moveAssign h _ => releaseReports w h
  | .tick =>
    match w.stack with
    | .deliver r [] :: _ => (w.root r).publicHandleAbandoned && (w.root r).needsReport
    | _ => false
  | _ => false

def Event.handles (r : Nat) : Event → Bool
  | .handled q _ => q = r
  | _ => false

/-- a change that the policy of the loop does not see -/
structure Calm (w w' : World) : Prop where
  slot : w'.slot = w.slot
  installs : w'.installs = w.installs
  running : handlers w'.stack = handlers w.stack
  terminated : w'.terminated = w.terminated
  log : ∃ es, w'.log = w.log ++ es ∧ ∀ e ∈ es, ∀ r, e ≠ .routed r ∧ e.handles r = false

/-- what a step does to the policy of the loop -/
inductive SlotStep (w : World) (a : Act) (w' : World) : Prop
  | calm (hr : reports w a = false) (h : Calm w w')
  | report {r : Nat} {v : World} (hr : reports w a = true) (h : Calm w v)
      (hn : (v.root r).needsReport = true) (he : w' = v.report r)
  | ret {g : Nat} {c : Handler} {n : Nat} {k : List Frame} (hr : reports w a = false)
      (hk : w.stack = .handler g c n :: k)
      (he : w' = { w with stack := k, slot := w.slot.endInvoke c g })
  | install {c : Option Handler} (ha : a = .setHandler c)
      (he : w' = { w with slot := w.slot.replace c, installs := w.installs + 1 })

section
variable {w w' : World} {a : Act} {r : Nat}

theorem Calm.refl (w : World) : Calm w w := ⟨rfl, rfl, rfl, rfl, [], by simp, nofun⟩

theorem Calm.trans {u v w : World} (h1 : Calm u v) (h2 : Calm v w) : Calm u w := by
  obtain ⟨es, he, hes⟩ := h1.log
  obtain ⟨fs, hf, hfs⟩ := h2.log
  refine ⟨h2.slot.trans h1.slot, h2.installs.trans h1.installs, h2.running.trans h1.running,
    h2.terminated.trans h1.terminated, es ++ fs, by rw [hf, he, List.append_assoc], ?_⟩
  intro e hm
  rcases List.mem_append.mp hm with hm | hm
  · exact hes e hm
  · exact hfs e hm

/-- the stack, the roots and the handles change, the running handlers do not -/
theorem Calm.of (hslot : w'.slot = w.slot) (hinst : w'.installs = w.installs)
    (hlog : w'.log = w.log) (hterm : w'.terminated = w.terminated)
    (hk : handlers w'.stack = handlers w.stack) : Calm w w' :=
  ⟨hslot, hinst, hk, hterm, [], by simpa using hlog, nofun⟩

/-- the end of an activation that is not a handler -/
theorem handlers_tail {f : Frame} {k : List Frame} (hk : w.stack = f :: k)
    (hf : ∀ g c n, f ≠ .handler g c n) : handlers k = handlers w.stack := by
  rw [hk]
  cases f with
  | handler g c n => exact absurd rfl (hf g c n)
  | _ => rfl

theorem collect_calm (w : World) (q : Nat)
    (hfinal : (w.root q).refs = 0 → (w.root q).frame = .final) : Calm w (w.collect q) := by
  unfold World.collect
  split
  · rename_i h0
    rw [if_pos (hfinal h0)]
    exact ⟨rfl, rfl, rfl, rfl, [.frameDestroyed q], rfl, by simp [Event.handles]⟩
  · exact .refl w

/-- the last reference to a root goes at its final suspend point: `~state()` does not terminate -/
theorem last_drop_final (h : Base w) (hs : step w a = some w') (hg : gives w a = some r)
    (h0 : (w'.root r).refs = 0) : (w.root r).frame = .final := by
  have hrefs := (step_gives h hs hg).1
  have hlive := (h.refs r).live (show 0 < (w.root r).refs by omega)
  have hafter := (step_base h hs).refs r
  refine (step_gives_frame hs hg).resolve_left fun he => ?_
  -- the frame is as before: neither unborn nor destroyed, with no reference left
  refine hlive.2.2 (he ▸ hafter.destroyed.mpr ⟨?_, h0⟩)
  rw [show (life w' r).root.frame = _ from he]
  exact hlive.2.1

theorem drop_calm (h : Base w) (hs : step w a = some w') (hg : gives w a = some r) {v : World}
    {x : Root} (hv : Calm w v) (he : w' = (v.setRoot r x).collect r)
    (hx : x.frame = (w.root r).frame) : Calm w w' := by
  have hset : Calm v (v.setRoot r x) := .of rfl rfl rfl rfl rfl
  rw [he]
  refine (hv.trans hset).trans (collect_calm _ r fun h0 => ?_)
  have hself : (v.setRoot r x).root r = x := Function.update_self ..
  rw [hself, hx]
  refine last_drop_final h hs hg ?_
  rw [he, collect_refs]
  exact h0

/-- a handle is written over or destroyed -/
theorem discard_calm (h : Base w) (hs : step w a = some w') {u v : World} {n : Nat} (hv : Calm w v)
    (hg : ∀ q, u.handle n = some q → gives w a = some q) (he : w' = u.discard v n)
    (hroot : v.root = w.root) : Calm w w' := by
  cases hh : u.handle n with
  | none =>
    rw [he, World.discard, hh]
    exact hv
  | some q => exact drop_calm h hs (hg q hh) hv (he.trans (discard_some hh)) (by rw [hroot])

theorem requestStop_calm (w : World) (r : Nat) (v : Via) : Calm w (w.requestStop r v) := by
  unfold World.requestStop
  split
  · exact .of rfl rfl rfl rfl rfl
  · exact .refl w

/-- `release()` reports at once, or leaves the policy alone -/
theorem release_slot (w : World) (n : Nat) :
    (releaseReports w n = false ∧ Calm w (w.release n)) ∨
    (releaseReports w n = true ∧ ∃ r v, Calm w v ∧ (v.root r).needsReport = true ∧
      w.release n = v.report r) := by
  cases hn : w.handle n with
  | none =>
    simp only [World.release, releaseReports, hn]
    exact Or.inl ⟨trivial, .refl w⟩
  | some r =>
    have hmoved : Calm w ({ w with handle := Function.update w.handle n none }.push (.releaseEnd r)) :=
      .of rfl rfl rfl rfl rfl
    simp only [World.release, releaseReports, hn]
    split
    · rename_i hc
      have hdone : (w.root r).completed = true := hc
      rw [hdone, Bool.true_and]
      by_cases hneeds : (w.root r).needsReport = true
      · exact Or.inr ⟨hneeds, r, _, hmoved, hneeds, rfl⟩
      · refine Or.inl ⟨by simpa using hneeds, ?_⟩
        unfold World.report
        rw [if_neg (by exact hneeds)]
        exact hmoved
    · rename_i hc
      have hdone : (w.root r).completed = false := Bool.eq_false_iff.mpr hc
      rw [hdone, Bool.false_and]
      refine Or.inl ⟨rfl, (hmoved.trans ?_).trans (requestStop_calm _ r .release)⟩
      exact .of rfl rfl rfl rfl rfl

/-- **what a step does to the policy of the loop** -/
theorem step_slot (h : Base w) (hs : step w a = some w') : SlotStep w a w' := by
  cases step_cases hs with
  | enter | spawn | resume | join | moveConstruct => exact .calm rfl (.of rfl rfl rfl rfl rfl)
  | userRet hk | suspend hk => exact .calm rfl (.of rfl rfl rfl rfl (handlers_tail hk (by simp)))
  | handlerRet hk => exact .ret rfl hk rfl
  | @finish e r k hk =>
    refine .calm rfl ⟨rfl, rfl, ?_, rfl, [.completed r e], rfl, by simp [Event.handles]⟩
    exact handlers_tail (k := k) hk (by simp)
  | @observe n r hf hh hc =>
    refine .calm rfl ?_
    unfold World.observe
    split
    · exact ⟨rfl, rfl, rfl, rfl, [.observed r], rfl, by simp [Event.handles]⟩
    · exact .refl w
  | requestStop hf hh => exact .calm rfl (requestStop_calm w _ _)
  | @userAwait r c _ hk | @rootAwait r _ c _ hk =>
    refine .calm rfl ⟨rfl, rfl, ?_, rfl, [.joinSuspended r c], rfl, by simp [Event.handles]⟩
    exact handlers_tail hk (by simp)
  | @dropAwaiter r hf ha => exact .calm rfl (drop_calm h hs rfl (.refl w) rfl rfl)
  | @moveAssign dst src hf hne hd =>
    have hpush : Calm w (w.push (.assignEnd dst src)) := .of rfl rfl rfl rfl rfl
    rcases release_slot (w.push (.assignEnd dst src)) dst with ⟨hr, hcalm⟩ | ⟨hr, r, v, hcalm, hn, he⟩
    · exact .calm hr (hpush.trans hcalm)
    · exact .report hr (hpush.trans hcalm) hn he
  | @destroyHandle n hf hd =>
    have hpush : Calm w (w.push (.destroyEnd n)) := .of rfl rfl rfl rfl rfl
    rcases release_slot (w.push (.destroyEnd n)) n with ⟨hr, hcalm⟩ | ⟨hr, r, v, hcalm, hn, he⟩
    · exact .calm hr (hpush.trans hcalm)
    · exact .report hr (hpush.trans hcalm) hn he
  | setHandler hf => exact .install rfl rfl
  | @stopRound r v k hk =>
    refine .calm (by simp [reports, hk]) ?_
    unfold World.stopRound
    dsimp only
    split
    · exact .of rfl rfl rfl rfl (handlers_tail hk (by simp))
    · exact .of rfl rfl rfl rfl rfl
  | @releaseEnd r k hk | @batonEnd r k hk =>
    refine .calm (by simp [reports, hk]) ?_
    have hpop : Calm w { w with stack := k } := .of rfl rfl rfl rfl (handlers_tail hk (by simp))
    exact drop_calm h hs (r := r) (by simp [gives, hk]) hpop rfl rfl
  | @assignEnd dst src k hk =>
    have hpop : Calm w { w with
        stack := k
        handle := Function.update (Function.update w.handle dst (w.handle src)) src none } :=
      .of rfl rfl rfl rfl (handlers_tail hk (by simp))
    exact .calm (by simp [reports, hk])
      (discard_calm h hs hpop (fun q hh => by simpa [gives, hk] using hh) rfl rfl)
  | @destroyEnd n k hk =>
    have hpop : Calm w { w with
        stack := k
        handle := Function.update w.handle n none
        ended := Function.update w.ended n true } :=
      .of rfl rfl rfl rfl (handlers_tail hk (by simp))
    exact .calm (by simp [reports, hk])
      (discard_calm h hs hpop (fun q hh => by simpa [gives, hk] using hh) rfl rfl)
  | @deliver r rest k hk =>
    cases rest with
    | cons c rest =>
      refine .calm (by simp [reports, hk]) ?_
      exact ⟨rfl, rfl, handlers_tail (k := k) hk (by simp), rfl, [.joinResumed r c], rfl,
        by simp [Event.handles]⟩
    | nil =>
      have hpop : Calm w { w with stack := .batonEnd r :: k } :=
        .of rfl rfl rfl rfl (handlers_tail (k := k) hk (by simp))
      have hrep : reports w .tick =
          ((w.root r).publicHandleAbandoned && (w.root r).needsReport) := by
        simp [reports, hk]
      simp only [World.deliver]
      split
      · rename_i hab
        rw [hab, Bool.true_and] at hrep
        by_cases hneeds : (w.root r).needsReport = true
        · exact .report (hrep.trans hneeds) hpop hneeds rfl
        · refine .calm (by simpa [hrep] using hneeds) ?_
          unfold World.report
          rw [if_neg hneeds]
          exact hpop
      · rename_i hab
        exact .calm (by simp [hrep, hab]) hpop
  | spawning hk =>
    exact .calm (by simp [reports, hk]) (.of rfl rfl rfl rfl (handlers_tail hk (by simp)))

/-! ## the slot -/

structure SlotInv (w : World) : Prop where
  filled : w.slot.callback.isSome = covered w.installs w.stack
  below : ∀ p ∈ (handlers w.stack).tail, p.2 < w.installs
  top : ∀ p ∈ (handlers w.stack).head?,
    p.2 ≤ w.installs ∧ (p.2 = w.installs → p.1 = w.slot.generation)

theorem slot_calm (h : SlotInv w) (hc : Calm w w') : SlotInv w' := by
  refine ⟨?_, ?_, ?_⟩
  · rw [covered, hc.slot, hc.installs, hc.running]
    exact h.filled
  · rw [hc.running, hc.installs]
    exact h.below
  · rw [hc.running, hc.installs, hc.slot]
    exact h.top

/-- when the stack is covered, every running handler is older than the last installation -/
theorem SlotInv.older (h : SlotInv w) (hc : covered w.installs w.stack = true) :
    ∀ p ∈ handlers w.stack, p.2 < w.installs := by
  intro p hp
  cases hs : handlers w.stack with
  | nil =>
    rw [hs] at hp
    cases hp
  | cons q hs' =>
    have hbelow := h.below
    rw [hs] at hp hbelow
    rw [covered, hs] at hc
    rcases List.mem_cons.mp hp with rfl | hp
    · exact of_decide_eq_true hc
    · exact hbelow p hp

theorem covered_of_older {n : Nat} {k : List Frame} (h : ∀ p ∈ handlers k, p.2 < n) :
    covered n k = true := by
  unfold covered
  split
  · rfl
  · rename_i g i hs hk
    exact decide_eq_true (h (g, i) (hk ▸ List.mem_cons_self ..))

/-- a handler returns: it is put back unless a handler was installed in the meantime -/
theorem slot_ret (h : SlotInv w) {g : Nat} {c : Handler} {n : Nat} {k : List Frame}
    (hk : w.stack = .handler g c n :: k) :
    SlotInv { w with stack := k, slot := w.slot.endInvoke c g } := by
  have hrun : handlers w.stack = (g, n) :: handlers k := by rw [hk]; rfl
  have hold : ∀ p ∈ handlers k, p.2 < w.installs := by
    have hbelow := h.below
    rwa [hrun] at hbelow
  obtain ⟨hle, hgen⟩ := h.top (g, n) (by rw [hrun]; rfl)
  refine ⟨?_, fun p hp => hold p (List.mem_of_mem_tail hp), fun p hp => ?_⟩
  · show (w.slot.endInvoke c g).callback.isSome = covered w.installs k
    rw [covered_of_older hold]
    unfold Callback.Slot.endInvoke
    split
    · rfl
    · rename_i hne
      rw [h.filled, covered, hrun]
      refine decide_eq_true ?_
      have : n ≠ w.installs := fun he => hne (hgen he).symm
      show n < w.installs
      omega
  · have hlt := hold p (List.mem_of_mem_head? hp)
    exact ⟨by show p.2 ≤ w.installs; omega, fun he => absurd he (by show p.2 ≠ w.installs; omega)⟩

theorem slot_install (h : SlotInv w) (c : Handler) : SlotInv { w with
    slot := w.slot.replace (some c), installs := w.installs + 1 } := by
  have hold : ∀ p ∈ handlers w.stack, p.2 < w.installs + 1 := by
    intro p hp
    cases hs : handlers w.stack with
    | nil =>
      rw [hs] at hp
      cases hp
    | cons q qs =>
      have htop := h.top
      have hbelow := h.below
      rw [hs] at hp htop hbelow
      rcases List.mem_cons.mp hp with rfl | hp
      · have := (htop p rfl).1
        omega
      · have := hbelow p hp
        omega
  refine ⟨(covered_of_older hold).symm, fun p hp => hold p (List.mem_of_mem_tail hp), fun p hp => ?_⟩
  have hlt := hold p (List.mem_of_mem_head? hp)
  exact ⟨by show p.2 ≤ w.installs + 1; omega,
    fun he => absurd he (by show p.2 ≠ w.installs + 1; omega)⟩

/-- a report with a handler in the slot: the handler runs, and the slot is empty -/
theorem report_filled {c : Handler} (hn : (w.root r).needsReport = true)
    (hc : w.slot.callback = some c) :
    (w.report r).slot = { w.slot with callback := none } ∧
    (w.report r).stack = .handler w.slot.generation c w.installs :: w.stack ∧
    (w.report r).terminated = w.terminated ∧
    (w.report r).log = w.log ++ [.routed r, .handled r c] := by
  simp [World.report, hn, World.setRoot, World.emit, World.push, Callback.Slot.beginInvoke, hc]

/-- a report without one terminates -/
theorem report_empty (hn : (w.root r).needsReport = true) (hc : w.slot.callback = none) :
    (w.report r).terminated = true := by
  simp [World.report, hn, World.setRoot, World.emit, Callback.Slot.beginInvoke, hc]

theorem slot_report (h : SlotInv w) {c : Handler} (hn : (w.root r).needsReport = true)
    (hc : w.slot.callback = some c) : SlotInv (w.report r) := by
  obtain ⟨hslot, hstack, -, -⟩ := report_filled hn hc
  have hinst := (report_rest w r).installs
  have hcov : covered w.installs w.stack = true := by
    rw [← h.filled, hc]
    rfl
  have hrun : handlers (w.report r).stack =
      (w.slot.generation, w.installs) :: handlers w.stack := by rw [hstack]; rfl
  refine ⟨?_, ?_, ?_⟩
  · rw [covered, hrun, hslot, hinst]
    simp
  · rw [hrun, hinst]
    exact h.older hcov
  · rw [hrun, hinst, hslot]
    intro p hp
    obtain rfl := Option.some.inj hp
    exact ⟨le_rfl, fun _ => rfl⟩

/-! ## the contract -/

/-- how often the failure of `r` was passed to a handler -/
def handledCount (w : World) (r : Nat) : Nat := w.log.countP (Event.handles r)

structure Handled (w : World) : Prop where
  notTerminated : w.terminated = false
  /-- a failure goes to a handler as often as it goes to the policy, at most once -/
  once : ∀ r, handledCount w r = (history w r).count .routed ∧ handledCount w r ≤ 1
  /-- a failed root that is complete, has lost its handle and was not observed: exactly once -/
  all : ∀ r x, Mark.completed (some x) ∈ history w r → HandleGone w r → NoDelivery w r →
    Mark.observed ∉ history w r → handledCount w r = 1

/-- a failure is reported only when no handler runs, or one was installed since it began -/
def ReportSafe (w : World) (a : Act) : Prop :=
  reports w a = true → covered w.installs w.stack = true

instance (w : World) (a : Act) : Decidable (ReportSafe w a) :=
  inferInstanceAs (Decidable (_ → _))

/-- no handle is lost, and no empty handler is installed -/
def Regular (w : World) (a : Act) : Prop := Undisturbed w a ∧ a ≠ .setHandler none

instance (w : World) (a : Act) : Decidable (Regular w a) := inferInstanceAs (Decidable (_ ∧ _))

structure ReportInv (w : World) : Prop where
  outcome : OutcomeInv w
  slot : SlotInv w
  notTerminated : w.terminated = false
  paired : ∀ r, handledCount w r = w.log.count (.routed r)

theorem count_mark (log : List Event) (r : Nat) :
    (log.filterMap (Event.mark r)).count .routed = log.count (.routed r) := by
  rw [List.count, List.count, List.countP_filterMap]
  refine List.countP_congr fun e _ => ?_
  cases e with
  | handled q c => simp [Event.mark]
  | joinSuspended q c | joinResumed q c | completed q c | observed q | routed q | frameDestroyed q =>
    by_cases hq : q = r <;> simp [Event.mark, hq]

theorem OutcomeInv.base (h : OutcomeInv w) : Base w := ⟨h.wf, fun r => (h.lives r).refs⟩

theorem handled_of_inv (h : ReportInv w) : Handled w := by
  have hrouted (r : Nat) : handledCount w r = (history w r).count .routed :=
    (h.paired r).trans (count_mark w.log r).symm
  refine ⟨h.notTerminated, fun r => ⟨hrouted r, ?_⟩, fun r x hx hgone hno hobs => ?_⟩
  · rw [hrouted r]
    exact (outcome_of_inv h.outcome r).routedOnce
  · have ho := outcome_of_inv h.outcome r
    have hpos := List.count_pos_iff.mpr ((ho.destination x hx hgone hno).resolve_left hobs)
    have hone := ho.routedOnce
    rw [hrouted r]
    omega

theorem paired_calm (h : ∀ r, handledCount w r = w.log.count (.routed r)) (hc : Calm w w') :
    ∀ r, handledCount w' r = w'.log.count (.routed r) := by
  intro r
  obtain ⟨es, he, hes⟩ := hc.log
  have h1 : es.countP (Event.handles r) = 0 :=
    List.countP_eq_zero.mpr fun e hm => by rw [(hes e hm r).2]; decide
  have h2 : es.count (.routed r) = 0 :=
    List.count_eq_zero_of_not_mem fun hm => (hes _ hm r).1 rfl
  have hbefore := h r
  unfold handledCount at hbefore ⊢
  rw [he, List.countP_append, List.count_append, h1, h2]
  omega

theorem paired_report (h : ∀ r, handledCount w r = w.log.count (.routed r)) {q : Nat} {c : Handler}
    (hlog : w'.log = w.log ++ [.routed q, .handled q c]) :
    ∀ r, handledCount w' r = w'.log.count (.routed r) := by
  intro r
  have hbefore := h r
  unfold handledCount at hbefore ⊢
  rw [hlog, List.countP_append, List.count_append, hbefore]
  by_cases hq : q = r <;> simp [Event.handles, hq]

theorem step_reportInv (h : ReportInv w) (hreg : Regular w a) (hs : step w a = some w') :
    (ReportSafe w a → ReportInv w') ∧ (Handled w' → ReportSafe w a) := by
  have hout := step_outcomeInv h.outcome hreg.1 hs
  cases step_slot h.outcome.base hs with
  | calm hr hc =>
    refine ⟨fun _ => ⟨hout, slot_calm h.slot hc, hc.terminated.trans h.notTerminated,
      paired_calm h.paired hc⟩, fun _ hr' => ?_⟩
    rw [hr] at hr'
    cases hr'
  | @report r v hr hc hn he =>
    have hslot := slot_calm h.slot hc
    have hpaired := paired_calm h.paired hc
    have hfilled : v.slot.callback.isSome = covered w.installs w.stack := by
      rw [hc.slot]
      exact h.slot.filled
    constructor
    · intro hsafe
      rw [hsafe hr] at hfilled
      obtain ⟨c, hcb⟩ := Option.isSome_iff_exists.mp hfilled
      obtain ⟨-, -, hterm, hlog⟩ := report_filled hn hcb
      subst he
      exact ⟨hout, slot_report hslot hn hcb, hterm.trans (hc.terminated.trans h.notTerminated),
        paired_report hpaired hlog⟩
    · -- with an empty slot the report terminates
      intro hh _
      rw [← hfilled]
      cases hcb : v.slot.callback with
      | some c => rfl
      | none =>
        have := hh.notTerminated
        rw [he, report_empty hn hcb] at this
        cases this
  | @ret g c n k hr hk he =>
    subst he
    refine ⟨fun _ => ⟨hout, slot_ret h.slot hk, h.notTerminated, h.paired⟩, fun _ hr' => ?_⟩
    rw [hr] at hr'
    cases hr'
  | @install c ha he =>
    subst ha he
    refine ⟨fun _ => ?_, fun _ => nofun⟩
    cases c with
    | none => exact absurd rfl hreg.2
    | some c => exact ⟨hout, slot_install h.slot c, h.notTerminated, h.paired⟩

theorem reportInv_init (c : Handler) : ReportInv (sys (some c)).init :=
  ⟨outcomeInv_init (some c), ⟨rfl, nofun, nofun⟩, rfl, fun _ => rfl⟩

/-- on a loop that starts with a handler and on which nobody installs an empty one -/
theorem handler_contract_iff {c : Handler} {as : List Act}
    (hreg : (sys (some c)).Meets Regular (sys (some c)).init as)
    (hr : (sys (some c)).run (sys (some c)).init as = some w) :
    (sys (some c)).Always Handled (sys (some c)).init as ↔
      (sys (some c)).Meets ReportSafe (sys (some c)).init as :=
  Sys.always_iff_meets_of (I := ReportInv) (fun _ h => handled_of_inv h)
    (fun _ _ _ h hd hs => step_reportInv h hd hs) (reportInv_init c) hreg hr

end

/-- a handler replaces itself and then destroys the handle of another failed root -/
def replaceThenDestroy : List Act :=
  [.spawn 0, .finish (some 7), .tick, .tick, .tick, .spawn 1, .finish (some 8), .tick, .tick, .tick,
    .destroyHandle 0, .setHandler (some 2), .destroyHandle 1, .ret, .tick, .tick, .ret, .tick, .tick]

theorem handler_contract_iff_replaceThenDestroy :
    ∃ w, (sys (some 1)).run (sys (some 1)).init replaceThenDestroy = some w ∧
      w.log = [.completed 0 (some 7), .completed 1 (some 8), .routed 0, .handled 0 1, .routed 1,
        .handled 1 2, .frameDestroyed 1, .frameDestroyed 0] ∧
      (sys (some 1)).Always Handled (sys (some 1)).init replaceThenDestroy :=
  ⟨_, rfl, rfl, (handler_contract_iff (by decide)
    (show (sys (some 1)).run (sys (some 1)).init replaceThenDestroy = some _ from rfl)).mpr (by decide)⟩

/-- a handler destroys the handle of another failed root -/
def destroyInside : List Act :=
  [.spawn 0, .finish (some 7), .tick, .tick, .tick, .spawn 1, .finish (some 8), .tick, .tick, .tick,
    .destroyHandle 0, .destroyHandle 1]

/-- **a failure that becomes unobserved while the handler runs terminates the process**, although
the handler is installed and does not throw -/
theorem reported_inside :
    (sys (some 1)).Meets Regular (sys (some 1)).init destroyInside ∧
    ∃ w, (sys (some 1)).run (sys (some 1)).init destroyInside = some w ∧ w.terminated = true ∧
      w.log = [.completed 0 (some 7), .completed 1 (some 8), .routed 0, .handled 0 1, .routed 1] :=
  ⟨by decide, _, rfl, rfl, rfl⟩

end Spawn
