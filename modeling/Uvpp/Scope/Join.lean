import Uvpp.Scope.Kids

/-!
# Joining a scope

The runs in which the children are stopped only by the failure of one of them.

* `failures`, `joins`   what the history says about the children and the join;
* `JoinInv`             the invariant of these runs;
* `join_contract`       the parent is resumed once, when all children have completed and no
                        completion is on the stack, and gets the first failure.
-/

namespace Scope

/-! ## the history of the join -/

@[simp] def Event.fails : Event → Option Exc
  | .completed _ e => e
  | _ => none

@[simp] def Event.joins : Event → Option (Option Exc)
  | .joined r => some r
  | _ => none

/-- the failures of children, in completion order -/
def failures (log : List Event) : List Exc := log.filterMap Event.fails

/-- the results of `join()` -/
def joins (log : List Event) : List (Option Exc) := log.filterMap Event.joins

section
variable (log log' : List Event) (e : Event) (is : List Nat)

@[simp] theorem failures_nil : failures [] = [] := rfl

@[simp] theorem failures_cons : failures (e :: log) = e.fails.toList ++ failures log := by
  unfold failures
  cases h : e.fails with
  | none => rw [List.filterMap_cons_none h]; rfl
  | some x => rw [List.filterMap_cons_some h]; rfl

@[simp] theorem failures_append : failures (log ++ log') = failures log ++ failures log' :=
  List.filterMap_append

@[simp] theorem failures_destroyed : failures (is.map .destroyed) = [] := by
  induction is with
  | nil => rfl
  | cons i is ih => rw [List.map_cons, failures_cons, ih]; rfl

@[simp] theorem joins_nil : joins [] = [] := rfl

@[simp] theorem joins_cons : joins (e :: log) = e.joins.toList ++ joins log := by
  unfold joins
  cases h : e.joins with
  | none => rw [List.filterMap_cons_none h]; rfl
  | some x => rw [List.filterMap_cons_some h]; rfl

@[simp] theorem joins_append : joins (log ++ log') = joins log ++ joins log' :=
  List.filterMap_append

@[simp] theorem joins_destroyed : joins (is.map .destroyed) = [] := by
  induction is with
  | nil => rfl
  | cons i is ih => rw [List.map_cons, joins_cons, ih]; rfl

end

/-! ## the invariant -/

/-- what holds also inside `child_completed`, between the counters and its tail -/
structure Core (w : World) : Prop extends Kids w where
  nested : Nested w.stack
  children : w.children = if joins w.log = [] then List.range w.started else []
  /-- a parent waits from its suspension until `join()` returns -/
  cont : w.joinContinuation = true ↔ w.joinStarted = true ∧ joins w.log = []
  failure : joins w.log = [] → w.firstFailure = (failures w.log).head?
  destroyed : ∀ i, w.log.count (.destroyed i) = if joins w.log ≠ [] ∧ i < w.started then 1 else 0
  resumed : w.log.count .resumed = if joins w.log = [] then 0 else w.log.count .joinSuspended
  waiting : w.joinContinuation = true → w.log.count .joinSuspended = 1
  once : w.log.count .joinSuspended ≤ 1
  unjoined : w.joinStarted = false → joins w.log = [] ∧ w.log.count .joinSuspended = 0
  stopCalled : w.log.count .stopCalled = if failures w.log = [] then 0 else 1
  requested : w.stops.requested = true ↔ failures w.log ≠ []
  unstopped : w.stops.requested = false → completions w.stack = 0
  fault : w.fault = false
  /-- a destroyed scope has no children, and nothing of it is on the stack -/
  dead : w.alive = false → w.children = [] ∧ w.activeChildren = 0 ∧ completions w.stack = 0

structure JoinInv (w : World) : Prop extends Core w where
  depth : w.completionDepth = completions w.stack
  joined : joins w.log = if w.joinStarted ∧ w.activeChildren = 0 ∧ completions w.stack = 0
    then [(failures w.log).head?] else []

section
variable {w : World}

/-- while a child is active, `join()` has not returned -/
theorem JoinInv.not_joined (h : JoinInv w) (ha : 0 < w.activeChildren) : joins w.log = [] := by
  rw [h.joined, if_neg]
  omega

theorem Core.alive_of_active (h : Core w) (ha : 0 < w.activeChildren) : w.alive = true := by
  by_contra hd
  have hz := (h.dead ((Bool.not_eq_true _).mp hd)).2.1
  omega

/-- a step that leaves the join and the completions alone -/
theorem Core.frame (h : Core w) {v : World} (hk : Kids v) (hn : Nested v.stack)
    (hcomp : completions v.stack = completions w.stack) (hc : v.children = w.children)
    (hs : v.started = w.started) (hj : v.joinContinuation = w.joinContinuation)
    (hjs : v.joinStarted = w.joinStarted) (hf : v.firstFailure = w.firstFailure)
    (hr : v.stops.requested = w.stops.requested) (hfault : v.fault = w.fault)
    (hfail : (failures v.log).head? = (failures w.log).head?) (hjoin : joins v.log = joins w.log)
    (hcount : ∀ e, (∃ i, e = .destroyed i) ∨ e = .resumed ∨ e = .joinSuspended ∨ e = .stopCalled →
      v.log.count e = w.log.count e)
    (hdead : v.alive = false → v.children = [] ∧ v.activeChildren = 0 ∧ completions v.stack = 0) :
    Core v := by
  have hnil : failures v.log = [] ↔ failures w.log = [] := by
    rw [← List.head?_eq_none_iff, hfail, List.head?_eq_none_iff]
  refine ⟨hk, hn, ?children, ?cont, ?failure, fun i => ?_, ?resumed, ?waiting, ?once, ?unjoined,
    ?stopCalled, ?requested, ?unstopped, ?fault, hdead⟩
  case children => rw [hc, hs, hjoin]; exact h.children
  case cont => rw [hj, hjs, hjoin]; exact h.cont
  case failure => rw [hjoin, hf, hfail]; exact h.failure
  case resumed =>
    rw [hcount .resumed (by simp), hcount .joinSuspended (by simp), hjoin]
    exact h.resumed
  case waiting => rw [hcount .joinSuspended (by simp), hj]; exact h.waiting
  case once => rw [hcount .joinSuspended (by simp)]; exact h.once
  case unjoined => rw [hcount .joinSuspended (by simp), hjoin, hjs]; exact h.unjoined
  case stopCalled => rw [hcount .stopCalled (by simp)]; simpa only [hnil] using h.stopCalled
  case requested => rw [hr, ne_eq, hnil]; exact h.requested
  case unstopped => rw [hr, hcomp]; exact h.unstopped
  case fault => rw [hfault]; exact h.fault
  · rw [hcount _ (Or.inl ⟨i, rfl⟩), hjoin, hs]
    exact h.destroyed i

/-- the same for the whole invariant, with the same number of active children -/
theorem JoinInv.frame (h : JoinInv w) {v : World} (hk : Kids v) (hn : Nested v.stack)
    (hcomp : completions v.stack = completions w.stack) (hc : v.children = w.children)
    (hs : v.started = w.started) (ha : v.activeChildren = w.activeChildren)
    (hj : v.joinContinuation = w.joinContinuation) (hjs : v.joinStarted = w.joinStarted)
    (hf : v.firstFailure = w.firstFailure) (hr : v.stops.requested = w.stops.requested)
    (hal : v.alive = w.alive) (hfault : v.fault = w.fault)
    (hd : v.completionDepth = w.completionDepth)
    (hfail : failures v.log = failures w.log) (hjoin : joins v.log = joins w.log)
    (hcount : ∀ e, (∃ i, e = .destroyed i) ∨ e = .resumed ∨ e = .joinSuspended ∨ e = .stopCalled →
      v.log.count e = w.log.count e) : JoinInv v where
  toCore := h.toCore.frame hk hn hcomp hc hs hj hjs hf hr hfault (by rw [hfail]) hjoin hcount
    (by rw [hal, hc, ha, hcomp]; exact h.dead)
  depth := by rw [hd, hcomp]; exact h.depth
  joined := by rw [hjoin, hjs, ha, hcomp, hfail]; exact h.joined

/-! ## the end of the join -/

theorem count_destroyed_map (i n : Nat) :
    ((List.range n).map Event.destroyed).count (.destroyed i) = if i < n then 1 else 0 := by
  have hinj : Function.Injective Event.destroyed := fun a b h => by injection h
  rw [List.count_map_of_injective _ _ hinj]
  split
  · rename_i hi
    exact List.count_eq_one_of_mem List.nodup_range (List.mem_range.mpr hi)
  · rename_i hi
    exact List.count_eq_zero_of_not_mem fun hm => hi (List.mem_range.mp hm)

theorem count_map_destroyed_other {e : Event} (he : ∀ i, e ≠ .destroyed i) (is : List Nat) :
    (is.map Event.destroyed).count e = 0 := by
  refine List.count_eq_zero_of_not_mem fun hm => ?_
  obtain ⟨i, -, hi⟩ := List.mem_map.mp hm
  exact he i hi.symm

/-- `finish_join` when all children have completed and no completion is on the stack -/
theorem finishJoin_inv (hk : Kids w) (hn : Nested w.stack) (hc : w.children = List.range w.started)
    (hz : w.activeChildren = 0) (hcomp : completions w.stack = 0) (hs : w.joinStarted = true)
    (hcont : w.joinContinuation = false) (hj : joins w.log = [])
    (hf : w.firstFailure = (failures w.log).head?)
    (hdes : ∀ i, w.log.count (.destroyed i) = 0)
    (hres : w.log.count .resumed = w.log.count .joinSuspended)
    (hone : w.log.count .joinSuspended ≤ 1)
    (hstop : w.log.count .stopCalled = if failures w.log = [] then 0 else 1)
    (hreq : w.stops.requested = true ↔ failures w.log ≠ []) (hfault : w.fault = false)
    (hdepth : w.completionDepth = 0) : JoinInv w.finishJoin := by
  have hlog : ∀ e, (∀ i, e ≠ .destroyed i) → (∀ r, e ≠ .joined r) →
      w.finishJoin.log.count e = w.log.count e := by
    intro e h1 h2
    simp only [World.finishJoin, List.count_append, count_map_destroyed_other h1]
    rw [List.count_singleton, if_neg (by simpa using fun hr => h2 _ (Eq.symm hr))]
    rfl
  have hjoins : joins w.finishJoin.log = [(failures w.log).head?] := by
    simp [World.finishJoin, hj, hf]
  have hfails : failures w.finishJoin.log = failures w.log := by
    simp [World.finishJoin]
  refine ⟨⟨kids_finishJoin hk hz hc, hn, ?children, ?cont, ?failure, ?destroyed, ?resumed,
    ?waiting, ?once, ?unjoined, ?stopCalled, ?requested, fun _ => hcomp, hfault,
    fun _ => ⟨rfl, hz, hcomp⟩⟩, hdepth.trans hcomp.symm, ?joined⟩
  case children => rw [hjoins]; rfl
  case cont =>
    rw [hjoins]
    show w.joinContinuation = true ↔ _
    rw [hcont]
    simp
  case failure => rw [hjoins]; exact fun h => by cases h
  case destroyed =>
    intro i
    rw [hjoins]
    simp only [World.finishJoin, List.count_append, hdes, hc, count_destroyed_map]
    simp
  case resumed =>
    rw [hjoins, hlog .resumed (by simp) (by simp), hlog .joinSuspended (by simp) (by simp),
      if_neg (by simp)]
    exact hres
  case waiting =>
    intro h
    rw [show w.joinContinuation = true from h] at hcont
    cases hcont
  case once => rw [hlog .joinSuspended (by simp) (by simp)]; exact hone
  case unjoined =>
    intro h
    rw [show w.joinStarted = false from h] at hs
    cases hs
  case stopCalled => rw [hlog .stopCalled (by simp) (by simp), hfails]; exact hstop
  case requested => rw [hfails]; exact hreq
  case joined =>
    rw [hjoins, hfails, if_pos]
    exact ⟨hs, hz, hcomp⟩

/-- the tail of `child_completed` -/
theorem completionTail_join (h : Core w) (hd : w.completionDepth = completions w.stack + 1)
    (hj : joins w.log = []) : JoinInv w.completionTail := by
  by_cases hr : Resumes w
  · rw [completionTail_resumes hr]
    obtain ⟨hz, hcont, hdepth⟩ := hr
    have hcomp : completions w.stack = 0 := by omega
    have hchildren : w.children = List.range w.started := by rw [h.children, if_pos hj]
    have hres : w.log.count .resumed = 0 := by rw [h.resumed, if_pos hj]
    refine finishJoin_inv ?_ ⟨foreign_of_quiet h.nested hcomp, h.nested⟩ hchildren hz ?_
      (h.cont.mp hcont).1 rfl ?_ ?_ ?_ ?_ ?_ ?_ ?_ h.fault hdepth
    · exact h.toKids.frame (by simp [World.emit]) rfl rfl rfl rfl
    · simpa [World.emit] using hcomp
    · simpa [World.emit] using hj
    · simpa [World.emit] using h.failure hj
    · intro i
      have hi := h.destroyed i
      rw [if_neg (fun hc => hc.1 hj)] at hi
      simpa [World.emit] using hi
    · simp [World.emit, hres, h.waiting hcont]
    · simpa [World.emit] using h.once
    · simpa [World.emit] using h.stopCalled
    · simpa [World.emit] using h.requested
  · rw [completionTail_waits hr]
    refine { toCore := ?_, depth := ?_, joined := ?_ }
    · exact h.frame (h.toKids.frame (fun _ => rfl) rfl rfl rfl rfl) h.nested rfl rfl rfl rfl rfl rfl
        rfl rfl rfl rfl (fun _ _ => rfl) h.dead
    · show w.completionDepth - 1 = completions w.stack
      omega
    · show joins w.log = if _ then _ else _
      rw [if_neg, hj]
      rintro ⟨hs, hz, hcomp⟩
      exact hr ⟨hz, h.cont.mpr ⟨hs, hj⟩, by
        have : completions w.stack = 0 := hcomp
        omega⟩

/-! ## the steps -/

theorem finish_joinInv (h : JoinInv w) {i : Nat} {k : List Frame} (hk : w.stack = .child i :: k)
    (e : Option Exc) : JoinInv (w.finish i k e) := by
  have hact : 0 < w.activeChildren := h.active_of_running (by rw [hk]; exact List.mem_cons_self)
  have hj : joins w.log = [] := h.not_joined hact
  have halive : w.alive = true := h.alive_of_active hact
  have hnest : Nested k := by
    have hn := h.nested
    rw [hk] at hn
    exact hn.tail
  have hcomp : completions w.stack = completions k := by rw [hk, completions_child]
  have hkids := kids_complete h.toKids hk e
  have hfirst := h.failure hj
  have hdead : (w.countCompletion i k e).alive ≠ false := by
    rw [show (w.countCompletion i k e).alive = true from halive]
    exact fun h => by cases h
  have hfail : ((w.countCompletion i k e).child i).failure = e := by simp [World.countCompletion]
  have hjoins : joins (w.countCompletion i k e).log = [] := by
    simpa [World.countCompletion] using hj
  have hfails : failures (w.countCompletion i k e).log = failures w.log ++ e.toList := by
    simp [World.countCompletion]
  have hd : w.completionDepth + 1 = completions k + 1 := by rw [h.depth, hcomp]
  unfold World.finish
  rcases childCompleted_cases (w.countCompletion i k e) i with
    ⟨heq, hcase⟩ | ⟨x, hnone, hx, ⟨hr, -⟩ | ⟨hr, heq⟩⟩
  · -- not the first failure: the tail follows at once
    rw [heq]
    refine completionTail_join ?_ hd hjoins
    refine h.toCore.frame hkids hnest hcomp.symm rfl rfl rfl rfl rfl rfl rfl ?_
      (hjoins.trans hj.symm) ?_ fun ha => absurd ha hdead
    · rw [hfails]
      rcases hcase with hne | hnone
      · have hcons : failures w.log ≠ [] := fun hnil => by
          rw [show (w.countCompletion i k e).firstFailure = w.firstFailure from rfl, hfirst, hnil] at hne
          exact hne rfl
        exact List.head?_append_of_ne_nil _ hcons
      · rw [hfail] at hnone
        rw [hnone]
        simp
    · intro e' he'
      simp only [World.countCompletion, List.count_append, List.count_singleton]
      rw [if_neg]
      · rfl
      · rcases he' with ⟨j, rfl⟩ | rfl | rfl | rfl <;> simp
  · -- a stop requested before the first failure: not in these runs
    have hnil : failures w.log = [] := by
      rw [← List.head?_eq_none_iff, ← hfirst]
      exact hnone
    exact absurd hnil (h.requested.mp hr)
  · -- the first failure: the loop starts, and the completion waits below it
    rw [heq]
    rw [hfail] at hx
    subst hx
    have hnil : failures w.log = [] := by
      rw [← List.head?_eq_none_iff, ← hfirst]
      exact hnone
    have hstop := h.stopCalled
    rw [if_pos hnil] at hstop
    have hzero : completions k = 0 := hcomp ▸ h.unstopped hr
    refine ⟨⟨?_, ⟨⟨i, k, rfl⟩, hzero, hnest⟩, ?_, ?_, ?_, ?_, ?_, ?_, ?_, ?_, ?_, ?_, (fun h => by cases h),
      h.fault, fun ha => absurd ha hdead⟩, ?_, ?_⟩
    · exact hkids.frame (by simp [World.countCompletion]) rfl rfl rfl rfl
    · simpa [World.failFirst, World.emit, World.countCompletion] using h.children
    · simpa [World.failFirst, World.emit, World.countCompletion] using h.cont
    · intro _
      simp [World.failFirst, World.emit, World.countCompletion, hnil]
    · intro j
      simpa [World.failFirst, World.emit, World.countCompletion] using h.destroyed j
    · simpa [World.failFirst, World.emit, World.countCompletion] using h.resumed
    · simpa [World.failFirst, World.emit, World.countCompletion] using h.waiting
    · simpa [World.failFirst, World.emit, World.countCompletion] using h.once
    · simpa [World.failFirst, World.emit, World.countCompletion] using h.unjoined
    · simp [World.failFirst, World.emit, World.countCompletion, hstop]
    · simp [World.failFirst, World.emit, World.countCompletion]
    · simpa [World.failFirst, World.emit, World.countCompletion] using hd
    · simp [World.failFirst, World.emit, World.countCompletion, hj]

theorem join_joinInv (h : JoinInv w) {k : List Frame} (hk : w.stack = .user :: k)
    (hs : w.joinStarted = false) : JoinInv (w.join k) := by
  obtain ⟨hj, hsus⟩ := h.unjoined hs
  have hnest := h.nested
  rw [hk] at hnest
  have hcont : w.joinContinuation = false := by
    rw [← Bool.not_eq_true, h.cont, hs]
    exact fun hc => absurd hc.1 nofun
  have hres : w.log.count .resumed = 0 := by rw [h.resumed, if_pos hj]
  have hchildren : w.children = List.range w.started := by rw [h.children, if_pos hj]
  unfold World.join
  dsimp only
  split
  · -- nobody is active: no completion is on the stack either, and `join()` returns at once
    rename_i hz
    have hcomp : completions w.stack = 0 := by
      by_contra hne
      obtain ⟨i, hi⟩ := h.nested.running (by rw [hk]; rfl) (Nat.pos_of_ne_zero hne)
      have hpos := h.active_of_running hi
      omega
    refine finishJoin_inv (h.toKids.frame (fun _ => rfl) rfl rfl rfl rfl) h.nested hchildren hz hcomp
      rfl hcont hj (h.failure hj) ?_ (hres.trans hsus.symm) h.once h.stopCalled h.requested h.fault
      (h.depth.trans hcomp)
    intro i
    rw [h.destroyed i, if_neg (fun hc => hc.1 hj)]
  · rename_i hne
    have hcomp : completions w.stack = completions k := by rw [hk, completions_user]
    have hpos : 0 < w.activeChildren := Nat.pos_of_ne_zero hne
    refine ⟨⟨?_, hnest.2, ?_, ?_, ?_, ?_, ?_, ?_, ?_, nofun, ?_, ?_, ?_, h.fault, ?_⟩, ?_, ?_⟩
    · exact h.toKids.frame (by simp [World.emit, hk]) rfl rfl rfl rfl
    · simpa [World.emit] using h.children
    · simp [World.emit, hj]
    · simpa [World.emit] using h.failure
    · intro i
      simpa [World.emit] using h.destroyed i
    · simpa [World.emit, hj] using hres
    · simp [World.emit, hsus]
    · simp [World.emit, hsus]
    · simpa [World.emit] using h.stopCalled
    · simpa [World.emit] using h.requested
    · intro hr
      show completions k = 0
      rw [← hcomp]
      exact h.unstopped hr
    · intro ha
      have hz := (h.dead ha).2.1
      omega
    · show w.completionDepth = completions k
      rw [← hcomp]
      exact h.depth
    · simp [World.emit, hj, hne]

theorem stopRound_joinInv (h : JoinInv w) {q : StopKind} {k : List Frame}
    (hk : w.stack = .stop q :: k) : JoinInv (w.touch.stopRound k) := by
  have hnest := h.nested
  rw [hk] at hnest
  obtain ⟨⟨i, k', hbelow⟩, hnk⟩ := hnest
  -- a completion waits below the loop, so the scope is alive
  have halive : w.alive = true := by
    by_contra ha
    have hz := (h.dead ((Bool.not_eq_true _).mp ha)).2.2
    rw [hk, hbelow] at hz
    simp at hz
  have htouch : w.touch = w := by
    have hsame : (w.fault || !w.alive) = w.fault := by
      rw [halive]
      simp
    unfold World.touch
    rw [hsame]
  rw [htouch]
  unfold World.stopRound Cancel.Stops.pop
  cases hregs : w.stops.regs with
  | nil =>
    dsimp only
    refine h.frame (h.toKids.frame (by simp [hk]) rfl rfl rfl rfl) hnk ?_ rfl rfl rfl rfl rfl rfl rfl
      rfl rfl rfl rfl rfl fun _ _ => rfl
    rw [hk, completions_stop]
  | cons p ps =>
    obtain ⟨j, sync⟩ := p
    have hb : (w.child j).body = .suspended := h.regs (j, sync) (by rw [hregs]; exact List.mem_cons_self)
    have hkeys := h.keys
    rw [hregs, List.map_cons, List.nodup_cons] at hkeys
    have hps : ∀ p ∈ ps, p.1 ≠ j ∧ p ∈ w.stops.regs := fun p hp => by
      have hmem : p.1 ∈ ps.map Prod.fst := List.mem_map_of_mem hp
      refine ⟨fun he => hkeys.1 (he ▸ hmem), ?_⟩
      rw [hregs]
      exact List.mem_cons_of_mem _ hp
    dsimp only
    cases sync with
    | true =>
      refine h.frame ?_ ?_ ?_ rfl rfl rfl rfl rfl rfl rfl rfl rfl rfl ?_ ?_ ?_
      · exact kids_resume (w := w.emit (.invoked j)) (h.toKids.frame (fun _ => rfl) rfl rfl rfl rfl)
          hb hps hkeys.2
      · show Nested (.child j :: w.stack)
        refine ⟨fun m k'' he => ?_, h.nested⟩
        rw [hk] at he
        cases he
      · simp [World.resume, World.setBody, World.emit]
      · simp [World.resume, World.setBody, World.emit]
      · simp [World.resume, World.setBody, World.emit]
      · intro e he
        rcases he with ⟨m, rfl⟩ | rfl | rfl | rfl <;>
          simp [World.resume, World.setBody, World.emit]
    | false =>
      refine h.frame ?_ h.nested rfl rfl rfl rfl rfl rfl rfl rfl rfl rfl rfl ?_ ?_ ?_
      · exact ⟨h.running, h.completed, h.unborn, h.active, fun p hp => h.regs p (hps p hp).2, hkeys.2⟩
      · simp [World.emit]
      · simp [World.emit]
      · intro e he
        rcases he with ⟨m, rfl⟩ | rfl | rfl | rfl <;> simp [World.emit]

theorem spawn_joinInv (h : JoinInv w) (hf : foreign w.stack = true) (hal : w.alive = true)
    (hs : w.joinStarted = false) : JoinInv w.spawn := by
  obtain ⟨hjoin, hsus⟩ := h.unjoined hs
  have hcont : w.joinContinuation ≠ true := fun hc => by
    have hs' := (h.cont.mp hc).1
    rw [hs] at hs'
    cases hs'
  have hchildren := h.children
  rw [if_pos hjoin] at hchildren
  refine ⟨⟨kids_spawn h.toKids, h.nested.child hf _, ?_, ?_, ?_, ?_, ?_, ?_, ?_, ?_, ?_, ?_, ?_,
    h.fault, ?_⟩, ?_, ?_⟩
  · simp [World.spawn, hjoin, hchildren, List.range_succ]
  · simpa [World.spawn, World.setBody] using h.cont
  · simpa [World.spawn, World.setBody] using h.failure
  · intro i
    have hd := h.destroyed i
    rw [if_neg (fun hc => hc.1 hjoin)] at hd
    simp [World.spawn, hd, hjoin]
  · simpa [World.spawn] using h.resumed
  · exact fun hc => absurd hc hcont
  · simpa [World.spawn] using h.once
  · simpa [World.spawn, World.setBody] using h.unjoined
  · simpa [World.spawn] using h.stopCalled
  · simpa [World.spawn, World.setBody] using h.requested
  · simpa [World.spawn, World.setBody] using h.unstopped
  · intro hd
    rw [show w.alive = false from hd] at hal
    cases hal
  · simpa [World.spawn, World.setBody] using h.depth
  · simp [World.spawn, World.setBody, hjoin, hs]

/-- the completion on top of the stack goes on after its loop -/
theorem tail_joinInv (h : JoinInv w) {i : Nat} {k : List Frame} (hk : w.stack = .completion i :: k) :
    JoinInv { w.touch with stack := k }.completionTail := by
  have hnest := h.nested
  rw [hk] at hnest
  obtain ⟨hzero, hnk⟩ := hnest
  have hcomp : completions w.stack = completions k + 1 := by rw [hk, completions_completion]
  have hj : joins w.log = [] := by
    rw [h.joined, if_neg]
    omega
  have halive : w.alive = true := by
    by_contra hd
    have hz := (h.dead ((Bool.not_eq_true _).mp hd)).2.2
    omega
  refine completionTail_join ⟨?_, hnk, h.children, h.cont, h.failure, h.destroyed, h.resumed,
    h.waiting, h.once, h.unjoined, h.stopCalled, h.requested, fun _ => hzero, ?_, ?_⟩
    (by rw [← hcomp]; exact h.depth) hj
  · exact h.toKids.frame (by simp [hk]) rfl rfl rfl rfl
  · simp [World.touch, halive, h.fault]
  · intro hd
    rw [show w.alive = false from hd] at halive
    cases halive

/-- a scope without child frames is not inside a completion, and nobody is active in it -/
theorem JoinInv.idle (h : JoinInv w) (hf : foreign w.stack = true) (hch : w.children = []) :
    w.activeChildren = 0 ∧ completions w.stack = 0 := by
  by_cases hj : joins w.log = []
  · have hnone : w.started = 0 := by
      have hc := h.children
      rw [if_pos hj, hch] at hc
      exact List.range_eq_nil.mp hc.symm
    have hact : w.activeChildren = 0 := by
      rw [h.active]
      simp [uncompleted, hnone]
    refine ⟨hact, ?_⟩
    by_contra hne
    obtain ⟨i, hi⟩ := h.nested.running hf (Nat.pos_of_ne_zero hne)
    have hpos := h.active_of_running hi
    omega
  · -- the join has returned
    have hjoined := h.joined
    by_cases hc : w.joinStarted = true ∧ w.activeChildren = 0 ∧ completions w.stack = 0
    · exact hc.2
    · rw [if_neg hc] at hjoined
      exact absurd hjoined hj

theorem destroyScope_joinInv (h : JoinInv w) (hf : foreign w.stack = true)
    (hch : w.children = []) : JoinInv ({ w with alive := false }.emit .scopeDestroyed) := by
  refine ⟨h.toCore.frame (h.toKids.frame (fun _ => rfl) rfl rfl rfl rfl) h.nested rfl rfl rfl rfl rfl
    rfl rfl rfl ?_ ?_ (fun e he => ?_) (fun _ => ⟨hch, h.idle hf hch⟩), h.depth, ?_⟩
  · simp [World.emit]
  · simp [World.emit]
  · rcases he with ⟨m, rfl⟩ | rfl | rfl | rfl <;> simp [World.emit]
  · simpa [World.emit] using h.joined

/-- every step but an explicit stop keeps the invariant -/
theorem join_step_inv (h : JoinInv w) {w' : World} {a : Act} (ha : a ≠ .requestStop)
    (hs : step w a = some w') : JoinInv w' := by
  cases step_cases hs with
  | enter hf =>
    exact h.frame (h.toKids.frame (by simp) rfl rfl rfl rfl) ⟨hf, h.nested⟩ (by simp) rfl rfl rfl rfl
      rfl rfl rfl rfl rfl rfl rfl rfl fun _ _ => rfl
  | @ret f k hk hf =>
    have hnest := h.nested
    rw [hk] at hnest
    refine h.frame (h.toKids.frame (fun i => ?_) rfl rfl rfl rfl) hnest.tail ?_ rfl rfl rfl rfl
      rfl rfl rfl rfl rfl rfl rfl rfl fun _ _ => rfl
    · rcases hf with rfl | rfl <;> simp [hk]
    · rcases hf with rfl | rfl <;> simp [hk]
  | spawn hf hal hj => exact spawn_joinInv h hf hal hj
  | @suspend sy i k t hk ht =>
    have hnest := h.nested
    rw [hk] at hnest
    have hreq : t.requested = w.stops.requested := by rcases ht with rfl | ⟨_, rfl⟩ <;> rfl
    refine h.frame (kids_suspend h.toKids hk ht) hnest.tail ?_ rfl rfl rfl rfl rfl rfl hreq rfl rfl
      rfl rfl rfl fun _ _ => rfl
    show completions k = _
    rw [hk, completions_child]
  | @finish e i k hk => exact finish_joinInv h hk e
  | @resume i hf hb =>
    refine h.frame (kids_resume h.toKids hb (fun p hp => ?_) ?_) (h.nested.child hf i) ?_ rfl rfl rfl
      rfl rfl rfl rfl rfl rfl rfl rfl rfl fun _ _ => rfl
    · obtain ⟨hp, hne⟩ := List.mem_filter.mp hp
      exact ⟨by simpa using hne, hp⟩
    · exact (List.filter_sublist.map _).nodup h.keys
    · simp [World.resume, World.setBody]
  | @join k hk hal hj => exact join_joinInv h hk hj
  | requestStop hf hal => exact absurd rfl ha
  | @round q k hk => exact stopRound_joinInv h hk
  | @tail i k hk => exact tail_joinInv h hk
  | destroyScope hf hal hch => exact destroyScope_joinInv h hf hch

theorem joinInv_init : JoinInv {} where
  running := fun i => rfl
  completed := fun i => by simp
  unborn := fun i => by simp
  active := rfl
  regs := nofun
  keys := List.nodup_nil
  nested := trivial
  children := rfl
  cont := ⟨nofun, nofun⟩
  failure := fun _ => rfl
  destroyed := fun i => by simp
  resumed := rfl
  waiting := nofun
  once := by decide
  unjoined := fun _ => ⟨rfl, rfl⟩
  stopCalled := rfl
  requested := ⟨nofun, fun h => absurd rfl h⟩
  unstopped := fun _ => rfl
  fault := rfl
  dead := nofun
  depth := rfl
  joined := rfl

/-- **the invariant holds in every run without an explicit stop** -/
theorem join_run_inv {as : List Act} (h : sys.run sys.init as = some w)
    (ha : .requestStop ∉ as) : JoinInv w := by
  have hm : ∀ a ∈ as, a ≠ .requestStop := fun a hm he => ha (he ▸ hm)
  exact Sys.run_inv_meets (P := JoinInv) (fun _ _ _ hi hc hs => join_step_inv hi hc hs) joinInv_init
    (Sys.meets_of_forall hm) h

/-! ## the contract -/

/-- the completion that waited, with all children completed -/
theorem tick_completion (h : JoinInv w) (hs : w.joinStarted = true) (hz : w.activeChildren = 0)
    {i : Nat} {k : List Frame} (hk : w.stack = .completion i :: k) :
    ∃ v, step w .tick = some v ∧ joins v.log ≠ [] := by
  have hnest := h.nested
  rw [hk] at hnest
  have hcomp : completions w.stack = 1 := by rw [hk, completions_completion, hnest.1]
  have hj : joins w.log = [] := by
    rw [h.joined, if_neg]
    omega
  have hr : Resumes { w.touch with stack := k } :=
    ⟨hz, h.cont.mpr ⟨hs, hj⟩, by
      show w.completionDepth - 1 = 0
      rw [h.depth, hcomp]⟩
  have hstep : step w .tick = some { w.touch with stack := k }.completionTail := by
    simp only [step, hk]
  refine ⟨_, hstep, ?_⟩
  rw [completionTail_resumes hr]
  simp [World.finishJoin]

/-- When all children have completed, what is left of the scope on the stack unwinds by itself. -/
theorem unwinds_of_inv (h : JoinInv w) (hs : w.joinStarted = true) (hz : w.activeChildren = 0) :
    ∃ n v, sys.run w (List.replicate n .tick) = some v ∧ joins v.log ≠ [] := by
  by_cases hj : joins w.log = []
  · have hpos : 0 < completions w.stack := by
      by_contra hno
      have hjoined := h.joined
      rw [hj, if_pos ⟨hs, hz, by omega⟩] at hjoined
      cases hjoined
    have hlib : foreign w.stack = false := by
      rw [← Bool.not_eq_true]
      intro hf
      obtain ⟨i, hi⟩ := h.nested.running hf hpos
      have := h.active_of_running hi
      omega
    have hnest := h.nested
    cases hk : w.stack with
    | nil => rw [hk] at hlib; cases hlib
    | cons f k =>
      rw [hk] at hlib hnest
      cases f with
      | child i => cases hlib
      | user => cases hlib
      | joiner => cases hlib
      | completion i =>
        obtain ⟨v, hv, hjv⟩ := tick_completion h hs hz hk
        exact ⟨1, v, sys.run_of_step (w := w) (a := .tick) hv [], hjv⟩
      | stop q =>
        -- no child is suspended, so the loop is over
        have hregs : w.stops.regs = [] := by
          cases hr : w.stops.regs with
          | nil => rfl
          | cons p ps =>
            have hb := h.regs p (by rw [hr]; exact List.mem_cons_self)
            have hlt := h.lt_started (i := p.1) (by rw [hb]; exact fun h => by cases h)
            have := h.active_pos hlt
              (h.not_completed (by rw [hb]; exact fun h => by cases h) (by rw [hb]; exact fun h => by cases h))
            omega
        obtain ⟨⟨i, k', rfl⟩, -⟩ := hnest
        have hstep : step w .tick = some { w.touch with stack := .completion i :: k' } := by
          simp only [step, hk, World.stopRound, Cancel.Stops.pop]
          rw [show w.touch.stops.regs = [] from hregs]
        have hinv := join_step_inv h (a := .tick) (fun h => by cases h) hstep
        obtain ⟨v, hv, hjv⟩ := tick_completion hinv hs hz rfl
        refine ⟨2, v, ?_, hjv⟩
        have h1 := sys.run_of_step (w := w) (a := .tick) hstep [.tick]
        have h2 := sys.run_of_step (w := { w.touch with stack := .completion i :: k' }) (a := .tick) hv []
        exact h1.trans h2
  · exact ⟨0, w, rfl, hj⟩

end

/-- what holds in every state of a run without an explicit stop -/
structure JoinContract (w : World) : Prop where
  /-- the counter is the number of started, uncompleted children -/
  active : w.activeChildren = uncompleted w
  /-- `join()` returns once, as soon as it was called, all children have completed and no
  completion is on the stack; its result is the first failure in completion order -/
  joined : joins w.log = if w.joinStarted ∧ (∀ i, i < w.started → (w.child i).completed = true) ∧
    completions w.stack = 0 then [(failures w.log).head?] else []
  /-- a parent that suspended is resumed once, when `join()` returns -/
  resumed : w.log.count .joinSuspended ≤ 1 ∧
    w.log.count .resumed = if joins w.log = [] then 0 else w.log.count .joinSuspended
  /-- every frame is destroyed once, by the join -/
  destroyed : ∀ i, w.log.count (.destroyed i) = if joins w.log ≠ [] ∧ i < w.started then 1 else 0
  stopOnce : w.log.count .stopCalled ≤ 1
  noFault : w.fault = false
  /-- once all children have completed, the scope gets there without further foreign code -/
  unwinds : w.joinStarted = true → (∀ i, i < w.started → (w.child i).completed = true) →
    ∃ n v, sys.run w (List.replicate n .tick) = some v ∧ joins v.log ≠ []

/-- **The contract of `join()`**, in every state of every run without an explicit stop. -/
theorem join_contract {w : World} {as : List Act} (h : sys.run sys.init as = some w)
    (ha : .requestStop ∉ as) : JoinContract w := by
  have hi := join_run_inv h ha
  have hall : (∀ i, i < w.started → (w.child i).completed = true) ↔ w.activeChildren = 0 := by
    rw [hi.active, uncompleted_eq_zero]
  refine ⟨hi.active, ?_, ⟨hi.once, hi.resumed⟩, hi.destroyed, ?_, hi.fault, ?_⟩
  · simp only [hall]
    exact hi.joined
  · rw [hi.stopCalled]
    split <;> omega
  · intro hs hc
    exact unwinds_of_inv hi hs (hall.mp hc)

/-- Child 1 fails while a parent joins; the stop loop resumes child 0, which fails too, inside the
completion of child 1. -/
def siblingFailsInside : List Act :=
  [.enter, .spawn, .suspend (some true), .spawn, .suspend none, .join, .resume 1, .finish (some 7),
   .tick, .finish (some 8), .tick, .tick]

theorem join_contract_siblingFailsInside :
    ∃ w, sys.run sys.init siblingFailsInside = some w ∧ joins w.log = [some 7] ∧
      w.log.count .resumed = 1 ∧ JoinContract w :=
  ⟨_, rfl, rfl, rfl, join_contract (show sys.run sys.init siblingFailsInside = some _ from rfl)
    (by decide)⟩

end Scope
