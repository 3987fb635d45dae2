import Uvpp.Scope.Model

/-!
# Stopping a scope that is being joined

`child_completed` counts its own nesting, so a failure never resumes the parent under the stop
loop it started.  `task_scope::request_stop` counts nothing.

* `StopSafe`         while the loop of an explicit stop of a joined scope is on the stack, a step
                     neither resumes the parent nor destroys a frame or the scope;
* `OthersActive`     a child that ends under such a loop is not the last one;
* `stop_safe_iff`    the runs that are `StopSafe` are those with `OthersActive`;
* `stopped_last_child`   a run that is not.
-/

namespace Scope

/-- the events that a parent causes that is resumed from its join -/
def Event.unwinds : Event → Bool
  | .resumed | .destroyed _ | .joined _ | .scopeDestroyed => true
  | _ => false

/-- how often the parent was resumed and how much was destroyed so far -/
def unwound (w : World) : Nat := w.log.countP Event.unwinds

/-- the loop of an explicit stop, requested while a parent was waiting -/
abbrev joinedStop : Frame := .stop (.explicit true)

def StopSafe (w : World) (a : Act) : Prop :=
  joinedStop ∈ w.stack → ∀ w', step w a = some w' → unwound w' = unwound w

/-- under such a loop, whenever a child ends there is another active child -/
def OthersActive (w : World) (a : Act) : Prop :=
  joinedStop ∈ w.stack → ∀ e, a = .finish e → 2 ≤ w.activeChildren

instance (w : World) (a : Act) : Decidable (OthersActive w a) :=
  match a with
  | .finish e =>
    decidable_of_iff (joinedStop ∈ w.stack → 2 ≤ w.activeChildren)
      ⟨fun h hm _ _ => h hm, fun h hm => h hm e rfl⟩
  | .enter | .ret | .spawn | .suspend _ | .resume _ | .join | .requestStop | .tick
  | .destroyScope => isTrue fun _ _ => nofun

/-- what is kept by every step that is `OthersActive` -/
structure StopInv (w : World) : Prop where
  depth : w.completionDepth = completions w.stack
  unstopped : w.stops.requested = false →
    completions w.stack = 0 ∧ ∀ q, .stop q ∉ w.stack
  waits : w.joinContinuation = true →
    w.joinStarted = true ∧ (0 < w.activeChildren ∨ 0 < completions w.stack)
  held : w.activeChildren ≤ w.children.length
  joined : joinedStop ∈ w.stack →
    w.joinContinuation = true ∧ completions w.stack = 0 ∧ 0 < w.activeChildren

/-! ## what the parts of a completion do -/

section
variable {w : World}

theorem unwound_completionTail (h : Resumes w) : unwound w < unwound w.completionTail := by
  rw [completionTail_resumes h]
  simp only [unwound, World.finishJoin, World.emit, List.countP_append]
  have hone : List.countP Event.unwinds [Event.resumed] = 1 := rfl
  omega

/-- `completionTail` after the counter was decremented to the number of activations below -/
theorem completionTail_inv (hd : w.completionDepth = completions w.stack + 1)
    (hu : w.stops.requested = false → completions w.stack = 0 ∧ ∀ q, .stop q ∉ w.stack)
    (hw : w.joinContinuation = true → w.joinStarted = true)
    (hh : w.activeChildren ≤ w.children.length)
    (hj : joinedStop ∈ w.stack →
      w.joinContinuation = true ∧ completions w.stack = 0 ∧ 0 < w.activeChildren) :
    StopInv w.completionTail := by
  have hdepth : w.completionDepth - 1 = completions w.stack := by omega
  by_cases hr : Resumes w
  · rw [completionTail_resumes hr]
    obtain ⟨hact, -, hzero⟩ := hr
    refine ⟨?_, ?_, nofun, ?_, ?_⟩
    · simpa [World.finishJoin, World.emit] using hdepth
    · simpa [World.finishJoin, World.emit] using hu
    · simp [World.finishJoin, World.emit, hact]
    · intro hm
      have hm' : joinedStop ∈ w.stack := by simpa [World.finishJoin, World.emit] using hm
      have hpos := (hj hm').2.2
      omega
  · rw [completionTail_waits hr]
    refine ⟨hdepth, hu, fun hc => ⟨hw hc, ?_⟩, hh, hj⟩
    show 0 < w.activeChildren ∨ 0 < completions w.stack
    by_contra hno
    exact hr ⟨by omega, hc, by omega⟩

/-! ## every step keeps the invariant -/

/-- a step that changes neither the counters nor the loops on the stack -/
theorem StopInv.frame (h : StopInv w) {v : World} (hd : v.completionDepth = w.completionDepth)
    (hr : v.stops.requested = w.stops.requested) (hj : v.joinContinuation = w.joinContinuation)
    (hs : v.joinStarted = w.joinStarted) (ha : v.activeChildren = w.activeChildren)
    (hc : v.children = w.children) (hk : completions v.stack = completions w.stack)
    (hq : ∀ q, .stop q ∈ v.stack → .stop q ∈ w.stack) : StopInv v where
  depth := by rw [hd, hk]; exact h.depth
  unstopped := by
    rw [hr, hk]
    exact fun hn => ⟨(h.unstopped hn).1, fun q hm => (h.unstopped hn).2 q (hq q hm)⟩
  waits := by rw [hj, hs, ha, hk]; exact h.waits
  held := by rw [ha, hc]; exact h.held
  joined := by rw [hj, hk, ha]; exact fun hm => h.joined (hq _ hm)

theorem finish_inv (h : StopInv w) {i : Nat} {k : List Frame} (hk : w.stack = .child i :: k)
    (hc : joinedStop ∈ w.stack → 2 ≤ w.activeChildren) (e : Option Exc) :
    StopInv (w.finish i k e) := by
  have hcomp : completions w.stack = completions k := by rw [hk, completions_child]
  have hmem : ∀ q, .stop q ∈ k → .stop q ∈ w.stack := fun q hm => by
    rw [hk]
    exact List.mem_cons_of_mem _ hm
  have hd : w.completionDepth + 1 = completions k + 1 := by rw [h.depth, hcomp]
  have hu : w.stops.requested = false → completions k = 0 ∧ ∀ q, .stop q ∉ k := fun hr =>
    ⟨hcomp ▸ (h.unstopped hr).1, fun q hm => (h.unstopped hr).2 q (hmem q hm)⟩
  have hw : w.joinContinuation = true → w.joinStarted = true := fun hj => (h.waits hj).1
  have hh : w.activeChildren - 1 ≤ w.children.length := by
    have := h.held
    omega
  have hj : joinedStop ∈ k →
      w.joinContinuation = true ∧ completions k = 0 ∧ 0 < w.activeChildren - 1 := fun hm => by
    obtain ⟨h1, h2, -⟩ := h.joined (hmem _ hm)
    have h3 := hc (hmem _ hm)
    exact ⟨h1, hcomp ▸ h2, by omega⟩
  unfold World.finish
  rcases childCompleted_cases (w.countCompletion i k e) i with
    ⟨heq, -⟩ | ⟨x, -, -, ⟨-, heq⟩ | ⟨hr, heq⟩⟩
  · rw [heq]
    exact completionTail_inv hd hu hw hh hj
  · rw [heq]
    exact completionTail_inv hd hu hw hh hj
  · rw [heq]
    obtain ⟨hzero, hno⟩ := hu hr
    refine ⟨?_, nofun, fun hjc => ⟨hw hjc, Or.inr ?_⟩, hh, fun hm => ?_⟩
    · simp only [World.failFirst, World.emit, World.countCompletion, completions_stop,
        completions_completion]
      exact hd
    · simp
    · have hm' : joinedStop ∈ k := by simpa [World.countCompletion] using hm
      exact absurd hm' (hno _)

theorem join_inv (h : StopInv w) {k : List Frame} (hk : w.stack = .user :: k)
    (hj : w.joinStarted = false) : StopInv (w.join k) := by
  have hjc : w.joinContinuation = false := by
    rw [← Bool.not_eq_true]
    intro hc
    have hs := (h.waits hc).1
    rw [hj] at hs
    cases hs
  have hno : joinedStop ∉ w.stack := fun hm => by
    have hc := (h.joined hm).1
    rw [hjc] at hc
    cases hc
  unfold World.join
  dsimp only
  split
  · rename_i hact
    refine ⟨h.depth, h.unstopped, ?_, ?_, fun hm => absurd hm hno⟩
    · intro hc
      rw [show w.joinContinuation = true from hc] at hjc
      cases hjc
    · simp only [World.finishJoin, hact, Nat.zero_le]
  · rename_i hact
    have hcomp : completions w.stack = completions k := by rw [hk, completions_user]
    have hsub : ∀ q, .stop q ∈ k → .stop q ∈ w.stack := fun q hm => by
      rw [hk]
      exact List.mem_cons_of_mem _ hm
    refine ⟨?_, ?_, fun _ => ⟨rfl, Or.inl ?_⟩, h.held, fun hm => absurd (hsub _ hm) hno⟩
    · show w.completionDepth = completions k
      rw [← hcomp]
      exact h.depth
    · intro hr
      obtain ⟨hz, hn⟩ := h.unstopped hr
      exact ⟨hcomp ▸ hz, fun q hm => hn q (hsub q hm)⟩
    · show 0 < w.activeChildren
      exact Nat.pos_of_ne_zero hact

theorem requestStop_inv (h : StopInv w) : StopInv w.requestStop := by
  unfold World.requestStop Cancel.Stops.exchange
  cases hr : w.stops.requested with
  | true => exact h
  | false =>
    obtain ⟨hz, hn⟩ := h.unstopped hr
    refine ⟨?_, nofun, ?_, h.held, fun hm => ?_⟩
    · simpa using h.depth
    · simpa using h.waits
    · rcases List.mem_cons.mp hm with heq | hm
      · have hjc : w.joinContinuation = true := by
          injection heq with heq
          injection heq with heq
          exact heq.symm
        obtain ⟨-, hpos⟩ := h.waits hjc
        refine ⟨hjc, by simpa using hz, ?_⟩
        show 0 < w.activeChildren
        omega
      · exact absurd hm (hn _)

theorem stopRound_inv (h : StopInv w) {q : StopKind} {k : List Frame} (hk : w.stack = .stop q :: k) :
    StopInv (w.touch.stopRound k) := by
  have hcomp : completions w.stack = completions k := by rw [hk, completions_stop]
  unfold World.stopRound Cancel.Stops.pop
  cases hregs : w.stops.regs with
  | nil =>
    simp only [World.touch, hregs]
    refine h.frame rfl rfl rfl rfl rfl rfl hcomp.symm fun q' hm => ?_
    rw [hk]
    exact List.mem_cons_of_mem _ hm
  | cons p ps =>
    obtain ⟨i, sync⟩ := p
    simp only [World.touch, hregs]
    cases sync with
    | true =>
      refine h.frame rfl rfl rfl rfl rfl rfl ?_ fun q' hm => ?_
      · simp [World.resume, World.setBody, World.emit]
      · simpa [World.resume, World.setBody, World.emit] using hm
    | false => exact h.frame rfl rfl rfl rfl rfl rfl rfl fun _ hm => hm

/-- every step that is `OthersActive` keeps the invariant -/
theorem stop_step_inv (h : StopInv w) {w' : World} {a : Act} (hc : OthersActive w a)
    (hs : step w a = some w') : StopInv w' := by
  cases step_cases hs with
  | enter hf => exact h.frame rfl rfl rfl rfl rfl rfl (by simp) (by simp)
  | @ret f k hk hf =>
    have hcomp : completions w.stack = completions k := by
      rw [hk]
      rcases hf with rfl | rfl <;> simp
    refine h.frame rfl rfl rfl rfl rfl rfl hcomp.symm fun q hm => ?_
    rw [hk]
    exact List.mem_cons_of_mem _ hm
  | spawn hf ha hj =>
    have hjc : w.joinContinuation ≠ true := fun hc' => by
      have hs' := (h.waits hc').1
      rw [hj] at hs'
      cases hs'
    refine ⟨by simpa [World.spawn, World.setBody] using h.depth,
      by simpa [World.spawn, World.setBody] using h.unstopped, fun hc' => absurd hc' hjc, ?_, ?_⟩
    · simpa [World.spawn, World.setBody] using h.held
    · intro hm
      exact absurd (h.joined (by simpa [World.spawn, World.setBody] using hm)).1 hjc
  | @suspend s i k t hk ht =>
    have hcomp : completions w.stack = completions k := by rw [hk, completions_child]
    have hreq : t.requested = w.stops.requested := by rcases ht with rfl | ⟨_, rfl⟩ <;> rfl
    refine h.frame rfl hreq rfl rfl rfl rfl hcomp.symm fun q hm => ?_
    rw [hk]
    exact List.mem_cons_of_mem _ hm
  | @finish e i k hk => exact finish_inv h hk (fun hm => hc hm e rfl) e
  | @resume i hf hb =>
    refine h.frame rfl rfl rfl rfl rfl rfl ?_ fun q hm => ?_
    · simp [World.resume, World.setBody]
    · simpa [World.resume, World.setBody] using hm
  | @join k hk ha hj => exact join_inv h hk hj
  | requestStop hf ha => exact requestStop_inv h
  | @round q k hk => exact stopRound_inv h hk
  | @tail i k hk =>
    have hcomp : completions w.stack = completions k + 1 := by rw [hk, completions_completion]
    have hsub : ∀ q, .stop q ∈ k → .stop q ∈ w.stack := fun q hm => by
      rw [hk]
      exact List.mem_cons_of_mem _ hm
    refine completionTail_inv (by rw [← hcomp]; exact h.depth) ?_ (fun hj => (h.waits hj).1) h.held ?_
    · intro hr
      have hz := (h.unstopped hr).1
      omega
    · intro hm
      have hz := (h.joined (hsub _ hm)).2.1
      omega
  | destroyScope hf ha hch => exact h.frame rfl rfl rfl rfl rfl rfl rfl fun _ hm => hm

theorem stopInv_init : StopInv {} :=
  ⟨rfl, fun _ => ⟨rfl, nofun⟩, nofun, le_rfl, nofun⟩

/-! ## when the parent is resumed under the loop -/

/-- a child that ends under the loop while others are active resumes nobody -/
theorem finish_unwound (h : StopInv w) {i : Nat} {k : List Frame}
    (hm : joinedStop ∈ w.stack) (e : Option Exc) :
    unwound (w.finish i k e) = unwound w ↔ 2 ≤ w.activeChildren := by
  obtain ⟨hjc, hz, hpos⟩ := h.joined hm
  have hreq : w.stops.requested = true := by
    by_contra hr
    exact (h.unstopped ((Bool.not_eq_true _).mp hr)).2 _ hm
  have hdepth : w.completionDepth = 0 := h.depth.trans hz
  -- with the stop requested, both ways through `child_completed` end in `completionTail`
  obtain ⟨v, heq, hact, hjv, hdv, hlog⟩ : ∃ v : World, w.finish i k e = v.completionTail ∧
      v.activeChildren = w.activeChildren - 1 ∧ v.joinContinuation = true ∧
      v.completionDepth = 1 ∧ unwound v = unwound w := by
    unfold World.finish
    rcases childCompleted_cases (w.countCompletion i k e) i with
      ⟨heq, -⟩ | ⟨x, -, -, ⟨-, heq⟩ | ⟨hr, -⟩⟩
    · exact ⟨_, heq, rfl, hjc, by simp [World.countCompletion, hdepth],
        by simp [unwound, World.countCompletion, Event.unwinds]⟩
    · exact ⟨_, heq, rfl, hjc, by simp [World.countCompletion, World.failFirst, World.emit, hdepth],
        by simp [unwound, World.countCompletion, World.failFirst, World.emit, Event.unwinds]⟩
    · rw [show w.stops.requested = false from hr] at hreq
      cases hreq
  rw [heq, ← hlog]
  constructor
  · intro hsame
    by_contra hlast
    have hlt := unwound_completionTail (w := v) ⟨by omega, hjv, by omega⟩
    omega
  · intro htwo
    have hwait : ¬ Resumes v := fun hr => by
      have h0 := hr.1
      omega
    rw [completionTail_waits hwait]
    rfl

/-- one step is safe exactly if it leaves another child active -/
theorem stopSafe_iff_step (h : StopInv w) {w' : World} {a : Act} (hs : step w a = some w') :
    StopSafe w a ↔ OthersActive w a := by
  have hstep : StopSafe w a ↔ (joinedStop ∈ w.stack → unwound w' = unwound w) := by
    constructor
    · exact fun hsafe hm => hsafe hm w' hs
    · intro hsafe hm v hv
      rw [hs] at hv
      exact Option.some.inj hv ▸ hsafe hm
  rw [hstep]
  cases step_cases hs with
  | @finish e i k hk =>
    constructor
    · intro hsafe hm e' _
      exact (finish_unwound h hm e).mp (hsafe hm)
    · intro hc hm
      exact (finish_unwound h hm e).mpr (hc hm e rfl)
  | enter | ret | suspend | resume => exact ⟨fun _ _ _ => nofun, fun _ _ => rfl⟩
  | spawn hf ha hj =>
    exact ⟨fun _ _ _ => nofun, fun _ _ => by simp [unwound, World.spawn, Event.unwinds]⟩
  | @join k hk ha hj =>
    refine ⟨fun _ _ _ => nofun, fun _ hm => ?_⟩
    have hs' := (h.waits (h.joined hm).1).1
    rw [hj] at hs'
    cases hs'
  | requestStop hf ha =>
    refine ⟨fun _ _ _ => nofun, fun _ _ => ?_⟩
    unfold World.requestStop
    split <;> rfl
  | @round q k hk =>
    refine ⟨fun _ _ _ => nofun, fun _ _ => ?_⟩
    unfold World.stopRound
    split <;> simp [unwound, World.touch, World.resume, World.setBody, World.emit, Event.unwinds]
  | @tail i k hk =>
    refine ⟨fun _ _ _ => nofun, fun _ hm => ?_⟩
    have hz := (h.joined hm).2.1
    rw [hk, completions_completion] at hz
    omega
  | destroyScope hf ha hch =>
    refine ⟨fun _ _ _ => nofun, fun _ hm => ?_⟩
    have hpos := (h.joined hm).2.2
    have hheld := h.held
    rw [hch] at hheld
    simp at hheld
    omega

/-- **The runs in which an explicit stop of a joined scope is safe** are those in which every
child that ends under its loop leaves another child active. -/
theorem stop_safe_iff {as : List Act} (h : sys.run sys.init as = some w) :
    sys.Meets StopSafe sys.init as ↔ sys.Meets OthersActive sys.init as := by
  refine Sys.meets_iff (I := StopInv) ?_ stopInv_init h
  intro v a v' hi hs
  have hiff := stopSafe_iff_step hi hs
  exact ⟨hiff, fun hsafe => stop_step_inv hi (hiff.mp hsafe) hs⟩

end

/-- Two children are stopped while a parent joins: the first one stopped ends at once, the other
one only starts its cancellation and ends later. -/
def stoppedOneByOne : List Act :=
  [.enter, .spawn, .suspend (some false), .spawn, .suspend (some true), .join, .enter,
   .requestStop, .tick, .finish none, .tick, .tick, .ret, .resume 0, .finish none]

theorem stop_safe_iff_stoppedOneByOne :
    (∃ w, sys.run sys.init stoppedOneByOne = some w ∧ .resumed ∈ w.log) ∧
      sys.Meets StopSafe sys.init stoppedOneByOne :=
  ⟨⟨_, rfl, by decide⟩,
    (stop_safe_iff (show sys.run sys.init stoppedOneByOne = some _ from rfl)).mpr (by decide)⟩

/-- One child is stopped while a parent joins, and ends inside its stop callback. -/
def stoppedLastChild : List Act :=
  [.enter, .spawn, .suspend (some true), .join, .enter, .requestStop, .tick, .finish none]

/-- The parent is resumed, and the frame of the child destroyed, under the loop of the stop; when
the parent then destroys the scope, the loop goes on in a destroyed scope. -/
theorem stopped_last_child : ∃ w v, sys.run sys.init stoppedLastChild = some w ∧
    w.stack = [.joiner, joinedStop, .user] ∧ .destroyed 0 ∈ w.log ∧
    ¬ sys.Meets StopSafe sys.init stoppedLastChild ∧
    sys.run w [.destroyScope, .ret, .tick] = some v ∧ v.fault = true := by
  refine ⟨_, _, rfl, rfl, by decide, ?_, rfl, rfl⟩
  intro hsafe
  have hlast := hsafe.2 _ rfl |>.2 _ rfl |>.2 _ rfl |>.2 _ rfl |>.2 _ rfl |>.2 _ rfl |>.2 _ rfl |>.1
  exact absurd (hlast (by decide) _ rfl) (by decide)

end Scope
