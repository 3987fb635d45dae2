import Uvpp.Spawn.Project

/-!
# The state of a root under the loop of its `request_stop`

`spawn_handle::request_stop()` enters the loop of the root's cancellation state through a plain
reference: neither the call nor the loop holds a reference of its own.  `release()` makes the same
call with a local reference on its stack.

* `Guarded`, `release_loop_live`   the loop entered by `release()` always runs on a live state;
* `StopSafe`            no loop entered by `request_stop()` has lost its state, and no state was used
                        after its destruction;
* `LeavesReference`     a step that gives up a reference to a root whose handle's `request_stop()` is
                        on the stack leaves one;
* `request_stop_safe_iff`   **a run is safe in all its states exactly when its steps meet that**;
* `stopped_and_dropped`     the root, resumed by its stop callback, destroys its handle and ends.
-/

namespace Spawn

/-! ## the loop entered by `release()` -/

/-- the loop entered by a `release()` runs right above the rest of that `release()` -/
def Guarded : List Frame → Prop
  | [] => True
  | .stopLoop r .release :: k => k.head? = some (.releaseEnd r) ∧ Guarded k
  | _ :: k => Guarded k

theorem Guarded.tail {f : Frame} {k : List Frame} (h : Guarded (f :: k)) : Guarded k := by
  cases f with
  | stopLoop r v =>
    cases v with
    | handle => exact h
    | release => exact h.2
  | _ => exact h

theorem Guarded.mem {r : Nat} {k : List Frame} (h : Guarded k)
    (hm : Frame.stopLoop r .release ∈ k) : Frame.releaseEnd r ∈ k := by
  induction k with
  | nil => cases hm
  | cons f k ih =>
    rcases List.mem_cons.mp hm with rfl | hm
    · exact List.mem_cons_of_mem _ (List.mem_of_mem_head? h.1)
    · exact List.mem_cons_of_mem _ (ih h.tail hm)

theorem guarded_report {w : World} (h : Guarded w.stack) (r : Nat) : Guarded (w.report r).stack := by
  rcases report_stack w r with he | ⟨c, he⟩ <;> rw [he]
  · exact h
  · exact h

theorem guarded_release {w : World} (h : Guarded w.stack) (n : Nat) :
    Guarded (w.release n).stack := by
  cases hh : w.handle n with
  | none => simpa [World.release, hh] using h
  | some r =>
    rcases release_stack w hh with he | he | ⟨c, he⟩ <;> rw [he]
    · exact h
    · exact ⟨rfl, h⟩
    · exact h

theorem step_guarded {w w' : World} {a : Act} (h : Guarded w.stack) (hs : step w a = some w') :
    Guarded w'.stack := by
  have hpop {f : Frame} {k : List Frame} (hk : w.stack = f :: k) : Guarded k :=
    Guarded.tail (hk ▸ h)
  cases step_cases hs with
  | enter | spawn | resume | join | moveConstruct | setHandler => exact h
  | userRet hk | handlerRet hk | suspend hk | userAwait hk | rootAwait hk | spawning hk =>
    exact hpop hk
  | finish hk =>
    have hrest := hpop hk
    exact hrest
  | observe hf hh hc =>
    unfold World.observe
    split <;> exact h
  | @requestStop n r hf hh =>
    rcases requestStop_stack w r .handle with he | he <;> rw [he] <;> exact h
  | dropAwaiter hf ha =>
    rw [World.dropAwaiter, (drop_rest _ _ _).2.1]
    exact h
  | moveAssign | destroyHandle => exact guarded_release (by exact h) _
  | stopRound hk =>
    unfold World.stopRound
    dsimp only
    split
    · exact hpop hk
    · exact h
  | releaseEnd hk =>
    rw [World.dropToken, (drop_rest _ _ _).2.1]
    exact hpop hk
  | assignEnd hk =>
    rw [World.assign, (discard_rest _ _ _).2]
    exact hpop hk
  | destroyEnd hk =>
    rw [World.endDestroy, (discard_rest _ _ _).2]
    exact hpop hk
  | @deliver r rest k hk =>
    have hrest := hpop hk
    unfold World.deliver
    split
    · exact hrest
    · dsimp only
      split
      · exact guarded_report (w := { w with stack := .batonEnd r :: k }) hrest r
      · exact hrest
  | batonEnd hk =>
    rw [World.dropBaton, (drop_rest _ _ _).2.1]
    exact hpop hk

/-! ## references and states -/

section
variable {w w' : World} {a : Act} {r : Nat}

theorem Base.alive (h : Base w) : (w.root r).alive = true ↔ 0 < (w.root r).refs := (h.refs r).alive

theorem Base.alive_of_handle (h : Base w) {n : Nat} (hh : w.handle n = some r) :
    (w.root r).alive = true := by
  have hheld : 0 < (life w r).handles := held_pos (h.wf.made hh) hh
  exact h.alive.mpr (Root.refs_pos_of_token ((h.refs r).held (by omega)))

/-- the loop entered by `release()` always runs on a live state -/
theorem release_loop_live (h : Base w) (hg : Guarded w.stack)
    (hm : Frame.stopLoop r .release ∈ w.stack) : (w.root r).alive = true := by
  have hrel : 0 < (life w r).releasing := List.count_pos_iff.mpr (hg.mem hm)
  exact h.alive.mpr (Root.refs_pos_of_token ((h.refs r).held (by omega)))

/-- a state stays alive as long as no reference to it is given up -/
theorem step_alive (h : Base w) (hs : step w a = some w') (hg : gives w a ≠ some r)
    (ha : (w.root r).alive = true) : (w'.root r).alive = true := by
  refine (step_life h.wf hs r).inv (P := fun l => l.root.alive = true) ?_ ha
  intro l m l' hl hm hstep
  refine (alive_step ?_ hstep).1 hl
  cases hd : m.drops with
  | false => rfl
  | true => exact absurd (hm.drops hd) hg

theorem collect_refs (w : World) (q : Nat) : ((w.collect q).root r).refs = (w.root r).refs := by
  unfold World.collect
  split
  · split
    · rcases eq_or_ne r q with rfl | hne
      · simp [World.setRoot, World.emit, Root.refs]
      · simp [World.setRoot, World.emit, hne]
    · rfl
  · rfl

/-- the steps that give up a reference to `r`: one less, and the loops below are still there -/
theorem step_gives (h : Base w) (hs : step w a = some w') (hg : gives w a = some r) :
    (w'.root r).refs + 1 = (w.root r).refs ∧
      ∀ v, Frame.stopLoop r v ∈ w.stack → Frame.stopLoop r v ∈ w'.stack := by
  have htoken : 0 < (life w r).spawning + (life w r).handles + (life w r).releasing →
      (w.root r).token = true := (h.refs r).held
  have hpop {f : Frame} {k : List Frame} (hk : w.stack = f :: k) (hf : ∀ v, Frame.stopLoop r v ≠ f) :
      ∀ v, Frame.stopLoop r v ∈ w.stack → Frame.stopLoop r v ∈ k := by
    rw [hk]
    exact fun v hv => (List.mem_cons.mp hv).resolve_left (hf v)
  have hdrop {v : World} (hroot : v.root = w.root) (ht : (w.root r).token = true) :
      ((v.dropToken r).root r).refs + 1 = (w.root r).refs := by
    rw [World.dropToken, collect_refs]
    simp only [World.setRoot, Function.update_self, Root.refs, hroot, ht]
    simp
    omega
  cases step_cases hs with
  | dropAwaiter hf ha =>
    cases hg
    rw [World.dropAwaiter, collect_refs, (drop_rest _ _ _).2.1]
    refine ⟨?_, fun v hv => hv⟩
    simp only [World.setRoot, Function.update_self, Root.refs]
    omega
  | @releaseEnd q k hk =>
    obtain rfl : q = r := by simpa [gives, hk] using hg
    have hrel : 0 < (life w q).releasing := by simp [life, hk]
    refine ⟨hdrop rfl (htoken (by omega)), ?_⟩
    rw [World.dropToken, (drop_rest _ _ _).2.1]
    exact hpop hk (by simp)
  | @assignEnd dst src k hk =>
    have hh : w.handle dst = some r := by simpa [gives, hk] using hg
    have hheld : 0 < (life w r).handles := held_pos (h.wf.made hh) hh
    rw [World.assign, (discard_rest _ _ _).2, discard_some (w := { w with stack := k }) hh]
    exact ⟨hdrop rfl (htoken (by omega)), hpop hk (by simp)⟩
  | @destroyEnd n k hk =>
    have hh : w.handle n = some r := by simpa [gives, hk] using hg
    have hheld : 0 < (life w r).handles := held_pos (h.wf.made hh) hh
    rw [World.endDestroy, (discard_rest _ _ _).2, discard_some (w := { w with stack := k }) hh]
    exact ⟨hdrop rfl (htoken (by omega)), hpop hk (by simp)⟩
  | @batonEnd q k hk =>
    obtain rfl : q = r := by simpa [gives, hk] using hg
    have hbaton := ((h.refs q).delivering (by simp [life, hk])).1
    rw [World.dropBaton, collect_refs, (drop_rest _ _ _).2.1]
    refine ⟨?_, hpop hk (by simp)⟩
    have hb : (w.root q).batonRef = true := hbaton
    simp only [World.setRoot, Function.update_self, Root.refs, hb]
    simp
    omega
  | stopRound hk | deliver hk | spawning hk => simp [gives, hk] at hg
  | _ => cases hg

/-! ## `request_stop()` of a handle -/

/-- no loop entered by `request_stop()` has lost its state, and no destroyed state was used -/
structure StopSafe (w : World) : Prop where
  live : ∀ r, Frame.stopLoop r .handle ∈ w.stack → (w.root r).alive = true
  unused : w.fault = false

/-- the step leaves a reference to a root whose handle's `request_stop()` is on the stack -/
def LeavesReference (w : World) (a : Act) : Prop :=
  ∀ r ∈ gives w a, Frame.stopLoop r .handle ∈ w.stack → 2 ≤ (w.root r).refs

instance (w : World) (a : Act) : Decidable (LeavesReference w a) :=
  inferInstanceAs (Decidable (∀ r ∈ gives w a, _))

/-- `request_stop()` of a handle is the only way into such a loop -/
theorem step_stopLoop (hs : step w a = some w') (hm : Frame.stopLoop r .handle ∈ w'.stack) :
    Frame.stopLoop r .handle ∈ w.stack ∨ ∃ n, a = .requestStop n ∧ w.handle n = some r := by
  rcases step_mem hs hm with hold | hnew
  · exact Or.inl hold
  · cases hnew with
    | requestStop ha hn => exact Or.inr ⟨_, ha, hn⟩

/-- a round of a stop loop is the only use of a state that may be gone -/
theorem step_fault (hs : step w a = some w') : w'.fault = w.fault ∨
    ∃ r v, Frame.stopLoop r v ∈ w.stack ∧ w'.fault = (w.fault || !(w.root r).alive) := by
  cases step_cases hs with
  | observe hf hh hc =>
    unfold World.observe
    split <;> exact Or.inl rfl
  | @requestStop n r hf hh => exact Or.inl (requestStop_rest w r .handle).1.fault
  | dropAwaiter hf ha => exact Or.inl (drop_rest w _ _).1.fault
  | @moveAssign dst src hf hne hd =>
    exact Or.inl (release_rest (w.push (.assignEnd dst src)) dst).fault
  | @destroyHandle n hf hd => exact Or.inl (release_rest (w.push (.destroyEnd n)) n).fault
  | @stopRound r v k hk =>
    refine Or.inr ⟨r, v, by rw [hk]; exact List.mem_cons_self .., ?_⟩
    unfold World.stopRound
    dsimp only
    split <;> rfl
  | @releaseEnd r k | @batonEnd r k => exact Or.inl (drop_rest { w with stack := k } r _).1.fault
  | assignEnd | destroyEnd => exact Or.inl (discard_rest _ _ _).1.fault
  | @deliver r rest k hk =>
    unfold World.deliver
    split
    · exact Or.inl rfl
    · dsimp only
      split
      · exact Or.inl (report_rest { w with stack := .batonEnd r :: k } r).fault
      · exact Or.inl rfl
  | _ => exact Or.inl rfl

structure StopInv (w : World) : Prop where
  base : Base w
  guarded : Guarded w.stack
  safe : StopSafe w

theorem StopInv.loop_live (h : StopInv w) {v : Via} (hm : Frame.stopLoop r v ∈ w.stack) :
    (w.root r).alive = true := by
  cases v with
  | handle => exact h.safe.live r hm
  | release => exact release_loop_live h.base h.guarded hm

theorem StopInv.unused_step (h : StopInv w) (hs : step w a = some w') : w'.fault = false := by
  rcases step_fault hs with he | ⟨r, v, hm, he⟩ <;> rw [he, h.safe.unused]
  rw [h.loop_live hm]
  rfl

theorem step_stopInv (h : StopInv w) (hs : step w a = some w') :
    (LeavesReference w a → StopInv w') ∧ (StopSafe w' → LeavesReference w a) := by
  have hbase := step_base h.base hs
  constructor
  · intro hc
    refine ⟨hbase, step_guarded h.guarded hs, fun r hm => ?_, h.unused_step hs⟩
    by_cases hg : gives w a = some r
    · obtain ⟨hrefs, -⟩ := step_gives h.base hs hg
      rcases step_stopLoop hs hm with hold | ⟨n, rfl, hn⟩
      · have := hc r hg hold
        exact hbase.alive.mpr (by omega)
      · cases hg
    · refine step_alive h.base hs hg ?_
      rcases step_stopLoop hs hm with hold | ⟨n, rfl, hn⟩
      · exact h.safe.live r hold
      · exact h.base.alive_of_handle hn
  · intro hsafe r hg hm
    obtain ⟨hrefs, hkeep⟩ := step_gives h.base hs hg
    have hpos := hbase.alive.mp (hsafe.live r (hkeep .handle hm))
    omega

theorem request_stop_safe_iff {c : Option Handler} {as : List Act}
    (hr : (sys c).run (sys c).init as = some w) :
    (sys c).Always StopSafe (sys c).init as ↔ (sys c).Meets LeavesReference (sys c).init as := by
  refine Sys.always_iff_meets (I := StopInv) (fun _ h => h.safe)
    (fun _ _ _ h hs => step_stopInv h hs) ?_ hr
  exact ⟨base_init c, trivial, nofun, rfl⟩

end

/-- `request_stop()` resumes the root in its stop callback; the root ends, the loop returns, and
only then the handle is destroyed -/
def stopThenDestroy : List Act :=
  [.spawn 0, .suspend true, .tick, .requestStop 0, .tick, .resume 0, .finish none, .tick, .tick,
    .ret, .tick, .destroyHandle 0, .tick, .tick]

theorem request_stop_safe_iff_stopThenDestroy :
    ∃ w, (sys none).run (sys none).init stopThenDestroy = some w ∧
      w.stack = [] ∧ w.log = [.completed 0 none, .frameDestroyed 0] ∧
      (sys none).Always StopSafe (sys none).init stopThenDestroy :=
  ⟨_, rfl, rfl, rfl,
    (request_stop_safe_iff (show (sys none).run (sys none).init stopThenDestroy = some _ from rfl)).mpr
      (by decide)⟩

/-- the root, resumed by its stop callback, destroys its own handle and ends -/
def stopAndDrop : List Act :=
  [.spawn 0, .suspend true, .tick, .requestStop 0, .tick, .resume 0, .destroyHandle 0, .tick, .tick,
    .finish none, .tick, .tick]

/-- **`request_stop()` of a handle goes on with a destroyed cancellation state**: the handle and the
baton drop the last references below it, and its loop then reads the list of the destroyed state -/
theorem stopped_and_dropped :
    (∃ w, (sys none).run (sys none).init stopAndDrop = some w ∧
      Frame.stopLoop 0 .handle ∈ w.stack ∧ (w.root 0).alive = false) ∧
    ∃ w, (sys none).run (sys none).init (stopAndDrop ++ [.ret, .tick]) = some w ∧ w.fault = true :=
  ⟨⟨_, rfl, by decide, rfl⟩, ⟨_, rfl, rfl⟩⟩

end Spawn
