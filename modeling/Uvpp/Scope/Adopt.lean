import Mathlib.Data.List.Count
import Mathlib.Data.List.Nodup
import Uvpp.Scope.Model

/-!
# `task_scope::spawn` and the owners of a frame

The frame of a child passes from the task object of the caller to a raw handle, to a `child_record`
and to the vector of the scope (`co/task_scope.hpp`).  Two of these steps allocate.

* `Family`             the children of a scope and the frames that `finish_join` destroyed;
* `Site`, `spawn`      the scope, the task objects of the program, and `spawn` with its allocations;
* `Inv`                every frame has one owner;
* `spawn_contract`     the runs in which no frame is lost: those that can allocate the records;
* `lost_frame`         what happens when one cannot be allocated.
-/

namespace Scope

/-! ## The children of a scope -/

/-- how often `finish_join` destroyed the child `i` -/
def destroyedChild (w : World) (i : Nat) : Nat := w.log.count (.destroyed i)

/-- The frames of the children exist, and those of the other started ones were destroyed once. -/
structure Family (w : World) : Prop where
  nodup : w.children.Nodup
  mem : ∀ i ∈ w.children, i < w.started ∧ destroyedChild w i = 0
  gone : ∀ i, i < w.started → i ∉ w.children → destroyedChild w i = 1
  unborn : ∀ i, w.started ≤ i → destroyedChild w i = 0

section
variable {w v : World}

/-- a step that leaves the children alone -/
theorem Family.frame (h : Family w) (hc : v.children = w.children) (hs : v.started = w.started)
    (hd : ∀ i, destroyedChild v i = destroyedChild w i) : Family v where
  nodup := hc ▸ h.nodup
  mem i hi := by
    rw [hs, hd]
    exact h.mem i (hc ▸ hi)
  gone i hi hn := by
    rw [hd]
    exact h.gone i (hs ▸ hi) (hc ▸ hn)
  unborn i hi := by
    rw [hd]
    exact h.unborn i (hs ▸ hi)

theorem destroyedChild_append {l : List Event} (hl : v.log = w.log ++ l) (i : Nat) :
    destroyedChild v i = destroyedChild w i + l.count (.destroyed i) := by
  unfold destroyedChild
  rw [hl, List.count_append]

/-- an event that destroys nothing -/
theorem Family.event (h : Family w) {e : Event} (he : ∀ i, e ≠ .destroyed i)
    (hc : v.children = w.children) (hs : v.started = w.started) (hl : v.log = w.log ++ [e]) :
    Family v := by
  refine h.frame hc hs fun i => ?_
  rw [destroyedChild_append hl, List.count_singleton, if_neg]
  · rfl
  · simpa using he i

theorem count_map_destroyed (l : List Nat) (i : Nat) : (l.map Event.destroyed).count (.destroyed i) = l.count i :=
  List.count_map_of_injective l Event.destroyed (fun _ _ h => Event.destroyed.inj h) i

theorem Family.finishJoin (h : Family w) : Family w.finishJoin := by
  have hcount : ∀ i, destroyedChild w.finishJoin i = destroyedChild w i + w.children.count i := by
    intro i
    have hlog : w.finishJoin.log = w.log ++ (w.children.map .destroyed ++ [.joined w.firstFailure]) :=
      List.append_assoc _ _ _
    rw [destroyedChild_append hlog, List.count_append, count_map_destroyed, List.count_singleton,
      if_neg (by simp)]
    rfl
  refine ⟨List.nodup_nil, nofun, fun i hi _ => ?_, fun i hi => ?_⟩
  · rw [hcount]
    by_cases hm : i ∈ w.children
    · rw [(h.mem i hm).2, List.count_eq_one_of_mem h.nodup hm]
    · rw [h.gone i hi hm, List.count_eq_zero_of_not_mem hm]
  · have hm : i ∉ w.children := fun hm => Nat.not_lt.mpr hi (h.mem i hm).1
    rw [hcount, h.unborn i hi, List.count_eq_zero_of_not_mem hm]

theorem Family.completionTail (h : Family w) : Family w.completionTail := by
  have hdepth : Family { w with completionDepth := w.completionDepth - 1 } :=
    h.frame rfl rfl fun _ => rfl
  unfold World.completionTail
  dsimp only
  split
  · refine Family.finishJoin ?_
    exact hdepth.event (e := .resumed) nofun rfl rfl rfl
  · exact hdepth

theorem Family.finish (h : Family w) {i : Nat} {k : List Frame} {e : Option Exc} :
    Family (w.finish i k e) := by
  have hcount : Family (w.countCompletion i k e) :=
    h.event (e := .completed i e) nofun rfl rfl rfl
  unfold World.finish World.childCompleted
  split
  · rename_i x hnone hx
    have hfail : Family ((w.countCompletion i k e).failFirst x) :=
      hcount.event (e := .stopCalled) nofun rfl rfl rfl
    unfold World.stopSiblings
    split
    · exact hfail.frame rfl rfl fun _ => rfl
    · exact hfail.completionTail
  · exact hcount.completionTail

theorem Family.spawn (h : Family w) : Family w.spawn := by
  have hd : ∀ i, destroyedChild w.spawn i = destroyedChild w i := by
    intro i
    have hlog : w.spawn.log = w.log ++ [.spawned w.started] := rfl
    rw [destroyedChild_append hlog]
    rfl
  refine ⟨?_, fun i hi => ?_, fun i hi hn => ?_, fun i hi => ?_⟩
  · show (w.children ++ [w.started]).Nodup
    rw [List.nodup_append]
    refine ⟨h.nodup, List.nodup_singleton _, fun a ha b hb hab => ?_⟩
    rw [List.mem_singleton.mp hb] at hab
    exact Nat.lt_irrefl _ (hab ▸ (h.mem a ha).1)
  · rw [hd]
    rcases List.mem_append.mp hi with hi | hi
    · exact ⟨Nat.lt_succ_of_lt (h.mem i hi).1, (h.mem i hi).2⟩
    · rw [List.mem_singleton.mp hi]
      exact ⟨Nat.lt_succ_self _, h.unborn _ (Nat.le_refl _)⟩
  · rw [hd]
    have hne : i ≠ w.started := fun heq => hn (heq ▸ List.mem_append_right _ List.mem_cons_self)
    have hlt : i < w.started := Nat.lt_of_le_of_ne (Nat.le_of_lt_succ hi) hne
    exact h.gone i hlt fun hm => hn (List.mem_append_left _ hm)
  · rw [hd]
    exact h.unborn i (Nat.le_of_succ_le hi)

theorem Family.step (h : Family w) {a : Act} (hs : step w a = some v) : Family v := by
  cases step_cases hs with
  | enter | ret | suspend | resume => exact h.frame rfl rfl fun _ => rfl
  | spawn hf ha hj => exact h.spawn
  | finish hk => exact h.finish
  | join hk ha hj =>
    unfold World.join
    dsimp only
    split
    · refine Family.finishJoin ?_
      exact h.frame rfl rfl fun _ => rfl
    · exact h.event (e := .joinSuspended) nofun rfl rfl rfl
  | requestStop hf ha =>
    unfold World.requestStop
    split
    · exact h.frame rfl rfl fun _ => rfl
    · exact h
  | round hk =>
    unfold World.stopRound
    split
    · exact h.frame rfl rfl fun _ => rfl
    · rename_i i t hp
      exact h.event (e := .invoked i) nofun rfl rfl rfl
    · rename_i i t hp
      exact h.event (e := .invoked i) nofun rfl rfl rfl
  | tail hk =>
    refine Family.completionTail ?_
    exact h.frame rfl rfl fun _ => rfl
  | destroyScope hf ha hc => exact h.event (e := .scopeDestroyed) nofun rfl rfl rfl

theorem completionTail_started : w.completionTail.started = w.started := by
  unfold World.completionTail
  dsimp only
  split <;> rfl

theorem finish_started {i : Nat} {k : List Frame} {e : Option Exc} :
    (w.finish i k e).started = w.started := by
  unfold World.finish World.childCompleted
  split
  · unfold World.stopSiblings
    split
    · rfl
    · exact completionTail_started
  · exact completionTail_started

/-- only `spawn` starts a child -/
theorem step_started {a : Act} (ha : a ≠ .spawn) (hs : Scope.step w a = some v) :
    v.started = w.started := by
  cases step_cases hs with
  | enter hf => rfl
  | ret hk hf => rfl
  | spawn hf hal hj => exact absurd rfl ha
  | suspend hk ht => rfl
  | finish hk => exact finish_started
  | resume hf hb => rfl
  | join hk hal hj =>
    unfold World.join
    dsimp only
    split <;> rfl
  | requestStop hf hal =>
    unfold World.requestStop
    split <;> rfl
  | round hk =>
    unfold World.stopRound
    split <;> rfl
  | tail hk => exact completionTail_started
  | destroyScope hf hal hc => rfl

end

end Scope

/-! ## Task objects and `spawn` -/

namespace Adopt
open Scope (Family destroyedChild foreign)

/-- what `spawn` throws -/
inductive Error where
  /-- cannot spawn after join -/
  | joined
  /-- requires a valid task -/
  | invalid
  /-- the task has already been started -/
  | started
  | badAlloc
deriving DecidableEq

/-- the allocations in `spawn`: of the record, and in `push_back` -/
structure Allocs where
  record : Bool := true
  push : Bool := true
deriving DecidableEq

/-- A scope and the task objects of the program; frames are numbered in the order in which they are
made. -/
structure Site where
  scope : Scope.World := {}
  /-- `handle_` of a task object -/
  task : Nat → Option Nat := fun _ => none
  frames : Nat := 0
  /-- the execution loop of a frame is set -/
  bound : Nat → Bool := fun _ => false
  /-- `handle` in the record of a child -/
  record : Nat → Option Nat := fun _ => none
  /-- how often a frame was destroyed outside of `finish_join` -/
  dropped : Nat → Nat := fun _ => 0
  /-- what the calls of `spawn` threw -/
  threw : List Error := []

namespace Site

def destroy (s : Site) (f : Nat) : Site :=
  { s with dropped := Function.update s.dropped f (s.dropped f + 1) }

def release (s : Site) (t : Nat) : Site := { s with task := Function.update s.task t none }

/-- the part of `spawn` in its `try` block -/
def adopt (s : Site) (f : Nat) (push : Bool) : Site × Option Error :=
  if s.bound f then (s.destroy f, some .started)
  else
    let s := { s with bound := Function.update s.bound f true }
    if !push then (s.destroy f, some .badAlloc)
    else
      ({ s with
          record := Function.update s.record s.scope.started (some f)
          scope := s.scope.spawn }, none)

def spawn (s : Site) (t : Nat) (a : Allocs) : Site × Option Error :=
  if s.scope.joinStarted then (s, some .joined)
  else
    match s.task t with
    | none => (s.release t, some .invalid)
    | some f =>
      if !a.record then (s.release t, some .badAlloc)
      else (s.release t).adopt f a.push

/-- how often a frame was destroyed -/
def destroyed (s : Site) (f : Nat) : Nat :=
  s.dropped f + s.scope.log.countP fun
    | .destroyed i => s.record i = some f
    | _ => false

end Site

inductive Act where
  /-- a coroutine is called, and returns a task -/
  | create (t : Nat)
  /-- `u` is made from `t` -/
  | move (t u : Nat)
  /-- the destructor of a task -/
  | drop (t : Nat)
  | spawn (t : Nat) (a : Allocs)
  /-- anything else in the scope -/
  | scope (a : Scope.Act)
deriving DecidableEq

def step (s : Site) : Act → Option Site
  | .create t =>
    if s.task t = none then
      some { s with task := Function.update s.task t (some s.frames), frames := s.frames + 1 }
    else none
  | .move t u =>
    if s.task u = none then
      some { s with task := Function.update (Function.update s.task u (s.task t)) t none }
    else none
  | .drop t =>
    match s.task t with
    | none => some s
    | some f => some ((s.release t).destroy f)
  | .spawn t a =>
    if foreign s.scope.stack ∧ s.scope.alive then
      match s.spawn t a with
      | (s, none) => some s
      | (s, some e) => some { s with threw := s.threw ++ [e] }
    else none
  | .scope a =>
    if a = .spawn then none else (Scope.step s.scope a).map fun w => { s with scope := w }

def sys : Sys Site Act := ⟨{}, step⟩

/-- `spawn` throws before it needs the record, or can allocate it -/
def Covered (s : Site) : Act → Prop
  | .spawn t a => s.scope.joinStarted = true ∨ s.task t = none ∨ a.record = true
  | _ => True

instance (s : Site) (a : Act) : Decidable (Covered s a) := by
  cases a <;> unfold Covered <;> infer_instance

/-- Every frame has one owner: a task object or the record of a child. -/
structure Inv (s : Site) : Prop where
  family : Family s.scope
  task : ∀ t f, s.task t = some f →
    f < s.frames ∧ s.dropped f = 0 ∧ s.bound f = false ∧ ∀ i, s.record i ≠ some f
  single : ∀ t u f, s.task t = some f → s.task u = some f → t = u
  record : ∀ i f, s.record i = some f → i < s.scope.started ∧ f < s.frames ∧ s.dropped f = 0
  once : ∀ i j f, s.record i = some f → s.record j = some f → i = j
  fresh : ∀ f, s.frames ≤ f → s.dropped f = 0 ∧ s.bound f = false

/-- No frame is without an owner. -/
def Complete (s : Site) : Prop :=
  ∀ f, f < s.frames → (∀ t, s.task t ≠ some f) → (∀ i, s.record i ≠ some f) → s.dropped f = 1

section
variable {s s' : Site} {t f : Nat}

theorem Inv.init : Inv {} where
  family := ⟨List.nodup_nil, nofun, nofun, fun _ _ => rfl⟩
  task := nofun
  single := nofun
  record := nofun
  once := nofun
  fresh _ _ := ⟨rfl, rfl⟩

/-- a task object gives its frame away -/
theorem Inv.release (h : Inv s) : Inv (s.release t) := by
  have hsome : ∀ u f, (s.release t).task u = some f → u ≠ t ∧ s.task u = some f := by
    intro u f hu
    by_cases hut : u = t
    · subst hut
      exact absurd hu (by simp [Site.release])
    · exact ⟨hut, by simpa [Site.release, hut] using hu⟩
  exact ⟨h.family, fun u f hu => h.task u f (hsome u f hu).2,
    fun u v f hu hv => h.single u v f (hsome u f hu).2 (hsome v f hv).2, h.record, h.once, h.fresh⟩

/-- a frame without an owner is destroyed -/
theorem Inv.destroy (h : Inv s) (hf : f < s.frames) (ht : ∀ u, s.task u ≠ some f)
    (hr : ∀ i, s.record i ≠ some f) : Inv (s.destroy f) := by
  have hother : ∀ g, g ≠ f → (s.destroy f).dropped g = s.dropped g :=
    fun g hg => Function.update_of_ne hg ..
  refine ⟨h.family, fun u g hu => ?_, h.single, fun i g hi => ?_, h.once, fun g hg => ?_⟩
  · obtain ⟨h1, h2, h3, h4⟩ := h.task u g hu
    have hgf : g ≠ f := by
      rintro rfl
      exact ht u hu
    exact ⟨h1, (hother g hgf).trans h2, h3, h4⟩
  · obtain ⟨h1, h2, h3⟩ := h.record i g hi
    have hgf : g ≠ f := by
      rintro rfl
      exact hr i hi
    exact ⟨h1, h2, (hother g hgf).trans h3⟩
  · have hgf : g ≠ f := by
      rintro rfl
      exact Nat.not_lt.mpr hg hf
    exact ⟨(hother g hgf).trans (h.fresh g hg).1, (h.fresh g hg).2⟩

theorem release_self : (s.release t).task t = none := Function.update_self ..

theorem release_of_ne {u : Nat} (h : u ≠ t) : (s.release t).task u = s.task u :=
  Function.update_of_ne h ..

/-- after the release nobody owns the frame -/
theorem Inv.released (h : Inv s) (ht : s.task t = some f) (u : Nat) : (s.release t).task u ≠ some f := by
  intro hu
  by_cases hut : u = t
  · rw [hut, release_self] at hu
    cases hu
  · rw [release_of_ne hut] at hu
    exact hut (h.single u t f hu ht)

/-- the frame is bound to the loop of the scope -/
theorem Inv.bind (h : Inv s) (hf : f < s.frames) (ht : ∀ u, s.task u ≠ some f) :
    Inv { s with bound := Function.update s.bound f true } := by
  refine ⟨h.family, fun u g hu => ?_, h.single, h.record, h.once, fun g hg => ?_⟩
  · obtain ⟨h1, h2, h3, h4⟩ := h.task u g hu
    have hgf : g ≠ f := by
      rintro rfl
      exact ht u hu
    exact ⟨h1, h2, (Function.update_of_ne hgf ..).trans h3, h4⟩
  · have hgf : g ≠ f := by
      rintro rfl
      exact Nat.not_lt.mpr hg hf
    exact ⟨(h.fresh g hg).1, (Function.update_of_ne hgf ..).trans (h.fresh g hg).2⟩

/-- the record of the new child has the frame -/
theorem Inv.adopted (h : Inv s) (hf : f < s.frames) (ht : ∀ u, s.task u ≠ some f)
    (hr : ∀ i, s.record i ≠ some f) (hd : s.dropped f = 0) :
    Inv { s with
      record := Function.update s.record s.scope.started (some f), scope := s.scope.spawn } := by
  have hrec : ∀ i g, Function.update s.record s.scope.started (some f) i = some g →
      (i = s.scope.started ∧ g = f) ∨ (i ≠ s.scope.started ∧ s.record i = some g) := by
    intro i g hi
    by_cases his : i = s.scope.started
    · rw [his, Function.update_self] at hi
      exact .inl ⟨his, (Option.some.inj hi).symm⟩
    · rw [Function.update_of_ne his] at hi
      exact .inr ⟨his, hi⟩
  refine ⟨h.family.spawn, fun u g hu => ?_, h.single, fun i g hi => ?_, fun i j g hi hj => ?_,
    h.fresh⟩
  · obtain ⟨h1, h2, h3, h4⟩ := h.task u g hu
    refine ⟨h1, h2, h3, fun i hi => ?_⟩
    rcases hrec i g hi with ⟨-, rfl⟩ | ⟨-, hi⟩
    · exact ht u hu
    · exact h4 i hi
  · rcases hrec i g hi with ⟨rfl, rfl⟩ | ⟨-, hi⟩
    · exact ⟨Nat.lt_succ_self _, hf, hd⟩
    · obtain ⟨h1, h2, h3⟩ := h.record i g hi
      exact ⟨Nat.lt_succ_of_lt h1, h2, h3⟩
  · rcases hrec i g hi with ⟨rfl, rfl⟩ | ⟨-, hi'⟩
    · rcases hrec j g hj with ⟨rfl, -⟩ | ⟨-, hj'⟩
      · rfl
      · exact absurd hj' (hr j)
    · rcases hrec j g hj with ⟨rfl, rfl⟩ | ⟨-, hj'⟩
      · exact absurd hi' (hr i)
      · exact h.once i j g hi' hj'

/-! ## What `spawn` does -/

/-- The ways through `spawn`. -/
inductive Ways (s : Site) (t : Nat) (a : Allocs) : Site → Option Error → Prop
  | joined (hj : s.scope.joinStarted = true) : Ways s t a s (some .joined)
  | invalid (ht : s.task t = none) : Ways s t a (s.release t) (some .invalid)
  /-- the record cannot be allocated -/
  | lost (f : Nat) (ht : s.task t = some f) (hn : ¬ Covered s (.spawn t a)) :
      Ways s t a (s.release t) (some .badAlloc)
  /-- the vector has no room for it -/
  | refused (f : Nat) (ht : s.task t = some f) (ha : a.record = true) :
      Ways s t a
        (Site.destroy { s.release t with bound := Function.update s.bound f true } f)
        (some .badAlloc)
  | adopted (f : Nat) (ht : s.task t = some f) (ha : a.record = true) :
      Ways s t a
        { s.release t with
          bound := Function.update s.bound f true
          record := Function.update s.record s.scope.started (some f)
          scope := s.scope.spawn } none

theorem Inv.ways (h : Inv s) (t : Nat) (a : Allocs) :
    Ways s t a (s.spawn t a).1 (s.spawn t a).2 := by
  unfold Site.spawn
  split
  · rename_i hj
    exact .joined hj
  rename_i hj
  split
  · rename_i ht
    exact .invalid ht
  · rename_i f ht
    cases hrec : a.record with
    | false => exact .lost f ht (by simp [Covered, hj, ht, hrec])
    | true =>
      -- a frame that a task object owns was never started
      have hb : (s.release t).bound f = false := (h.task t f ht).2.2.1
      rw [if_neg (by simp)]
      unfold Site.adopt
      rw [if_neg (by simp [hb])]
      dsimp only
      cases a.push with
      | false => exact .refused f ht hrec
      | true => exact .adopted f ht hrec

theorem Ways.inv (h : Inv s) {a : Allocs} {r : Option Error} (hw : Ways s t a s' r) : Inv s' := by
  cases hw with
  | joined hj => exact h
  | invalid ht => exact h.release
  | lost f ht hn => exact h.release
  | refused f ht ha =>
    obtain ⟨hf, hd, hb, hr⟩ := h.task t f ht
    exact (h.release.bind hf (h.released ht)).destroy hf (h.released ht) hr
  | adopted f ht ha =>
    obtain ⟨hf, hd, hb, hr⟩ := h.task t f ht
    exact (h.release.bind hf (h.released ht)).adopted hf (h.released ht) hr hd

/-- only a record that cannot be allocated leaves a frame without an owner -/
theorem Ways.complete (h : Inv s) (hc : Complete s) {a : Allocs} {r : Option Error}
    (ha : Covered s (.spawn t a)) (hw : Ways s t a s' r) : Complete s' := by
  -- a frame that `t` does not own is where it was
  have hkeep : ∀ g, s.task t ≠ some g → g < s.frames → (∀ u, (s.release t).task u ≠ some g) →
      (∀ i, s.record i ≠ some g) → s.dropped g = 1 := by
    intro g hg hlt ht hr
    refine hc g hlt (fun u hu => ?_) hr
    by_cases hut : u = t
    · exact hg (hut ▸ hu)
    · exact ht u ((release_of_ne hut).trans hu)
  cases hw with
  | joined hj => exact hc
  | invalid hn =>
    intro g hlt ht hr
    exact hkeep g (by rw [hn]; exact nofun) hlt ht hr
  | lost f hf hn => exact absurd ha hn
  | refused f hf _ =>
    intro g hlt ht hr
    by_cases hgf : g = f
    · subst hgf
      show Function.update s.dropped g (s.dropped g + 1) g = 1
      rw [Function.update_self, (h.task t g hf).2.1]
    · show Function.update s.dropped f (s.dropped f + 1) g = 1
      rw [Function.update_of_ne hgf]
      refine hkeep g (fun hg => hgf ?_) hlt ht hr
      exact Option.some.inj (hg.symm.trans hf)
  | adopted f hf _ =>
    intro g hlt ht hr
    have hgf : g ≠ f := by
      rintro rfl
      exact hr s.scope.started (Function.update_self ..)
    refine hkeep g (fun hg => hgf (Option.some.inj (hg.symm.trans hf))) hlt ht fun i hi => ?_
    have hlt' := (h.record i g hi).1
    refine hr i ?_
    show Function.update s.record s.scope.started (some f) i = some g
    rw [Function.update_of_ne (Nat.ne_of_lt hlt')]
    exact hi

/-! ## Runs -/

/-- the frames that `t` and the new owner do not concern -/
theorem Inv.create (h : Inv s) (ht : s.task t = none) :
    Inv { s with task := Function.update s.task t (some s.frames), frames := s.frames + 1 } := by
  have htask : ∀ u g, Function.update s.task t (some s.frames) u = some g →
      (u = t ∧ g = s.frames) ∨ s.task u = some g := by
    intro u g hu
    by_cases hut : u = t
    · rw [hut, Function.update_self] at hu
      exact .inl ⟨hut, (Option.some.inj hu).symm⟩
    · rw [Function.update_of_ne hut] at hu
      exact .inr hu
  have hnew : ∀ u, s.task u ≠ some s.frames := fun u hu => Nat.lt_irrefl _ (h.task u _ hu).1
  refine ⟨h.family, fun u g hu => ?_, fun u v g hu hv => ?_, fun i g hi => ?_, h.once,
    fun g hg => h.fresh g (Nat.le_of_succ_le hg)⟩
  · rcases htask u g hu with ⟨-, rfl⟩ | hu
    · obtain ⟨hd, hb⟩ := h.fresh s.frames (Nat.le_refl _)
      exact ⟨Nat.lt_succ_self _, hd, hb, fun i hi => Nat.lt_irrefl _ (h.record i _ hi).2.1⟩
    · obtain ⟨h1, h2⟩ := h.task u g hu
      exact ⟨Nat.lt_succ_of_lt h1, h2⟩
  · rcases htask u g hu with ⟨rfl, rfl⟩ | hu'
    · rcases htask v _ hv with ⟨rfl, -⟩ | hv'
      · rfl
      · exact absurd hv' (hnew v)
    · rcases htask v g hv with ⟨-, rfl⟩ | hv'
      · exact absurd hu' (hnew u)
      · exact h.single u v g hu' hv'
  · obtain ⟨h1, h2, h3⟩ := h.record i g hi
    exact ⟨h1, Nat.lt_succ_of_lt h2, h3⟩

/-- who owns a frame after a move -/
theorem move_task {u : Nat} (k g : Nat)
    (hk : Function.update (Function.update s.task u (s.task t)) t none k = some g) :
    (k = u ∧ s.task t = some g) ∨ (k ≠ t ∧ k ≠ u ∧ s.task k = some g) := by
  by_cases hkt : k = t
  · rw [hkt, Function.update_self] at hk
    cases hk
  rw [Function.update_of_ne hkt] at hk
  by_cases hku : k = u
  · rw [hku, Function.update_self] at hk
    exact .inl ⟨hku, hk⟩
  · rw [Function.update_of_ne hku] at hk
    exact .inr ⟨hkt, hku, hk⟩

theorem Inv.move (h : Inv s) {u : Nat} (hu : s.task u = none) :
    Inv { s with task := Function.update (Function.update s.task u (s.task t)) t none } := by
  refine ⟨h.family, fun k g hk => ?_, fun k l g hk hl => ?_, h.record, h.once, h.fresh⟩
  · rcases move_task k g hk with ⟨-, hk⟩ | ⟨-, -, hk⟩
    · exact h.task t g hk
    · exact h.task k g hk
  · rcases move_task k g hk with ⟨rfl, hk'⟩ | ⟨hkt, -, hk'⟩
    · rcases move_task l g hl with ⟨rfl, -⟩ | ⟨hlt, -, hl'⟩
      · rfl
      · exact absurd (h.single l t g hl' hk') hlt
    · rcases move_task l g hl with ⟨rfl, hl'⟩ | ⟨hlt, -, hl'⟩
      · exact absurd (h.single k t g hk' hl') hkt
      · exact h.single k l g hk' hl'

/-- the exception goes into the history -/
theorem Inv.step_spawn (h : Inv s) {a : Allocs} (hs : step s (.spawn t a) = some s') :
    ∃ v r es, Ways s t a v r ∧ s' = { v with threw := es } := by
  obtain ⟨-, heq⟩ := Option.ite_none_right_eq_some.mp hs
  have hw := h.ways t a
  split at heq
  · rename_i v hv
    cases heq
    rw [hv] at hw
    exact ⟨_, _, _, hw, rfl⟩
  · rename_i v e hv
    cases heq
    rw [hv] at hw
    exact ⟨_, _, _, hw, rfl⟩

theorem step_inv (h : Inv s) {a : Act} (hs : step s a = some s') : Inv s' := by
  cases a with
  | create t =>
    obtain ⟨ht, heq⟩ := Option.ite_none_right_eq_some.mp hs
    cases heq
    exact h.create ht
  | move t u =>
    obtain ⟨hu, heq⟩ := Option.ite_none_right_eq_some.mp hs
    cases heq
    exact h.move hu
  | drop t =>
    simp only [step] at hs
    split at hs
    · cases hs
      exact h
    · rename_i f ht
      cases hs
      obtain ⟨hf, hd, hb, hr⟩ := h.task t f ht
      exact h.release.destroy hf (h.released ht) hr
  | spawn t a =>
    obtain ⟨v, r, es, hw, rfl⟩ := h.step_spawn hs
    have hinv := hw.inv h
    exact ⟨hinv.family, hinv.task, hinv.single, hinv.record, hinv.once, hinv.fresh⟩
  | scope a =>
    obtain ⟨hne, heq⟩ := Option.ite_none_left_eq_some.mp hs
    obtain ⟨w, hw, rfl⟩ := Option.map_eq_some_iff.mp heq
    refine ⟨h.family.step hw, h.task, h.single, fun i f hi => ?_, h.once, h.fresh⟩
    obtain ⟨h1, h2⟩ := h.record i f hi
    exact ⟨by rw [Scope.step_started hne hw]; exact h1, h2⟩

theorem step_complete (h : Inv s) (hc : Complete s) {a : Act} (ha : Covered s a)
    (hs : step s a = some s') : Complete s' := by
  cases a with
  | create t =>
    obtain ⟨ht, heq⟩ := Option.ite_none_right_eq_some.mp hs
    cases heq
    intro f hf hno hr
    have hne : f ≠ s.frames := by
      rintro rfl
      exact hno t (Function.update_self ..)
    refine hc f (Nat.lt_of_le_of_ne (Nat.le_of_lt_succ hf) hne) (fun u hu => ?_) hr
    have hut : u ≠ t := by
      rintro rfl
      cases ht.symm.trans hu
    exact hno u ((Function.update_of_ne hut ..).trans hu)
  | move t u =>
    obtain ⟨hu, heq⟩ := Option.ite_none_right_eq_some.mp hs
    cases heq
    intro f hf hno hr
    refine hc f hf (fun k hk => ?_) hr
    have hku : k ≠ u := by
      rintro rfl
      cases hu.symm.trans hk
    by_cases hkt : k = t
    · subst hkt
      refine hno u ?_
      show Function.update (Function.update s.task u (s.task k)) k none u = some f
      rw [Function.update_of_ne (Ne.symm hku), Function.update_self]
      exact hk
    · refine hno k ?_
      show Function.update (Function.update s.task u (s.task t)) t none k = some f
      rw [Function.update_of_ne hkt, Function.update_of_ne hku]
      exact hk
  | drop t =>
    simp only [step] at hs
    split at hs
    · cases hs
      exact hc
    · rename_i g ht
      cases hs
      intro f hf hno hr
      show Function.update s.dropped g (s.dropped g + 1) f = 1
      by_cases hfg : f = g
      · rw [hfg, Function.update_self, (h.task t g ht).2.1]
      · rw [Function.update_of_ne hfg]
        refine hc f hf (fun u hu => ?_) hr
        have hut : u ≠ t := by
          rintro rfl
          exact hfg (Option.some.inj (hu.symm.trans ht))
        exact hno u ((release_of_ne hut).trans hu)
  | spawn t a =>
    obtain ⟨v, r, es, hw, rfl⟩ := h.step_spawn hs
    have hcomp := hw.complete h hc ha
    exact hcomp
  | scope a =>
    obtain ⟨hne, heq⟩ := Option.ite_none_left_eq_some.mp hs
    obtain ⟨w, hw, rfl⟩ := Option.map_eq_some_iff.mp heq
    exact hc

/-! ## The contract -/

/-- a task object or the record of a child has the frame -/
def Owned (s : Site) (f : Nat) : Prop :=
  (∃ t, s.task t = some f) ∨ ∃ i ∈ s.scope.children, s.record i = some f

/-- a frame that no record ever had -/
theorem destroyed_of_no_record (hr : ∀ i, s.record i ≠ some f) : s.destroyed f = s.dropped f := by
  unfold Site.destroyed
  rw [List.countP_eq_zero.mpr]
  · rfl
  · intro e _
    cases e with
    | destroyed i => simpa using hr i
    | _ => exact Bool.false_ne_true

/-- the frame of a child -/
theorem Inv.destroyed_child (h : Inv s) {i : Nat} (hi : s.record i = some f) :
    s.destroyed f = destroyedChild s.scope i := by
  have heq : (fun e : Scope.Event => match e with
      | .destroyed j => decide (s.record j = some f)
      | _ => false) = fun e => e == .destroyed i := by
    funext e
    cases e with
    | destroyed j =>
      by_cases hj : s.record j = some f
      · rw [h.once j i f hj hi]
        simp [hi]
      · have hji : j ≠ i := by
          rintro rfl
          exact hj hi
        simp [hj, hji]
    | _ => rfl
  unfold Site.destroyed
  rw [(h.record i f hi).2.2, Nat.zero_add, heq]
  rfl

theorem Inv.fate (h : Inv s) (hc : Complete s) (hf : f < s.frames) :
    Owned s f ∧ s.destroyed f = 0 ∨ ¬ Owned s f ∧ s.destroyed f = 1 := by
  by_cases ht : ∃ t, s.task t = some f
  · obtain ⟨t, ht⟩ := ht
    obtain ⟨-, hd, -, hr⟩ := h.task t f ht
    exact .inl ⟨.inl ⟨t, ht⟩, (destroyed_of_no_record hr).trans hd⟩
  by_cases hr : ∃ i, s.record i = some f
  · obtain ⟨i, hi⟩ := hr
    rw [h.destroyed_child hi]
    by_cases hm : i ∈ s.scope.children
    · exact .inl ⟨.inr ⟨i, hm, hi⟩, (h.family.mem i hm).2⟩
    · refine .inr ⟨?_, h.family.gone i (h.record i f hi).1 hm⟩
      rintro (hown | ⟨j, hj, hjf⟩)
      · exact ht hown
      · exact hm (h.once j i f hjf hi ▸ hj)
  · have hr : ∀ i, s.record i ≠ some f := fun i hi => hr ⟨i, hi⟩
    refine .inr ⟨?_, (destroyed_of_no_record hr).trans (hc f hf (fun t h => ht ⟨t, h⟩) hr)⟩
    rintro (hown | ⟨j, -, hjf⟩)
    · exact ht hown
    · exact hr j hjf

end

structure SpawnContract (s : Site) : Prop where
  /-- a frame has an owner, or was destroyed once -/
  owner : ∀ f, f < s.frames →
    Owned s f ∧ s.destroyed f = 0 ∨ ¬ Owned s f ∧ s.destroyed f = 1
  /-- and only one owner -/
  single : ∀ t f, s.task t = some f →
    (∀ u, s.task u = some f → u = t) ∧ ∀ i, s.record i ≠ some f
  /-- A `spawn` that throws leaves the scope as it was; if it is covered, and only then, the frame
  is still with the caller or was destroyed once. -/
  throws : ∀ t a e, (s.spawn t a).2 = some e → (s.spawn t a).1.scope = s.scope ∧
    (Covered s (.spawn t a) ↔ ∀ f, s.task t = some f →
      (s.spawn t a).1.task t = some f ∧ (s.spawn t a).1.destroyed f = 0 ∨
        (s.spawn t a).1.task t = none ∧ (s.spawn t a).1.destroyed f = 1)
  /-- one that returns gives the frame to the new child -/
  returns : ∀ t a, (s.spawn t a).2 = none → ∃ f, s.task t = some f ∧
    (s.spawn t a).1.task t = none ∧ (s.spawn t a).1.scope = s.scope.spawn ∧
      (s.spawn t a).1.record s.scope.started = some f

section
variable {s s' : Site} {t f : Nat}

/-- the frame of a task object was never destroyed -/
theorem Inv.intact (h : Inv s) (ht : s.task t = some f) : s.destroyed f = 0 :=
  (destroyed_of_no_record (h.task t f ht).2.2.2).trans (h.task t f ht).2.1

theorem Ways.throws (h : Inv s) {a : Allocs} {e : Error} (hw : Ways s t a s' (some e)) :
    s'.scope = s.scope ∧ (Covered s (.spawn t a) ↔ ∀ f, s.task t = some f →
      s'.task t = some f ∧ s'.destroyed f = 0 ∨ s'.task t = none ∧ s'.destroyed f = 1) := by
  cases hw with
  | joined hj => exact ⟨rfl, fun _ f ht => .inl ⟨ht, h.intact ht⟩, fun _ => .inl hj⟩
  | invalid ht =>
    refine ⟨rfl, fun _ f hf => ?_, fun _ => .inr (.inl ht)⟩
    cases ht.symm.trans hf
  | lost f ht hn =>
    refine ⟨rfl, fun hc => absurd hc hn, fun hall => ?_⟩
    have hzero : (s.release t).destroyed f = 0 := h.intact ht
    rcases hall f ht with ⟨hown, -⟩ | ⟨-, hone⟩
    · cases release_self.symm.trans hown
    · cases hzero.symm.trans hone
  | refused f ht ha =>
    refine ⟨rfl, fun _ g hg => .inr ⟨release_self, ?_⟩, fun _ => .inr (.inr ha)⟩
    cases ht.symm.trans hg
    obtain ⟨-, hd, -, hrecs⟩ := h.task t f ht
    rw [destroyed_of_no_record]
    · show Function.update s.dropped f (s.dropped f + 1) f = 1
      rw [Function.update_self, hd]
    · exact hrecs

theorem Ways.returns {a : Allocs} (hw : Ways s t a s' none) : ∃ f, s.task t = some f ∧
    s'.task t = none ∧ s'.scope = s.scope.spawn ∧ s'.record s.scope.started = some f := by
  cases hw with
  | adopted f ht _ => exact ⟨f, ht, release_self, rfl, Function.update_self ..⟩

theorem spawnContract_of_inv (h : Inv s) (hc : Complete s) : SpawnContract s where
  owner _ hf := h.fate hc hf
  single t f ht := ⟨fun u hu => h.single u t f hu ht, (h.task t f ht).2.2.2⟩
  throws t a _ he := Ways.throws h (he ▸ h.ways t a)
  returns t a he := Ways.returns (he ▸ h.ways t a)

/-- a call that is not covered leaves the frame without an owner -/
theorem Ways.covered (h : Inv s) {a : Allocs} {r : Option Error} (hw : Ways s t a s' r)
    (ho : ∀ f, f < s'.frames → Owned s' f ∧ s'.destroyed f = 0 ∨ ¬ Owned s' f ∧ s'.destroyed f = 1) :
    Covered s (.spawn t a) := by
  cases hw with
  | joined hj => exact .inl hj
  | invalid ht => exact .inr (.inl ht)
  | refused f ht ha | adopted f ht ha => exact .inr (.inr ha)
  | lost f ht hn =>
    have hzero : (s.release t).destroyed f = 0 := h.intact ht
    rcases ho f (h.task t f ht).1 with ⟨⟨u, hu⟩ | ⟨i, -, hi⟩, -⟩ | ⟨-, hone⟩
    · exact absurd hu (h.released ht u)
    · exact absurd hi ((h.task t f ht).2.2.2 i)
    · cases hzero.symm.trans hone

theorem covered_of_owned (h : Inv s) {a : Act} (hs : step s a = some s') (ho : SpawnContract s') :
    Covered s a := by
  cases a with
  | spawn t a =>
    obtain ⟨v, r, es, hw, rfl⟩ := h.step_spawn hs
    exact hw.covered h ho.owner
  | _ => trivial

end

/-- **The runs in which `spawn` keeps its contract** are those in which every call of it throws
before it needs the record, or can allocate it. -/
theorem spawn_contract (as : List Act) (s : Site) (hr : sys.run sys.init as = some s) :
    sys.Always SpawnContract sys.init as ↔ sys.Meets Covered sys.init as := by
  refine Sys.always_iff_meets (I := fun s => Inv s ∧ Complete s)
    (fun _ h => spawnContract_of_inv h.1 h.2) ?_
    ⟨Inv.init, fun _ hf => absurd hf (Nat.not_lt_zero _)⟩ hr
  intro w a w' hi hs
  exact ⟨fun hc => ⟨step_inv hi.1 hs, step_complete hi.1 hi.2 hc hs⟩, covered_of_owned hi.1 hs⟩

/-- Three tasks: the vector has no room for the first, the second becomes a child, the third comes
after the join; there is no memory for a record then, nor when an empty task is spawned. -/
def secondAdopted : List Act :=
  [.create 0, .spawn 0 { push := false }, .spawn 0 { record := false }, .create 0, .spawn 0 {},
    .scope (.finish none), .scope .enter, .scope .join, .create 1, .spawn 1 { record := false }]

theorem spawn_contract_secondAdopted : ∃ s, sys.run sys.init secondAdopted = some s ∧
    s.threw = [.badAlloc, .invalid, .joined] ∧ s.destroyed 0 = 1 ∧ s.destroyed 1 = 1 ∧
    s.task 1 = some 2 ∧ sys.Always SpawnContract sys.init secondAdopted :=
  ⟨_, rfl, rfl, rfl, rfl, rfl, (spawn_contract secondAdopted _ rfl).mpr (by decide)⟩

/-- A task whose record cannot be allocated: `spawn` throws after it took the frame. -/
theorem lost_frame : ∃ s, sys.run sys.init [.create 0, .spawn 0 { record := false }] = some s ∧
    s.threw = [.badAlloc] ∧ s.frames = 1 ∧ s.scope.children = [] ∧ s.destroyed 0 = 0 ∧
    ¬ Owned s 0 := by
  refine ⟨_, rfl, rfl, rfl, rfl, rfl, ?_⟩
  rintro (⟨t, ht⟩ | ⟨i, hi, -⟩)
  · cases t <;> cases ht
  · cases hi

end Adopt
