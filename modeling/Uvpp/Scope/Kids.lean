import Mathlib.Data.List.Nodup
import Uvpp.Machine.Count
import Uvpp.Scope.Model

/-!
# The children of a scope

* `Nested`           the stack: a stop loop stands on the completion that waits for it, and only
                     a child stands on a stop loop;
* `Kids`             the records of the children, the counter and the registrations;
* `kids_*`           what each function of the scope does to them.
-/

namespace Scope

/-! ## the stack -/

/-- A stop loop stands on its completion, a completion has no other below it, and only a child
stands on a stop loop. -/
def Nested : List Frame → Prop
  | [] => True
  | .stop _ :: k => (∃ i k', k = .completion i :: k') ∧ Nested k
  | .completion _ :: k => completions k = 0 ∧ Nested k
  | .child _ :: k => (∀ i k', k ≠ .completion i :: k') ∧ Nested k
  | .user :: k => foreign k = true ∧ Nested k
  | .joiner :: k => foreign k = true ∧ Nested k

theorem Nested.tail {f : Frame} {k : List Frame} (h : Nested (f :: k)) : Nested k := by
  cases f <;> exact h.2

theorem foreign_of_quiet {k : List Frame} (h : Nested k) (hz : completions k = 0) :
    foreign k = true := by
  cases k with
  | nil => rfl
  | cons f k =>
    cases f with
    | stop q =>
      obtain ⟨⟨i, k', rfl⟩, -⟩ := h
      simp at hz
    | completion i => simp at hz
    | child i => rfl
    | user => rfl
    | joiner => rfl

/-- Foreign code above a completion runs on top of an active child. -/
theorem Nested.running {k : List Frame} (h : Nested k) (hf : foreign k = true)
    (hc : 0 < completions k) : ∃ i, .child i ∈ k := by
  induction k with
  | nil => simp at hc
  | cons f k ih =>
    cases f with
    | stop q => cases hf
    | completion i => cases hf
    | child i => exact ⟨i, List.mem_cons_self⟩
    | user | joiner =>
      obtain ⟨i, hi⟩ := ih h.2 h.1 (by simpa using hc)
      exact ⟨i, List.mem_cons_of_mem _ hi⟩

theorem Nested.child {k : List Frame} (h : Nested k) (hf : foreign k = true) (i : Nat) :
    Nested (.child i :: k) := by
  refine ⟨fun j k' hk => ?_, h⟩
  rw [hk] at hf
  cases hf

/-! ## the children -/

/-- the number of started children that have not completed -/
def uncompleted (w : World) : Nat := (List.range w.started).countP fun i => !(w.child i).completed

structure Kids (w : World) : Prop where
  running : ∀ i, w.stack.count (.child i) = if (w.child i).body = .running then 1 else 0
  completed : ∀ i, (w.child i).completed = true ↔
    (w.child i).body = .final ∨ (w.child i).body = .destroyed
  unborn : ∀ i, w.started ≤ i ↔ (w.child i).body = .unborn
  active : w.activeChildren = uncompleted w
  regs : ∀ p ∈ w.stops.regs, (w.child p.1).body = .suspended
  keys : (w.stops.regs.map Prod.fst).Nodup

section
variable {w : World}

theorem Kids.body_running (h : Kids w) {i : Nat} (hm : .child i ∈ w.stack) :
    (w.child i).body = .running := by
  have hpos := List.count_pos_iff.mpr hm
  rw [h.running] at hpos
  by_contra hne
  rw [if_neg hne] at hpos
  omega

theorem Kids.lt_started (h : Kids w) {i : Nat} (hb : (w.child i).body ≠ .unborn) :
    i < w.started := by
  by_contra hge
  exact hb ((h.unborn i).mp (by omega))

theorem Kids.not_completed (h : Kids w) {i : Nat} (h1 : (w.child i).body ≠ .final)
    (h2 : (w.child i).body ≠ .destroyed) : (w.child i).completed = false := by
  rw [← Bool.not_eq_true, h.completed]
  exact not_or.mpr ⟨h1, h2⟩

theorem uncompleted_eq_zero : uncompleted w = 0 ↔ ∀ i, i < w.started → (w.child i).completed = true := by
  unfold uncompleted
  rw [List.countP_eq_zero]
  simp

/-- a child that has started and not completed is counted -/
theorem Kids.active_pos (h : Kids w) {i : Nat} (hi : i < w.started)
    (hc : (w.child i).completed = false) : 0 < w.activeChildren := by
  rw [h.active]
  by_contra hz
  have hall := uncompleted_eq_zero.mp (Nat.eq_zero_of_not_pos hz) i hi
  rw [hc] at hall
  cases hall

theorem Kids.active_of_running (h : Kids w) {i : Nat} (hm : .child i ∈ w.stack) :
    0 < w.activeChildren := by
  have hb := h.body_running hm
  exact h.active_pos (h.lt_started (by rw [hb]; exact nofun))
    (h.not_completed (by rw [hb]; exact nofun) (by rw [hb]; exact nofun))

/-- a step that leaves the children alone -/
theorem Kids.frame (h : Kids w) {v : World} (hk : ∀ i, v.stack.count (.child i) = w.stack.count (.child i))
    (hc : v.child = w.child) (hs : v.started = w.started) (ha : v.activeChildren = w.activeChildren)
    (hr : v.stops.regs = w.stops.regs) : Kids v where
  running := fun i => by rw [hk, hc]; exact h.running i
  completed := by rw [hc]; exact h.completed
  unborn := by rw [hs, hc]; exact h.unborn
  active := by rw [ha, h.active]; unfold uncompleted; rw [hs, hc]
  regs := by rw [hr, hc]; exact h.regs
  keys := by rw [hr]; exact h.keys

/-- a child changes its body, on the stack or off it, but does not complete -/
theorem Kids.move (h : Kids w) {i : Nat} {b : Body} {k : List Frame} {t : Cancel.Stops Nat Bool}
    (hi : (w.child i).body = .running ∨ (w.child i).body = .suspended)
    (hb : b = .running ∨ b = .suspended)
    (hk : ∀ j, k.count (.child j) = if j = i then (if b = .running then 1 else 0)
      else w.stack.count (.child j))
    (ht : ∀ p ∈ t.regs, p.1 = i ∧ b = .suspended ∨ p.1 ≠ i ∧ p ∈ w.stops.regs)
    (hn : (t.regs.map Prod.fst).Nodup) :
    Kids { w.setBody i b with stops := t, stack := k } where
  running := by
    intro j
    by_cases hj : j = i
    · subst hj
      simp [World.setBody, hk]
    · simp [World.setBody, hk, hj, h.running j]
  completed := by
    intro j
    by_cases hj : j = i
    · subst hj
      have hnc := h.completed j
      rcases hi with hi | hi <;> rcases hb with rfl | rfl <;> simpa [World.setBody, hi] using hnc
    · simpa [World.setBody, hj] using h.completed j
  unborn := by
    intro j
    by_cases hj : j = i
    · subst hj
      have hu := h.unborn j
      rcases hi with hi | hi <;> rcases hb with rfl | rfl <;> simpa [World.setBody, hi] using hu
    · simpa [World.setBody, hj] using h.unborn j
  active := by
    show w.activeChildren = _
    rw [h.active]
    unfold uncompleted
    refine List.countP_congr fun j _ => ?_
    by_cases hj : j = i
    · subst hj
      simp [World.setBody]
    · simp [World.setBody, hj]
  regs := by
    intro p hp
    rcases ht p hp with ⟨rfl, rfl⟩ | ⟨hne, hm⟩
    · simp [World.setBody]
    · simpa [World.setBody, hne] using h.regs p hm
  keys := hn

/-- the running child suspends, with or without a registration -/
theorem kids_suspend (h : Kids w) {i : Nat} {k : List Frame} {t : Cancel.Stops Nat Bool}
    (hk : w.stack = .child i :: k)
    (ht : t = w.stops ∨ ∃ sync, t = { w.stops with regs := (i, sync) :: w.stops.regs }) :
    Kids (w.suspend i k t) := by
  have hb := h.body_running (by rw [hk]; exact List.mem_cons_self)
  -- a running child is not registered
  have hfresh : i ∉ w.stops.regs.map Prod.fst := fun hm => by
    obtain ⟨p, hp, rfl⟩ := List.mem_map.mp hm
    have hsus := h.regs p hp
    rw [hb] at hsus
    cases hsus
  have hother : ∀ p ∈ w.stops.regs, p.1 ≠ i := fun p hp he => hfresh (he ▸ List.mem_map_of_mem hp)
  refine h.move (Or.inl hb) (Or.inr rfl) (fun j => ?_) (fun p hp => ?_) ?_
  · have hrun := h.running j
    rw [hk] at hrun ⊢
    by_cases hj : j = i
    · subst hj
      rw [hb] at hrun
      simpa using hrun
    · have hne : i ≠ j := fun he => hj he.symm
      simp [hj, hne]
  · rcases ht with rfl | ⟨sync, rfl⟩
    · exact Or.inr ⟨hother p hp, hp⟩
    · rcases List.mem_cons.mp hp with rfl | hp
      · exact Or.inl ⟨rfl, rfl⟩
      · exact Or.inr ⟨hother p hp, hp⟩
  · rcases ht with rfl | ⟨sync, rfl⟩
    · exact h.keys
    · exact List.nodup_cons.mpr ⟨hfresh, h.keys⟩

/-- a suspended child is resumed, by its operation or by its stop callback -/
theorem kids_resume (h : Kids w) {i : Nat} {t : Cancel.Stops Nat Bool}
    (hb : (w.child i).body = .suspended) (ht : ∀ p ∈ t.regs, p.1 ≠ i ∧ p ∈ w.stops.regs)
    (hn : (t.regs.map Prod.fst).Nodup) : Kids (w.resume i t) := by
  refine h.move (Or.inr hb) (Or.inl rfl) (fun j => ?_) (fun p hp => Or.inr (ht p hp)) hn
  have hrun := h.running i
  rw [hb] at hrun
  by_cases hj : j = i
  · subst hj
    simpa [World.setBody] using hrun
  · have hne : i ≠ j := fun he => hj he.symm
    simp [hj, hne]

theorem kids_spawn (h : Kids w) : Kids w.spawn where
  running := by
    intro j
    have hu : (w.child w.started).body = .unborn := (h.unborn _).mp le_rfl
    by_cases hj : j = w.started
    · subst hj
      have hrun := h.running w.started
      rw [hu] at hrun
      simpa [World.spawn, World.setBody] using hrun
    · have hne : w.started ≠ j := fun he => hj he.symm
      simpa [World.spawn, World.setBody, hj, hne] using h.running j
  completed := by
    intro j
    by_cases hj : j = w.started
    · subst hj
      have hc := h.completed w.started
      rw [(h.unborn _).mp le_rfl] at hc
      simpa [World.spawn, World.setBody] using hc
    · simpa [World.spawn, World.setBody, hj] using h.completed j
  unborn := by
    intro j
    by_cases hj : j = w.started
    · subst hj
      simp [World.spawn, World.setBody]
    · have hu := h.unborn j
      simp only [World.spawn, World.setBody, Function.update_of_ne hj]
      rw [← hu]
      omega
  active := by
    have hc : (w.child w.started).completed = false :=
      h.not_completed (by rw [(h.unborn _).mp le_rfl]; exact nofun)
        (by rw [(h.unborn _).mp le_rfl]; exact nofun)
    have hrest : (List.range w.started).countP (fun i => !(w.spawn.child i).completed)
        = uncompleted w := by
      refine List.countP_congr fun j hj => ?_
      have hne : j ≠ w.started := by
        have := List.mem_range.mp hj
        omega
      simp [World.spawn, World.setBody, hne]
    show w.activeChildren + 1 = (List.range (w.started + 1)).countP _
    rw [List.range_succ, List.countP_append, hrest, h.active]
    simp [World.spawn, World.setBody, hc]
  regs := by
    intro p hp
    have hb := h.regs p hp
    have hne : p.1 ≠ w.started := fun he => by
      rw [he, (h.unborn _).mp le_rfl] at hb
      cases hb
    simpa [World.spawn, World.setBody, hne] using hb
  keys := h.keys

/-- the running child completes -/
theorem kids_complete (h : Kids w) {i : Nat} {k : List Frame} (hk : w.stack = .child i :: k)
    (e : Option Exc) : Kids (w.countCompletion i k e) := by
  have hb : (w.child i).body = .running := h.body_running (by rw [hk]; exact List.mem_cons_self)
  have hi : i < w.started := h.lt_started (by rw [hb]; exact nofun)
  have hnc : (w.child i).completed = false :=
    h.not_completed (by rw [hb]; exact nofun) (by rw [hb]; exact nofun)
  refine ⟨fun j => ?_, fun j => ?_, fun j => ?_, ?_, fun p hp => ?_, h.keys⟩
  · have hrun := h.running j
    rw [hk] at hrun
    by_cases hj : j = i
    · subst hj
      rw [hb] at hrun
      simpa [World.countCompletion] using hrun
    · have hne : i ≠ j := fun he => hj he.symm
      simpa [World.countCompletion, hj, hne] using hrun
  · by_cases hj : j = i
    · subst hj
      simp [World.countCompletion]
    · simpa [World.countCompletion, hj] using h.completed j
  · by_cases hj : j = i
    · subst hj
      have hlt : ¬ w.started ≤ j := by omega
      simpa [World.countCompletion] using hlt
    · simpa [World.countCompletion, hj] using h.unborn j
  · show w.activeChildren - 1 = uncompleted (w.countCompletion i k e)
    have hleave : uncompleted (w.countCompletion i k e) + 1 = uncompleted w := by
      have hchange := countP_range_change (p := fun j => !(w.child j).completed)
        (q := fun j => !((w.countCompletion i k e).child j).completed) hi
        fun j hj => by simp [World.countCompletion, hj]
      simpa [hnc, uncompleted, World.countCompletion] using hchange
    rw [h.active]
    omega
  · have hb' := h.regs p hp
    have hne : p.1 ≠ i := fun he => by
      rw [he, hb] at hb'
      cases hb'
    simpa [World.countCompletion, hne] using hb'

/-- with nobody active, all frames are final, and `finish_join` may destroy them -/
theorem kids_finishJoin (h : Kids w) (hz : w.activeChildren = 0)
    (hc : w.children = List.range w.started) : Kids w.finishJoin := by
  have hall : ∀ i, i < w.started → (w.child i).completed = true :=
    uncompleted_eq_zero.mp (h.active ▸ hz)
  have hin : ∀ i, i ∈ w.children ↔ i < w.started := fun i => by rw [hc, List.mem_range]
  refine ⟨fun j => ?_, fun j => ?_, fun j => ?_, ?_, fun p hp => ?_, h.keys⟩
  · by_cases hj : j < w.started
    · have hnr : (w.child j).body ≠ .running := fun hr => by
        have hdone := (h.completed j).mp (hall j hj)
        rw [hr] at hdone
        simp at hdone
      have hrun := h.running j
      rw [if_neg hnr] at hrun
      simpa [World.finishJoin, hin, hj] using hrun
    · simpa [World.finishJoin, hin, hj] using h.running j
  · by_cases hj : j < w.started
    · simp [World.finishJoin, hin, hj, hall j hj]
    · simpa [World.finishJoin, hin, hj] using h.completed j
  · by_cases hj : j < w.started
    · simp [World.finishJoin, hin, hj]
    · simpa [World.finishJoin, hin, hj] using h.unborn j
  · show w.activeChildren = _
    rw [h.active]
    unfold uncompleted
    refine List.countP_congr fun j hj => ?_
    simp only [World.finishJoin]
    split <;> rfl
  · have hb := h.regs p hp
    have hlt := h.lt_started (i := p.1) (by rw [hb]; exact nofun)
    have hdone := (h.completed p.1).mp (hall p.1 hlt)
    rw [hb] at hdone
    simp at hdone

end

end Scope
