import Uvpp.Wait.Moves

/-!
# Slot, registration and native source belong together

* `*_inv`                each form of a step keeps the invariant;
* `reach_inv`            all runs have it.
-/

namespace Wait
open Cancel

/-! ## the invariant is kept -/

section
variable {cfg : Config} {w w' : World}

@[simp] theorem suspensions_snoc (log : List Event) (e : Event) (o : Op) :
    suspensions (log ++ [e]) o = suspensions log o + if e = .suspended o then 1 else 0 := by
  simp [suspensions, List.count_singleton, beq_eq_decide]

@[simp] theorem resumptions_snoc (log : List Event) (e : Event) (o : Op) :
    resumptions (log ++ [e]) o = resumptions log o + if e.resumes o then 1 else 0 := by
  simp [resumptions, List.countP_singleton]

theorem inv_init (cfg : Config) : Inv cfg (init cfg) where
  fault := rfl
  src := fun s => ⟨nofun, fun hp => by simp [init, hp], nofun, nofun, nofun⟩
  slot := by simp [init]
  regs := by simp [init]
  nodup := by simp [init]
  cancellation := by simp [init]
  history := fun o => ⟨rfl, rfl⟩
  stopping := nofun
  tails := nofun

theorem KeepsStack.inv_tails {x : Source → Src} {k : List Frame} (hk : KeepsStack w x k)
    (h : Inv cfg w) (hc : ∀ s, (w.src s).closing = true → (x s).closing = true) :
    ∀ s, .closeTail s ∈ k → (x s).closing = true := by
  intro s hs
  rcases hk.tails s hs with hs | hs
  · exact hc s (h.tails s hs)
  · exact hs

theorem still_inv (h : Inv cfg w) {x : Source → Src} {k : List Frame} (t : Bool)
    (hslot : ∀ s, (x s).slot = (w.src s).slot)
    (hc : ∀ s, (w.src s).closing = true → (x s).closing = true)
    (hx : ∀ s, SrcInv (cfg.family s) (x s)) (hk : KeepsStack w x k) :
    Inv cfg { w with src := x, stack := k, terminated := t } where
  fault := h.fault
  src := hx
  slot := fun s o => by rw [show (x s).slot = _ from hslot s]; exact h.slot s o
  regs := h.regs
  nodup := h.nodup
  cancellation := h.cancellation
  history := h.history
  stopping := by
    intro c hr
    rcases h.stopping c hr with hm | hl
    · exact hk.loops c hm
    · exact .inr hl
  tails := hk.inv_tails h hc

theorem stop_inv (h : Inv cfg w) (c : CancelId) :
    Inv cfg ((w.setStops c { w.stops c with requested := true }).push (.stopping c)) := by
  have hregs : ∀ c', (((w.setStops c { w.stops c with requested := true }).push
      (.stopping c)).stops c').regs = (w.stops c').regs :=
    (Function.forall_update_iff w.stops fun c' l => l.regs = (w.stops c').regs).mpr
      ⟨rfl, fun _ _ => rfl⟩
  refine ⟨h.fault, h.src, h.slot, fun c' o => ?_, fun c' => ?_, h.cancellation, h.history, ?_, ?_⟩
  · rw [hregs]
    exact h.regs c' o
  · rw [hregs]
    exact h.nodup c'
  · intro c' hr
    rw [hregs]
    by_cases hc : c' = c
    · subst hc
      exact .inl List.mem_cons_self
    · have hr' : (w.stops c').requested = true := by
        simpa [World.push, World.setStops, hc] using hr
      exact (h.stopping c' hr').imp_left (List.mem_cons_of_mem _)
  · intro s hs
    rcases List.mem_cons.mp hs with hs | hs
    · cases hs
    · exact h.tails s hs

theorem Inv.slot_status (h : Inv cfg w) {s : Source} {o : Op} (hs : (w.src s).slot = some o) :
    (w.op o).status = .suspended := ((h.slot s o).mp hs).1

/-- the operation `o` is not in the slot of a source unless it is suspended -/
theorem Inv.slot_ne (h : Inv cfg w) {o : Op} (ho : (w.op o).status ≠ .suspended) (s : Source) :
    (w.src s).slot ≠ some o := fun hs => ho (h.slot_status hs)

/-- an event about another operation -/
theorem History.other {log : List Event} {o : Op} {st : Status} (h : History log o st) {e : Event}
    (hs : e ≠ .suspended o) (hr : e.resumes o = false) : History (log ++ [e]) o st := by
  revert h
  cases st <;> simp [History, hs, hr]

theorem rejected_inv (h : Inv cfg w) {q : Request} (r : Outcome) {x : Source → Src}
    (ho : (w.op q.op).status = .fresh) (hslot : ∀ s, (x s).slot = (w.src s).slot)
    (hc : ∀ s, (w.src s).closing = true → (x s).closing = true)
    (hx : ∀ s, SrcInv (cfg.family s) (x s)) : Inv cfg (w.rejected q r x) where
  fault := h.fault
  src := hx
  slot := by
    intro s o
    rw [show ((w.rejected q r x).src s).slot = _ from hslot s]
    by_cases hq : o = q.op
    · subst hq
      have hne := h.slot_ne (o := q.op) (by rw [ho]; exact fun h => by cases h) s
      simp [World.rejected, hne]
    · simpa [World.rejected, hq] using h.slot s o
  regs := by
    intro c o
    by_cases hq : o = q.op
    · subst hq
      simpa [World.rejected] using h.fresh_unlisted ho c
    · simpa [World.rejected, hq] using h.regs c o
  nodup := h.nodup
  cancellation := by
    intro o
    by_cases hq : o = q.op
    · subst hq
      simp [World.rejected]
    · simpa [World.rejected, hq] using h.cancellation o
  history := by
    intro o
    have hh := (h.history o).other (e := .ended q.op r) (fun h => by cases h) rfl
    by_cases hq : o = q.op
    · subst hq
      rw [ho] at hh
      have hfin : History (w.log ++ [.ended q.op r]) q.op .finished :=
        ⟨hh.2.trans hh.1.symm, by rw [hh.1]; exact Nat.zero_le 1⟩
      simpa [World.rejected] using hfin
    · simpa [World.rejected, hq] using hh
  stopping := h.stopping
  tails := fun s hs => hc s (h.tails s hs)

theorem admitted_inv (h : Inv cfg w) {q : Request} {x : Source → Src}
    (ho : (w.op q.op).status = .fresh) (hs : (w.src q.source).slot = none)
    (hr : w.stopRequested q.task = false)
    (hslot : ∀ s, (x s).slot = if s = q.source then some q.op else (w.src s).slot)
    (hc : ∀ s, (w.src s).closing = true → (x s).closing = true)
    (hx : ∀ s, SrcInv (cfg.family s) (x s)) : Inv cfg (w.admitted q x) where
  fault := h.fault
  src := hx
  slot := by
    intro s o
    rw [show ((w.admitted q x).src s).slot = _ from hslot s]
    by_cases hq : o = q.op
    · subst hq
      have hne := h.slot_ne (o := q.op) (by rw [ho]; exact nofun) s
      by_cases he : s = q.source
      · simp [World.admitted, he]
      · simp [World.admitted, he, hne, Ne.symm he]
    · by_cases he : s = q.source
      · subst he
        have hne : ¬ ((w.op o).status = .suspended ∧ (w.op o).source = q.source) := fun hh =>
          absurd ((h.slot _ o).mpr hh) (by simp [hs])
        simpa [World.admitted, hq, Ne.symm hq] using hne
      · simpa [World.admitted, hq, he] using h.slot s o
  regs := by
    intro c o
    rw [show (w.admitted q x).stops = enlist w.stops q.op q.task from rfl, mem_enlist]
    by_cases hq : o = q.op
    · subst hq
      have hne := h.fresh_unlisted ho c
      simp only [hne, or_false, true_and]
      simp [World.admitted]
    · simpa [World.admitted, hq] using h.regs c o
  nodup := fun c => nodup_enlist _ _ _ _ (h.nodup c) (h.fresh_unlisted ho c)
  cancellation := by
    intro o
    by_cases hq : o = q.op
    · subst hq
      simp [World.admitted]
    · simpa [World.admitted, hq] using h.cancellation o
  history := by
    intro o
    by_cases hq : o = q.op
    · subst hq
      have hh := h.history q.op
      rw [ho] at hh
      have hsusp : History (w.log ++ [.suspended q.op]) q.op .suspended := by
        refine ⟨?_, ?_⟩
        · simp [hh.1]
        · simp [hh.2, Event.resumes]
      simpa [World.admitted] using hsusp
    · have hh := (h.history o).other (e := .suspended q.op) (by simpa using Ne.symm hq) rfl
      simpa [World.admitted, hq] using hh
  stopping := by
    intro c hc
    rw [show (w.admitted q x).stops = enlist w.stops q.op q.task from rfl, enlist_requested] at hc
    have hne : q.task ≠ some c := by
      intro ht
      rw [ht, World.stopRequested, hc] at hr
      cases hr
    rw [show (w.admitted q x).stops = enlist w.stops q.op q.task from rfl,
      enlist_of_ne _ _ _ _ hne]
    exact h.stopping c hc
  tails := fun s hs => hc s (h.tails s hs)

theorem handed_inv (h : Inv cfg w) {s : Source} {o : Op} (r : Outcome) {x : Source → Src}
    {k : List Frame} (hs : (w.src s).slot = some o)
    (hslot : ∀ s', (x s').slot = if s' = s then none else (w.src s').slot)
    (hc : ∀ s', (w.src s').closing = true → (x s').closing = true)
    (hx : ∀ s', SrcInv (cfg.family s') (x s')) (hk : KeepsStack w x k) :
    Inv cfg (w.handed o r x k) := by
  obtain ⟨hsusp, hsource⟩ := (h.slot s o).mp hs
  have hcanc : (w.op o).cancellation = (w.op o).task := by rw [h.cancellation, if_pos hsusp]
  have hstops : (w.handed o r x k).stops = delist w.stops o (w.op o).task := by
    rw [← hcanc]
    rfl
  refine ⟨h.fault, hx, fun s' o' => ?_, fun c o' => ?_, fun c => ?_, fun o' => ?_, fun o' => ?_,
    fun c hr => ?_, fun s' hm => ?_⟩
  · rw [show ((w.handed o r x k).src s').slot = _ from hslot s']
    by_cases hq : o' = o
    · subst hq
      by_cases he : s' = s
      · simp [World.handed, he]
      · have hne : ¬ (w.src s').slot = some o' := fun hs' =>
          he (((h.slot s' o').mp hs').2.symm.trans hsource)
        simp [World.handed, he, hne]
    · by_cases he : s' = s
      · subst he
        have hne : ¬ ((w.op o').status = .suspended ∧ (w.op o').source = s') := fun hh =>
          hq (Option.some.inj (((h.slot _ o').mpr hh).symm.trans hs))
        simpa [World.handed, hq] using hne
      · simpa [World.handed, hq, he] using h.slot s' o'
  · rw [hstops, mem_delist]
    by_cases hq : o' = o
    · subst hq
      have hlisted := h.regs c o'
      simp only [hlisted, World.handed, Function.update_self, ne_eq, not_true_eq_false]
      constructor
      · rintro ⟨⟨-, ht⟩, hne⟩
        exact absurd ht hne
      · rintro ⟨hf, -⟩
        cases hf
    · simpa [World.handed, hq] using h.regs c o'
  · rw [hstops]
    exact nodup_delist _ _ _ _ (h.nodup c)
  · by_cases hq : o' = o
    · subst hq
      simp [World.handed]
    · simpa [World.handed, hq] using h.cancellation o'
  · by_cases hq : o' = o
    · subst hq
      have hh := h.history o'
      rw [hsusp] at hh
      have hfin : History (w.log ++ [.resumed o' r]) o' .finished := by
        simp [History, hh.1, hh.2, Event.resumes]
      simpa [World.handed] using hfin
    · have hh := (h.history o').other (e := .resumed o r) (fun h => by cases h)
        (by simpa [Event.resumes] using Ne.symm hq)
      simpa [World.handed, hq] using hh
  · rw [hstops, delist_requested] at hr
    rw [hstops]
    have hkept := (h.stopping c hr).elim (hk.loops c) .inr
    exact hkept.imp (List.mem_cons_of_mem _) (delist_nil _ _ _ _)
  · rcases List.mem_cons.mp hm with hm | hm
    · cases hm
    · exact hk.inv_tails h hc s' hm

theorem moved_inv (h : Inv cfg w) (hm : Moved cfg w w') : Inv cfg w' := by
  cases hm with
  | still x k t hslot hc hx hk => exact still_inv h t hslot hc hx hk
  | stop c hr => exact stop_inv h c
  | rejected q r x ho hslot hc hx => exact rejected_inv h r ho hslot hc hx
  | admitted q x ho hs hr hslot hc hx => exact admitted_inv h ho hs hr hslot hc hx
  | handed s o r x k hs hslot hc hx hk => exact handed_inv h r hs hslot hc hx hk

theorem reach_inv (h : (sys cfg).Reach w) : Inv cfg w :=
  h.inv (inv_init cfg) fun v a v' hi hs =>
    moved_inv hi (step_moved (a := a) hi (show step cfg v a = some v' from hs))

end

end Wait
