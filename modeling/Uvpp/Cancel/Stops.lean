import Uvpp.Cancel.Memory

/-!
# A cancellation state as a list

Seen from its users a `cancellation_state` is a list of registrations, the newest first, and the
flag.  `Stops ι κ` is this view: `ι` names the registrations and `κ` is what a callback does.

* `Stops.register`, `Stops.unregister`, `Stops.exchange`, `Stops.pop`   the operations;
* `enlist`, `delist`   the lists of many states, with and without a registration;
* `Shows`       the pointers of `Memory` show this list;
* `shows_*`     each pointer operation does to the memory what the operation does to the list.
-/

namespace Cancel

structure Stops (ι κ : Type) where
  regs : List (ι × κ) := []
  requested : Bool := false

namespace Stops
variable {ι κ : Type} [DecidableEq ι]

/-- `register_callback` -/
def register (t : Stops ι κ) (i : ι) (k : κ) : Stops ι κ × Bool :=
  if t.requested then (t, false) else ({ t with regs := (i, k) :: t.regs }, true)

/-- `unregister`: nothing happens to a registration without an owner -/
def unregister (t : Stops ι κ) (i : ι) : Stops ι κ :=
  { t with regs := t.regs.filter fun p => p.1 ≠ i }

/-- the first line of `request_stop`: whether the loop is entered -/
def exchange (t : Stops ι κ) : Stops ι κ × Bool :=
  if t.requested then (t, false) else ({ t with requested := true }, true)

/-- one round of the loop of `request_stop` up to the call -/
def pop (t : Stops ι κ) : Option ((ι × κ) × Stops ι κ) :=
  match t.regs with
  | [] => none
  | p :: ps => some (p, { t with regs := ps })

end Stops

section
variable {γ ι : Type} [DecidableEq γ]

theorem mem_names {t : Stops ι Unit} {i : ι} :
    i ∈ t.regs.map Prod.fst ↔ (i, ()) ∈ t.regs := by
  rw [List.mem_map]
  constructor
  · rintro ⟨p, hp, rfl⟩
    exact hp
  · exact fun h => ⟨_, h, rfl⟩

/-- the lists with `i` registered, if there is a state to register it in -/
def enlist (l : γ → Stops ι Unit) (i : ι) : Option γ → γ → Stops ι Unit
  | none => l
  | some c => Function.update l c { l c with regs := (i, ()) :: (l c).regs }

section
variable (l : γ → Stops ι Unit) (i : ι) (t : Option γ) (c : γ)

theorem mem_enlist {i' : ι} : i' ∈ (enlist l i t c).regs.map Prod.fst ↔
    i' = i ∧ t = some c ∨ i' ∈ (l c).regs.map Prod.fst := by
  cases t with
  | none => simp [enlist]
  | some c' =>
    by_cases hc : c = c'
    · subst hc
      simp [enlist]
    · simp [enlist, hc, Ne.symm hc]

theorem enlist_of_ne (ht : t ≠ some c) : enlist l i t c = l c := by
  cases t with
  | none => rfl
  | some c' =>
    have hc : c ≠ c' := fun he => ht (by rw [he])
    simp [enlist, hc]

theorem enlist_requested : (enlist l i t c).requested = (l c).requested := by
  cases t with
  | none => rfl
  | some c' => by_cases hc : c = c' <;> simp [enlist, hc]

theorem nodup_enlist (hn : ((l c).regs.map Prod.fst).Nodup)
    (hi : i ∉ (l c).regs.map Prod.fst) : ((enlist l i t c).regs.map Prod.fst).Nodup := by
  cases t with
  | none => exact hn
  | some c' =>
    by_cases hc : c = c'
    · subst hc
      simpa [enlist] using ⟨by simpa using hi, hn⟩
    · simpa [enlist, hc] using hn

end

variable [DecidableEq ι]

/-- the lists without `i` -/
def delist (l : γ → Stops ι Unit) (i : ι) : Option γ → γ → Stops ι Unit
  | none => l
  | some c => Function.update l c ((l c).unregister i)

section
variable (l : γ → Stops ι Unit) (i : ι) (t : Option γ) (c : γ)

theorem mem_delist {i' : ι} : i' ∈ (delist l i t c).regs.map Prod.fst ↔
    i' ∈ (l c).regs.map Prod.fst ∧ (t = some c → i' ≠ i) := by
  cases t with
  | none => simp [delist]
  | some c' =>
    by_cases hc : c = c'
    · subst hc
      simp [delist, Stops.unregister]
    · simp [delist, hc, Ne.symm hc]

theorem delist_nil (hl : (l c).regs = []) : (delist l i t c).regs = [] := by
  cases t with
  | none => exact hl
  | some c' =>
    by_cases hc : c = c'
    · subst hc
      simp [delist, Stops.unregister, hl]
    · simpa [delist, hc] using hl

theorem delist_requested : (delist l i t c).requested = (l c).requested := by
  cases t with
  | none => rfl
  | some c' => by_cases hc : c = c' <;> simp [delist, hc, Stops.unregister]

theorem nodup_delist (hn : ((l c).regs.map Prod.fst).Nodup) :
    ((delist l i t c).regs.map Prod.fst).Nodup := by
  cases t with
  | none => exact hn
  | some c' =>
    by_cases hc : c = c'
    · subst hc
      simpa [delist, Stops.unregister] using hn.sublist (List.filter_sublist.map Prod.fst)
    · simpa [delist, hc] using hn

end

/-- a registration that was made just now is removed -/
theorem delist_enlist {l : γ → Stops ι Unit} {i : ι} (t : Option γ)
    (hi : ∀ c, i ∉ (l c).regs.map Prod.fst) : delist (enlist l i t) i t = l := by
  cases t with
  | none => rfl
  | some c =>
    have hall : ∀ p ∈ (l c).regs, p.1 ≠ i := fun p hp he => hi c (he ▸ List.mem_map_of_mem hp)
    have hfilter : (l c).regs.filter (fun p => p.1 ≠ i) = (l c).regs :=
      List.filter_eq_self.mpr fun p hp => by simpa using hall p hp
    simp only [delist, enlist, Function.update_self, Function.update_idem]
    rw [Function.update_eq_self_iff, Stops.unregister, List.filter_cons_of_neg (by simp), hfilter]

end

/-- the list view of the state `s` in the memory `m` -/
structure Shows (m : Mem) (s : StateId) (t : Stops Addr (Callback × Context)) : Prop where
  listed : Listed m s (t.regs.map Prod.fst)
  called : ∀ p ∈ t.regs, (m.reg p.1).callback = some p.2.1 ∧ (m.reg p.1).context = some p.2.2
  requested : (m.st s).stopRequested = t.requested

section
variable {m : Mem} {s : StateId} {t : Stops Addr (Callback × Context)}

theorem shows_register (h : Shows m s t) {r : Addr} (hfree : (m.reg r).state = none)
    (hr : r < m.cells) (cb : Callback) (ctx : Context) :
    Shows (m.registerCallback s r cb ctx).1 s (t.register r (cb, ctx)).1 ∧
      (m.registerCallback s r cb ctx).2 = (t.register r (cb, ctx)).2 := by
  unfold Stops.register
  rw [← h.requested]
  cases hst : (m.st s).stopRequested with
  | true =>
    rw [registerCallback_stopped hst]
    exact ⟨h, rfl⟩
  | false =>
    refine ⟨⟨listed_register h.listed hfree hr hst, ?_, ?_⟩, by rw [registerCallback_open hst]; rfl⟩
    · intro p hp
      rw [registerCallback_open hst]
      rcases List.mem_cons.mp hp with rfl | hp
      · simp
      · have hne : p.1 ≠ r := fun he => by
          have hown := (h.listed.owned p.1).mp (List.mem_map_of_mem hp)
          rw [he, hfree] at hown
          cases hown
        simpa [hne] using h.called p hp
    · rw [registerCallback_open hst]
      simp [hst]

theorem shows_unregister (h : Shows m s t) {r : Addr} (hr : (m.reg r).state = some s) :
    ∃ m', m.unregister s r = some m' ∧ Shows m' s (t.unregister r) := by
  obtain ⟨m', hm, hl, -, hcb, hctx, hst, -⟩ := listed_unregister h.listed hr
  refine ⟨m', hm, ?_, ?_, (hst s).trans h.requested⟩
  · have heq : (t.unregister r).regs.map Prod.fst = (t.regs.map Prod.fst).erase r := by
      rw [h.listed.nodup.erase_eq_filter]
      simp [Stops.unregister, List.filter_map, Function.comp_def, bne, beq_eq_decide]
    rw [heq]
    exact hl
  · intro p hp
    obtain ⟨hp, hne⟩ := List.mem_filter.mp hp
    have hpr : p.1 ≠ r := by simpa using hne
    rw [hcb, hctx, if_neg hpr, if_neg hpr]
    exact h.called p hp

theorem shows_exchange (h : Shows m s t) :
    Shows (m.exchangeStop s).1 s t.exchange.1 ∧ (m.exchangeStop s).2 = t.exchange.2 := by
  unfold Stops.exchange Mem.exchangeStop
  rw [← h.requested]
  cases hst : (m.st s).stopRequested with
  | true => exact ⟨h, rfl⟩
  | false =>
    refine ⟨⟨h.listed.frame ?_ ?_ ?_ le_rfl, ?_, ?_⟩, rfl⟩
    · simp
    · simp
    · simp
    · simpa using h.called
    · simp

theorem shows_pop (h : Shows m s t) {r : Addr} {cb : Callback} {ctx : Context}
    {t' : Stops Addr (Callback × Context)} (hp : t.pop = some ((r, cb, ctx), t')) :
    ∃ m', m.popHead s = some (r, some cb, some ctx, m') ∧ Shows m' s t' := by
  obtain ⟨regs, requested⟩ := t
  cases regs with
  | nil => cases hp
  | cons p ps =>
    cases hp
    obtain ⟨hpop, hl, -⟩ := listed_popHead h.listed
    obtain ⟨hcb, hctx⟩ := h.called (r, cb, ctx) List.mem_cons_self
    dsimp only at hcb hctx
    rw [hcb, hctx] at hpop
    refine ⟨_, hpop, hl, ?_, ?_⟩
    · intro q hq
      have hnd := h.listed.nodup
      rw [List.map_cons, List.nodup_cons] at hnd
      have hmem : q.1 ∈ ps.map Prod.fst := List.mem_map_of_mem hq
      have hne : q.1 ≠ r := fun he => hnd.1 (he ▸ hmem)
      simpa [hne] using h.called q (List.mem_cons_of_mem _ hq)
    · simpa using h.requested

end

end Cancel
