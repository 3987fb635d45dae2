import Mathlib.Algebra.GroupWithZero.Nat
import Mathlib.Algebra.Order.BigOperators.Group.List
import Uvpp.Close.Life

/-!
# What the closing life of a record comes to

* `resumed_prefix`, `resumed_all`, `deleted_count`   the history of a record that keeps `LifeInv`;
* `settles`            a claimed close comes to its end as soon as foreign code returns.
-/

namespace Close

section
variable {ε : Type} [DecidableEq ε] {l : Life ε}

/-! ## what the invariant says about the history -/

theorem closeFinished_iff (h : LifeInv l) :
    l.closeFinished = true ↔ l.close.phase = .closed ∧ l.close.completionActive = false := by
  have hbegan : .callbackBegan ∈ l.log ↔ l.close.phase = .closed := by
    rw [← List.count_pos_iff, h.began]
    split <;> simp_all
  have hact : (completes l.stack == 0) = true ↔ l.close.completionActive = false := by
    rw [h.active]
    cases l.close.completionActive <;> simp
  rw [Life.closeFinished, Bool.and_eq_true, decide_eq_true_iff, hbegan, hact]

/-- the resumed coroutines are the first of those that suspended -/
theorem resumed_prefix (h : LifeInv l) :
    resumedBy l.log <+: callbackRegistered l.log ++ registered l.log := by
  by_cases hp : l.close.phase = .closed
  · exact ⟨_, (h.delivered hp).1⟩
  · rw [(h.waiting hp).1]
    exact List.nil_prefix

theorem resumed_all (h : LifeInv l) (hf : l.closeFinished = true) :
    resumedBy l.log = callbackRegistered l.log ++ registered l.log := by
  obtain ⟨hp, hact⟩ := (closeFinished_iff h).mp hf
  have hk : completes l.stack = 0 := by rw [h.active, hact]; rfl
  have hd := (h.delivered hp).1
  rwa [remaining_of_completes hk, List.append_nil] at hd

theorem deleted_count (h : LifeInv l) :
    l.log.count .deleted = if l.close.ownerReleased ∧ l.closeFinished then 1 else 0 := by
  rw [h.deleted, h.live]
  have hf := closeFinished_iff h
  unfold AsyncCloseState.canDestroyNow
  cases l.close.ownerReleased <;> cases hc : l.close.completionActive <;>
    by_cases hp : l.close.phase = .closed <;> simp_all

omit [DecidableEq ε] in
theorem tick_resumed {l' : Life ε} (ht : l.tick = some l')
    (hne : resumedBy l'.log ≠ resumedBy l.log) : ∃ rest k, l.stack = .complete rest :: k := by
  unfold Life.tick at ht
  split at ht
  · refine absurd ?_ hne
    split at ht <;> cases ht
    · simp [Life.submit]
    · rfl
  · rename_i c rest k hk
    exact ⟨_, _, hk⟩
  · rename_i k hk
    exact ⟨_, _, hk⟩
  · cases ht

/-! ## the close comes to its end -/

/-- steps until the stack is empty, if nothing is pushed -/
def weight (k : List Frame) : Nat :=
  (k.map fun
    | .complete rest => 2 * rest.length + 1
    | _ => 1).sum

def Life.budget (l : Life ε) : Nat :=
  weight l.stack + if l.close.phase = .closed then 0 else
    2 * (l.close.callbackWaiter.toList ++ l.close.waiters).length + 2

/-- `uv_close` was submitted, or the cancelled coroutine returns to its submission -/
def Life.Claimed (l : Life ε) : Prop := l.log.count .submitted + l.stack.count .closing = 1

/-- once the close is claimed, something happens next until its callback has returned -/
theorem next_isSome (h : LifeInv l) (hc : l.Claimed)
    (hf : ¬ (l.stack = [] ∧ l.close.phase = .closed)) : ∃ l', l.next = some l' := by
  unfold Life.next
  split
  · rename_i hk
    have hne : l.close.phase ≠ .closed := fun hcl => hf ⟨hk, hcl⟩
    have hsub : l.log.count .submitted = 1 := by
      unfold Life.Claimed at hc
      rw [hk] at hc
      simpa using hc
    rw [if_pos (h.inFlight.mpr ⟨hsub, hne⟩)]
    exact ⟨_, rfl⟩
  · rename_i k hk
    simp [Life.ret, hk]
  · rename_i hnil huser
    unfold Life.tick
    split
    · split <;> exact ⟨_, rfl⟩
    · exact ⟨_, rfl⟩
    · split <;> exact ⟨_, rfl⟩
    · rename_i h1 h2 h3
      cases hk : l.stack with
      | nil => exact absurd hk hnil
      | cons f k =>
        cases f with
        | user => exact absurd hk (huser k)
        | closing => exact absurd hk (h1 k)
        | complete rest =>
          cases rest with
          | nil => exact absurd hk (h3 k)
          | cons c rest => exact absurd hk (h2 c rest k)

/-- one step of the end: nobody joins, nobody is released, and the end is nearer -/
theorem next_budget (h : LifeInv l) (hc : l.Claimed) {l' : Life ε}
    (hn : l.next = some l') : l'.budget < l.budget ∧ l'.Claimed ∧
      l'.close.ownerReleased = l.close.ownerReleased ∧
      callbackRegistered l'.log = callbackRegistered l.log ∧ registered l'.log = registered l.log := by
  unfold Life.Claimed at hc ⊢
  unfold Life.next at hn
  split at hn
  · rename_i hk
    split at hn
    · rename_i hf
      cases hn
      have hne := (h.inFlight.mp hf).2
      rw [hk] at hc
      refine ⟨?_, by simpa [Life.onClose, hk] using hc, rfl, by simp [Life.onClose],
        by simp [Life.onClose]⟩
      simp only [Life.budget, Life.onClose, AsyncCloseState.beginComplete, hk, weight, if_neg hne,
        List.map_cons, List.map_nil, List.sum_cons, List.sum_nil]
      simp
    · cases hn
  · rename_i k hk
    simp only [Life.ret, hk, Option.some.injEq] at hn
    subst hn
    rw [hk] at hc
    refine ⟨?_, by simpa using hc, rfl, rfl, rfl⟩
    simp [Life.budget, hk, weight]
  · unfold Life.tick at hn
    split at hn
    · rename_i k hk
      rw [hk] at hc
      rw [List.count_cons_self] at hc
      split at hn <;> cases hn
      · refine ⟨?_, ?_, rfl, by simp [Life.submit], by simp [Life.submit]⟩
        · simp [Life.budget, Life.submit, hk, weight]
        · simp only [Life.submit, List.count_append, List.count_singleton_self]
          omega
      · rename_i hdead
        have hne : l.close.phase ≠ .closed := fun hcl => by
          have hs := h.settled hcl
          rw [hk] at hs
          simp at hs
        exact absurd (by simpa [AsyncCloseState.canDestroyNow, hne] using h.live) hdead
    · rename_i c rest k hk
      cases hn
      rw [hk] at hc
      refine ⟨?_, by simpa using hc, rfl, by simp, by simp⟩
      simp only [Life.budget, hk, weight, List.map_cons, List.sum_cons, List.length_cons]
      omega
    · rename_i k hk
      rw [hk] at hc
      split at hn <;> cases hn
      · unfold Life.endComplete AsyncCloseState.endComplete
        split
        · refine ⟨?_, by simpa [Life.delete] using hc, rfl, by simp [Life.delete],
            by simp [Life.delete]⟩
          simp [Life.budget, Life.delete, hk, weight]
        · refine ⟨?_, by simpa using hc, rfl, rfl, rfl⟩
          simp [Life.budget, hk, weight]
      · refine ⟨?_, by simpa using hc, rfl, rfl, rfl⟩
        simp [Life.budget, hk, weight]
    · cases hn

/-- **A claimed close ends.**  When foreign code returns and libuv calls back, the close callback
is called and returns, with the same owner and the same coroutines. -/
theorem settles (h : LifeInv l) (hc : l.Claimed) :
    ∃ v, Relation.ReflTransGen (fun a b : Life ε => a.next = some b) l v ∧ LifeInv v ∧
      v.stack = [] ∧ v.closeFinished = true ∧ v.close.ownerReleased = l.close.ownerReleased ∧
      callbackRegistered v.log = callbackRegistered l.log ∧ registered v.log = registered l.log := by
  -- induction on the budget: each step makes it smaller
  induction hb : l.budget using Nat.strongRecOn generalizing l with
  | ind n ih =>
    by_cases hdone : l.stack = [] ∧ l.close.phase = .closed
    · obtain ⟨hk, hp⟩ := hdone
      refine ⟨l, .refl, h, hk, ?_, rfl, rfl, rfl⟩
      refine (closeFinished_iff h).mpr ⟨hp, ?_⟩
      have ha := h.active
      rw [hk] at ha
      cases hact : l.close.completionActive with
      | false => rfl
      | true => simp [hact] at ha
    · obtain ⟨l', hn⟩ := next_isSome h hc hdone
      obtain ⟨hlt, hc', ho, hcb, hreg⟩ := next_budget h hc hn
      obtain ⟨v, hsteps, hv, hvk, hvf, hvo, hvcb, hvreg⟩ :=
        ih _ (hb ▸ hlt) (next_inv h hn) hc' rfl
      exact ⟨v, .head hn hsteps, hv, hvk, hvf, hvo.trans ho, hvcb.trans hcb, hvreg.trans hreg⟩

end

end Close
