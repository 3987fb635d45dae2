import Mathlib.Data.List.Range
import Mathlib.Algebra.Order.Group.Nat

/-!
# Counting

* `countP_range_change`   a property changes at one number below `n`;
* `eq_of_countP_le_one`   a property that at most one member has.
-/

/-- when a property changes at most at `i`, its count changes by what happens at `i` -/
theorem countP_range_change {p q : Nat → Bool} {n i : Nat} (hi : i < n)
    (hne : ∀ j, j ≠ i → q j = p j) :
    (List.range n).countP q + (p i).toNat = (List.range n).countP p + (q i).toNat := by
  induction n with
  | zero => omega
  | succ n ih =>
    rw [List.range_succ, List.countP_append, List.countP_append]
    by_cases hin : i = n
    · subst hin
      have hsame : (List.range i).countP q = (List.range i).countP p := by
        refine List.countP_congr fun j hj => ?_
        rw [hne j (by have := List.mem_range.mp hj; omega)]
      rw [hsame]
      cases hp : p i <;> cases hq : q i <;> simp [hp, hq]
    · have hlast : q n = p n := hne n (fun h => hin h.symm)
      have hbefore := ih (by omega)
      simp only [List.countP_singleton, hlast]
      omega

/-- two members with a property that at most one has are the same -/
theorem eq_of_countP_le_one {α : Type} {p : α → Bool} {l : List α} (h : l.countP p ≤ 1) {x y : α}
    (hx : x ∈ l) (hy : y ∈ l) (hpx : p x = true) (hpy : p y = true) : x = y := by
  induction l with
  | nil => cases hx
  | cons a l ih =>
    have hrest : ∀ z ∈ l, p z = true → p a = false := fun z hz hpz => by
      have hpos : 0 < l.countP p := List.countP_pos_iff.mpr ⟨z, hz, hpz⟩
      by_contra hpa
      rw [Bool.not_eq_false] at hpa
      rw [List.countP_cons_of_pos hpa] at h
      omega
    rcases List.mem_cons.mp hx with rfl | hxl <;> rcases List.mem_cons.mp hy with rfl | hyl
    · rfl
    · rw [hrest y hyl hpy] at hpx
      cases hpx
    · rw [hrest x hxl hpx] at hpy
      cases hpy
    · rw [List.countP_cons_of_neg (Bool.eq_false_iff.mp (hrest x hxl hpx))] at h
      exact ih h hxl hyl

theorem eq_true_of_toNat_pos {b : Bool} (h : 0 < b.toNat) : b = true := by
  cases b with
  | false => cases h
  | true => rfl
