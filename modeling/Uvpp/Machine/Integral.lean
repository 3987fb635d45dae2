import Mathlib.Algebra.Order.Ring.Int
import Mathlib.Tactic.Common

/-!
# Integral types of C++

A value of an integral type is an integer in the range of the type.  Conversions and unsigned
arithmetic are modulo a power of two; the overflow of a signed type is undefined, which is `none`
here.  The same computation can be run in a second mode, in which every operation whose result is
not exact is `none`.

* `IntType.Holds`               the range of a type;
* `convert`, `mul`, `add`, `div`   the operations;
* `convert_of_holds`, `result_of_holds`   they are exact inside of the range, in both modes;
* `Holds.tdiv`                  so is every division.
-/

/-- what happens to a value outside of its type -/
inductive Mode where
  /-- the rules of the language -/
  | language
  /-- no inexact operation is allowed -/
  | strict
deriving DecidableEq

structure IntType where
  signed : Bool
  bits : Nat
deriving DecidableEq

namespace IntType

def lo (t : IntType) : Int := if t.signed then -(2 ^ (t.bits - 1)) else 0

def hi (t : IntType) : Int := if t.signed then 2 ^ (t.bits - 1) - 1 else 2 ^ t.bits - 1

def Holds (t : IntType) (n : Int) : Prop := t.lo ≤ n ∧ n ≤ t.hi

instance (t : IntType) (n : Int) : Decidable (t.Holds n) := inferInstanceAs (Decidable (_ ∧ _))

/-- the value of the type that is equal modulo `2 ^ bits` -/
def wrap (t : IntType) (n : Int) : Int := if t.signed then n.bmod (2 ^ t.bits) else n % 2 ^ t.bits

/-- `static_cast` -/
def convert (m : Mode) (t : IntType) (n : Int) : Option Int :=
  if t.Holds n then some n
  else
    match m with
    | .language => some (t.wrap n)
    | .strict => none

/-- the result of an arithmetic operation -/
def result (m : Mode) (t : IntType) (n : Int) : Option Int :=
  if t.Holds n then some n
  else
    match m with
    | .language => if t.signed then none else some (t.wrap n)
    | .strict => none

def mul (m : Mode) (t : IntType) (a b : Int) : Option Int := t.result m (a * b)

def add (m : Mode) (t : IntType) (a b : Int) : Option Int := t.result m (a + b)

/-- division truncates -/
def div (m : Mode) (t : IntType) (a b : Int) : Option Int :=
  if b = 0 then none else t.result m (a.tdiv b)

def int64 : IntType := ⟨true, 64⟩

def uint64 : IntType := ⟨false, 64⟩

/-- the common type of `intmax_t` and a type of at most 64 bits -/
def common (t : IntType) : IntType := if t.signed ∨ t.bits < 64 then int64 else uint64

theorem int64_holds {n : Int} :
    int64.Holds n ↔ -9223372036854775808 ≤ n ∧ n ≤ 9223372036854775807 := Iff.rfl

theorem uint64_holds {n : Int} : uint64.Holds n ↔ 0 ≤ n ∧ n ≤ 18446744073709551615 := Iff.rfl

theorem common_cases (t : IntType) : t.common = int64 ∨ t.common = uint64 := by
  unfold common
  split_ifs
  · exact .inl rfl
  · exact .inr rfl

/-- an unsigned product always has a value, the one modulo `2 ^ 64` -/
theorem uint64_mul (a b : Int) :
    uint64.mul .language a b = some (a * b % 18446744073709551616) ∧
      uint64.Holds (a * b % 18446744073709551616) := by
  have hheld : uint64.Holds (a * b % 18446744073709551616) := by
    rw [uint64_holds]
    omega
  refine ⟨?_, hheld⟩
  unfold mul result
  by_cases h : uint64.Holds (a * b)
  · rw [if_pos h]
    rw [uint64_holds] at h
    rw [Int.emod_eq_of_lt h.1 (by omega)]
  · rw [if_neg h]
    rfl

/-- a signed result is exact or undefined -/
theorem int64_result {n k : Int} (h : int64.result .language n = some k) : int64.Holds n ∧ k = n := by
  unfold result at h
  by_cases hn : int64.Holds n
  · rw [if_pos hn] at h
    exact ⟨hn, (Option.some.inj h).symm⟩
  · rw [if_neg hn] at h
    cases h

/-- an unsigned value above the signed range becomes negative, and comes back -/
theorem convert_above {n : Int} (hlo : 9223372036854775807 < n) (hhi : n ≤ 18446744073709551615) :
    int64.convert .language n = some (n - 18446744073709551616) ∧
      uint64.convert .language (n - 18446744073709551616) = some n := by
  constructor
  · unfold convert
    rw [if_neg (by rw [int64_holds]; omega)]
    show some (n.bmod 18446744073709551616) = _
    congr 1
    rw [Int.bmod_eq_iff (by decide)]
    exact ⟨by omega, by omega, by omega⟩
  · unfold convert
    rw [if_neg (by rw [uint64_holds]; omega)]
    show some ((n - 18446744073709551616) % 18446744073709551616) = _
    congr 1
    omega

/-- a type of at most 64 bits has its values in common with one of the two -/
theorem Holds.common {t : IntType} (hb : t.bits ≤ 64) {n : Int} (h : t.Holds n) : t.common.Holds n := by
  obtain ⟨signed, bits⟩ := t
  have hpow : ∀ k j : Nat, k ≤ j → (2 : Int) ^ k ≤ 2 ^ j := fun k j hkj =>
    pow_le_pow_right₀ (by omega) hkj
  unfold IntType.common
  cases signed with
  | true =>
    have hle := hpow (bits - 1) 63 (show bits - 1 ≤ 63 from by dsimp only at hb; omega)
    simp only [Holds, lo, hi, if_pos] at h
    rw [if_pos (.inl rfl), int64_holds]
    omega
  | false =>
    simp only [Holds, lo, hi, Bool.false_eq_true, if_false] at h
    by_cases hlt : bits < 64
    · have hle := hpow bits 63 (Nat.le_of_lt_succ hlt)
      rw [if_pos (.inr hlt), int64_holds]
      omega
    · have hle := hpow bits 64 hb
      rw [if_neg (by simpa using hlt), uint64_holds]
      omega

section
variable {m : Mode} {t : IntType} {n k : Int}

theorem convert_of_holds (h : t.Holds n) : t.convert m n = some n := if_pos h

theorem result_of_holds (h : t.Holds n) : t.result m n = some n := if_pos h

theorem lo_le_zero : t.lo ≤ 0 := by
  unfold lo
  split_ifs
  · have hpos : (0 : Int) ≤ 2 ^ (t.bits - 1) := Int.pow_nonneg (by omega)
    omega
  · exact Int.le_refl 0

theorem zero_le_hi : 0 ≤ t.hi := by
  have hpos : ∀ k : Nat, (0 : Int) < 2 ^ k := fun k => Int.pow_pos (by omega)
  unfold hi
  split_ifs
  · have := hpos (t.bits - 1)
    omega
  · have := hpos t.bits
    omega

/-- what lies between a value and zero -/
theorem Holds.between (h : t.Holds n) (hk : 0 ≤ k ∧ k ≤ n ∨ n ≤ k ∧ k ≤ 0) : t.Holds k := by
  have hlo := t.lo_le_zero
  have hhi := t.zero_le_hi
  unfold Holds at h ⊢
  omega

end

/-- the quotient lies between the dividend and zero, and how far from it -/
theorem tdiv_spec (x : Int) {d : Int} (hd : 0 < d) :
    (0 ≤ x → 0 ≤ x.tdiv d ∧ x.tdiv d * d ≤ x ∧ x < x.tdiv d * d + d) ∧
      (x ≤ 0 → x.tdiv d ≤ 0 ∧ x ≤ x.tdiv d * d ∧ x.tdiv d * d - d < x) := by
  have hpos : ∀ y : Int, 0 ≤ y →
      0 ≤ y.tdiv d ∧ y.tdiv d * d ≤ y ∧ y < y.tdiv d * d + d := by
    intro y hy
    rw [Int.tdiv_eq_ediv_of_nonneg hy]
    have hmod := Int.emod_lt_of_pos y hd
    have hmod' := Int.emod_nonneg y (Int.ne_of_gt hd)
    have heq := Int.mul_ediv_add_emod y d
    rw [Int.mul_comm] at heq
    exact ⟨Int.ediv_nonneg hy (Int.le_of_lt hd), by omega, by omega⟩
  refine ⟨hpos x, fun hx => ?_⟩
  -- a negative dividend is the mirror image
  obtain ⟨h0, h1, h2⟩ := hpos (-x) (by omega)
  rw [Int.neg_tdiv, Int.neg_mul] at h1 h2
  rw [Int.neg_tdiv] at h0
  exact ⟨by omega, by omega, by omega⟩

theorem Holds.tdiv {t : IntType} {x d : Int} (h : t.Holds x) (hd : 0 < d) : t.Holds (x.tdiv d) := by
  obtain ⟨hpos, hneg⟩ := tdiv_spec x hd
  rcases Int.le_total 0 x with hx | hx
  · obtain ⟨h0, h1, -⟩ := hpos hx
    have hle : x.tdiv d ≤ x.tdiv d * d := le_mul_of_one_le_right h0 hd
    exact h.between (.inl ⟨h0, by omega⟩)
  · obtain ⟨h0, h1, -⟩ := hneg hx
    have hle : x.tdiv d * d ≤ x.tdiv d := by
      have := le_mul_of_one_le_right (show 0 ≤ -x.tdiv d by omega) hd
      rw [Int.neg_mul] at this
      omega
    exact h.between (.inr ⟨by omega, h0⟩)

theorem div_of_holds {m : Mode} {t : IntType} {x d : Int} (h : t.Holds x) (hd : 0 < d) :
    t.div m x d = some (x.tdiv d) := by
  unfold div
  rw [if_neg (Int.ne_of_gt hd)]
  exact result_of_holds (h.tdiv hd)

end IntType
