import Mathlib.Data.Rat.Lemmas
import Mathlib.Algebra.Order.Field.Rat
import Mathlib.Order.Bounds.Basic
import Mathlib.Tactic.FieldSimp
import Mathlib.Tactic.Ring
import Uvpp.Machine.Integral

/-!
# Durations and `std::chrono::ceil`

A duration is a count of an integral type in units of a period, a positive rational number of
seconds.  Periods are ratios of the type system, so their arithmetic is exact; the arithmetic on
counts is that of their types.

* `durationCast`      `duration_cast`, with its four cases;
* `ceil`              `ceil` to a duration with a signed 64-bit count: a cast, a comparison in the
                      common type of the two durations, and an addition;
* `ceil_of_fits`      inside of the range the least count that is not less;
* `ceil_short`        outside of it no result, or one that is less.
-/

namespace Chrono
open IntType (int64 uint64)

/-- `duration_cast` to a count of type `tr` with the factor `cf`, computed in the type `cr`.  The parts of a factor are of
type `intmax_t` and positive, their own conversions change nothing. -/
def durationCast (m : Mode) (cr tr : IntType) (cf : ℚ) (count : Int) : Option Int :=
  if cf.num = 1 ∧ cf.den = 1 then tr.convert m count
  else if cf.den = 1 then
    (cr.convert m count).bind fun c => (cr.mul m c cf.num).bind (tr.convert m)
  else if cf.num = 1 then
    (cr.convert m count).bind fun c => (cr.div m c cf.den).bind (tr.convert m)
  else
    (cr.convert m count).bind fun c => (cr.mul m c cf.num).bind fun x =>
      (cr.div m x cf.den).bind (tr.convert m)

/-- the period of the common type of two durations -/
def commonPeriod (p q : ℚ) : ℚ := (Nat.gcd p.num.natAbs q.num.natAbs : ℚ) / Nat.lcm p.den q.den

/-- `<` of a duration with a signed 64-bit count `t` and the period `q`, and one of type `r` -/
def lessThan (m : Mode) (q : ℚ) (t : Int) (r : IntType) (p : ℚ) (count : Int) : Option Bool :=
  (durationCast m r.common r.common (q / commonPeriod p q) t).bind fun x =>
    (durationCast m r.common r.common (p / commonPeriod p q) count).map fun y => decide (x < y)

/-- `ceil` to a duration with a signed 64-bit count and the period `q` -/
def ceil (m : Mode) (q : ℚ) (r : IntType) (p : ℚ) (count : Int) : Option Int :=
  (durationCast m r.common int64 (p / q) count).bind fun t =>
    (lessThan m q t r p count).bind fun less => if less then int64.add m t 1 else some t

/-! ## The factors -/

section
variable {p q : ℚ}

/-- the parts of a fraction in lowest terms -/
theorem parts_of_coprime {a b : Nat} (hb : 0 < b) (h : a.Coprime b) :
    ((a : ℚ) / b).num = a ∧ ((a : ℚ) / b).den = b := by
  have hnum := Rat.num_div_eq_of_coprime (a := (a : ℤ)) (b := (b : ℤ)) (by omega) h
  have hden := Rat.den_div_eq_of_coprime (a := (a : ℤ)) (b := (b : ℤ)) (by omega) h
  rw [Int.cast_natCast, Int.cast_natCast] at hnum hden
  exact ⟨hnum, by exact_mod_cast hden⟩

theorem pos_eq (hp : 0 < p) : p = (p.num.natAbs : ℚ) / p.den := by
  have hnum : ((p.num.natAbs : ℤ) : ℚ) = p.num := by
    rw [Int.natAbs_of_nonneg (Rat.num_pos.mpr hp).le]
  rw [Int.cast_natCast] at hnum
  rw [hnum, Rat.num_div_den]

/-- With the common parts `g` of the numerators and `h` of the denominators the fractions are
`A g / E h` and `C g / B h`; what is left over `g / E B h` are the integers `A B` and `C E`. -/
theorem factors_coprime {a b c d : Nat} (ha : 0 < a) (hb : 0 < b) (hd : 0 < d)
    (hab : a.Coprime b) (hcd : c.Coprime d) (hc : 0 < c) :
    ∃ n k : Nat, 0 < k ∧ n.Coprime k ∧ (a / b : ℚ) / (a.gcd c / b.lcm d) = n ∧
      (c / d : ℚ) / (a.gcd c / b.lcm d) = k := by
  obtain ⟨A, C, hAC, hA, hC⟩ := Nat.exists_coprime a c
  obtain ⟨E, B, hEB, hE, hB⟩ := Nat.exists_coprime b d
  have hg : 0 < a.gcd c := Nat.gcd_pos_of_pos_left c ha
  have hh : 0 < b.gcd d := Nat.gcd_pos_of_pos_left d hb
  have hlcm : b.lcm d = E * B * b.gcd d := by
    apply Nat.eq_of_mul_eq_mul_left hh
    rw [Nat.gcd_mul_lcm]
    calc b * d = E * b.gcd d * (B * b.gcd d) := by rw [← hE, ← hB]
      _ = b.gcd d * (E * B * b.gcd d) := by ring
  generalize a.gcd c = g at *
  generalize b.gcd d = h at *
  rw [hlcm]
  subst hA hC hE hB
  have hE0 : 0 < E := Nat.pos_of_mul_pos_right hb
  have hB0 : 0 < B := Nat.pos_of_mul_pos_right hd
  have hC0 : 0 < C := Nat.pos_of_mul_pos_right hc
  have hAE : A.Coprime E :=
    (hab.coprime_dvd_left (Nat.dvd_mul_right A g)).coprime_dvd_right (Nat.dvd_mul_right E h)
  have hCB : C.Coprime B :=
    (hcd.coprime_dvd_left (Nat.dvd_mul_right C g)).coprime_dvd_right (Nat.dvd_mul_right B h)
  have hgq : (g : ℚ) ≠ 0 := by exact_mod_cast hg.ne'
  have hhq : (h : ℚ) ≠ 0 := by exact_mod_cast hh.ne'
  have hEq : (E : ℚ) ≠ 0 := by exact_mod_cast hE0.ne'
  have hBq : (B : ℚ) ≠ 0 := by exact_mod_cast hB0.ne'
  refine ⟨A * B, C * E, Nat.mul_pos hC0 hE0, ?_, ?_, ?_⟩
  · exact (hAC.mul_right hAE).mul_left (hCB.symm.mul_right hEB.symm)
  · push_cast
    field_simp
  · push_cast
    field_simp

/-- the factors of the comparison are the two parts of the factor of the cast -/
theorem commonPeriod_factors (hp : 0 < p) (hq : 0 < q) :
    p / commonPeriod p q = (p / q).num ∧ q / commonPeriod p q = (p / q).den := by
  have hpa : 0 < p.num.natAbs := Int.natAbs_pos.mpr (Rat.num_pos.mpr hp).ne'
  have hqa : 0 < q.num.natAbs := Int.natAbs_pos.mpr (Rat.num_pos.mpr hq).ne'
  obtain ⟨n, k, hk, hcop, hn, hd⟩ :=
    factors_coprime hpa p.den_pos q.den_pos p.reduced q.reduced hqa
  rw [← pos_eq hp] at hn
  rw [← pos_eq hq] at hd
  have hne : commonPeriod p q ≠ 0 := by
    intro h0
    have hk' : (k : ℚ) = 0 := by rw [← hd]; exact (congrArg (q / ·) h0).trans (div_zero q)
    exact hk.ne' (by exact_mod_cast hk')
  have hpq : p / q = (n : ℚ) / k := by
    rw [← hn, ← hd]
    exact (div_div_div_cancel_right₀ hne p q).symm
  obtain ⟨hnum, hden⟩ := parts_of_coprime hk hcop
  rw [hpq, hnum, hden]
  exact ⟨hn.trans (Int.cast_natCast n).symm, hd⟩

end

/-! ## Casts -/

section
variable {m : Mode} {cr tr : IntType} {cf : ℚ} {count x : Int}

/-- where the product is held, the four cases are one -/
theorem durationCast_eq (hc : cr.Holds count) (hx : cr.mul m count cf.num = some x)
    (hxh : cr.Holds x) : durationCast m cr tr cf count = tr.convert m (x.tdiv cf.den) := by
  have hden : (0 : Int) < cf.den := by exact_mod_cast cf.den_pos
  have hone : cf.num = 1 → x = count := by
    intro h1
    rw [h1, IntType.mul, Int.mul_one, IntType.result_of_holds hc] at hx
    exact (Option.some.inj hx).symm
  have hdone : cf.den = 1 → x.tdiv cf.den = x := by
    intro h1
    rw [h1]
    exact Int.tdiv_one x
  have hdiv := IntType.div_of_holds (m := m) hxh hden
  unfold durationCast
  split_ifs with h1 h2 h3
  · rw [hdone h1.2, hone h1.1]
  · rw [IntType.convert_of_holds hc, Option.bind_some, hx, Option.bind_some, hdone h2]
  · rw [IntType.convert_of_holds hc, Option.bind_some, ← hone h3, hdiv, Option.bind_some]
  · rw [IntType.convert_of_holds hc, Option.bind_some, hx, Option.bind_some, hdiv, Option.bind_some]

/-- an undefined product leaves no result -/
theorem durationCast_none (hc : cr.Holds count) (hx : cr.mul m count cf.num = none) :
    durationCast m cr tr cf count = none := by
  have hone : cf.num ≠ 1 := by
    intro h1
    rw [h1, IntType.mul, Int.mul_one, IntType.result_of_holds hc] at hx
    cases hx
  unfold durationCast
  rw [if_neg fun h => hone h.1, if_neg hone, IntType.convert_of_holds hc, Option.bind_some,
    Option.bind_some, hx]
  split_ifs <;> rfl

/-- a cast by an integer -/
theorem durationCast_int {k : Int} (hc : cr.Holds count) (hx : cr.mul m count k = some x)
    (hxh : cr.Holds x) : durationCast m cr cr (k : ℚ) count = some x := by
  have hcast : durationCast m cr cr (k : ℚ) count = cr.convert m (x.tdiv (k : ℚ).den) :=
    durationCast_eq hc (by rw [Rat.num_intCast]; exact hx) hxh
  rw [hcast, Rat.den_intCast, Nat.cast_one, Int.tdiv_one]
  exact IntType.convert_of_holds hxh

end

/-! ## `ceil` -/

/-- the product is held, and the result is a signed 64-bit count -/
def Fits (q : ℚ) (r : IntType) (p : ℚ) (count : Int) : Prop :=
  r.common.Holds (count * (p / q).num) ∧
    count * (p / q).num ≤ 9223372036854775807 * (p / q).den

section
variable {m : Mode} {p q : ℚ} {r : IntType} {count : Int}

/-- the comparison, when its two sides are held -/
theorem lessThan_eq (hp : 0 < p) (hq : 0 < q) {t x y : Int} (hc : r.common.Holds count)
    (ht : r.common.Holds t) (hx : r.common.mul m t (p / q).den = some x) (hxh : r.common.Holds x)
    (hy : r.common.mul m count (p / q).num = some y) (hyh : r.common.Holds y) :
    lessThan m q t r p count = some (decide (x < y)) := by
  obtain ⟨hpf, hqf⟩ := commonPeriod_factors hp hq
  have hqf' : q / commonPeriod p q = (((p / q).den : ℤ) : ℚ) := by rw [hqf, Int.cast_natCast]
  unfold lessThan
  rw [hpf, hqf', durationCast_int ht hx hxh, durationCast_int hc hy hyh]
  rfl

/-- a multiple of the target period against the duration, in whole numbers -/
theorem le_iff (hq : 0 < q) (n : Int) :
    (count : ℚ) * p ≤ n * q ↔ count * (p / q).num ≤ n * (p / q).den := by
  have hd : (0 : ℚ) < (p / q).den := by exact_mod_cast (p / q).den_pos
  have hpq : p = (p / q).num / (p / q).den * q := by
    rw [Rat.num_div_den]
    exact (div_mul_cancel₀ p hq.ne').symm
  have hleft : (count : ℚ) * p = count * (p / q).num / (p / q).den * q := by
    conv_lhs => rw [hpq]
    ring
  rw [hleft, mul_le_mul_iff_left₀ hq, div_le_iff₀ hd]
  exact_mod_cast Iff.rfl

/-- the quotient, or the next integer when it is too small -/
def roundUp (c d : Int) : Int := if c.tdiv d * d < c then c.tdiv d + 1 else c.tdiv d

theorem roundUp_bounds {c d : Int} (hd : 0 < d) : (roundUp c d - 1) * d < c ∧ c ≤ roundUp c d * d := by
  obtain ⟨hpos, hneg⟩ := IntType.tdiv_spec c hd
  unfold roundUp
  rw [Int.sub_mul, Int.one_mul]
  rcases Int.le_total 0 c with hc | hc
  · obtain ⟨h0, h1, h2⟩ := hpos hc
    split_ifs with hlt
    · rw [Int.add_mul, Int.one_mul]
      exact ⟨by omega, by omega⟩
    · exact ⟨by omega, by omega⟩
  · obtain ⟨h0, h1, h2⟩ := hneg hc
    rw [if_neg (by omega)]
    exact ⟨h2, h1⟩

/-- the quotient of a value in the range, and its successor where `ceil` adds one -/
theorem quotient_holds {c d : Int} (hd : 0 < d) (hlow : -9223372036854775808 ≤ c)
    (htop : c ≤ 9223372036854775807 * d) :
    int64.Holds (c.tdiv d) ∧ (c.tdiv d * d < c → int64.Holds (c.tdiv d + 1)) := by
  obtain ⟨hpos, hneg⟩ := IntType.tdiv_spec c hd
  rw [IntType.int64_holds, IntType.int64_holds]
  rcases Int.le_total 0 c with hc | hc
  · obtain ⟨h0, h1, -⟩ := hpos hc
    have hle : c.tdiv d ≤ 9223372036854775807 := Int.le_of_mul_le_mul_right (by omega) hd
    refine ⟨by omega, fun hlt => ?_⟩
    have hlt' : c.tdiv d < 9223372036854775807 :=
      lt_of_mul_lt_mul_right (show c.tdiv d * d < 9223372036854775807 * d by omega) hd.le
    omega
  · obtain ⟨h0, h1, -⟩ := hneg hc
    have hle : -c.tdiv d ≤ -c.tdiv d * d := le_mul_of_one_le_right (by omega) hd
    rw [Int.neg_mul] at hle
    exact ⟨by omega, fun hlt => by omega⟩

/-- Inside of the range `ceil` is exact: the least count that is not less than the duration. -/
theorem ceil_of_fits (hp : 0 < p) (hq : 0 < q) (hc : r.common.Holds count)
    (h : Fits q r p count) (m : Mode) :
    ceil m q r p count = some (roundUp (count * (p / q).num) (p / q).den) := by
  obtain ⟨hprod, htop⟩ := h
  have hden : (0 : Int) < (p / q).den := by exact_mod_cast (p / q).den_pos
  have hlow : -9223372036854775808 ≤ count * (p / q).num := by
    have hlo := hprod.1
    unfold IntType.common at hlo
    split_ifs at hlo
    · exact hlo
    · exact Int.le_trans (by decide) hlo
  obtain ⟨ht, hsucc⟩ := quotient_holds hden hlow htop
  have hmul : r.common.mul m count (p / q).num = some (count * (p / q).num) :=
    IntType.result_of_holds hprod
  have hcast : durationCast m r.common int64 (p / q) count = _ := durationCast_eq hc hmul hprod
  -- the product of the comparison lies between the exact one and zero
  have hback : r.common.Holds ((count * (p / q).num).tdiv (p / q).den * (p / q).den) := by
    obtain ⟨hpos, hneg⟩ := IntType.tdiv_spec (count * (p / q).num) hden
    rcases Int.le_total 0 (count * (p / q).num) with h0 | h0
    · obtain ⟨h1, h2, -⟩ := hpos h0
      exact hprod.between (.inl ⟨Int.mul_nonneg h1 hden.le, h2⟩)
    · obtain ⟨h1, h2, -⟩ := hneg h0
      exact hprod.between (.inr ⟨h2, Int.mul_nonpos_of_nonpos_of_nonneg h1 hden.le⟩)
  have hless := lessThan_eq hp hq hc (hprod.tdiv hden) (IntType.result_of_holds hback) hback hmul hprod
  unfold ceil roundUp
  rw [hcast, IntType.convert_of_holds ht, Option.bind_some, hless, Option.bind_some]
  by_cases hlt : (count * (p / q).num).tdiv (p / q).den * (p / q).den < count * (p / q).num
  · rw [if_pos hlt, if_pos (decide_eq_true hlt)]
    exact IntType.result_of_holds (hsucc hlt)
  · rw [if_neg hlt, if_neg (by simpa using hlt)]

/-- the rounded quotient is the least count -/
theorem roundUp_isLeast (hq : 0 < q) :
    IsLeast {k : ℤ | (count : ℚ) * p ≤ k * q} (roundUp (count * (p / q).num) (p / q).den) := by
  have hden : (0 : Int) < (p / q).den := by exact_mod_cast (p / q).den_pos
  obtain ⟨hlt, hle⟩ := roundUp_bounds (c := count * (p / q).num) hden
  refine ⟨(le_iff hq _).mpr hle, fun k hk => ?_⟩
  have hk' := (le_iff hq k).mp hk
  have := lt_of_mul_lt_mul_right (hlt.trans_le hk') hden.le
  omega

section
variable {x n : Int} (hp : 0 < p) (hq : 0 < q) (hr : r.common = uint64) (hc : uint64.Holds count)
  (hx : uint64.mul .language count (p / q).num = some x) (hxh : uint64.Holds x)
  (hn : ceil .language q r p count = some n)

include hp hq hr hc hx hxh hn

/-- `ceil` with a wrapped product `x`: the quotient, or its successor, when it is a signed count -/
theorem ceil_wrapped (ht : x.tdiv (p / q).den ≤ 9223372036854775807) :
    int64.Holds n ∧ n * (p / q).den < x + (p / q).den := by
  have hden : (0 : Int) < (p / q).den := by exact_mod_cast (p / q).den_pos
  obtain ⟨h0, h1, -⟩ := (IntType.tdiv_spec x hden).1 hxh.1
  have hheld : int64.Holds (x.tdiv (p / q).den) := by
    rw [IntType.int64_holds]
    omega
  have hback : uint64.Holds (x.tdiv (p / q).den * (p / q).den) :=
    hxh.between (.inl ⟨Int.mul_nonneg h0 hden.le, h1⟩)
  have hcast : durationCast .language uint64 int64 (p / q) count = _ := durationCast_eq hc hx hxh
  have hless : lessThan .language q (x.tdiv (p / q).den) r p count =
      some (decide (x.tdiv (p / q).den * (p / q).den < x)) := by
    refine lessThan_eq hp hq ?_ ?_ ?_ ?_ ?_ ?_ <;> rw [hr]
    · exact hc
    · exact hxh.tdiv hden
    · exact IntType.result_of_holds hback
    · exact hback
    · exact hx
    · exact hxh
  unfold ceil at hn
  rw [hr, hcast, IntType.convert_of_holds hheld, Option.bind_some, hless, Option.bind_some] at hn
  by_cases hlt : x.tdiv (p / q).den * (p / q).den < x
  · rw [if_pos (decide_eq_true hlt)] at hn
    obtain ⟨hsucc, rfl⟩ := IntType.int64_result hn
    rw [Int.add_mul, Int.one_mul]
    exact ⟨hsucc, by omega⟩
  · rw [if_neg (by simpa using hlt)] at hn
    cases hn
    exact ⟨hheld, by omega⟩

/-- with a quotient above the signed range, which only a factor without denominator can have, the
count becomes negative -/
theorem ceil_negative (ht : 9223372036854775807 < x.tdiv (p / q).den) : int64.Holds n ∧ n < 0 := by
  have hden : (0 : Int) < (p / q).den := by exact_mod_cast (p / q).den_pos
  obtain ⟨h0, h1, -⟩ := (IntType.tdiv_spec x hden).1 hxh.1
  have hxh' := IntType.uint64_holds.mp hxh
  have hone : (p / q).den = 1 := by
    by_contra hne
    have h2 : (2 : Int) ≤ (p / q).den := by omega
    have := Int.mul_le_mul_of_nonneg_left h2 h0
    omega
  have hquot : x.tdiv (p / q).den = x := by
    rw [hone]
    exact Int.tdiv_one x
  rw [hquot] at ht
  obtain ⟨hthere, hback⟩ := IntType.convert_above ht hxh'.2
  obtain ⟨hpf, hqf⟩ := commonPeriod_factors hp hq
  have hcast : durationCast .language uint64 int64 (p / q) count = _ := durationCast_eq hc hx hxh
  -- the comparison converts it back, and finds it equal
  have hfirst : durationCast .language uint64 uint64 (q / commonPeriod p q)
      (x - 18446744073709551616) = some x := by
    rw [hqf, hone]
    exact hback
  have hless : lessThan .language q (x - 18446744073709551616) r p count = some false := by
    unfold lessThan
    rw [hr, hfirst, hpf, durationCast_int hc hx hxh, Option.bind_some, Option.map_some,
      decide_eq_false (Int.lt_irrefl x)]
  unfold ceil at hn
  rw [hr, hcast, hquot, hthere, Option.bind_some, hless, Option.bind_some] at hn
  cases hn
  rw [IntType.int64_holds]
  omega

end

/-- Outside of the range there is no result, or a count that is less than the duration. -/
theorem ceil_short (hp : 0 < p) (hq : 0 < q) (hd : (p / q).den < 2 ^ 63)
    (hc : r.common.Holds count) (h : ¬ Fits q r p count) {n : Int}
    (hn : ceil .language q r p count = some n) :
    0 < count ∧ int64.Holds n ∧ n * (p / q).den < count * (p / q).num := by
  have hden : (0 : Int) < (p / q).den := by exact_mod_cast (p / q).den_pos
  have hnum : 0 < (p / q).num := Rat.num_pos.mpr (div_pos hp hq)
  unfold Fits at h
  rcases r.common_cases with hr | hr <;> rw [hr] at hc h
  · -- a signed product is undefined
    have hnot : ¬ int64.Holds (count * (p / q).num) := by
      intro hheld
      refine h ⟨hheld, hheld.2.trans ?_⟩
      exact le_mul_of_one_le_right (by decide) hden
    have hmul : int64.mul .language count (p / q).num = none := by
      unfold IntType.mul IntType.result
      rw [if_neg hnot]
      rfl
    unfold ceil at hn
    rw [hr, durationCast_none hc hmul] at hn
    cases hn
  · obtain ⟨hmul, hheld⟩ := IntType.uint64_mul count (p / q).num
    have hpos : 0 ≤ count * (p / q).num := Int.mul_nonneg hc.1 hnum.le
    have hcount : 0 < count := by
      refine lt_of_le_of_ne hc.1 ?_
      rintro rfl
      rw [Int.zero_mul] at h
      exact h ⟨by decide, by omega⟩
    refine ⟨hcount, ?_⟩
    by_cases ht : (count * (p / q).num % 18446744073709551616).tdiv (p / q).den ≤
      9223372036854775807
    · obtain ⟨hn64, hlt⟩ := ceil_wrapped hp hq hr hc hmul hheld hn ht
      refine ⟨hn64, ?_⟩
      by_cases hbig : 18446744073709551616 ≤ count * (p / q).num
      · -- the product lost at least one modulus, which is more than the denominator
        have : ((p / q).den : Int) < 9223372036854775808 := by exact_mod_cast hd
        omega
      · have htop : 9223372036854775807 * ((p / q).den : Int) < count * (p / q).num := by
          by_contra hle
          exact h ⟨IntType.uint64_holds.mpr ⟨hpos, by omega⟩, by omega⟩
        exact (Int.mul_le_mul_of_nonneg_right hn64.2 hden.le).trans_lt htop
    · obtain ⟨hn64, hneg⟩ := ceil_negative hp hq hr hc hmul hheld hn (Int.not_le.mp ht)
      exact ⟨hn64, (Int.mul_neg_of_neg_of_pos hneg hden).trans_le hpos⟩

end

end Chrono
