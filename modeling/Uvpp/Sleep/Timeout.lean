import Mathlib.Data.Rat.Floor
import Mathlib.Tactic.NormNum
import Uvpp.Machine.Chrono
import Uvpp.Core.Errno

/-!
# The timeout of a sleep

`sleep_for` turns a duration into the milliseconds of `uv_timer_start` (`co/sleep.hpp`); the raw
`timer` has its own conversion (`handles/timer.hpp`).

* `timerTimeout`        `timer_timeout`, by `std::chrono::ceil` to milliseconds;
* `Awaited`             the timeout that a duration asks for;
* `sleep_timeout_iff`   the durations that get it, all others get none or a shorter one;
* `millis_eq`           the conversion of `timer`, which refuses what it cannot represent.
-/

namespace Sleep
open Errno Chrono

/-- a period whose factor to milliseconds is a `std::ratio` -/
structure Period where
  seconds : ℚ
  pos : 0 < seconds
  num_lt : (seconds / (1 / 1000)).num < 2 ^ 63
  den_lt : (seconds / (1 / 1000)).den < 2 ^ 63

/-- an integral type of at most 64 bits -/
structure Rep where
  type : IntType
  bits_le : type.bits ≤ 64

/-- `std::milli` -/
def milli : ℚ := 1 / 1000

/-- `ceil<std::chrono::milliseconds>` and the conversion to `uint64_t` -/
def timerTimeout (m : Mode) (r : Rep) (p : Period) (count : Int) : Option Nat :=
  (ceil m milli r.type p.seconds count).map fun milliseconds =>
    if milliseconds > 0 then milliseconds.toNat else 0

/-- `sleep_awaiter`, as far as its timer is concerned -/
structure Awaiter where
  timeout : Nat
deriving DecidableEq

def sleepFor (m : Mode) (r : Rep) (p : Period) (count : Int) : Option Awaiter :=
  (timerTimeout m r p count).map Awaiter.mk

/-- the timeout and the repeat that `await_suspend` passes to `uv_timer_start` -/
def Awaiter.start (a : Awaiter) : Nat × Nat := (a.timeout, 0)

/-- nothing for a duration that is not positive, else the least number of milliseconds that is not
less than it, or the largest timeout there is -/
def Awaited (p : Period) (count : Int) (timeout : Nat) : Prop :=
  if count ≤ 0 then timeout = 0
  else ∃ n : ℕ, IsLeast {k : ℕ | (count : ℚ) * p.seconds ≤ k * milli} n ∧ timeout = min n (2 ^ 64 - 1)

/-- the counts that the computation can represent: the product with the numerator of the factor in
the common type of `Rep` and `intmax_t`, and the milliseconds in `int64_t` -/
def Representable (r : Rep) (p : Period) (count : Int) : Prop := Fits milli r.type p.seconds count

section
variable {r : Rep} {p : Period} {count : Int}

theorem milli_pos : 0 < milli := by
  unfold milli
  norm_num

/-- the natural numbers among the upper bounds of a positive duration -/
theorem isLeast_toNat {n : Int} (hcount : 0 < count)
    (h : IsLeast {k : ℤ | (count : ℚ) * p.seconds ≤ k * milli} n) :
    0 < n ∧ IsLeast {k : ℕ | (count : ℚ) * p.seconds ≤ k * milli} n.toNat := by
  have hd : (0 : ℚ) < count * p.seconds := mul_pos (by exact_mod_cast hcount) p.pos
  have hn : 0 < n := by
    have hpos : (0 : ℚ) < n := pos_of_mul_pos_left (hd.trans_le h.1) milli_pos.le
    exact_mod_cast hpos
  have hcast : ((n.toNat : ℕ) : ℚ) = n := by
    rw [← Int.cast_natCast, Int.toNat_of_nonneg hn.le]
  refine ⟨hn, ?_, fun k hk => ?_⟩
  · show (count : ℚ) * p.seconds ≤ (n.toNat : ℕ) * milli
    rw [hcast]
    exact h.1
  · have hle : n ≤ (k : ℤ) := h.2 (show (count : ℚ) * p.seconds ≤ ((k : ℤ) : ℚ) * milli by
      rw [Int.cast_natCast]
      exact hk)
    omega

/-- the milliseconds of a representable duration -/
theorem timerTimeout_of_representable (hc : r.type.Holds count) (h : Representable r p count)
    (m : Mode) : ∃ t, timerTimeout m r p count = some t ∧ Awaited p count t := by
  have hden : (0 : Int) < (p.seconds / milli).den := by
    exact_mod_cast (p.seconds / milli).den_pos
  have hleast : IsLeast {k : ℤ | (count : ℚ) * p.seconds ≤ k * milli} _ :=
    roundUp_isLeast milli_pos
  obtain ⟨hlow, -⟩ := roundUp_bounds (c := count * (p.seconds / milli).num) hden
  have htop : roundUp (count * (p.seconds / milli).num) (p.seconds / milli).den ≤
      9223372036854775807 := by
    have := lt_of_mul_lt_mul_right (hlow.trans_le h.2) hden.le
    omega
  unfold timerTimeout Awaited
  rw [ceil_of_fits p.pos milli_pos (hc.common r.bits_le) h m, Option.map_some]
  refine ⟨_, rfl, ?_⟩
  generalize roundUp (count * (p.seconds / milli).num) (p.seconds / milli).den = n at hleast htop
  split_ifs with h0 hn hn
  · -- zero milliseconds are not less than a duration that is not positive
    have hle : n ≤ 0 := by
      refine hleast.2 ?_
      show (count : ℚ) * p.seconds ≤ ((0 : ℤ) : ℚ) * milli
      rw [Int.cast_zero, zero_mul]
      exact mul_nonpos_of_nonpos_of_nonneg (by exact_mod_cast h0) p.pos.le
    omega
  · rfl
  · obtain ⟨-, hnat⟩ := isLeast_toNat (by omega) hleast
    refine ⟨n.toNat, hnat, ?_⟩
    rw [Nat.min_eq_left]
    omega
  · exact absurd (isLeast_toNat (by omega) hleast).1 hn

/-- any other duration is not awaited to its end -/
theorem timerTimeout_short (hc : r.type.Holds count) (h : ¬ Representable r p count) {t : Nat}
    (ht : timerTimeout .language r p count = some t) :
    0 < count ∧ t < 2 ^ 63 ∧ (t : ℚ) * milli < count * p.seconds := by
  obtain ⟨n, hn, rfl⟩ := Option.map_eq_some_iff.mp ht
  obtain ⟨hcount, hheld, hlt⟩ :=
    ceil_short p.pos milli_pos p.den_lt (hc.common r.bits_le) h hn
  have hd : (0 : ℚ) < count * p.seconds := mul_pos (by exact_mod_cast hcount) p.pos
  rw [IntType.int64_holds] at hheld
  refine ⟨hcount, ?_, ?_⟩
  · split_ifs <;> omega
  · split_ifs with hpos
    · have hnot : ¬ (count : ℚ) * p.seconds ≤ n * milli :=
        mt (le_iff milli_pos n).mp (Int.not_le.mpr hlt)
      have hcast : ((n.toNat : ℕ) : ℚ) = n := by
        rw [← Int.cast_natCast, Int.toNat_of_nonneg hpos.le]
      rw [hcast]
      exact not_le.mp hnot
    · rw [Nat.cast_zero, zero_mul]
      exact hd

end

/-- For every integral duration of at most 64 bits and every period, the timer gets the awaited
timeout, and nothing overflows or wraps on the way, if and only if the duration is representable. -/
theorem sleep_timeout_iff (r : Rep) (p : Period) (count : Int) (hc : r.type.Holds count) :
    ((∃ a, sleepFor .language r p count = some a ∧ Awaited p count a.start.1 ∧ a.start.2 = 0) ↔
        Representable r p count) ∧
      (Representable r p count → ∃ a, sleepFor .strict r p count = some a ∧
        sleepFor .language r p count = some a) ∧
      (¬ Representable r p count → ∀ a, sleepFor .language r p count = some a →
        (a.start.1 : ℚ) * milli < count * p.seconds) := by
  have hsome : ∀ m a, sleepFor m r p count = some a ↔ timerTimeout m r p count = some a.timeout := by
    intro m a
    unfold sleepFor
    constructor
    · intro h
      obtain ⟨t, ht, rfl⟩ := Option.map_eq_some_iff.mp h
      exact ht
    · intro h
      rw [h]
      rfl
  refine ⟨⟨fun ⟨a, ha, hawaited, _⟩ => ?_, fun h => ?_⟩, fun h => ?_, fun h a ha => ?_⟩
  · by_contra h
    obtain ⟨hcount, hlt, hshort⟩ := timerTimeout_short hc h ((hsome _ a).mp ha)
    unfold Awaited at hawaited
    rw [if_neg (by omega)] at hawaited
    obtain ⟨n, hleast, hmin⟩ := hawaited
    -- a timeout below the largest one is the least number itself, which is not less
    have hn : a.timeout = n := by
      have hmin' : a.timeout = min n (2 ^ 64 - 1) := hmin
      omega
    rw [hn] at hshort
    exact absurd hleast.1 (not_le.mpr hshort)
  · obtain ⟨t, ht, hawaited⟩ := timerTimeout_of_representable hc h .language
    exact ⟨⟨t⟩, (hsome _ ⟨t⟩).mpr ht, hawaited, rfl⟩
  · have hfits := ceil_of_fits p.pos milli_pos (hc.common r.bits_le) h
    unfold sleepFor timerTimeout
    rw [hfits, hfits]
    exact ⟨_, rfl, rfl⟩
  · exact (timerTimeout_short hc h ((hsome _ a).mp ha)).2.2

def seconds : Period := ⟨1, by decide, by decide +kernel, by decide +kernel⟩

def nanoseconds : Period := ⟨1 / 1000000000, by decide +kernel, by decide +kernel, by decide +kernel⟩

def int64Rep : Rep := ⟨IntType.int64, by decide⟩

def uint64Rep : Rep := ⟨IntType.uint64, by decide⟩

/-- a nanosecond is a millisecond -/
theorem sleep_timeout_iff_nanosecond :
    sleepFor .language int64Rep nanoseconds 1 = some ⟨1⟩ ∧ Awaited nanoseconds 1 1 := by
  obtain ⟨a, ha, hawaited, -⟩ := (sleep_timeout_iff int64Rep nanoseconds 1 (by decide)).1.mpr
    ⟨by decide +kernel, by decide +kernel⟩
  have hone : sleepFor .language int64Rep nanoseconds 1 = some ⟨1⟩ := by decide +kernel
  cases hone.symm.trans ha
  exact ⟨hone, hawaited⟩

/-- An unsigned number of seconds that wraps: some hundred million years are 384 milliseconds. -/
theorem sleep_wrapped :
    uint64Rep.type.Holds 18446744073709552 ∧
      sleepFor .language uint64Rep seconds 18446744073709552 = some ⟨384⟩ ∧
      (384 : ℚ) * milli < 18446744073709552 * seconds.seconds ∧
      ¬ Awaited seconds 18446744073709552 384 ∧
      sleepFor .language int64Rep seconds 9223372036854775807 = none := by
  have hshort : (384 : ℚ) * milli < 18446744073709552 * seconds.seconds := by decide +kernel
  refine ⟨by decide, by decide +kernel, hshort, fun h => ?_, by decide +kernel⟩
  unfold Awaited at h
  rw [if_neg (by decide)] at h
  obtain ⟨n, hleast, hmin⟩ := h
  have hn : n = 384 := by omega
  have hle : ((18446744073709552 : ℤ) : ℚ) * seconds.seconds ≤ (n : ℚ) * milli := hleast.1
  rw [hn] at hle
  exact absurd hle (not_le.mpr (by exact_mod_cast hshort))

/-! ## The conversion of `timer` -/

/-- `timer::millis` for an integral duration whose factor has a part that is one; floating-point
durations and other factors go through `long double` -/
def millis (p : Period) (count : Int) : Except Int Nat :=
  if count ≤ 0 then .ok 0
  else if (p.seconds / milli).num = 1 then .ok (count.toNat / (p.seconds / milli).den)
  else if count.toNat > (2 ^ 64 - 1) / (p.seconds / milli).num.toNat then .error einval
  else .ok (count.toNat * (p.seconds / milli).num.toNat)

/-- It rounds down instead of up, and refuses a timeout that is not representable. -/
theorem millis_eq (r : Rep) (p : Period) (count : Int) (hc : r.type.Holds count)
    (hf : (p.seconds / milli).num = 1 ∨ (p.seconds / milli).den = 1) :
    millis p count = if ⌊(count : ℚ) * (p.seconds / milli)⌋ < 2 ^ 64 then
      .ok ⌊(count : ℚ) * (p.seconds / milli)⌋.toNat else .error einval := by
  have hscale : 0 < p.seconds / milli := div_pos p.pos milli_pos
  have hnum : 0 < (p.seconds / milli).num := Rat.num_pos.mpr hscale
  have hden : (0 : ℤ) < (p.seconds / milli).den := by exact_mod_cast (p.seconds / milli).den_pos
  have hfloor : ⌊(count : ℚ) * (p.seconds / milli)⌋ =
      count * (p.seconds / milli).num / (p.seconds / milli).den := by
    have heq : (count : ℚ) * (p.seconds / milli) =
        ((count * (p.seconds / milli).num : ℤ) : ℚ) / (p.seconds / milli).den := by
      conv_lhs => rw [← Rat.num_div_den (p.seconds / milli)]
      push_cast
      ring
    rw [heq, Rat.floor_intCast_div_natCast]
  have hmax : count ≤ 18446744073709551615 := by
    have hle := (hc.common r.bits_le).2
    rcases r.type.common_cases with hr | hr <;> rw [hr] at hle
    · exact Int.le_trans hle (by decide)
    · exact hle
  rw [hfloor]
  unfold millis
  generalize (p.seconds / milli).num = n at *
  generalize (p.seconds / milli).den = d at *
  by_cases h0 : count ≤ 0
  · -- nothing is left of a duration that is not positive
    have hprod : count * n ≤ 0 := Int.mul_nonpos_of_nonpos_of_nonneg h0 hnum.le
    have hle : count * n / (d : ℤ) ≤ 0 :=
      (Int.ediv_le_ediv hden hprod).trans (Int.zero_ediv _).le
    rw [if_pos h0, if_pos (by omega), Int.toNat_of_nonpos hle]
  rw [if_neg h0]
  obtain ⟨c, rfl⟩ := Int.eq_ofNat_of_zero_le (show 0 ≤ count by omega)
  obtain ⟨k, rfl⟩ := Int.eq_ofNat_of_zero_le hnum.le
  by_cases h1 : (k : ℤ) = 1
  · have hdiv : c / d ≤ c := Nat.div_le_self c d
    rw [if_pos h1, h1, Int.mul_one, ← Int.natCast_ediv, if_pos (by omega)]
    rfl
  · have hd : d = 1 := hf.resolve_left h1
    rw [if_neg h1, hd, Nat.cast_one, Int.ediv_one, ← Int.natCast_mul, Int.toNat_natCast,
      Int.toNat_natCast, Int.toNat_natCast]
    by_cases hbig : c > (2 ^ 64 - 1) / k
    · have hlt := (Nat.div_lt_iff_lt_mul (by omega)).mp hbig
      rw [if_pos hbig, if_neg (by omega)]
    · have hle := (Nat.le_div_iff_mul_le (by omega)).mp (Nat.not_lt.mp hbig)
      rw [if_neg hbig, if_pos (by omega)]

theorem millis_eq_second : millis seconds 1 = .ok 1000 :=
  (millis_eq int64Rep seconds 1 (by decide) (.inr (by decide +kernel))).trans (by decide +kernel)

end Sleep
