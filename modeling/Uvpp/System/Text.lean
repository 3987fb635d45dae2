import Mathlib.Algebra.Group.Nat.Defs
import Mathlib.Order.Lattice
import Uvpp.Core.Errno

/-!
# Texts of unknown length

`os_string` and `environment_variable` of `misc/system.hpp`: libuv writes into a buffer, which grows
as long as it says `UV_ENOBUFS`.  The text may be another one at each call.

* `rounds`               the loop, with fuel and with the sizes that can be allocated;
* `Serves`               a libuv function that fails, or reports the text, of each call;
* `text_of_a_call`       **both functions end, with the outcome of one of their calls**;
* `truncated_text`       what `exepath` makes of `uv_exepath`, which never says `UV_ENOBUFS`.
-/

namespace SystemText
open Errno

abbrev Bytes := List UInt8

/-- the result of a lookup: the size it leaves, and what it has written -/
structure Answer where
  status : Int
  size : Nat
  bytes : Bytes

inductive Thrown where
  | error (status : Int)
  /-- `std::bad_alloc` or `std::length_error` -/
  | assign
deriving DecidableEq

def grown (n size : Nat) : Nat := if size > n then (size + 1) % 2 ^ 64 else n * 2 % 2 ^ 64

/-- the buffer of `n` zeros that was written to, cut to the size, without the last zero -/
def trimmed (n : Nat) (a : Answer) : Bytes :=
  let text := ((a.bytes ++ List.replicate n 0).take n).take (min a.size n)
  if text.getLast? = some 0 then text.dropLast else text

/-- from call `k` on, with a buffer of `n` bytes; `absent` is set if `UV_ENOENT` is no error -/
def rounds (absent : Bool) (lookup : Nat → Nat → Answer) (room : Nat → Bool) :
    Nat → Nat → Nat → Option (Except Thrown (Option Bytes))
  | 0, _, _ => none
  | fuel + 1, k, n =>
    let a := lookup k n
    if absent && a.status = enoent then some (.ok none)
    else if a.status = enobufs then
      if room (grown n a.size) then rounds absent lookup room fuel (k + 1) (grown n a.size)
      else some (.error .assign)
    else if a.status < 0 then some (.error (.error a.status))
    else some (.ok (some (trimmed n a)))

def osString (lookup : Nat → Nat → Answer) (room : Nat → Bool) (fuel initialSize : Nat) :
    Option (Except Thrown (Option Bytes)) :=
  if room initialSize then rounds false lookup room fuel 0 initialSize else some (.error .assign)

def environmentVariable (lookup : Nat → Nat → Answer) (room : Nat → Bool) (fuel : Nat) :
    Option (Except Thrown (Option Bytes)) :=
  if room 256 then rounds true lookup room fuel 0 256 else some (.error .assign)

/-! ## what libuv answers -/

/-- `a` tells the text `s`; its size may count the zero -/
structure Tells (a : Answer) (s : Bytes) : Prop where
  status : 0 ≤ a.status
  bytes : a.bytes = s ++ [0]
  size : a.size = s.length ∨ a.size = s.length + 1

/-- Call `k` fails, or has a text that is told to buffers of `need k` bytes and more.  Smaller ones
get `UV_ENOBUFS` with a size that may be short of it, and an empty one anything. -/
structure Serves (lookup : Nat → Nat → Answer) (v : Nat → Except Int Bytes) (need : Nat → Nat) :
    Prop where
  fails : ∀ k e, v k = .error e →
    e < 0 ∧ e ≠ enobufs ∧ ∀ n, 0 < n → (lookup k n).status = e
  text : ∀ k s, v k = .ok s → 0 ∉ s ∧ s.length < need k
  fits : ∀ k s n, v k = .ok s → need k ≤ n → Tells (lookup k n) s
  short : ∀ k s n, v k = .ok s → 0 < n → n < need k →
    (lookup k n).status = enobufs ∧ (lookup k n).size ≤ need k

/-- `uv_os_getenv`, while the environment changes -/
def getenv (env : Nat → Option Bytes) (k n : Nat) : Answer :=
  if n = 0 then ⟨einval, n, []⟩
  else
    match env k with
    | none => ⟨enoent, n, []⟩
    | some s => if n ≤ s.length then ⟨enobufs, s.length + 1, []⟩ else ⟨0, s.length, s ++ [0]⟩

/-- what a call of `uv_os_getenv` finds -/
def found (env : Nat → Option Bytes) (k : Nat) : Except Int Bytes :=
  match env k with
  | none => .error enoent
  | some s => .ok s

theorem getenv_serves {env : Nat → Option Bytes} (h : ∀ k s, env k = some s → 0 ∉ s) :
    Serves (getenv env) (found env) fun k => ((env k).getD []).length + 1 := by
  have hsome : ∀ k s, found env k = .ok s → env k = some s := by
    intro k s hk
    unfold found at hk
    split at hk <;> cases hk
    assumption
  refine ⟨fun k e hk => ?_, fun k s hk => ?_, fun k s n hk hn => ?_, fun k s n hk hn hlt => ?_⟩
  · unfold found at hk
    split at hk <;> cases hk
    rename_i hnone
    refine ⟨by decide, by decide, fun n hn => ?_⟩
    simp [getenv, hnone, Nat.pos_iff_ne_zero.mp hn]
  · rw [hsome k s hk]
    exact ⟨h k s (hsome k s hk), Nat.lt_succ_self _⟩
  · rw [hsome k s hk, Option.getD_some] at hn
    unfold getenv
    rw [if_neg (by omega), hsome k s hk]
    dsimp only
    rw [if_neg (by omega)]
    exact ⟨le_rfl, rfl, .inl rfl⟩
  · rw [hsome k s hk, Option.getD_some] at hlt
    unfold getenv
    rw [if_neg (by omega), hsome k s hk]
    dsimp only
    rw [if_pos (by omega)]
    exact ⟨rfl, le_rfl⟩

/-! ## the loop -/

theorem trimmed_text {a : Answer} {n : Nat} {s : Bytes} (hs : 0 ∉ s) (hn : s.length < n)
    (ha : Tells a s) : trimmed n a = s := by
  have hbuf : (s ++ [0] ++ List.replicate n 0).take n =
      s ++ List.replicate (n - s.length) (0 : UInt8) := by
    rw [List.append_assoc, List.singleton_append, ← List.replicate_succ, List.take_append,
      List.take_of_length_le hn.le, List.take_replicate, min_eq_left (by omega)]
  have hlast : s.getLast? ≠ some 0 := fun h => hs (List.mem_of_getLast? h)
  unfold trimmed
  rw [ha.bytes, hbuf]
  rcases ha.size with h | h
  · rw [h, min_eq_left hn.le, List.take_left' rfl, if_neg hlast]
  · have htake : (s ++ List.replicate (n - s.length) (0 : UInt8)).take (s.length + 1) =
        s ++ [0] := by
      rw [List.take_append, List.take_of_length_le (Nat.le_succ _), Nat.add_sub_cancel_left,
        List.take_replicate, min_eq_left (by omega)]
      rfl
    rw [h, min_eq_left hn, htake, if_pos (List.getLast?_concat ..), List.dropLast_concat]

/-- a refused size was too small for a text, so the next one is larger and not too large -/
theorem grown_bounds {n size L : Nat} (hn : 0 < n) (hnL : n < L) (hsize : size ≤ L)
    (hL : L < 2 ^ 63) : n < grown n size ∧ grown n size ≤ 2 * L := by
  unfold grown
  split
  · rw [Nat.mod_eq_of_lt (by omega)]
    omega
  · rw [Nat.mod_eq_of_lt (by omega)]
    omega

/-- what the caller gets of the outcome of a call -/
def result (absent : Bool) : Except Int Bytes → Except Thrown (Option Bytes)
  | .ok s => .ok (some s)
  | .error e => if absent && e = enoent then .ok none else .error (.error e)

section
variable {absent : Bool} {lookup : Nat → Nat → Answer} {room : Nat → Bool} {fuel k n : Nat}

/-- the call that tells the text is the last one -/
theorem rounds_tells {s : Bytes} (hs : 0 ∉ s) (hn : s.length < n) (ha : Tells (lookup k n) s) :
    rounds absent lookup room (fuel + 1) k n = some (.ok (some s)) := by
  have hst := ha.status
  have hne : (lookup k n).status ≠ enoent := by unfold enoent; omega
  have hnb : (lookup k n).status ≠ enobufs := by unfold enobufs; omega
  unfold rounds
  simp only [hne, decide_false, Bool.and_false, Bool.false_eq_true, if_false, hnb, not_lt.mpr hst,
    trimmed_text hs hn ha]

/-- and so is one that fails -/
theorem rounds_fails {e : Int} (hneg : e < 0) (hne : e ≠ enobufs) (he : (lookup k n).status = e) :
    rounds absent lookup room (fuel + 1) k n = some (result absent (.error e)) := by
  unfold rounds result
  simp only [he, hne, hneg, if_false, if_true]
  split <;> rfl

variable (absent) in
/-- The buffer grows with every call, and no call needs more than `L` bytes. -/
theorem rounds_result {v : Nat → Except Int Bytes} {need : Nat → Nat} {L : Nat}
    (h : Serves lookup v need) (hneed : ∀ k, need k ≤ L) (hL : L < 2 ^ 63)
    (hroom : ∀ n, n ≤ 2 * L → room n = true) (hn : 0 < n) (hf : 0 < fuel) (hfn : L < fuel + n) :
    ∃ j, j < k + fuel ∧ rounds absent lookup room fuel k n = some (result absent (v j)) := by
  induction fuel generalizing k n with
  | zero => cases hf
  | succ fuel ih =>
    have hk := hneed k
    cases hv : v k with
    | error e =>
      obtain ⟨hneg, hne, hst⟩ := h.fails k e hv
      exact ⟨k, by omega, by rw [hv, rounds_fails hneg hne (hst n hn)]⟩
    | ok s =>
      obtain ⟨hs, hlen⟩ := h.text k s hv
      rcases Nat.lt_or_ge n (need k) with hlt | hge
      · obtain ⟨hst, hsize⟩ := h.short k s n hv hn hlt
        obtain ⟨hgt, hle⟩ := grown_bounds hn (hlt.trans_le hk) (hsize.trans hk) hL
        obtain ⟨j, hj, hr⟩ := ih (k := k + 1) (n := grown n (lookup k n).size) (by omega) (by omega)
          (by omega)
        have hne : enobufs ≠ enoent := by decide
        refine ⟨j, by omega, ?_⟩
        unfold rounds
        simp only [hst, hne, decide_false, Bool.and_false, Bool.false_eq_true, if_false, if_true,
          hroom _ hle, hr]
      · refine ⟨k, by omega, ?_⟩
        rw [hv, rounds_tells hs (by omega) (h.fits k s n hv hge)]
        rfl

end

/-- For lookups that need at most `L` bytes, `L` calls are enough. -/
theorem text_of_a_call (lookup : Nat → Nat → Answer) (v : Nat → Except Int Bytes)
    (need : Nat → Nat) (room : Nat → Bool) (L fuel initialSize : Nat) (h : Serves lookup v need)
    (hneed : ∀ k, need k ≤ L) (hL : L < 2 ^ 63)
    (hroom : ∀ n, n ≤ max (2 * L) (max initialSize 256) → room n = true) (hi : 0 < initialSize)
    (hf : 0 < fuel) (hfuel : L ≤ fuel) :
    (∃ j, j < fuel ∧ osString lookup room fuel initialSize = some (result false (v j))) ∧
      ∃ j, j < fuel ∧ environmentVariable lookup room fuel = some (result true (v j)) := by
  have hgrow : ∀ n, n ≤ 2 * L → room n = true := fun n hn => hroom n (by omega)
  unfold osString environmentVariable
  rw [hroom initialSize (by omega), hroom 256 (by omega), if_pos rfl, if_pos rfl]
  constructor
  · obtain ⟨j, hj, hr⟩ := rounds_result false (k := 0) h hneed hL hgrow hi hf (by omega)
    exact ⟨j, by omega, hr⟩
  · obtain ⟨j, hj, hr⟩ := rounds_result true (k := 0) (n := 256) h hneed hL hgrow
      (by omega) hf (by omega)
    exact ⟨j, by omega, hr⟩

/-- a variable of 300 bytes, which the first buffer does not hold -/
def longVariable : Nat → Option Bytes := fun _ => some (List.replicate 300 65)

theorem text_of_a_call_longVariable : (getenv longVariable 0 256).status = enobufs ∧
    environmentVariable (getenv longVariable) (fun _ => true) 301 =
      some (.ok (some (List.replicate 300 65))) := by
  have hzero : ∀ k s, longVariable k = some s → 0 ∉ s := by
    rintro k s ⟨⟩ hmem
    cases (List.eq_of_mem_replicate hmem : (0 : UInt8) = 65)
  have hneed : ∀ k, ((longVariable k).getD []).length + 1 ≤ 301 := by
    intro k
    show (List.replicate 300 65).length + 1 ≤ 301
    rw [List.length_replicate]
  obtain ⟨-, j, -, hj⟩ := text_of_a_call (getenv longVariable) (found longVariable) _
    (fun _ => true) 301 301 256 (getenv_serves hzero) hneed (by omega) (fun _ _ => rfl) (by omega)
    (by omega) le_rfl
  refine ⟨?_, hj⟩
  unfold getenv longVariable
  rw [if_neg (by omega)]
  dsimp only
  rw [List.length_replicate]
  rfl

/-! ## a lookup that truncates -/

/-- `uv_exepath` of the path `s` -/
def exepath (s : Bytes) (_ n : Nat) : Answer :=
  if n = 0 then ⟨einval, n, []⟩ else ⟨0, (s.take (n - 1)).length, s.take (n - 1) ++ [0]⟩

/-- `exepath()` has a buffer of 256 bytes: of a longer path it returns the first 255 bytes. -/
theorem truncated_text (s : Bytes) (hs : 0 ∉ s) (room : Nat → Bool) (fuel initialSize : Nat)
    (hroom : room initialSize = true) (hi : 0 < initialSize) :
    osString (exepath s) room (fuel + 1) initialSize =
      some (.ok (some (s.take (initialSize - 1)))) := by
  have ha : Tells (exepath s 0 initialSize) (s.take (initialSize - 1)) := by
    unfold exepath
    rw [if_neg (by omega)]
    exact ⟨le_rfl, rfl, .inl rfl⟩
  unfold osString
  rw [if_pos hroom]
  refine rounds_tells (fun hmem => hs (List.mem_of_mem_take hmem)) ?_ ha
  rw [List.length_take]
  omega

end SystemText
