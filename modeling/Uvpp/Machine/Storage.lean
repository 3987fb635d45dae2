import Mathlib.Logic.Equiv.Defs
import Mathlib.Logic.Function.Basic
import Uvpp.Machine.Throwing

/-!
# Vectors and their storage

A vector keeps its elements in a block of the heap that it owns.  When it needs more room it gets a
new block and gives the old one back; an address that was given back can come again.

* `Heap`, `allocate`, `release`     the allocator; what it returns is up to the environment;
* `Vec`                             a vector: its elements, its capacity and its block;
* `Held h d`                        the blocks `d i` are the live ones, each has one owner;
* `Change`, `Held.change`           one owner changes its block;
* `Does`                            what the operations of a vector do.
-/

namespace Storage
open Throwing

abbrev Addr := Nat

inductive Fault where
  | badAlloc
  | lengthError
deriving DecidableEq

structure Heap where
  live : Addr → Bool := fun _ => false
  /-- what the next allocations return; a live block, or no answer, is a failure -/
  answers : List (Option Addr) := []

def allocate : Cmd Fault Heap Addr := fun h =>
  match h.answers with
  | some a :: rest =>
    if h.live a then (.error .badAlloc, { h with answers := rest })
    else (.ok a, { live := Function.update h.live a true, answers := rest })
  | _ :: rest => (.error .badAlloc, { h with answers := rest })
  | [] => (.error .badAlloc, h)

def release (data : Option Addr) (h : Heap) : Heap :=
  match data with
  | some a => { h with live := Function.update h.live a false }
  | none => h

theorem no_room : 0 ≤ 0 := Nat.le_refl 0

theorem no_block : (none : Option Addr) = none ↔ 0 = 0 := by simp

structure Vec (α : Type) where
  items : List α := []
  capacity : Nat := 0
  data : Option Addr := none
  room : items.length ≤ capacity := by exact no_room
  null : data = none ↔ capacity = 0 := by exact no_block

namespace Vec
variable {α : Type}

/-- the elements `l` in a new block of size `n`; the old one is given back after that -/
def reallocate (v : Vec α) (l : List α) (n : Nat) (hn : l.length ≤ n) (hpos : n ≠ 0) :
    Cmd Fault Heap (Vec α) := do
  let a ← allocate
  modify (release v.data)
  return { items := l, capacity := n, data := some a, room := hn, null := by simp [hpos] }

def reserve (v : Vec α) (n : Nat) : Cmd Fault Heap (Vec α) :=
  if h : n ≤ v.capacity then pure v
  else v.reallocate v.items n (Nat.le_trans v.room (Nat.le_of_not_le h)) (by omega)

/-- other elements in the same block -/
def store (v : Vec α) (l : List α) (h : l.length ≤ v.capacity) : Vec α :=
  { v with items := l, room := h }

/-- `insert` at the end; a vector without room doubles it -/
def insert (v : Vec α) (l : List α) : Cmd Fault Heap (Vec α) :=
  if h : (v.items ++ l).length ≤ v.capacity then pure (v.store (v.items ++ l) h)
  else v.reallocate (v.items ++ l) (v.items.length + max v.items.length l.length)
    (by rw [List.length_append]; omega) (by rw [List.length_append] at h; omega)

def pushBack (v : Vec α) (x : α) : Cmd Fault Heap (Vec α) := v.insert [x]

def resize (v : Vec α) (n : Nat) (x : α) : Cmd Fault Heap (Vec α) :=
  if n ≤ v.items.length then
    pure (v.store (v.items.take n)
      (by rw [List.length_take]; exact Nat.le_trans (Nat.min_le_right _ _) v.room))
  else v.insert (List.replicate (n - v.items.length) x)

/-- a vector with elements has a block -/
theorem data_some {v : Vec α} (h : v.items ≠ []) : ∃ a, v.data = some a := by
  cases hd : v.data with
  | some a => exact ⟨a, rfl⟩
  | none =>
    have hroom := v.room
    rw [v.null.mp hd] at hroom
    exact absurd (List.eq_nil_of_length_eq_zero (Nat.le_zero.mp hroom)) h

def clear (v : Vec α) : Vec α := v.store [] (Nat.zero_le _)

/-- a new vector with the elements `l` -/
def build (l : List α) : Cmd Fault Heap (Vec α) :=
  if h : l.length = 0 then pure {} else ({} : Vec α).reallocate l l.length (Nat.le_refl _) h

end Vec

/-! ## Owners -/

/-- The live blocks are the blocks `d i`, and each has one owner. -/
structure Held {ι : Type} (h : Heap) (d : ι → Option Addr) : Prop where
  live : ∀ a, h.live a = true ↔ ∃ i, d i = some a
  single : ∀ i j a, d i = some a → d j = some a → i = j

/-- An owner has `new` in place of `old`. -/
structure Change (h h' : Heap) (old new : Option Addr) : Prop where
  fresh : ∀ a, new = some a → old = some a ∨ h.live a = false
  live : ∀ a, h'.live a = true ↔ new = some a ∨ (h.live a = true ∧ old ≠ some a)

section
variable {ι : Type} [DecidableEq ι] {h h' : Heap} {d : ι → Option Addr} {i : ι}
  {old new : Option Addr}

theorem Change.refl (hold : ∀ a, old = some a → h.live a = true) (hl : h'.live = h.live) :
    Change h h' old old where
  fresh a ha := .inl ha
  live a := by
    rw [hl]
    constructor
    · intro ha
      by_cases ho : old = some a
      · exact .inl ho
      · exact .inr ⟨ha, ho⟩
    · rintro (ha | ⟨ha, -⟩)
      · exact hold a ha
      · exact ha

theorem Held.change (hh : Held h d) (hc : Change h h' (d i) new) :
    Held h' (Function.update d i new) where
  live a := by
    rw [hc.live a]
    constructor
    · rintro (ha | ⟨ha, hne⟩)
      · exact ⟨i, by rw [Function.update_self]; exact ha⟩
      · obtain ⟨j, hj⟩ := (hh.live a).mp ha
        have hji : j ≠ i := by
          rintro rfl
          exact hne hj
        exact ⟨j, by rw [Function.update_of_ne hji]; exact hj⟩
    · rintro ⟨j, hj⟩
      by_cases hji : j = i
      · rw [hji, Function.update_self] at hj
        exact .inl hj
      · rw [Function.update_of_ne hji] at hj
        exact .inr ⟨(hh.live a).mpr ⟨j, hj⟩, fun hi => hji (hh.single j i a hj hi)⟩
  single j k a hj hk := by
    -- a block that is new to `i` was live for nobody
    have hother : ∀ l, l ≠ i → d l = some a → new = some a → False := by
      intro l hl hd hn
      rcases hc.fresh a hn with ho | hf
      · exact hl (hh.single l i a hd ho)
      · cases hf.symm.trans ((hh.live a).mpr ⟨l, hd⟩)
    by_cases hji : j = i <;> by_cases hki : k = i
    · rw [hji, hki]
    · rw [hji, Function.update_self] at hj
      rw [Function.update_of_ne hki] at hk
      exact absurd hj fun hj => hother k hki hk hj
    · rw [Function.update_of_ne hji] at hj
      rw [hki, Function.update_self] at hk
      exact absurd hk fun hk => hother j hji hj hk
    · rw [Function.update_of_ne hji] at hj
      rw [Function.update_of_ne hki] at hk
      exact hh.single j k a hj hk

omit [DecidableEq ι] in
/-- the owners change their names -/
theorem Held.rename {κ : Type} (hh : Held h d) (e : κ ≃ ι) : Held h (fun k => d (e k)) where
  live a := by
    rw [hh.live a]
    constructor
    · rintro ⟨i, hi⟩
      exact ⟨e.symm i, by rw [e.apply_symm_apply]; exact hi⟩
    · rintro ⟨k, hk⟩
      exact ⟨e k, hk⟩
  single i j a hi hj := e.injective (hh.single _ _ a hi hj)

end

/-! ## What the operations do -/

theorem release_live (old : Option Addr) (h : Heap) (a : Addr) :
    (release old h).live a = true ↔ h.live a = true ∧ old ≠ some a := by
  cases old with
  | none => simp [release]
  | some b =>
    show Function.update h.live b false a = true ↔ _
    by_cases hab : a = b
    · simp [hab]
    · simp [Function.update_of_ne hab, Ne.symm hab]

/-- From a vector with the block `old`, `m` makes one with `Q`; when it throws the live blocks are as
before. -/
def Does {α : Type} (m : Cmd Fault Heap (Vec α)) (old : Option Addr) (Q : Vec α → Prop) : Prop :=
  ∀ h : Heap, (∀ a, old = some a → h.live a = true) →
    (∃ v h', exec m h = (.ok v, h') ∧ Change h h' old v.data ∧ Q v) ∨
      ∃ e h', exec m h = (.error e, h') ∧ h'.live = h.live

section
variable {α : Type} {v : Vec α} {Q Q' : Vec α → Prop} {m : Cmd Fault Heap (Vec α)}
  {old : Option Addr}

theorem Does.weaken (hm : Does m old Q) (hQ : ∀ v, Q v → Q' v) : Does m old Q' := by
  intro h hold
  rcases hm h hold with ⟨v, h', hex, hc, hq⟩ | herr
  · exact .inl ⟨v, h', hex, hc, hQ v hq⟩
  · exact .inr herr

theorem allocate_cases (h : Heap) :
    (∃ a h', exec allocate h = (.ok a, h') ∧ h.live a = false ∧
        h'.live = Function.update h.live a true) ∨
      ∃ e h', exec allocate h = (.error e, h') ∧ h'.live = h.live := by
  unfold exec allocate
  simp only [StateT.run, ExceptT.run]
  split
  · split
    · exact .inr ⟨_, _, rfl, rfl⟩
    · rename_i hl
      exact .inl ⟨_, _, rfl, Bool.eq_false_iff.mpr hl, rfl⟩
  · exact .inr ⟨_, _, rfl, rfl⟩
  · exact .inr ⟨_, _, rfl, rfl⟩

theorem does_pure (hq : Q v) : Does (pure v) v.data Q :=
  fun h hold => .inl ⟨v, h, rfl, .refl hold rfl, hq⟩

/-- the new block is live before the old one is given back, so they differ -/
theorem reallocate_does {l : List α} {n : Nat} (hn : l.length ≤ n) (hpos : n ≠ 0) :
    Does (v.reallocate l n hn hpos) v.data
      fun v' => v'.items = l ∧ v'.capacity = n ∧ v'.data ≠ v.data := by
  intro h hold
  unfold Vec.reallocate
  rw [exec_bind]
  rcases allocate_cases h with ⟨a, h', hex, hfresh, hl⟩ | ⟨e, h', hex, hl⟩
  · rw [hex]
    have hne : v.data ≠ some a := fun hd => Bool.noConfusion (hfresh.symm.trans (hold a hd))
    refine .inl ⟨_, release v.data h', rfl, ⟨?_, ?_⟩, rfl, rfl, hne.symm⟩
    · intro b hb
      cases hb
      exact .inr hfresh
    · intro b
      cases hd : v.data with
      | none =>
        show h'.live b = true ↔ _
        rw [hl]
        by_cases hba : b = a
        · simp [hba]
        · simp [Function.update_of_ne hba, Ne.symm hba]
      | some c =>
        show Function.update h'.live c false b = true ↔ _
        rw [hl]
        have hca : c ≠ a := by
          rintro rfl
          exact hne hd
        by_cases hbc : b = c
        · subst hbc
          simp [hca.symm]
        · rw [Function.update_of_ne hbc]
          by_cases hba : b = a
          · simp [hba]
          · simp [Function.update_of_ne hba, Ne.symm hba, Ne.symm hbc]
  · rw [hex]
    exact .inr ⟨e, h', rfl, hl⟩

theorem reserve_does (v : Vec α) (n : Nat) :
    Does (v.reserve n) v.data fun v' => v'.items = v.items ∧ n ≤ v'.capacity ∧
      v.capacity ≤ v'.capacity := by
  unfold Vec.reserve
  split
  · rename_i hle
    exact does_pure ⟨rfl, hle, Nat.le_refl _⟩
  · rename_i hlt
    refine (reallocate_does _ _).weaken fun v' hv' => ?_
    obtain ⟨hi, hc, -⟩ := hv'
    exact ⟨hi, by omega, by omega⟩

/-- with room nothing is allocated -/
theorem insert_room {l : List α} (h : (v.items ++ l).length ≤ v.capacity) :
    v.insert l = pure (v.store (v.items ++ l) h) := dif_pos h

theorem build_does (l : List α) : Does (Vec.build l) none fun v => v.items = l := by
  unfold Vec.build
  split
  · rename_i hl
    exact does_pure (v := {}) (List.eq_nil_of_length_eq_zero hl).symm
  · rename_i hl
    exact (reallocate_does (v := {}) _ hl).weaken fun v hv => hv.1

end

end Storage
