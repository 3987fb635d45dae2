import Mathlib.Data.Fintype.Card
import Mathlib.Logic.Function.Basic
import Mathlib.Tactic.Common

/-!
# `cancellation_state` and its intrusive list, pointer by pointer

`Mem` holds the registration objects and the cancellation states of a program.  The operations
are those of `co/cancellation.hpp`:

* `Mem.registerCallback`   push in front, refused after a stop;
* `Mem.unregister`         the `while (*current != &registration)` walk (`Mem.search`), then
                           unlink and clear;
* `Mem.exchangeStop`       `std::exchange(stop_requested_, true)`;
* `Mem.popHead`            one round of the `request_stop` loop up to the call of the callback.

`Listed m s L` is the list invariant: `L` is the chain from `head_`, without repetition, and
exactly the registrations whose owner field is `s`.  Each operation keeps it for every state
(`listed_register`, `listed_unregister`, `listed_popHead`), and under it the search of
`unregister` finds its node (`search_finds`).
-/

namespace Cancel

/-- address of a `cancellation_registration` -/
abbrev Addr := Nat
/-- identity of a `cancellation_state` -/
abbrev StateId := Nat
abbrev Callback := Nat
abbrev Context := Nat

/-- `cancellation_registration`; `none` is `nullptr` -/
structure Registration where
  state : Option StateId := none
  next : Option Addr := none
  callback : Option Callback := none
  context : Option Context := none
deriving DecidableEq

/-- `cancellation_state` -/
structure State where
  head : Option Addr := none
  stopRequested : Bool := false
deriving DecidableEq

structure Mem where
  /-- the registration objects that exist are `0 .. cells-1` -/
  cells : Nat := 0
  reg : Addr → Registration := fun _ => {}
  st : StateId → State := fun _ => {}

/-- what the `cancellation_registration **` of the search points to -/
inductive Slot where
  | head
  | next (a : Addr)
deriving DecidableEq

namespace Mem

def setReg (m : Mem) (a : Addr) (x : Registration) : Mem :=
  { m with reg := Function.update m.reg a x }

def setState (m : Mem) (s : StateId) (x : State) : Mem :=
  { m with st := Function.update m.st s x }

def load (m : Mem) (s : StateId) : Slot → Option Addr
  | .head => (m.st s).head
  | .next a => (m.reg a).next

def store (m : Mem) (s : StateId) (x : Option Addr) : Slot → Mem
  | .head => m.setState s { m.st s with head := x }
  | .next a => m.setReg a { m.reg a with next := x }

def clear (m : Mem) (a : Addr) : Mem := m.setReg a {}

/-- `register_callback`: the new memory and the returned flag -/
def registerCallback (m : Mem) (s : StateId) (r : Addr) (cb : Callback) (ctx : Context) :
    Mem × Bool :=
  if (m.st s).stopRequested then (m, false)
  else
    ((m.setReg r ⟨some s, (m.st s).head, some cb, some ctx⟩).setState s
      { m.st s with head := some r }, true)

/-- The walk of `unregister` from the slot `cur`, `n` nodes at most.  `none` is a dereference
of `nullptr`, or a walk longer than there are registration objects. -/
def search (m : Mem) (s : StateId) (r : Addr) : Nat → Slot → Option Slot
  | 0, _ => none
  | n+1, cur =>
    match m.load s cur with
    | none => none
    | some a => if a = r then some cur else search m s r n (.next a)

/-- `unregister`; `none` when the walk does not find the node -/
def unregister (m : Mem) (s : StateId) (r : Addr) : Option Mem :=
  if (m.reg r).state = none then some m
  else
    match m.search s r m.cells .head with
    | none => none
    | some cur => some ((m.store s (m.reg r).next cur).clear r)

/-- `std::exchange(stop_requested_, true)`: the new memory, and whether the loop is entered -/
def exchangeStop (m : Mem) (s : StateId) : Mem × Bool :=
  if (m.st s).stopRequested then (m, false)
  else (m.setState s { m.st s with stopRequested := true }, true)

/-- one round of the loop of `request_stop` up to the call: the registration, its callback and
context as read before `clear`, and the memory in which the callback is called -/
def popHead (m : Mem) (s : StateId) : Option (Addr × Option Callback × Option Context × Mem) :=
  match (m.st s).head with
  | none => none
  | some a =>
    some (a, (m.reg a).callback, (m.reg a).context,
      (m.setState s { m.st s with head := (m.reg a).next }).clear a)

@[simp] theorem setReg_st (m : Mem) (a : Addr) (x : Registration) : (m.setReg a x).st = m.st := rfl
@[simp] theorem setReg_reg (m : Mem) (a : Addr) (x : Registration) :
    (m.setReg a x).reg = Function.update m.reg a x := rfl
@[simp] theorem setState_reg (m : Mem) (s : StateId) (x : State) : (m.setState s x).reg = m.reg := rfl
@[simp] theorem setState_st (m : Mem) (s : StateId) (x : State) :
    (m.setState s x).st = Function.update m.st s x := rfl
@[simp] theorem clear_st (m : Mem) (a : Addr) : (m.clear a).st = m.st := rfl
@[simp] theorem clear_cells (m : Mem) (a : Addr) : (m.clear a).cells = m.cells := rfl
@[simp] theorem clear_reg (m : Mem) (a : Addr) : (m.clear a).reg = Function.update m.reg a {} := rfl

section
variable (m : Mem) (s : StateId) (x : Option Addr) (cur : Slot)

@[simp] theorem store_cells : (m.store s x cur).cells = m.cells := by cases cur <;> rfl

/-- a store changes a pointer of the list and nothing else of a registration -/
theorem store_fields (a : Addr) : ((m.store s x cur).reg a).state = (m.reg a).state ∧
    ((m.store s x cur).reg a).callback = (m.reg a).callback ∧
    ((m.store s x cur).reg a).context = (m.reg a).context := by
  cases cur with
  | head => exact ⟨rfl, rfl, rfl⟩
  | next b =>
    by_cases hab : a = b
    · subst hab
      simp [store]
    · simp [store, hab]

theorem store_stopRequested (t : StateId) :
    ((m.store s x cur).st t).stopRequested = (m.st t).stopRequested := by
  cases cur with
  | head => by_cases hts : t = s <;> simp [store, hts]
  | next b => rfl

variable {s cur}

theorem store_reg_of_ne {a : Addr} (h : cur ≠ .next a) : (m.store s x cur).reg a = m.reg a := by
  cases cur with
  | head => rfl
  | next b =>
    have hab : a ≠ b := fun e => h (by rw [e])
    simp [store, hab]

theorem store_st_of_ne {t : StateId} (h : t ≠ s) : (m.store s x cur).st t = m.st t := by
  cases cur with
  | head => simp [store, h]
  | next b => rfl

end

end Mem

/-! ## chains -/

/-- `L` is the chain of `next_` pointers from `h` to `nullptr` -/
def Chain (reg : Addr → Registration) : Option Addr → List Addr → Prop
  | h, [] => h = none
  | h, a :: L => h = some a ∧ Chain reg (reg a).next L

theorem chain_update {reg : Addr → Registration} {a : Addr} {x : Registration} {L : List Addr}
    (ha : a ∉ L) : ∀ {h : Option Addr}, Chain reg h L → Chain (Function.update reg a x) h L := by
  induction L with
  | nil => exact fun hc => hc
  | cons b L ih =>
    intro h hc
    have hab : b ≠ a := fun e => ha (by simp [e])
    refine ⟨hc.1, ?_⟩
    rw [Function.update_of_ne hab]
    exact ih (fun hm => ha (List.mem_cons_of_mem _ hm)) hc.2

theorem chain_congr {reg reg' : Addr → Registration} {L : List Addr}
    (hr : ∀ a ∈ L, (reg' a).next = (reg a).next) :
    ∀ {h : Option Addr}, Chain reg h L → Chain reg' h L := by
  induction L with
  | nil => exact fun hc => hc
  | cons b L ih =>
    intro h hc
    refine ⟨hc.1, ?_⟩
    rw [hr b (by simp)]
    exact ih (fun a ha => hr a (List.mem_cons_of_mem _ ha)) hc.2

/-- the list invariant of one state -/
structure Listed (m : Mem) (s : StateId) (L : List Addr) : Prop where
  chain : Chain m.reg (m.st s).head L
  nodup : L.Nodup
  owned : ∀ r, r ∈ L ↔ (m.reg r).state = some s
  cells : ∀ r ∈ L, r < m.cells

theorem Listed.length_le {m : Mem} {s : StateId} {L : List Addr} (h : Listed m s L) :
    L.length ≤ m.cells := by
  have hsub : L.toFinset ⊆ Finset.range m.cells := by
    intro r hr
    exact Finset.mem_range.mpr (h.cells r (List.mem_toFinset.mp hr))
  have hcard := Finset.card_le_card hsub
  rw [List.toFinset_card_of_nodup h.nodup, Finset.card_range] at hcard
  exact hcard

/-! ## the search of `unregister` -/

/-- a walk over the part `P` of a chain arrives at the node after `P` -/
theorem search_walk (m : Mem) (s : StateId) (r : Addr) (R : List Addr) :
    ∀ (P : List Addr) (n : Nat) (cur : Slot), r ∉ P → P.length < n →
      Chain m.reg (m.load s cur) (P ++ r :: R) →
      m.search s r n cur = some ((P.map Slot.next).getLastD cur) := by
  intro P
  induction P with
  | nil =>
    intro n cur _ hn hc
    obtain ⟨n, rfl⟩ : ∃ k, n = k + 1 := ⟨n - 1, by simp at hn; omega⟩
    have hload : m.load s cur = some r := hc.1
    simp [Mem.search, hload]
  | cons a P ih =>
    intro n cur hr hn hc
    obtain ⟨n, rfl⟩ : ∃ k, n = k + 1 := ⟨n - 1, by simp at hn; omega⟩
    have hload : m.load s cur = some a := hc.1
    have har : a ≠ r := fun e => hr (by simp [e])
    have hrest := ih n (.next a) (fun h => hr (List.mem_cons_of_mem _ h))
      (by simpa using hn) hc.2
    rw [Mem.search, hload]
    show (if a = r then some cur else m.search s r n (.next a)) = _
    rw [if_neg har, hrest, List.map_cons, List.getLastD_cons]

theorem search_finds {m : Mem} {s : StateId} {L : List Addr} (h : Listed m s L) {r : Addr}
    (hr : (m.reg r).state = some s) :
    ∃ P R, L = P ++ r :: R ∧ r ∉ P ∧
      m.search s r m.cells .head = some ((P.map Slot.next).getLastD .head) := by
  obtain ⟨P, R, hL⟩ := List.append_of_mem ((h.owned r).mpr hr)
  have hnd := h.nodup
  rw [hL, List.nodup_append] at hnd
  have hrP : r ∉ P := fun hm => hnd.2.2 r hm r (by simp) rfl
  have hlen := h.length_le
  rw [hL, List.length_append, List.length_cons] at hlen
  have hc : Chain m.reg (m.load s .head) (P ++ r :: R) := hL ▸ h.chain
  exact ⟨P, R, hL, hrP, search_walk m s r R P m.cells .head hrP (by omega) hc⟩

/-- the slot before `r` points to `r` -/
theorem search_slot {m : Mem} {s : StateId} {L P R : List Addr} {r : Addr} (h : Listed m s L)
    (hL : L = P ++ r :: R) : m.load s ((P.map Slot.next).getLastD .head) = some r := by
  have hwalk : ∀ (P : List Addr) (cur : Slot), Chain m.reg (m.load s cur) (P ++ r :: R) →
      m.load s ((P.map Slot.next).getLastD cur) = some r := by
    intro P
    induction P with
    | nil => exact fun cur hc => hc.1
    | cons a P ih =>
      intro cur hc
      rw [List.map_cons, List.getLastD_cons]
      exact ih (.next a) hc.2
  exact hwalk P .head (hL ▸ h.chain)

/-! ## unlinking -/

/-- storing into the slot before `r` unlinks `r` from the chain -/
theorem chain_unlink {reg : Addr → Registration} {r : Addr} {R : List Addr} :
    ∀ (P : List Addr) (a : Addr) {h : Option Addr}, (P ++ [a] ++ r :: R).Nodup →
      Chain reg h (P ++ [a] ++ r :: R) →
      Chain (Function.update reg a { reg a with next := (reg r).next }) h (P ++ [a] ++ R) := by
  intro P
  induction P with
  | nil =>
    intro a h hnd hc
    have haR : a ∉ R := by
      have := (List.nodup_cons.mp hnd).1
      exact fun hm => this (by simp [hm])
    refine ⟨hc.1, ?_⟩
    rw [Function.update_self]
    exact chain_update haR hc.2.2
  | cons b P ih =>
    intro a h hnd hc
    have hnd' := List.nodup_cons.mp hnd
    have hba : b ≠ a := fun e => hnd'.1 (by simp [e])
    refine ⟨hc.1, ?_⟩
    rw [Function.update_of_ne hba]
    exact ih a hnd'.2 hc.2

/-- the slot where the search ends belongs to the part it has walked over -/
theorem slot_mem {P : List Addr} {a : Addr} (h : (P.map Slot.next).getLastD .head = .next a) :
    a ∈ P := by
  rcases List.eq_nil_or_concat P with rfl | ⟨Q, b, rfl⟩
  · cases h
  · rw [List.concat_eq_append, List.map_append, List.map_singleton, List.getLastD_concat] at h
    cases h
    simp

/-- storing into the slot that points to `r` unlinks `r`, wherever it stands -/
theorem chain_store {m : Mem} {s : StateId} {r : Addr} {P R : List Addr}
    (hnd : (P ++ r :: R).Nodup) (hc : Chain m.reg (m.st s).head (P ++ r :: R)) :
    Chain (m.store s (m.reg r).next ((P.map Slot.next).getLastD .head)).reg
      ((m.store s (m.reg r).next ((P.map Slot.next).getLastD .head)).st s).head (P ++ R) := by
  -- the slot that pointed to `r` is `head_`, or `next_` of the node before `r`
  rcases List.eq_nil_or_concat P with rfl | ⟨Q, a, rfl⟩
  · simp only [Mem.store, List.map_nil, List.getLastD_nil, Mem.setState_st, Function.update_self,
      Mem.setState_reg, List.nil_append]
    exact hc.2
  · rw [List.concat_eq_append] at hnd hc ⊢
    rw [List.map_append, List.map_singleton, List.getLastD_concat]
    exact chain_unlink Q a hnd hc

/-! ## the operations keep the lists -/

/-- a list none of whose nodes changes -/
theorem Listed.frame {m m' : Mem} {s : StateId} {L : List Addr} (h : Listed m s L)
    (hhead : (m'.st s).head = (m.st s).head) (hreg : ∀ x ∈ L, m'.reg x = m.reg x)
    (hown : ∀ x, (m'.reg x).state = some s → (m.reg x).state = some s)
    (hcells : m.cells ≤ m'.cells) : Listed m' s L := by
  refine ⟨?_, h.nodup, fun r => ⟨fun hr => ?_, fun hr => (h.owned r).mpr (hown r hr)⟩, fun r hr => ?_⟩
  · rw [hhead]
    exact chain_congr (fun a ha => by rw [hreg a ha]) h.chain
  · rw [hreg r hr]
    exact (h.owned r).mp hr
  · exact lt_of_lt_of_le (h.cells r hr) hcells

theorem Listed.not_mem {m : Mem} {s : StateId} {L : List Addr} (h : Listed m s L) {r : Addr}
    (hr : (m.reg r).state ≠ some s) : r ∉ L := fun hm => hr ((h.owned r).mp hm)

section
variable {m : Mem} {s : StateId} {r : Addr} {cb : Callback} {ctx : Context}

theorem registerCallback_stopped (h : (m.st s).stopRequested = true) :
    m.registerCallback s r cb ctx = (m, false) := by
  simp [Mem.registerCallback, h]

theorem registerCallback_open (h : (m.st s).stopRequested = false) :
    m.registerCallback s r cb ctx
      = ((m.setReg r ⟨some s, (m.st s).head, some cb, some ctx⟩).setState s
          { m.st s with head := some r }, true) := by
  simp [Mem.registerCallback, h]

theorem listed_register {L : List Addr} (h : Listed m s L) (hfree : (m.reg r).state = none)
    (hr : r < m.cells) (hopen : (m.st s).stopRequested = false) :
    Listed (m.registerCallback s r cb ctx).1 s (r :: L) := by
  have hrL : r ∉ L := h.not_mem (by rw [hfree]; exact nofun)
  rw [registerCallback_open hopen]
  refine ⟨⟨by simp, ?_⟩, List.nodup_cons.mpr ⟨hrL, h.nodup⟩, fun x => ?_, fun x hx => ?_⟩
  · simp only [Mem.setState_reg, Mem.setReg_reg, Function.update_self]
    exact chain_update hrL h.chain
  · by_cases hx : x = r
    · subst hx
      simp
    · simp [hx, h.owned x]
  · rcases List.mem_cons.mp hx with rfl | hx'
    · exact hr
    · exact h.cells x hx'

theorem listed_register_other {s' : StateId} {L : List Addr} (h : Listed m s' L) (hne : s' ≠ s)
    (hfree : (m.reg r).state = none) : Listed (m.registerCallback s r cb ctx).1 s' L := by
  have hrL : r ∉ L := h.not_mem (by rw [hfree]; exact nofun)
  cases hst : (m.st s).stopRequested with
  | true =>
    rw [registerCallback_stopped hst]
    exact h
  | false =>
    rw [registerCallback_open hst]
    refine h.frame (by simp [hne]) (fun x hx => ?_) (fun x hx => ?_) le_rfl
    · have hxr : x ≠ r := fun e => hrL (e ▸ hx)
      simp [hxr]
    · by_cases hxr : x = r
      · subst hxr
        simp at hx
        exact absurd hx.symm hne
      · simpa [hxr] using hx

/-- what `unregister` does to a registration of the state -/
theorem listed_unregister {L : List Addr} (h : Listed m s L) (hr : (m.reg r).state = some s) :
    ∃ m', m.unregister s r = some m' ∧ Listed m' s (L.erase r) ∧
      (∀ s' L', s' ≠ s → Listed m s' L' → Listed m' s' L') ∧
      (∀ x, (m'.reg x).callback = if x = r then none else (m.reg x).callback) ∧
      (∀ x, (m'.reg x).context = if x = r then none else (m.reg x).context) ∧
      (∀ t, (m'.st t).stopRequested = (m.st t).stopRequested) ∧ m'.cells = m.cells := by
  obtain ⟨P, R, hL, hrP, hfind⟩ := search_finds h hr
  have hnd := h.nodup
  have hc := h.chain
  rw [hL] at hnd hc
  have hrR : r ∉ R := by
    have := (List.nodup_append.mp hnd).2.1
    exact (List.nodup_cons.mp this).1
  have herase : L.erase r = P ++ R := by
    rw [hL, List.erase_append_right _ hrP, List.erase_cons_head]
  have hsome : (m.reg r).state ≠ none := by rw [hr]; exact nofun
  -- what is not in this list does not change
  have hother : ∀ x ∉ L, x ≠ r ∧ (P.map Slot.next).getLastD .head ≠ .next x := by
    intro x hx
    refine ⟨fun e => hx (e ▸ (h.owned r).mpr hr), fun e => hx ?_⟩
    rw [hL]
    exact List.mem_append_left _ (slot_mem e)
  rw [Mem.unregister, if_neg hsome, hfind]
  refine ⟨_, rfl, ⟨?_, h.nodup.erase r, fun x => ?_, fun x hx => ?_⟩, fun s' L' hne h' => ?_,
    fun x => ?_, fun x => ?_, m.store_stopRequested _ _ _, m.store_cells _ _ _⟩
  · rw [herase]
    refine chain_update (fun hm => ?_) (chain_store hnd hc)
    rcases List.mem_append.mp hm with hm | hm
    · exact hrP hm
    · exact hrR hm
  · rw [h.nodup.mem_erase_iff, h.owned x]
    by_cases hxr : x = r
    · simp [hxr]
    · simp [hxr, (m.store_fields _ _ _ x).1]
  · rw [Mem.clear_cells, Mem.store_cells]
    exact h.cells x (List.mem_of_mem_erase hx)
  · have hsep : ∀ x ∈ L', x ∉ L := by
      intro x hx hxL
      have hown := (h'.owned x).mp hx
      rw [(h.owned x).mp hxL] at hown
      exact hne (Option.some.inj hown).symm
    refine h'.frame ?_ (fun x hx => ?_) (fun x hx => ?_) (m.store_cells _ _ _).ge
    · rw [Mem.clear_st, m.store_st_of_ne _ hne]
    · obtain ⟨hxr, hslot⟩ := hother x (hsep x hx)
      rw [Mem.clear_reg, Function.update_of_ne hxr, m.store_reg_of_ne _ hslot]
    · by_cases hxr : x = r
      · simp [hxr] at hx
      · rw [Mem.clear_reg, Function.update_of_ne hxr, (m.store_fields _ _ _ x).1] at hx
        exact hx
  · by_cases hxr : x = r
    · simp [hxr]
    · simp [hxr, (m.store_fields _ _ _ x).2.1]
  · by_cases hxr : x = r
    · simp [hxr]
    · simp [hxr, (m.store_fields _ _ _ x).2.2]

theorem unregister_unowned (h : (m.reg r).state = none) : m.unregister s r = some m := by
  simp [Mem.unregister, h]

theorem listed_popHead {a : Addr} {L : List Addr} (h : Listed m s (a :: L)) :
    m.popHead s = some (a, (m.reg a).callback, (m.reg a).context,
        (m.setState s { m.st s with head := (m.reg a).next }).clear a) ∧
      Listed ((m.setState s { m.st s with head := (m.reg a).next }).clear a) s L ∧
      (∀ s' L', s' ≠ s → Listed m s' L' →
        Listed ((m.setState s { m.st s with head := (m.reg a).next }).clear a) s' L') := by
  have hhead : (m.st s).head = some a := h.chain.1
  have haL : a ∉ L := (List.nodup_cons.mp h.nodup).1
  refine ⟨by simp [Mem.popHead, hhead], ⟨?_, (List.nodup_cons.mp h.nodup).2, fun x => ?_,
    fun x hx => h.cells x (by simp [hx])⟩, fun s' L' hne h' => ?_⟩
  · simp only [Mem.clear_st, Mem.setState_st, Function.update_self, Mem.clear_reg, Mem.setState_reg]
    exact chain_update haL h.chain.2
  · by_cases hxa : x = a
    · subst hxa
      simp [haL]
    · have := h.owned x
      simp only [List.mem_cons, hxa, false_or] at this
      simp [hxa, this]
  · have haL' : a ∉ L' := by
      intro hm
      have h1 := (h'.owned a).mp hm
      rw [(h.owned a).mp (by simp)] at h1
      exact hne (Option.some.inj h1).symm
    refine h'.frame (by simp [hne]) (fun x hx => ?_) (fun x hx => ?_) le_rfl
    · have hxa : x ≠ a := fun e => haL' (e ▸ hx)
      simp [hxa]
    · by_cases hxa : x = a
      · simp [hxa] at hx
      · simpa [hxa] using hx

end

end Cancel
