import Mathlib.Data.List.Nodup
import Mathlib.Data.List.Perm.Subperm
import Mathlib.Tactic.Common
import Uvpp.Callback.Slot

/-!
# A subscription that lends buffers

An allocator and its reader form one subscription.  It sits in a `persistent_callback_slot`; while
native code has a buffer of its allocator it is the loan, and while its reader runs it is with that
delivery.  Raw streams and UDP sockets move it around in the same way (`handles/stream.hpp`,
`handles/udp.hpp`).  Subscriptions are numbered in the order in which they are started; `live` and
`retired` are history and decide nothing.

* `publish`, `retire`    `replace` with a new subscription and with an empty one;
* `allocate`             the slot part of the allocation trampolines;
* `pickUp`               the subscription that a notification is delivered to;
* `giveBack`, `keep`     the end of a delivery;
* `Sound`                the invariant, with the running deliveries as a parameter;
* `Orderly`              what follows for the flag, the slot and the places of a subscription.
-/

namespace Callback

/-- the life of the handle that has the subscriptions -/
inductive Phase where
  /-- before `init` -/
  | fresh
  | ready
  | closing
  | closed
deriving DecidableEq

theorem Phase.eq_ready {p : Phase} (h : ¬ (!decide (p = .ready)) = true) : p = .ready := by
  simpa using h

structure Lending where
  slot : Slot Nat := {}
  /-- `pending_read_`, `pending_receive_` -/
  loan : Delivery Nat := {}
  started : Nat := 0
  /-- history: the subscription that was started last, unless it is retired -/
  live : Option Nat := none
  /-- history: the retired subscriptions -/
  retired : List Nat := []

namespace Lending

def publish (c : Lending) : Lending :=
  { c with
      slot := c.slot.replace (some c.started)
      started := c.started + 1
      live := some c.started
      retired := c.retired ++ c.live.toList }

def retire (c : Lending) : Lending :=
  { c with slot := c.slot.replace none, live := none, retired := c.retired ++ c.live.toList }

/-- the previous loan is given back, and the active subscription is lent -/
def allocate (c : Lending) : Lending :=
  let s := (c.slot.restore c.loan).checkout
  { c with slot := s.1, loan := s.2 }

/-- the loan, or without one the active subscription -/
def pickUp (c : Lending) : Lending × Delivery Nat :=
  if c.loan.callback.isSome then ({ c with loan := {} }, c.loan)
  else ({ c with slot := c.slot.checkout.1, loan := {} }, c.slot.checkout.2)

def giveBack (c : Lending) (d : Delivery Nat) : Lending := { c with slot := c.slot.restore d }

def keep (c : Lending) (d : Delivery Nat) : Lending := { c with loan := d }

def drop (c : Lending) : Lending := { c with loan := {} }

section
variable (c : Lending) (d : Delivery Nat)

@[simp] theorem allocate_generation : c.allocate.slot.generation = c.slot.generation := by
  unfold allocate Slot.restore
  split <;> rfl

theorem retire_generation (hw : c.slot.generation + 1 < 2 ^ 64) :
    c.retire.slot.generation = c.slot.generation + 1 := Nat.mod_eq_of_lt hw

@[simp] theorem allocate_live : c.allocate.live = c.live := rfl
@[simp] theorem allocate_retired : c.allocate.retired = c.retired := rfl

@[simp] theorem pickUp_generation : c.pickUp.1.slot.generation = c.slot.generation := by
  unfold pickUp
  split <;> rfl

@[simp] theorem pickUp_live : c.pickUp.1.live = c.live := by
  unfold pickUp
  split <;> rfl

@[simp] theorem pickUp_retired : c.pickUp.1.retired = c.retired := by
  unfold pickUp
  split <;> rfl

@[simp] theorem pickUp_started : c.pickUp.1.started = c.started := by
  unfold pickUp
  split <;> rfl

@[simp] theorem pickUp_loan : c.pickUp.1.loan = {} := by
  unfold pickUp
  split <;> rfl

theorem pickUp_of_loan {s : Nat} (h : c.loan.callback = some s) : c.pickUp.2 = c.loan := by
  simp [pickUp, h]

@[simp] theorem giveBack_generation : (c.giveBack d).slot.generation = c.slot.generation := by
  unfold giveBack Slot.restore
  dsimp only
  split <;> rfl

/-- nothing is given back to an empty slot -/
theorem giveBack_none (hc : c.slot.callback = none) (hd : d.callback = none) :
    c.giveBack d = c := by
  unfold giveBack Slot.restore
  split
  · rw [hd, ← hc]
  · rfl

end

/-- the subscriptions in the slot, in the loan and with the running deliveries -/
def held (c : Lending) (rs : List (Delivery Nat)) : List Nat :=
  c.slot.callback.toList ++ c.loan.callback.toList ++ rs.filterMap Delivery.callback

/-- the generation of a delivery tells whether its subscription is live -/
def Fits (c : Lending) (d : Delivery Nat) : Prop :=
  d.generation ≤ c.slot.generation ∧
    ∀ s, d.callback = some s → (d.generation = c.slot.generation ↔ c.live = some s)

structure Sound (c : Lending) (rs : List (Delivery Nat)) : Prop where
  slot : ∀ s, c.slot.callback = some s → c.live = some s
  fits : ∀ d ∈ c.loan :: rs, c.Fits d
  /-- an empty loan would overwrite the slot with nothing -/
  empty : c.loan.callback = none → c.loan.generation = c.slot.generation → c.live = none
  zero : c.slot.generation = 0 → c.live = none
  nodup : (c.held rs).Nodup
  held : ∀ s, c.live = some s → s ∈ c.held rs
  known : ∀ s ∈ c.held rs, s < c.started
  past : ∀ s, s ∈ c.retired ↔ s < c.started ∧ c.live ≠ some s

section
variable {c : Lending} {rs : List (Delivery Nat)} {d : Delivery Nat} {s : Nat}

theorem sound_init : Sound {} [] := by
  constructor <;> simp [Lending.held, Fits]

theorem mem_held : s ∈ c.held rs ↔
    c.slot.callback = some s ∨ c.loan.callback = some s ∨ ∃ d ∈ rs, d.callback = some s := by
  simp [Lending.held]

namespace Sound

/-- a live subscription has been started -/
theorem live_lt (h : Sound c rs) (hl : c.live = some s) : s < c.started :=
  h.known s (h.held s hl)

/-- after a replacement every delivery is an old one -/
theorem replaced (h : Sound c rs) (hw : c.slot.generation + 1 < 2 ^ 64) {c' : Lending}
    {x : Option Nat} (hslot : c'.slot = c.slot.replace x) (hloan : c'.loan = c.loan)
    (hlive : c'.live = x) (hx : ∀ s, x = some s → s = c.started ∧ s < c'.started)
    (hstart : c.started ≤ c'.started)
    (hpast : ∀ s, s ∈ c'.retired ↔ s < c'.started ∧ x ≠ some s) : Sound c' rs := by
  have hgen : c'.slot.generation = c.slot.generation + 1 := by
    rw [hslot]
    exact Nat.mod_eq_of_lt hw
  have hcb : c'.slot.callback = x := by
    rw [hslot]
    rfl
  -- what a delivery holds was started before
  have hold : ∀ d ∈ c.loan :: rs, ∀ s, d.callback = some s → s < c.started := by
    intro d hd s hs
    refine h.known s (mem_held.mpr (.inr ?_))
    rcases List.mem_cons.mp hd with rfl | hd
    · exact .inl hs
    · exact .inr ⟨d, hd, hs⟩
  constructor
  · intro s hs
    rw [hlive, ← hcb, hs]
  · rw [hloan]
    intro d hd
    have hb := (h.fits d hd).1
    refine ⟨by omega, fun s hs => ?_⟩
    have ho := hold d hd s hs
    rw [hlive]
    constructor
    · intro he
      omega
    · intro he
      have := (hx s he).1
      omega
  · rw [hloan]
    intro _ he
    have := (h.fits c.loan List.mem_cons_self).1
    omega
  · intro he
    omega
  · have hsub : (c.loan.callback.toList ++ rs.filterMap Delivery.callback).Nodup :=
      h.nodup.sublist (by
        unfold Lending.held
        rw [List.append_assoc]
        exact List.sublist_append_right _ _)
    unfold Lending.held
    rw [hcb, hloan, List.append_assoc, List.nodup_append]
    refine ⟨?_, hsub, ?_⟩
    · cases x <;> simp
    · intro a ha b hb
      have ha' := (hx a (by simpa using ha)).1
      have hb' : b < c.started := by
        rcases List.mem_append.mp hb with hb | hb
        · exact hold c.loan List.mem_cons_self b (by simpa using hb)
        · obtain ⟨d, hd, hs⟩ := List.mem_filterMap.mp hb
          exact hold d (List.mem_cons_of_mem _ hd) b hs
      omega
  · rw [hlive]
    intro s hs
    exact mem_held.mpr (.inl (hcb.trans hs))
  · intro s hs
    rcases mem_held.mp hs with hs | hs | ⟨d, hd, hs⟩
    · exact (hx s (hcb ▸ hs)).2
    · rw [hloan] at hs
      exact Nat.lt_of_lt_of_le (hold c.loan List.mem_cons_self s hs) hstart
    · exact Nat.lt_of_lt_of_le (hold d (List.mem_cons_of_mem _ hd) s hs) hstart
  · rw [hlive]
    exact hpast

theorem publish (h : Sound c rs) (hw : c.slot.generation + 1 < 2 ^ 64) : Sound c.publish rs := by
  refine h.replaced (x := some c.started) hw rfl rfl rfl ?_ (Nat.le_succ _) ?_
  · rintro s ⟨⟩
    exact ⟨rfl, Nat.lt_succ_self _⟩
  · intro s
    show s ∈ c.retired ++ c.live.toList ↔ s < c.started + 1 ∧ some c.started ≠ some s
    rw [List.mem_append, h.past]
    constructor
    · rintro (⟨hs, -⟩ | hs)
      · exact ⟨by omega, by simpa using Nat.ne_of_gt hs⟩
      · have := h.live_lt (s := s) (by simpa using hs)
        exact ⟨by omega, by simpa using Nat.ne_of_gt this⟩
    · rintro ⟨hs, hne⟩
      have hne' : c.started ≠ s := by simpa using hne
      by_cases hl : c.live = some s
      · exact .inr (by simpa using hl)
      · exact .inl ⟨by omega, hl⟩

theorem retire (h : Sound c rs) (hw : c.slot.generation + 1 < 2 ^ 64) : Sound c.retire rs := by
  refine h.replaced (x := none) hw rfl rfl rfl nofun (Nat.le_refl _) ?_
  intro s
  show s ∈ c.retired ++ c.live.toList ↔ s < c.started ∧ none ≠ some s
  rw [List.mem_append, h.past]
  constructor
  · rintro (⟨hs, -⟩ | hs)
    · exact ⟨hs, nofun⟩
    · exact ⟨h.live_lt (by simpa using hs), nofun⟩
  · rintro ⟨hs, -⟩
    by_cases hl : c.live = some s
    · exact .inr (by simpa using hl)
    · exact .inl ⟨hs, hl⟩

/-- a subscription moves within the same generation -/
theorem moved (h : Sound c rs) {c' : Lending} {rs' : List (Delivery Nat)}
    (hgen : c'.slot.generation = c.slot.generation) (hlive : c'.live = c.live)
    (hstart : c'.started = c.started) (hretired : c'.retired = c.retired)
    (hslot : ∀ s, c'.slot.callback = some s → c.live = some s)
    (hfits : ∀ d ∈ c'.loan :: rs', c.Fits d)
    (hempty : c'.loan.callback = none → c'.loan.generation = c.slot.generation → c.live = none)
    (hheld : (c'.held rs').Subperm (c.held rs)) (hkept : ∀ s, c.live = some s → s ∈ c'.held rs') :
    Sound c' rs' where
  slot := hlive ▸ hslot
  fits := fun d hd => by
    unfold Fits
    rw [hgen, hlive]
    exact hfits d hd
  empty := by
    rw [hgen, hlive]
    exact hempty
  zero := by
    rw [hgen, hlive]
    exact h.zero
  nodup := by
    obtain ⟨l, hperm, hsub⟩ := hheld
    exact hperm.nodup_iff.mp (h.nodup.sublist hsub)
  held := hlive ▸ hkept
  known := fun s hs => hstart ▸ h.known s (hheld.subset hs)
  past := by
    rw [hretired, hstart, hlive]
    exact h.past

theorem fits_empty : c.Fits {} := ⟨Nat.zero_le _, nofun⟩

theorem fits_slot (h : Sound c rs) : c.Fits ⟨c.slot.callback, c.slot.generation⟩ :=
  ⟨Nat.le_refl _, fun s hs => ⟨fun _ => h.slot s hs, fun _ => rfl⟩⟩

/-- a live subscription that is with the slot is nowhere else -/
theorem slot_empty (h : Sound c rs) (hd : d ∈ c.loan :: rs) (hs : d.callback = some s)
    (hl : c.live = some s) : c.slot.callback = none := by
  cases hcb : c.slot.callback with
  | none => rfl
  | some t =>
    have ht := h.slot t hcb
    rw [hl] at ht
    cases ht
    have hn := h.nodup
    unfold Lending.held at hn
    rw [hcb, List.append_assoc, List.nodup_append] at hn
    refine absurd rfl (hn.2.2 s (by simp) s ?_)
    rcases List.mem_cons.mp hd with rfl | hd
    · simp [hs]
    · exact List.mem_append_right _ (List.mem_filterMap.mpr ⟨d, hd, hs⟩)

theorem pickUp_some (h : Sound c rs) (hd : c.pickUp.2.callback = some s) :
    Sound c.pickUp.1 (c.pickUp.2 :: rs) := by
  have hrs : ∀ d ∈ rs, c.Fits d := fun d hd => h.fits d (List.mem_cons_of_mem _ hd)
  unfold pickUp at hd ⊢
  split at hd
  · rename_i hloan
    rw [if_pos hloan]
    have hheld : Lending.held { c with loan := {} } (c.loan :: rs) = c.held rs := by
      have hd' : c.loan.callback = some s := hd
      simp [Lending.held, hd']
    refine h.moved rfl rfl rfl rfl h.slot ?_ (fun _ hg => h.zero hg.symm) (hheld ▸ .refl _)
      (hheld ▸ h.held)
    simp only [List.forall_mem_cons]
    exact ⟨fits_empty, h.fits _ List.mem_cons_self, hrs⟩
  · rename_i hloan
    rw [if_neg hloan]
    have hnone : c.loan.callback = none := by simpa using hloan
    have hheld : Lending.held { c with slot := c.slot.checkout.1, loan := {} }
        (c.slot.checkout.2 :: rs) = c.held rs := by
      have hd' : c.slot.callback = some s := hd
      simp [Lending.held, Slot.checkout, hd', hnone]
    refine h.moved rfl rfl rfl rfl nofun ?_ (fun _ hg => h.zero hg.symm) (hheld ▸ .refl _)
      (hheld ▸ h.held)
    simp only [List.forall_mem_cons]
    exact ⟨fits_empty, h.fits_slot, hrs⟩

/-- nobody is there for the notification -/
theorem pickUp_none (h : Sound c rs) (hd : c.pickUp.2.callback = none) :
    Sound c.pickUp.1 rs ∧ c.pickUp.1.slot = c.slot ∧ c.slot.callback = none ∧
      c.pickUp.2.generation = c.slot.generation := by
  unfold pickUp at hd ⊢
  split at hd
  · rename_i hloan
    simp [show c.loan.callback = none from hd] at hloan
  · rename_i hloan
    rw [if_neg hloan]
    have hnone : c.loan.callback = none := by simpa using hloan
    have hslot : c.slot.callback = none := hd
    have hsame : c.slot.checkout.1 = c.slot := by
      unfold Slot.checkout
      rw [← hslot]
    have hheld : Lending.held { c with slot := c.slot.checkout.1, loan := {} } rs = c.held rs := by
      simp [Lending.held, hsame, hnone]
    refine ⟨?_, hsame, hslot, rfl⟩
    refine h.moved rfl rfl rfl rfl nofun ?_ (fun _ hg => h.zero hg.symm) (hheld ▸ .refl _)
      (hheld ▸ h.held)
    simp only [List.forall_mem_cons]
    exact ⟨fits_empty, fun d hd => h.fits d (List.mem_cons_of_mem _ hd)⟩

theorem giveBack (h : Sound c (d :: rs)) (hd : d.callback = some s) :
    Sound (c.giveBack d) rs := by
  have hfit := h.fits d (by simp)
  have hrs : ∀ e ∈ c.loan :: rs, c.Fits e := by
    intro e he
    refine h.fits e ?_
    rcases List.mem_cons.mp he with rfl | he
    · exact List.mem_cons_self
    · exact List.mem_cons_of_mem _ (List.mem_cons_of_mem _ he)
  unfold Lending.giveBack Slot.restore
  split
  · rename_i hgen
    have hlive := (hfit.2 s hd).mp hgen.symm
    have hempty := h.slot_empty (by simp) hd hlive
    have hheld : (Lending.held { c with slot := { c.slot with callback := d.callback } } rs).Perm
        (c.held (d :: rs)) := by
      simpa [Lending.held, hempty, hd] using List.perm_middle.symm
    refine h.moved rfl rfl rfl rfl ?_ hrs h.empty hheld.subperm
      fun t ht => hheld.mem_iff.mpr (h.held t ht)
    intro t ht
    rw [← ht]
    exact hlive.trans hd.symm
  · rename_i hgen
    refine h.moved rfl rfl rfl rfl h.slot hrs h.empty ?_ fun t ht => ?_
    · refine List.Sublist.subperm ?_
      simp [Lending.held, hd]
    · -- the subscription of an old delivery is not the live one
      have hne : s ≠ t := by
        rintro rfl
        exact hgen ((hfit.2 s hd).mpr ht).symm
      rcases mem_held.mp (h.held t ht) with ht | ht | ⟨e, he, ht⟩
      · exact mem_held.mpr (.inl ht)
      · exact mem_held.mpr (.inr (.inl ht))
      · rcases List.mem_cons.mp he with rfl | he
        · rw [hd] at ht
          exact absurd (Option.some.inj ht) hne
        · exact mem_held.mpr (.inr (.inr ⟨e, he, ht⟩))

theorem keep (h : Sound c (d :: rs)) (hd : d.callback = some s) (hloan : c.loan.callback = none) :
    Sound (c.keep d) rs := by
  have hheld : (c.keep d).held rs = c.held (d :: rs) := by
    simp [Lending.held, Lending.keep, hd, hloan]
  refine h.moved rfl rfl rfl rfl h.slot ?_ (fun hn => ?_) (hheld ▸ .refl _) (hheld ▸ h.held)
  · intro e he
    exact h.fits e (List.mem_cons_of_mem _ he)
  · have hn' : d.callback = none := hn
    rw [hd] at hn'
    cases hn'

theorem keep_none (h : Sound c rs) (hd : d.callback = none)
    (hgen : d.generation ≤ c.slot.generation) (hlive : c.live = none)
    (hloan : c.loan.callback = none) : Sound (c.keep d) rs := by
  have hheld : (c.keep d).held rs = c.held rs := by
    simp [Lending.held, Lending.keep, hd, hloan]
  refine h.moved rfl rfl rfl rfl h.slot ?_ (fun _ _ => hlive) (hheld ▸ .refl _) (hheld ▸ h.held)
  intro e he
  rcases List.mem_cons.mp he with rfl | he
  · exact ⟨hgen, fun s hs => by rw [show e.callback = none from hd] at hs; cases hs⟩
  · exact h.fits e (List.mem_cons_of_mem _ he)

/-- the loan of a retired subscription can be given up -/
theorem drop (h : Sound c rs) (hl : c.live = none) : Sound c.drop rs := by
  refine h.moved rfl rfl rfl rfl h.slot ?_ (fun _ _ => hl) ?_ fun s hs => ?_
  · simp only [Lending.drop, List.forall_mem_cons]
    exact ⟨fits_empty, fun d hd => h.fits d (List.mem_cons_of_mem _ hd)⟩
  · refine List.Sublist.subperm ?_
    simp [Lending.held, Lending.drop]
  · rw [hl] at hs
    cases hs

/-- a loan of the same generation is lent again, an older one is given up -/
theorem allocate_eq (h : Sound c rs) :
    c.allocate = if c.loan.generation = c.slot.generation then c
      else { c with
        slot := { c.slot with callback := none }
        loan := ⟨c.slot.callback, c.slot.generation⟩ } := by
  unfold Lending.allocate Slot.restore
  by_cases hgen : c.loan.generation = c.slot.generation
  · have hempty : c.slot.callback = none := by
      cases hl : c.loan.callback with
      | some s =>
        have hlive := ((h.fits c.loan List.mem_cons_self).2 s hl).mp hgen
        exact h.slot_empty List.mem_cons_self hl hlive
      | none =>
        cases hcb : c.slot.callback with
        | none => rfl
        | some t =>
          have hlive := h.slot t hcb
          rw [h.empty hl hgen] at hlive
          cases hlive
    rw [if_pos hgen, if_pos hgen.symm]
    obtain ⟨⟨cb, g⟩, ⟨lcb, lg⟩, st, lv, rt⟩ := c
    obtain rfl : cb = none := hempty
    obtain rfl : lg = g := hgen
    rfl
  · rw [if_neg hgen, if_neg (Ne.symm hgen)]
    rfl

theorem allocate (h : Sound c rs) (hold : ∀ d ∈ rs, d.generation ≠ c.slot.generation) :
    Sound c.allocate rs := by
  rw [h.allocate_eq]
  split
  · exact h
  rename_i hgen
  -- a live subscription can only be in the slot
  have hlive : ∀ s, c.live = some s → c.slot.callback = some s := by
    intro s hs
    rcases mem_held.mp (h.held s hs) with hs' | hs' | ⟨d, hd, hs'⟩
    · exact hs'
    · exact absurd (((h.fits c.loan List.mem_cons_self).2 s hs').mpr hs) hgen
    · exact absurd (((h.fits d (List.mem_cons_of_mem _ hd)).2 s hs').mpr hs) (hold d hd)
  refine h.moved rfl rfl rfl rfl nofun ?_ (fun hn _ => ?_) ?_ fun s hs => ?_
  · simp only [List.forall_mem_cons]
    exact ⟨h.fits_slot, fun d hd => h.fits d (List.mem_cons_of_mem _ hd)⟩
  · cases hl : c.live with
    | none => rfl
    | some s =>
      have hn' : c.slot.callback = none := hn
      rw [hlive s hl] at hn'
      cases hn'
  · refine List.Sublist.subperm ?_
    simp [Lending.held]
  · exact mem_held.mpr (.inr (.inl (hlive s hs)))

theorem mem_retire (h : Sound c rs) (hs : s < c.started) : s ∈ c.retire.retired := by
  show s ∈ c.retired ++ c.live.toList
  rw [List.mem_append, h.past]
  by_cases hl : c.live = some s
  · exact .inr (by simpa using hl)
  · exact .inl ⟨hs, hl⟩

/-- what nobody holds is not live -/
theorem live_none (h : Sound c []) (hs : c.slot.callback = none) (hl : c.loan.callback = none) :
    c.live = none := by
  cases hlive : c.live with
  | none => rfl
  | some s =>
    have hm := mem_held.mp (h.held s hlive)
    simp [hs, hl] at hm

theorem live_slot (h : Sound c rs) (hr : s ∈ c.retired) : c.slot.callback ≠ some s :=
  fun hs => ((h.past s).mp hr).2 (h.slot s hs)

end Sound

/-- A call leaves the retired subscriptions as they are, or it retires those started so far.  It
does the latter if `must` holds. -/
def Passes (c c' : Lending) (must : Prop) : Prop :=
  c'.retired = c.retire.retired ∨ ¬ must ∧ c'.retired = c.retired

namespace Passes
variable {c' : Lending} {must less : Prop}

theorem kept (h : ¬ must) : c.Passes c must := .inr ⟨h, rfl⟩

theorem weaken (h : c.Passes c' must) (hl : less → must) : c.Passes c' less :=
  h.imp_right fun h => ⟨fun hless => h.1 (hl hless), h.2⟩

theorem stays (h : c.Passes c' must) : c.retired ⊆ c'.retired := by
  rcases h with h | ⟨-, h⟩
  · rw [h]
    exact List.subset_append_left _ _
  · rw [h]
    exact List.Subset.refl _

theorem retires (h : c.Passes c' must) (hm : must) (hc : Sound c rs) (hs : s < c.started) :
    s ∈ c'.retired := by
  rcases h with h | ⟨hn, -⟩
  · exact h ▸ hc.mem_retire hs
  · exact absurd hm hn

end Passes

/-! ## what users see -/

/-- `flag` is `reading_` or `receiving_` -/
structure Orderly (c : Lending) (rs : List (Delivery Nat)) (flag : Bool) : Prop where
  /-- a retired subscription is not active -/
  never : ∀ s ∈ c.retired, c.slot.callback ≠ some s
  /-- a subscription is at one place -/
  exclusive : (c.held rs).Nodup
  flag : flag = true ↔ ∃ s ∈ c.held rs, s ∉ c.retired

theorem Sound.orderly (h : Sound c rs) {flag : Bool} (hf : flag = c.live.isSome) :
    Orderly c rs flag := by
  refine ⟨fun s hs => h.live_slot hs, h.nodup, ?_⟩
  rw [hf, Option.isSome_iff_exists]
  constructor
  · rintro ⟨s, hs⟩
    exact ⟨s, h.held s hs, fun hr => ((h.past s).mp hr).2 hs⟩
  · rintro ⟨s, hs, hr⟩
    refine ⟨s, ?_⟩
    by_contra hl
    exact hr ((h.past s).mpr ⟨h.known s hs, hl⟩)

end

end Lending

end Callback
