import Mathlib.Algebra.Group.Nat.Defs

/-!
# `persistent_callback_slot`

The slot of `core/callback.hpp` for callbacks that may be invoked repeatedly.  `invoke` moves the
callable out while it runs, so it is given here in two parts, before and after the call; between
them foreign code may replace the callback.  `checkout` and `restore` are the same two parts for a
callable that native code has a claim on between two calls.  The generation is a `std::size_t`.
-/

namespace Callback

structure Slot (κ : Type) where
  /-- `none` is the empty callable -/
  callback : Option κ := none
  generation : Nat := 0

namespace Slot
variable {κ : Type}

def replace (s : Slot κ) (c : Option κ) : Slot κ :=
  { callback := c, generation := (s.generation + 1) % 2 ^ 64 }

/-- `invoke` up to the call: the callable that is called, if the slot is not empty -/
def beginInvoke (s : Slot κ) : Slot κ × Option κ := ({ s with callback := none }, s.callback)

/-- `invoke` after the call of `c`, begun at the generation `g` -/
def endInvoke (s : Slot κ) (c : κ) (g : Nat) : Slot κ :=
  if s.generation = g then { s with callback := some c } else s

def take (s : Slot κ) : Slot κ × Option κ :=
  ({ callback := none, generation := (s.generation + 1) % 2 ^ 64 }, s.callback)

end Slot

/-- a callable that was taken out of the slot, and the generation it was taken out at -/
structure Delivery (κ : Type) where
  callback : Option κ := none
  generation : Nat := 0

namespace Slot
variable {κ : Type}

def checkout (s : Slot κ) : Slot κ × Delivery κ :=
  ({ s with callback := none }, ⟨s.callback, s.generation⟩)

def restore (s : Slot κ) (d : Delivery κ) : Slot κ :=
  if s.generation = d.generation then { s with callback := d.callback } else s

end Slot

end Callback
