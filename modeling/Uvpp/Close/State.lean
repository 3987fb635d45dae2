import Mathlib.Data.List.Basic

/-!
# `async_close_state`

The bookkeeping that all high-level owners share (`detail/async_close_state.hpp`): the phase of
the close, the coroutines that wait for it, and the two flags that decide who deletes the record.
`complete` runs foreign code between its first and its last access, so it is given here in two
parts: `beginComplete` up to the first resumption, `endComplete` after the last one.  Between
them the coroutines returned by `beginComplete` are resumed one after the other; they are held by
locals of `complete`, not by the record.
-/

namespace Close

/-- a suspended coroutine -/
abbrev Coro := Nat

inductive Phase where
  | opened
  | closing
  | closed
deriving DecidableEq

structure AsyncCloseState where
  phase : Phase := .opened
  waiters : List Coro := []
  callbackWaiter : Option Coro := none
  ownerReleased : Bool := false
  completionActive : Bool := false
deriving DecidableEq

namespace AsyncCloseState

/-- `begin()`: claims the transition once -/
def begin (s : AsyncCloseState) : AsyncCloseState × Bool :=
  match s.phase with
  | .opened => ({ s with phase := .closing }, true)
  | _ => (s, false)

def addWaiter (s : AsyncCloseState) (c : Coro) : AsyncCloseState × Bool :=
  if s.phase = .closed then (s, false)
  else ({ s with waiters := s.waiters ++ [c] }, true)

def setCallbackWaiter (s : AsyncCloseState) (c : Coro) : AsyncCloseState :=
  { s with callbackWaiter := some c }

/-- `owner_released()` -/
def setOwnerReleased (s : AsyncCloseState) : AsyncCloseState := { s with ownerReleased := true }

def canDestroyNow (s : AsyncCloseState) : Bool :=
  s.ownerReleased && decide (s.phase = .closed) && !s.completionActive

/-- `complete` up to the first resumption: the coroutines in the order of their resumption -/
def beginComplete (s : AsyncCloseState) : AsyncCloseState × List Coro :=
  ({ s with phase := .closed, completionActive := true, callbackWaiter := none, waiters := [] },
    s.callbackWaiter.toList ++ s.waiters)

/-- `complete` after the last resumption: whether the deletion action is called -/
def endComplete (s : AsyncCloseState) : AsyncCloseState × Bool :=
  ({ s with completionActive := false }, s.ownerReleased)

end AsyncCloseState

theorem canDestroyNow_iff {s : AsyncCloseState} : s.canDestroyNow = true ↔
    s.ownerReleased = true ∧ s.phase = .closed ∧ s.completionActive = false := by
  simp [AsyncCloseState.canDestroyNow, and_assoc]

end Close
