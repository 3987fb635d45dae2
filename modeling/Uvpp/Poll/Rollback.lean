import Uvpp.Poll.Init

/-!
# The rollback of a failed poll initialisation

`finish_poll_init` takes a handle out of a queue by its links alone (`detail/poll_init.hpp`).  Here
its effect is compared with removing the handle from the list of the queue's nodes, for every queue
and every place in it, in both layouts.

* `RolledBack`           the queue without the handle, and the handle as before its initialisation;
* `Fresh`                what the next `init` of the handle finds and does;
* `rollback_contract`    a failure that linked the handle in is rolled back, all else stays.
-/

namespace PollInit

/-- the descriptor is not refused by `init` itself -/
def Arg.Valid : Arg → Prop
  | .fd n => 0 ≤ n
  | .socket => True

/-- an uninitialised handle outside of the queue `l`: the next `init` starts afresh -/
structure Fresh (v : World) (l : List Addr) (x : Addr) : Prop where
  loop : (v.handles x).loop = none
  outside : x ∉ v.head :: l
  init : ∀ arg : Arg, arg.Valid →
    v.rawInit x arg .success = (v.register x, 0) ∧ (v.register x).Registered (l ++ [x])

/-- `v` is `w` after the handle `x` was taken out of the queue `l` -/
structure RolledBack (w v : World) (l : List Addr) (x : Addr) : Prop where
  /-- the other nodes, in the same order -/
  queue : v.Registered (l.erase x)
  /-- the queues of other loops -/
  otherQueues : ∀ k n, w.queue.links.Ring k n → (∀ y ∈ k :: n, y ∉ w.head :: l) →
    v.queue.links.Ring k n
  otherHandles : ∀ y, y ≠ x → v.handles y = w.handles y
  /-- all but the application's data is cleared -/
  handle : v.handles x = { data := (w.handles x).data }
  links : v.queue.links.next x = nullptr ∧ v.queue.links.prev x = nullptr
  fresh : Fresh v (l.erase x) x
  rest : v.loop = w.loop ∧ v.head = w.head ∧ v.live = w.live ∧ v.log = w.log
  asserts : (w.handles x).isActive = false → (w.handles x).isClosing = false → v.fault = w.fault

section
variable {w : World} {l : List Addr} {x : Addr}

theorem rawInit_eq {arg : Arg} (hloop : (w.handles x).loop = none) (harg : arg.Valid)
    (native : NativeInit) :
    w.rawInit x arg native =
      (w.uvPollInit x native).1.finishPollInit x (w.uvPollInit x native).2 := by
  unfold World.rawInit
  rw [hloop, if_neg (by simp)]
  cases arg with
  | socket => rfl
  | fd n =>
    show (if n < 0 then _ else _) = _
    rw [if_neg (Int.not_lt.mpr harg)]

/-- the rollback changes nothing after a success, or when the handle was not linked in -/
theorem finishPollInit_keeps {code : Int} (h : 0 ≤ code ∨ (w.handles x).loop = none) :
    w.finishPollInit x code = (w, code) := by
  unfold World.finishPollInit
  rw [if_pos h]

theorem fresh_of_none {v : World} (hq : v.Registered l) (hx : x ∉ v.head :: l)
    (hloop : (v.handles x).loop = none) : Fresh v l x where
  loop := hloop
  outside := hx
  init := by
    intro arg harg
    refine ⟨?_, registered_register hq hx⟩
    rw [rawInit_eq hloop harg]
    exact finishPollInit_keeps (.inl (Int.le_refl 0))

theorem finishPollInit_removes {code : Int} (hq : w.Registered l) (hcode : code < 0) (hx : x ∈ l)
    (hloop : (w.handles x).loop ≠ none) :
    RolledBack w (w.finishPollInit x code).1 l x ∧ (w.finishPollInit x code).2 = code := by
  -- the place of the handle in the queue
  obtain ⟨before, after, rfl⟩ := List.append_of_mem hx
  have hout : x ∉ w.head :: (before ++ after) := Links.Ring.not_mem hq
  have herase : (before ++ x :: after).erase x = before ++ after := by
    have hbefore : x ∉ before := fun hmem => hout (by simp [hmem])
    rw [List.erase_append_right _ hbefore, List.erase_cons_head]
  have hif : ¬ (code ≥ 0 ∨ (w.handles x).loop = none) := by
    rintro (h | h)
    · omega
    · exact hloop h
  unfold World.finishPollInit
  rw [if_neg hif]
  refine ⟨?_, rfl⟩
  have hqueue := registered_unlink hq
  constructor
  case queue =>
    rw [herase]
    exact hqueue
  case otherQueues =>
    intro k n hn hd
    show ((w.queue.unlink x).clear x).links.Ring k n
    rw [Queue.links_clear, Queue.links_unlink]
    exact (Links.Ring.unlink_other hq hn hd).outside fun hmem => hd x hmem (by simp)
  case otherHandles => exact fun y hy => Function.update_of_ne hy ..
  case handle => exact Function.update_self ..
  case links =>
    show ((w.queue.unlink x).clear x).links.next x = nullptr ∧
      ((w.queue.unlink x).clear x).links.prev x = nullptr
    rw [Queue.links_clear]
    exact ⟨Function.update_self .., Function.update_self ..⟩
  case fresh =>
    rw [herase]
    refine fresh_of_none hqueue hout ?_
    show (Function.update w.handles x _ x).loop = none
    rw [Function.update_self]
  case rest => exact ⟨rfl, rfl, rfl, rfl⟩
  case asserts =>
    intro hactive hclosing
    show (w.fault || (w.handles x).isActive || (w.handles x).isClosing) = w.fault
    rw [hactive, hclosing, Bool.or_false, Bool.or_false]

end

/-- what `finish_poll_init` does at the handle `x` of a loop with the queue `l`, and what the whole
of `raw::poll::init` does with it -/
structure RollbackContract (w : World) (l : List Addr) (x : Addr) : Prop where
  /-- a failure that left the handle linked in -/
  removes : ∀ code : Int, code < 0 → x ∈ l → (w.handles x).loop ≠ none →
    RolledBack w (w.finishPollInit x code).1 l x ∧ (w.finishPollInit x code).2 = code
  /-- a success, or a failure that never linked it -/
  keeps : ∀ code : Int, 0 ≤ code ∨ (w.handles x).loop = none →
    w.finishPollInit x code = (w, code)
  /-- the three ends of the native call in `init` -/
  init : ∀ arg : Arg, arg.Valid → (w.handles x).loop = none → x ∉ w.head :: l →
    w.rawInit x arg .success = (w.register x, 0) ∧
    (∀ e : Nat, w.rawInit x arg (.early e) = (w, -((e : Int) + 1))) ∧
    ∀ e : Nat, (w.rawInit x arg (.late e)).2 = -((e : Int) + 1) ∧
      RolledBack (w.register x) (w.rawInit x arg (.late e)).1 (l ++ [x]) x ∧
      (w.rawInit x arg (.late e)).1.Registered l ∧
      (w.rawInit x arg (.late e)).1.fault = w.fault

/-- For every queue, in both layouts, and every poll handle, wherever it is linked in. -/
theorem rollback_contract (w : World) (l : List Addr) (x : Addr) (hq : w.Registered l) :
    RollbackContract w l x where
  removes code hcode hx hloop := finishPollInit_removes hq hcode hx hloop
  keeps code h := finishPollInit_keeps h
  init arg harg hloop hx := by
    refine ⟨((fresh_of_none hq hx hloop).init arg harg).1, fun e => ?_, fun e => ?_⟩
    · rw [rawInit_eq hloop harg]
      exact finishPollInit_keeps (.inr hloop)
    · have hlinked : ((w.register x).handles x).loop ≠ none := by simp [World.register]
      have heq := rawInit_eq hloop harg (.late e)
      rw [show w.uvPollInit x (.late e) = (w.register x, -((e : Int) + 1)) from rfl] at heq
      obtain ⟨hrolled, hcode⟩ := finishPollInit_removes (registered_register hq hx)
        (show -((e : Int) + 1) < 0 by omega) (by simp) hlinked
      obtain ⟨hreg, -, hfault⟩ := finishPollInit_restores hq hx hloop (.late e)
        (show ((w.register x).finishPollInit x (-((e : Int) + 1))).2 < 0 by rw [hcode]; omega)
      rw [heq]
      exact ⟨hcode, hrolled, hreg, hfault⟩

/-- three handles in an array queue; the head is at 1, and the poll handle at 3 in the middle -/
def threeHandles : World where
  loop := 7
  head := 1
  queue := .array fun a k =>
    if k.val = 0 then if a = 4 then 1 else a + 1
    else if a = 1 then 4 else a - 1
  handles := fun a =>
    if a = 3 then { loop := some 7, data := 5, type := uvPoll, flags := uvHandleRef } else {}

theorem threeHandles_registered : threeHandles.Registered [2, 3, 4] :=
  ⟨⟨rfl, rfl, rfl, rfl, rfl, rfl, rfl, rfl⟩, by decide⟩

theorem rollback_contract_threeHandles :
    (threeHandles.finishPollInit 3 (-22)).1.Registered [2, 4] ∧
      (threeHandles.finishPollInit 3 (-22)).1.handles 3 = { data := 5 } := by
  obtain ⟨hrolled, -⟩ := (rollback_contract threeHandles [2, 3, 4] 3 threeHandles_registered).removes
    (-22) (by decide) (by decide) (by decide)
  exact ⟨hrolled.queue, hrolled.handle⟩

end PollInit
