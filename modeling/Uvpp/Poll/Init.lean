import Uvpp.Machine.Ring
import Uvpp.Core.Errno

/-!
# Initialising a poll handle, and undoing it

A loop keeps its handles in a circular queue of links inside the handles (`handle_queue`), whose
head is in the loop.  `uv_poll_init` may fail before it has linked the handle in, or, on Windows,
after that; then the storage of the handle may only be freed once it is unlinked again.  This is
what `finish_poll_init` is for (`detail/poll_init.hpp`).

* `Queue`                  the links in the two layouts of libuv, `void *[2]` and named fields;
* `uvPollInit`             what libuv does, for each of its outcomes (`NativeInit`);
* `finishPollInit`         the rollback;
* `rawInit`, `constructRaw`      `raw::poll::init` and the constructors of `raw::poll`
                           (`handles/poll.hpp`);
* `constructSource`        the constructors of `poll_source` (`poll_source.hpp`);
* `failed_init_restores_iff`   which failed calls leave the queue as it was.
-/

namespace PollInit
open Errno

/-- the storage of a handle, or the head of the queue -/
abbrev Addr := Nat

def nullptr : Addr := 0

/-! ## The queue in its two layouts -/

/-- `void *handle_queue[2]` of every handle: the next one and the one before -/
abbrev Slots := Addr → Fin 2 → Addr

def Slots.set (m : Slots) (a : Addr) (k : Fin 2) (b : Addr) : Slots :=
  Function.update m a (Function.update (m a) k b)

def Slots.links (m : Slots) : Links Addr := ⟨fun a => m a 0, fun a => m a 1⟩

inductive Queue where
  | array (m : Slots)
  | named (r : Links Addr)

namespace Queue

def links : Queue → Links Addr
  | .array m => m.links
  | .named r => r

/-- `unlink_poll_init_registration` -/
def unlink (x : Addr) : Queue → Queue
  | .named r =>
    let r := r.setPrev (r.next x) (r.prev x)
    .named (r.setNext (r.prev x) (r.next x))
  | .array m =>
    let next := m x 0
    let prev := m x 1
    let m := m.set next 1 (m x 1)
    .array (m.set prev 0 (m x 0))

/-- `QUEUE_INSERT_TAIL`, `uv__queue_insert_tail` -/
def insertTail (h x : Addr) : Queue → Queue
  | .named r => .named (r.insertTail h x)
  | .array m => .array ((((m.set x 0 h).set x 1 (m h 1)).set (m h 1) 0 x).set h 1 x)

/-- the links of `x` itself -/
def clear (x : Addr) : Queue → Queue
  | .named r => .named ((r.setNext x nullptr).setPrev x nullptr)
  | .array m => .array ((m.set x 0 nullptr).set x 1 nullptr)

end Queue

theorem Slots.links_set_next (m : Slots) (a b : Addr) :
    (m.set a 0 b).links = m.links.setNext a b := by
  unfold Slots.links Links.setNext Slots.set
  congr 1 <;> funext c <;> by_cases hc : c = a
  · subst hc
    simp
  · simp [hc]
  · subst hc
    simp
  · simp [hc]

theorem Slots.links_set_prev (m : Slots) (a b : Addr) :
    (m.set a 1 b).links = m.links.setPrev a b := by
  unfold Slots.links Links.setPrev Slots.set
  congr 1 <;> funext c <;> by_cases hc : c = a
  · subst hc
    simp
  · simp [hc]
  · subst hc
    simp
  · simp [hc]

/-- both layouts do the same to the links -/
theorem Queue.links_unlink (q : Queue) (x : Addr) : (q.unlink x).links = q.links.unlink x := by
  cases q with
  | named r =>
    -- the second assignment reads `prev` again, after the first one has stored into it
    have hprev : (r.setPrev (r.next x) (r.prev x)).prev x = r.prev x := by
      by_cases hx : x = r.next x
      · simp [Links.setPrev, ← hx]
      · exact Function.update_of_ne hx ..
    show (r.setPrev (r.next x) (r.prev x)).setNext
      ((r.setPrev (r.next x) (r.prev x)).prev x) (r.next x) = _
    rw [hprev]
    rfl
  | array m =>
    have hnext : (m.set (m x 0) 1 (m x 1)) x 0 = m x 0 := by
      have hl := congrArg (fun r => r.next x) (m.links_set_prev (m x 0) (m x 1))
      exact hl
    show ((m.set (m x 0) 1 (m x 1)).set (m x 1) 0 ((m.set (m x 0) 1 (m x 1)) x 0)).links = _
    rw [hnext, Slots.links_set_next, Slots.links_set_prev]
    rfl

theorem Queue.links_insertTail (q : Queue) (h x : Addr) :
    (q.insertTail h x).links = q.links.insertTail h x := by
  cases q with
  | named r => rfl
  | array m =>
    show ((((m.set x 0 h).set x 1 (m h 1)).set (m h 1) 0 x).set h 1 x).links = _
    rw [Slots.links_set_prev, Slots.links_set_next, Slots.links_set_prev, Slots.links_set_next]
    rfl

theorem Queue.links_clear (q : Queue) (x : Addr) :
    (q.clear x).links = (q.links.setNext x nullptr).setPrev x nullptr := by
  cases q with
  | named r => rfl
  | array m =>
    show ((m.set x 0 nullptr).set x 1 nullptr).links = _
    rw [Slots.links_set_prev, Slots.links_set_next]
    rfl

/-! ## Handles and the loop -/

/-- the fields of a `uv_poll_t`, apart from its links -/
structure Handle where
  /-- the loop it is initialised with, `nullptr` before -/
  loop : Option Nat := none
  /-- the application's -/
  data : Nat := 0
  type : Nat := 0
  flags : Nat := 0
deriving DecidableEq

/-- the type and the flags that `uv__handle_init` gives a poll handle: `UV_POLL`, and the handle
is referenced, but neither active nor closing -/
def uvPoll : Nat := 8
def uvHandleRef : Nat := 8

/-- `uv_is_active`, `uv_is_closing` -/
def Handle.isActive (h : Handle) : Bool := h.flags.testBit 2
def Handle.isClosing (h : Handle) : Bool := h.flags.testBit 0 || h.flags.testBit 1

inductive Event where
  | uvClose (x : Addr)
  /-- the storage is freed, or its object is gone -/
  | freed (x : Addr)
deriving DecidableEq

structure World where
  /-- the loop, and the head of its queue -/
  loop : Nat
  head : Addr
  queue : Queue
  handles : Addr → Handle := fun _ => {}
  /-- storage that holds an object -/
  live : Addr → Bool := fun _ => false
  log : List Event := []
  /-- an assertion failed -/
  fault : Bool := false

/-- how the native initialisation ends -/
inductive NativeInit where
  | success
  /-- a failure before the handle is linked in -/
  | early (e : Nat)
  /-- a failure after that -/
  | late (e : Nat)
deriving DecidableEq

/-- what is polled: a descriptor, or a socket -/
inductive Arg where
  | fd (n : Int)
  | socket
deriving DecidableEq

namespace World

/-- the handles of the loop, in the order of its queue -/
def Registered (w : World) (l : List Addr) : Prop := w.queue.links.Ring w.head l

/-- `uv__handle_init` -/
def register (w : World) (x : Addr) : World :=
  { w with
    queue := w.queue.insertTail w.head x
    handles := Function.update w.handles x
      { w.handles x with loop := some w.loop, type := uvPoll, flags := uvHandleRef } }

/-- `uv_poll_init`, `uv_poll_init_socket` -/
def uvPollInit (w : World) (x : Addr) : NativeInit → World × Int
  | .success => (w.register x, 0)
  | .early e => (w, -(e + 1))
  | .late e => (w.register x, -(e + 1))

/-- `finish_poll_init`; `native = {}` clears the handle's own links with the rest of it -/
def finishPollInit (w : World) (x : Addr) (code : Int) : World × Int :=
  if code ≥ 0 ∨ (w.handles x).loop = none then (w, code)
  else
    ({ w with
        fault := w.fault || (w.handles x).isActive || (w.handles x).isClosing
        queue := (w.queue.unlink x).clear x
        handles := Function.update w.handles x { data := (w.handles x).data } }, code)

/-- `raw::poll::init`: a negative descriptor does not get to libuv -/
def rawInit (w : World) (x : Addr) (arg : Arg) (native : NativeInit) : World × Int :=
  if (w.handles x).loop.isSome then (w, ealready)
  else
    match arg with
    | .fd n =>
      if n < 0 then (w, ebadf)
      else finishPollInit (w.uvPollInit x native).1 x (w.uvPollInit x native).2
    | .socket => finishPollInit (w.uvPollInit x native).1 x (w.uvPollInit x native).2

/-- storage for a new object, its handle cleared -/
def allocate (w : World) (x : Addr) : World :=
  { w with live := Function.update w.live x true, handles := Function.update w.handles x {} }

/-- the object is gone -/
def free (w : World) (x : Addr) : World :=
  { w with live := Function.update w.live x false, log := w.log ++ [.freed x] }

/-- the constructors of `raw::poll`: an error is thrown, and the storage is the caller's again -/
def constructRaw (w : World) (x : Addr) (arg : Arg) (native : NativeInit) : World × Int :=
  match (w.allocate x).rawInit x arg native with
  | (w', code) => if code < 0 then (w'.free x, code) else (w', code)

/-- `poll_source::initialize`: when the error is thrown, the `unique_ptr` frees the state -/
def constructSource (w : World) (x : Addr) (native : NativeInit) : World × Int :=
  match (w.allocate x).uvPollInit x native with
  | (w', code) =>
    if code < 0 then (w'.free x, code)
    else
      ({ w' with handles := Function.update w'.handles x { w'.handles x with data := x } }, code)

end World

/-- the ways to initialise a poll handle -/
inductive Call where
  | init (x : Addr) (arg : Arg)
  | raw (x : Addr) (arg : Arg)
  | source (x : Addr)
deriving DecidableEq

def World.perform (w : World) (native : NativeInit) : Call → World × Int
  | .init x arg => w.rawInit x arg native
  | .raw x arg => w.constructRaw x arg native
  | .source x => w.constructSource x native

/-- the storage of a call: a constructor gets storage that no handle is in, and the handle of
`init` is linked in exactly when it is initialised -/
def World.Ready (w : World) (l : List Addr) : Call → Prop
  | .init x _ => x ≠ w.head ∧ (x ∈ l ↔ (w.handles x).loop.isSome)
  | .raw x _ | .source x => x ∉ w.head :: l

/-- the queue is as before, nothing was closed, and nothing in the queue was freed -/
structure Restores (w w' : World) (l : List Addr) : Prop where
  queue : w'.Registered l
  noClose : ∀ y, w'.log.count (.uvClose y) = w.log.count (.uvClose y)
  noFree : ∀ y ∈ l, w'.log.count (.freed y) = w.log.count (.freed y)
  noDangling : ∀ m, w'.Registered m → ∀ y ∈ m, w'.log.count (.freed y) = w.log.count (.freed y)
  fault : w'.fault = w.fault

/-! ## The rollback -/

section
variable {w : World} {l : List Addr} {x : Addr}

theorem registered_register (h : w.Registered l) (hx : x ∉ w.head :: l) :
    (w.register x).Registered (l ++ [x]) := by
  unfold World.Registered World.register
  rw [Queue.links_insertTail]
  exact h.insertTail hx

/-- the queue without a node of it, whose own links are cleared -/
theorem registered_unlink {m : List Addr} (h : w.Registered (l ++ x :: m)) :
    ((w.queue.unlink x).clear x).links.Ring w.head (l ++ m) := by
  rw [Queue.links_clear, Queue.links_unlink]
  exact (Links.Ring.unlink h).outside (Links.Ring.not_mem h)

/-- linking a handle in and out again restores the queue -/
theorem registered_rollback (h : w.Registered l) (hx : x ∉ w.head :: l) :
    (((w.register x).queue.unlink x).clear x).links.Ring w.head l := by
  have hring := registered_unlink (registered_register h hx)
  rwa [List.append_nil] at hring

/-- a handle that was linked in just now is inactive and not closing -/
theorem finishPollInit_late (w : World) (x : Addr) (e : Nat) :
    (w.register x).finishPollInit x (-(e + 1)) =
      ({ w.register x with
          queue := ((w.register x).queue.unlink x).clear x
          handles := Function.update (w.register x).handles x { data := (w.handles x).data } },
        -((e : Int) + 1)) := by
  have hcode : ¬ (-((e : Int) + 1) ≥ 0 ∨ ((w.register x).handles x).loop = none) := by
    rintro (hc | hl)
    · omega
    · simp [World.register] at hl
  have hactive : ((w.register x).handles x).isActive = false := by
    simp [World.register, Handle.isActive, uvHandleRef, Nat.testBit]
  have hclosing : ((w.register x).handles x).isClosing = false := by
    simp [World.register, Handle.isClosing, uvHandleRef, Nat.testBit]
  have hdata : ((w.register x).handles x).data = (w.handles x).data := by
    simp [World.register]
  unfold World.finishPollInit
  rw [if_neg hcode, hactive, hclosing, hdata, Bool.or_false, Bool.or_false]

/-- a failed initialisation with the rollback leaves the queue, the history and the asserts alone -/
theorem finishPollInit_restores (h : w.Registered l) (hx : x ∉ w.head :: l)
    (hloop : (w.handles x).loop = none) (native : NativeInit)
    (hfail : ((w.uvPollInit x native).1.finishPollInit x (w.uvPollInit x native).2).2 < 0) :
    let w' := ((w.uvPollInit x native).1.finishPollInit x (w.uvPollInit x native).2).1
    w'.Registered l ∧ w'.log = w.log ∧ w'.fault = w.fault := by
  cases native with
  | success =>
    rw [show (w.uvPollInit x .success) = (w.register x, 0) from rfl, World.finishPollInit,
      if_pos (Or.inl (Int.le_refl 0))] at hfail
    cases hfail
  | early e =>
    have heq : (w.finishPollInit x (-(e + 1))).1 = w := by
      rw [World.finishPollInit, if_pos (Or.inr hloop)]
    intro w'
    rw [show w' = w from heq]
    exact ⟨h, rfl, rfl⟩
  | late e =>
    intro w'
    rw [show w' = _ from congrArg Prod.fst (finishPollInit_late w x e)]
    exact ⟨registered_rollback h hx, rfl, rfl⟩

theorem rawInit_restores (h : w.Registered l) (hhead : x ≠ w.head)
    (hlinked : x ∈ l ↔ (w.handles x).loop.isSome) {arg : Arg} {native : NativeInit}
    (hfail : (w.rawInit x arg native).2 < 0) :
    (w.rawInit x arg native).1.Registered l ∧ (w.rawInit x arg native).1.log = w.log ∧
      (w.rawInit x arg native).1.fault = w.fault := by
  unfold World.rawInit at hfail ⊢
  split_ifs at hfail ⊢ with hloop
  · exact ⟨h, rfl, rfl⟩
  have hx : x ∉ w.head :: l := by
    intro hmem
    rcases List.mem_cons.mp hmem with hmem | hmem
    · exact hhead hmem
    · exact hloop (hlinked.mp hmem)
  have hnone : (w.handles x).loop = none := by simpa using hloop
  cases arg with
  | socket => exact finishPollInit_restores h hx hnone native hfail
  | fd n =>
    dsimp only at hfail ⊢
    split_ifs at hfail ⊢ with hn
    · exact ⟨h, rfl, rfl⟩
    · exact finishPollInit_restores h hx hnone native hfail

/-- freeing storage that is in no queue -/
theorem free_restores {v : World} (hv : v.Registered l) (hlog : v.log = w.log)
    (hfault : v.fault = w.fault) (hx : x ∉ l) : Restores w (v.free x) l := by
  have hfreed : ∀ y ∈ l, (v.free x).log.count (.freed y) = w.log.count (.freed y) := by
    intro y hy
    have hne : x ≠ y := fun hxy => hx (hxy ▸ hy)
    simp [World.free, hlog, List.count_append, hne]
  refine ⟨hv, fun y => ?_, hfreed, fun m hm y hy => ?_, hfault⟩
  · simp [World.free, hlog, List.count_append]
  · rw [Links.Ring.unique hm hv] at hy
    exact hfreed y hy

theorem same_restores {v : World} (hv : v.Registered l) (hlog : v.log = w.log)
    (hfault : v.fault = w.fault) : Restores w v l := by
  refine ⟨hv, fun y => ?_, fun y _ => ?_, fun m _ y _ => ?_, hfault⟩ <;> rw [hlog]

theorem constructRaw_restores (h : w.Registered l) (hx : x ∉ w.head :: l) {arg : Arg}
    {native : NativeInit} (hfail : (w.constructRaw x arg native).2 < 0) :
    Restores w (w.constructRaw x arg native).1 l := by
  have hhead : x ≠ (w.allocate x).head := fun hxh => hx (hxh ▸ List.mem_cons_self)
  have hlinked : x ∈ l ↔ ((w.allocate x).handles x).loop.isSome := by
    have hnot : x ∉ l := fun hxl => hx (List.mem_cons_of_mem _ hxl)
    simp [World.allocate, hnot]
  have hinit := @rawInit_restores (w.allocate x) l x h hhead hlinked arg native
  unfold World.constructRaw at hfail ⊢
  dsimp only at hfail ⊢
  split_ifs at hfail ⊢ with hcode
  · obtain ⟨hq, hlog, hfault⟩ := hinit hcode
    exact free_restores hq hlog hfault fun hxl => hx (List.mem_cons_of_mem _ hxl)
  · exact absurd hfail hcode

/-- a failure before the handle is linked in leaves nothing behind -/
theorem constructSource_early (h : w.Registered l) (hx : x ∉ w.head :: l) (e : Nat) :
    Restores w (w.constructSource x (.early e)).1 l := by
  have heq : (w.constructSource x (.early e)).1 = (w.allocate x).free x := by
    unfold World.constructSource World.uvPollInit
    dsimp only
    rw [if_pos (by omega)]
  rw [heq]
  exact free_restores h rfl rfl fun hxl => hx (List.mem_cons_of_mem _ hxl)

/-- a failure after that leaves the freed storage in the queue -/
theorem constructSource_late (h : w.Registered l) (hx : x ∉ w.head :: l) (e : Nat) :
    (w.constructSource x (.late e)).1.Registered (l ++ [x]) ∧
      (w.constructSource x (.late e)).1.log = w.log ++ [.freed x] := by
  have heq : (w.constructSource x (.late e)).1 = ((w.allocate x).register x).free x := by
    unfold World.constructSource World.uvPollInit
    dsimp only
    rw [if_pos (by omega)]
  rw [heq]
  exact ⟨registered_register (w := w.allocate x) h hx, rfl⟩

end

/-- For every queue, in both layouts, and every outcome of the native initialisation: a failed call
leaves the queue as it was, closes nothing and leaves no freed storage in it, unless it is the
constructor of a `poll_source` and the handle was linked in before the failure. -/
theorem failed_init_restores_iff (w : World) (l : List Addr) (native : NativeInit) (c : Call)
    (hq : w.Registered l) (hr : w.Ready l c) (hfail : (w.perform native c).2 < 0) :
    Restores w (w.perform native c).1 l ↔ ¬ ((∃ x, c = .source x) ∧ ∃ e, native = .late e) := by
  cases c with
  | init x arg =>
    obtain ⟨hreg, hlog, hfault⟩ := rawInit_restores hq hr.1 hr.2 hfail
    exact iff_of_true (same_restores hreg hlog hfault) fun h => by
      obtain ⟨⟨y, hy⟩, -⟩ := h
      cases hy
  | raw x arg =>
    refine iff_of_true (constructRaw_restores hq hr hfail) fun h => ?_
    obtain ⟨⟨y, hy⟩, -⟩ := h
    cases hy
  | source x =>
    cases native with
    | success =>
      have hcode : (w.perform .success (.source x)).2 = 0 := by
        simp [World.perform, World.constructSource, World.uvPollInit]
      rw [hcode] at hfail
      cases hfail
    | early e =>
      refine iff_of_true (constructSource_early hq hr e) fun h => ?_
      obtain ⟨-, e', he⟩ := h
      cases he
    | late e =>
      refine iff_of_false (fun hrest => ?_) fun h => h ⟨⟨x, rfl⟩, e, rfl⟩
      have hlate := (constructSource_late hq hr e).1
      have hsame : l = l ++ [x] := Links.Ring.unique hrest.queue hlate
      have hlen := congrArg List.length hsame
      simp at hlen

/-- a loop whose only handle, a timer, is at 2; the head of its queue is at 1 -/
def oneTimer : World where
  loop := 7
  head := 1
  queue := .named ⟨fun a => 3 - a, fun a => 3 - a⟩
  live := fun a => a == 2

theorem oneTimer_registered : oneTimer.Registered [2] :=
  ⟨⟨rfl, rfl, rfl, rfl⟩, by decide⟩

theorem failed_init_restores_iff_rawLate :
    (oneTimer.perform (.late 21) (.raw 3 .socket)).2 < 0 ∧
      Restores oneTimer (oneTimer.perform (.late 21) (.raw 3 .socket)).1 [2] :=
  ⟨by decide, (failed_init_restores_iff oneTimer [2] (.late 21) (.raw 3 .socket)
    oneTimer_registered (show 3 ∉ [1, 2] by decide) (by decide)).mpr
      fun h => by obtain ⟨⟨y, hy⟩, -⟩ := h; cases hy⟩

/-- the storage of the failed source is freed and still in the queue of the loop -/
theorem freed_source_linked :
    (oneTimer.perform (.late 21) (.source 3)).2 < 0 ∧
      (oneTimer.perform (.late 21) (.source 3)).1.Registered [2, 3] ∧
      .freed 3 ∈ (oneTimer.perform (.late 21) (.source 3)).1.log ∧
      ¬ Restores oneTimer (oneTimer.perform (.late 21) (.source 3)).1 [2] := by
  have hx : 3 ∉ oneTimer.head :: [2] := by decide
  obtain ⟨hreg, hlog⟩ := constructSource_late oneTimer_registered hx 21
  have hlog' : (oneTimer.perform (.late 21) (.source 3)).1.log = [.freed 3] := hlog
  refine ⟨by decide, hreg, ?_, fun hrest => ?_⟩
  · rw [hlog']
    exact List.mem_singleton_self _
  · have hcount := hrest.noDangling _ hreg 3 (by decide)
    rw [hlog'] at hcount
    cases hcount

end PollInit
