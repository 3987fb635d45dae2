import Uvpp.Receive.Drain

/-!
# The end of an operation

* `releaseOwner_eq`, `discardReceived_eq`     every connection that was taken over is closed;
* `finish_returns`, `finish_fails`, `finish_waits`    the three ways out of `onRead`;
* `onClose_silent`, `onClose_waiting`         the close callbacks.
-/

namespace Receive

/-- nobody waits for the close of the connection -/
structure Silent (x : Connection) : Prop where
  waiters : x.close.waiters = []
  callback : x.close.callbackWaiter = none
  destination : x.destination = false

/-- the owner released the connection, and libuv closes it -/
def Connection.released (x : Connection) : Connection :=
  { x with close := { x.close with phase := .closing, ownerReleased := true } }

theorem Silent.released {x : Connection} (h : Silent x) : Silent x.released :=
  ⟨h.waiters, h.callback, h.destination⟩

section
variable {w : World} {h : Handle} {hs : List Handle}

theorem releaseOwner_eq (hopen : (w.conn h).close.phase = .opened) :
    w.releaseOwner h = { w with
      conn := Function.update w.conn h (w.conn h).released
      log := w.log ++ [.uvClose h] } := by
  simp [World.releaseOwner, World.setConn, World.requestClose, World.emit,
    Close.AsyncCloseState.setOwnerReleased, Close.AsyncCloseState.begin, hopen,
    Connection.released]

/-- the connections of a list are closed one after the other -/
theorem foldl_releaseOwner (hnd : hs.Nodup) (hopen : ∀ h ∈ hs, (w.conn h).close.phase = .opened) :
    hs.foldl World.releaseOwner w = { w with
      conn := fun h => if h ∈ hs then (w.conn h).released else w.conn h
      log := w.log ++ hs.map .uvClose } := by
  induction hs generalizing w with
  | nil => simp
  | cons g hs ih =>
    obtain ⟨hg, hnd⟩ := List.nodup_cons.mp hnd
    have hrest : ∀ h ∈ hs, (Function.update w.conn g (w.conn g).released h) = w.conn h :=
      fun h hh => Function.update_of_ne (fun heq : h = g => hg (heq ▸ hh)) ..
    rw [List.foldl_cons, releaseOwner_eq (hopen g List.mem_cons_self), ih hnd]
    · have hconn : (fun h => if h ∈ hs then
            (Function.update w.conn g (w.conn g).released h).released
          else Function.update w.conn g (w.conn g).released h) =
          fun h => if h ∈ g :: hs then (w.conn h).released else w.conn h := by
        funext h
        by_cases hh : h ∈ hs
        · rw [if_pos hh, if_pos (List.mem_cons_of_mem _ hh), hrest h hh]
        · rw [if_neg hh]
          by_cases hhg : h = g
          · rw [hhg, Function.update_self, if_pos List.mem_cons_self]
          · rw [Function.update_of_ne hhg, if_neg]
            intro hmem
            rcases List.mem_cons.mp hmem with h' | h'
            · exact hhg h'
            · exact hh h'
      dsimp only
      rw [hconn]
      simp
    · intro h hh
      dsimp only
      rw [hrest h hh]
      exact hopen h (List.mem_cons_of_mem _ hh)

theorem discardReceived_eq (hnd : w.received.Nodup)
    (hopen : ∀ h ∈ w.received, (w.conn h).close.phase = .opened) :
    w.discardReceived = { w with
      received := []
      conn := fun h => if h ∈ w.received then (w.conn h).released else w.conn h
      log := w.log ++ w.received.map .uvClose } := by
  unfold World.discardReceived
  rw [foldl_releaseOwner hnd hopen]

theorem closeFailedPipe_eq (hpipe : w.pipe = {}) :
    w.closeFailedPipe = { w with
      pipe := if w.closePipe then { phase := .closing } else {}
      log := w.log ++ if w.closePipe then [.uvClosePipe] else [] } := by
  unfold World.closeFailedPipe
  split
  · simp [World.requestClosePipe, hpipe, Close.AsyncCloseState.begin, World.emit]
  · rw [← hpipe, List.append_nil]

/-! ## The ways out -/

/-- an operation that `onRead` ends: it is registered through its cancellation only, and the pipe
is open -/
structure Ending (w : World) : Prop where
  registered : w.registered = true → w.cancellation = true
  pipe : w.pipe = {}
  continuation : w.continuation = some 0
  required : w.provisionalCloseRequired = false
  nodup : w.received.Nodup
  opened : ∀ h ∈ w.received, (w.conn h).close.phase = .opened

/-- what the end leaves of the slots -/
structure Ended (w : World) : Prop where
  reading : w.reading = false
  registered : w.registered = false

theorem Ending.ended (he : Ending w) : Ended w.detach := by
  refine ⟨rfl, ?_⟩
  show (if w.cancellation then false else w.registered) = false
  split
  · rfl
  · rename_i hc
    exact Bool.eq_false_iff.mpr fun hr => hc (he.registered hr)

theorem finish_returns (he : Ending w) (hcode : 0 ≤ w.code) (hne : w.received ≠ []) :
    Ended w.finish ∧ w.finish.status = .over ∧ w.finish.fault = w.fault ∧
      w.finish.conn = w.conn ∧ w.finish.log = w.log ++ [.resumed w.code w.received] := by
  have hnot : ¬ w.code < 0 := Int.not_lt.mpr hcode
  have heq : w.finish = w.detach.resume (some 0) := by
    unfold World.finish World.conclude
    rw [if_neg (show ¬ w.detach.code < 0 from hnot), he.continuation]
  rw [heq]
  refine ⟨⟨he.ended.reading, he.ended.registered⟩, rfl, ?_, rfl, ?_⟩
  · simp [World.resume, World.emit, World.detach, World.stopNative, World.releaseSlots, he.required,
      hne]
  · show w.log ++ [.resumed w.code (if w.code < 0 then [] else w.received)] = _
    rw [if_neg hnot]

/-- the end of a failed operation before the coroutine or the last close -/
theorem discarded_eq (he : Ending w) : w.detach.closeFailedPipe.discardReceived = { w.detach with
    pipe := if w.closePipe then { phase := .closing } else {}
    received := []
    conn := fun h => if h ∈ w.received then (w.conn h).released else w.conn h
    log := w.log ++ (if w.closePipe then [.uvClosePipe] else []) ++ w.received.map .uvClose } := by
  rw [closeFailedPipe_eq (w := w.detach) he.pipe]
  exact discardReceived_eq he.nodup he.opened

theorem finish_fails (he : Ending w) (hcode : w.code < 0) (hun : w.untransferred = none) :
    Ended w.finish ∧ w.finish.status = .over ∧ w.finish.fault = w.fault ∧
      (∀ h, w.finish.conn h = if h ∈ w.received then (w.conn h).released else w.conn h) ∧
      w.finish.log = w.log ++ (if w.closePipe then [.uvClosePipe] else []) ++
        w.received.map .uvClose ++ [.resumed w.code []] := by
  have hneg : w.detach.code < 0 := hcode
  have hnone : w.detach.untransferred = none := hun
  have heq : w.finish = w.detach.closeFailedPipe.discardReceived.resume (some 0) := by
    unfold World.finish World.conclude
    rw [if_pos hneg, hnone, he.continuation]
  rw [heq, discarded_eq he]
  refine ⟨⟨he.ended.reading, he.ended.registered⟩, rfl, ?_, fun _ => rfl, ?_⟩
  · have hnot : ¬ 0 ≤ w.code := Int.not_le.mpr hcode
    simp [World.resume, World.emit, World.detach, World.stopNative, World.releaseSlots, he.required,
      hnot]
  · show _ ++ [Event.resumed w.code (if w.code < 0 then [] else [])] = _
    rw [if_pos hcode]

/-- the connection that the coroutine waits for -/
def Connection.awaited (x : Connection) : Connection :=
  { x.released with
    destination := true, close := { x.released.close with callbackWaiter := some 0 } }

theorem closeUntransferred_eq (hopen : (w.conn h).close.phase = .opened) :
    w.closeUntransferred h (some 0) = { w with
      incoming := none, provisionalCloseRequired := true
      conn := Function.update w.conn h (w.conn h).awaited
      log := w.log ++ [.uvClose h] } := by
  have hrel := releaseOwner_eq (h := h) (w := World.setConn
    { w with incoming := none, provisionalCloseRequired := true } h ({ · with destination := true }))
    (by simpa [World.setConn] using hopen)
  unfold World.closeUntransferred
  dsimp only
  rw [hrel]
  simp [World.requestCloseFromCallback, World.setConn, World.requestClose,
    Close.AsyncCloseState.begin, Connection.released, Connection.awaited]

theorem finish_waits (he : Ending w) (hcode : w.code < 0) (hun : w.untransferred = some h)
    (hh : h ∉ w.received) (hopen : (w.conn h).close.phase = .opened) :
    Ended w.finish ∧ w.finish.status = w.status ∧ w.finish.fault = w.fault ∧
      w.finish.code = w.code ∧ w.finish.provisionalCloseRequired = true ∧
      w.finish.provisionalCloseCompleted = w.provisionalCloseCompleted ∧
      w.finish.received = [] ∧ w.finish.conn h = (w.conn h).awaited ∧
      (∀ g, g ≠ h → w.finish.conn g = if g ∈ w.received then (w.conn g).released else w.conn g) ∧
      w.finish.log = w.log ++ (if w.closePipe then [.uvClosePipe] else []) ++
        w.received.map .uvClose ++ [.uvClose h] := by
  have hneg : w.detach.code < 0 := hcode
  have hsome : w.detach.untransferred = some h := hun
  have heq : w.finish = w.detach.closeFailedPipe.discardReceived.closeUntransferred h (some 0) := by
    unfold World.finish World.conclude
    rw [if_pos hneg, hsome, he.continuation]
  have hself : (if h ∈ w.received then (w.conn h).released else w.conn h) = w.conn h := if_neg hh
  rw [heq, discarded_eq he, closeUntransferred_eq (by dsimp only; rw [hself]; exact hopen)]
  refine ⟨⟨he.ended.reading, he.ended.registered⟩, rfl, rfl, rfl, rfl, rfl, rfl, ?_, ?_, rfl⟩
  · dsimp only
    rw [Function.update_self, hself]
  · intro g hg
    dsimp only
    rw [Function.update_of_ne hg]

/-! ## The close callbacks -/

/-- the record after `on_close`, without an owner or with one -/
def Connection.completed (x : Connection) : Connection :=
  if x.close.ownerReleased then
    { x with deleted := true, destination := false, close := x.close.beginComplete.1 }
  else
    { x with
        destination := false
        close := { x.close.beginComplete.1 with completionActive := false } }

theorem Connection.completed_silent (x : Connection) : Silent x.completed := by
  unfold Connection.completed
  split <;> exact ⟨rfl, rfl, rfl⟩

/-- nobody waits: the callback goes into the history, and the record is deleted -/
theorem onClose_silent (hs : Silent (w.conn h)) :
    ∃ x, Silent x ∧ w.onClose h = { w with
      conn := Function.update w.conn h x
      log := w.log ++ [.closed h] } := by
  obtain ⟨hw, hc, hd⟩ := hs
  refine ⟨_, (w.conn h).completed_silent, ?_⟩
  cases ho : (w.conn h).close.ownerReleased <;>
    simp [World.onClose, World.emit, hd, Close.AsyncCloseState.beginComplete, hw, hc,
      World.setConn, Close.AsyncCloseState.endComplete, ho, Connection.completed]

/-- the coroutine waits: it is resumed with its failure -/
theorem onClose_waiting (hw : (w.conn h).close.waiters = [])
    (hc : (w.conn h).close.callbackWaiter = some 0) (hd : (w.conn h).destination = true)
    (hcode : w.code < 0) :
    ∃ x, Silent x ∧ w.onClose h = { w with
      status := .over
      provisionalCloseCompleted := true
      conn := Function.update w.conn h x
      log := w.log ++ [.closed h, .resumed w.code []] } := by
  have hnot : ¬ 0 ≤ w.code := Int.not_le.mpr hcode
  refine ⟨_, (w.conn h).completed_silent, ?_⟩
  cases ho : (w.conn h).close.ownerReleased <;>
    simp [World.onClose, World.emit, hd, Close.AsyncCloseState.beginComplete, hw, hc,
      World.setConn, Close.AsyncCloseState.endComplete, ho, World.resume, hcode, hnot,
      Connection.completed]

end

end Receive
