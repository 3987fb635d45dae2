import Uvpp.Operation.Steps

/-!
# Tasks stay on their loop

* `World.opened`      an object an operation can be asked of;
* `body_foreign`      an operation of an open object of another loop is refused and changes nothing;
* `AffinityContract`  whoever holds the continuation of a task is on the loop of the task, children
                      and joined executions too, and what another loop owns cannot be awaited;
* `affinity_contract` in every run.

The calls that are not awaited ask for no loop: see `foreign_close` for `request_close()`, and for a
write over a pipe that is not open.
-/

namespace Operation
open Errno Throwing

/-- an owner that is neither moved from nor closing, and any other object that exists -/
def World.opened (w : World) : Object → Bool
  | .owner o => w.usable o
  | e => (w.loop e).isSome

/-- an exception out of `co_await` with nothing changed; a length that libuv cannot take is found
even before the loop -/
def Throws (m : Cmd Exit World Resumer) (w : World) : Prop :=
  ∃ x, (x = .affinity ∨ x = .lengthError) ∧ exec m w = (.error x, w)

/-- the same, or `UV_EBADF` because another object of the operation is not open -/
def Refused (op : Op) (m : Cmd Exit World Resumer) (w : World) : Prop :=
  ∃ x, (x = .affinity ∨ x = .lengthError ∨
      x = .status ebadf ∧ ∃ e ∈ op.objects, w.opened e = false) ∧
    exec m w = (.error x, w)

theorem Throws.refused {m : Cmd Exit World Resumer} {w : World} (h : Throws m w) (op : Op) :
    Refused op m w := by
  obtain ⟨x, hx | hx, hex⟩ := h
  · exact ⟨x, .inl hx, hex⟩
  · exact ⟨x, .inr (.inl hx), hex⟩

section
variable {p : Platform} {w : World} {t : TaskId} {o h : OwnerId} {n : Nat} {a : Answers} {l : LoopId}
  {span : Span}

theorem exec_require_true {b : World → Bool} {e : Exit} (hb : b w = true) :
    exec (require b e) w = (.ok (), w) := by
  rw [exec_require, if_pos hb]

theorem exec_require_false {b : World → Bool} {e : Exit} (hb : b w = false) :
    exec (require b e) w = (.error e, w) := by
  rw [exec_require, hb]
  rfl

theorem sameLoop_foreign {e : Object} (ht : w.loop (.task t) = some l) (he : w.loop e ≠ some l) :
    exec (sameLoop t e) w = (.error .affinity, w) := by
  rw [exec_sameLoop, ht]
  exact if_neg he

theorem sameLoop_own {e : Object} (ht : w.loop (.task t) = some l) (he : w.loop e = some l) :
    exec (sameLoop t e) w = (.ok (), w) := by
  rw [exec_sameLoop, ht]
  exact if_pos he

/-- what begins with the check of the loop -/
theorem sameLoop_throws {e : Object} (ht : w.loop (.task t) = some l) (he : w.loop e ≠ some l)
    (k : Unit → Cmd Exit World Resumer) : Throws (sameLoop t e >>= k) w :=
  ⟨.affinity, .inl rfl, exec_bind_error (sameLoop_foreign ht he) k⟩

/-- a check before it that succeeds -/
theorem require_throws {b : World → Bool} {e : Exit} {k : Unit → Cmd Exit World Resumer}
    (hb : b w = true) (hk : Throws (k ()) w) : Throws (require b e >>= k) w := by
  obtain ⟨x, hx, hex⟩ := hk
  exact ⟨x, hx, (exec_bind_ok (exec_require_true hb) k).trans hex⟩

theorem enter_throws (ho : w.usable o = true) (ht : w.loop (.task t) = some l)
    (hl : w.loop (.owner o) ≠ some l) (k : Unit → Cmd Exit World Resumer) :
    Throws (enter t o >>= k) w := by
  rw [enter, bind_assoc]
  refine require_throws ho ?_
  rw [bind_assoc]
  exact sameLoop_throws ht hl _

theorem checkBufferLength_throws {k : Unit → Cmd Exit World Resumer} (hk : Throws (k ()) w) :
    Throws (checkBufferLength p span.size >>= k) w := by
  cases hfits : bufferLengthFits p span.size with
  | true => exact require_throws hfits hk
  | false => exact ⟨.lengthError, .inr rfl, exec_bind_error (exec_require_false hfits) k⟩

theorem usable_isSome (ho : w.usable o = true) : (w.loop (.owner o)).isSome = true := by
  rw [World.usable, Bool.and_eq_true] at ho
  exact ho.1

theorem sameLoop_then_throws {e : Object} {k : Unit → Cmd Exit World Resumer}
    (ht : w.loop (.task t) = some l) (he : w.loop e = some l) (hk : Throws (k ()) w) :
    Throws (sameLoop t e >>= k) w := by
  obtain ⟨x, hx, hex⟩ := hk
  exact ⟨x, hx, (exec_bind_ok (sameLoop_own ht he) k).trans hex⟩

theorem streamWrite_throws {pin : Option OwnerId} {submission : Int} (ho : w.usable o = true)
    (ht : w.loop (.task t) = some l) (hl : w.loop (.owner o) ≠ some l) :
    Throws (streamWrite p t o n span pin submission a) w :=
  require_throws ho (sameLoop_throws ht hl _)

/-- the connection that is passed with the bytes -/
theorem streamWrite_pin_throws {submission : Int} (ho : w.usable o = true)
    (ht : w.loop (.task t) = some l) (hl : w.loop (.owner h) ≠ some l) :
    Throws (streamWrite p t o n span (some h) submission a) w := by
  refine require_throws ho ?_
  by_cases hown : w.loop (.owner o) = some l
  · exact sameLoop_then_throws ht hown (sameLoop_throws ht hl _)
  · exact sameLoop_throws ht hown _

theorem exec_writeWithHandle (hfits : bufferLengthFits p span.size = true) :
    exec (writeWithHandle p t o h n span a) w =
      exec (if (w.loop (.owner o)).isNone || (w.loop (.owner h)).isNone then
          streamWrite p t o n span none ebadf a
        else streamWrite p t o n span (some h) (if (w.owner o).ipc then 0 else einval) a) w := by
  have hcheck : exec (checkBufferLength p span.size) w = (.ok (), w) := exec_require_true hfits
  rw [writeWithHandle, exec_bind_ok hcheck]
  rfl

/-- the pipe is foreign -/
theorem writeWithHandle_throws (ho : w.usable o = true) (ht : w.loop (.task t) = some l)
    (hl : w.loop (.owner o) ≠ some l) : Throws (writeWithHandle p t o h n span a) w := by
  refine checkBufferLength_throws ?_
  show Throws (if (w.loop (.owner o)).isNone || (w.loop (.owner h)).isNone then _ else _) w
  split
  · exact streamWrite_throws ho ht hl
  · exact streamWrite_throws ho ht hl

/-- the connection that is passed is foreign; the pipe may be closed -/
theorem writeWithHandle_refused (hh : w.usable h = true) (ht : w.loop (.task t) = some l)
    (hl : w.loop (.owner h) ≠ some l) :
    Refused (.writeWithHandle o h span) (writeWithHandle p t o h n span a) w := by
  cases hfits : bufferLengthFits p span.size with
  | false =>
    have hcheck : exec (checkBufferLength p span.size) w = (.error .lengthError, w) :=
      exec_require_false hfits
    exact ⟨.lengthError, .inr (.inl rfl), exec_bind_error hcheck _⟩
  | true =>
    rw [Refused, exec_writeWithHandle hfits]
    cases ho : w.usable o with
    | true =>
      have hnone : ((w.loop (.owner o)).isNone || (w.loop (.owner h)).isNone) = false := by
        rw [Option.isNone_eq_false_iff.mpr (usable_isSome ho),
          Option.isNone_eq_false_iff.mpr (usable_isSome hh)]
        rfl
      rw [hnone]
      exact (streamWrite_pin_throws ho ht hl).refused _
    | false =>
      refine ⟨.status ebadf, .inr (.inr ⟨rfl, .owner o, List.mem_cons_self, ho⟩), ?_⟩
      split
      · exact exec_bind_error (exec_require_false ho) _
      · exact exec_bind_error (exec_require_false ho) _

end

/-- Whatever is awaited, if an open object of it belongs to another loop. -/
theorem body_foreign {p : Platform} {w : World} {t : TaskId} {n : Nat} {a : Answers} {l : LoopId}
    {op : Op} {e : Object} (ht : w.loop (.task t) = some l) (he : e ∈ op.objects)
    (hopen : w.opened e = true) (hl : w.loop e ≠ some l) : Refused op (op.body p t n a) w := by
  cases op with
  | sleep | resolve | openFile | connect => cases he
  | writeWithHandle o h span =>
    rcases List.mem_cons.mp he with rfl | he
    · exact (writeWithHandle_throws hopen ht hl).refused _
    · obtain rfl := List.mem_singleton.mp he
      exact writeWithHandle_refused hopen ht hl
  | readSome | receiveHandle | recvFrom | accept | wait | next | nextPoll =>
    obtain rfl := List.mem_singleton.mp he
    exact (enter_throws hopen ht hl _).refused _
  | write o span =>
    obtain rfl := List.mem_singleton.mp he
    exact (checkBufferLength_throws (streamWrite_throws hopen ht hl)).refused _
  | sendTo o span | readFile o span | writeFile o span =>
    obtain rfl := List.mem_singleton.mp he
    exact (checkBufferLength_throws (enter_throws hopen ht hl _)).refused _
  | closeFile o | close o reject =>
    obtain rfl := List.mem_singleton.mp he
    exact (require_throws (usable_isSome hopen) (sameLoop_throws ht hl _)).refused _
  | closePosting q | join h | joinScope s | finish r =>
    obtain rfl := List.mem_singleton.mp he
    exact (sameLoop_throws ht hl _).refused _

/-! ## the contract -/

structure AffinityContract (p : Platform) (w : World) : Prop where
  /-- what a suspended task waits for is on its loop -/
  resumed : ∀ t r, w.status t = .suspended r →
    ∃ l, w.loop (.task t) = some l ∧ loopOf w.loop r = some l
  /-- so is whatever holds its continuation -/
  slot : ∀ o s t, (w.owner o).slot s = some t → Joint w.loop (.owner o) t
  closer : ∀ o, ∀ t ∈ (w.owner o).closers, Joint w.loop (.owner o) t
  drainer : ∀ q, ∀ t ∈ (w.posting q).closers, Joint w.loop (.posting q) t
  joiner : ∀ h, ∀ t ∈ (w.root h).joiners, Joint w.loop (.root h) t
  scopeJoiner : ∀ s t, (w.scope s).joiner = some t → Joint w.loop (.scope s) t
  /-- and every execution that is joined -/
  root : ∀ h c, (w.root h).task = some c → Joint w.loop (.root h) c
  scope : ∀ s, ∀ c ∈ (w.scope s).children, Joint w.loop (.scope s) c
  /-- a child has the loop and the cancellation state of the parent that awaits it -/
  child : ∀ c t, w.parent c = some t ∨ w.status t = .suspended (.child c) →
    Joint w.loop (.task c) t ∧ w.cancel c = w.cancel t
  /-- what another loop owns is not awaited: the history names the operation before it starts, and
  nothing else is different after it -/
  foreign : ∀ t op a e, w.status t = .running → e ∈ op.objects → w.opened e = true →
    w.loop e ≠ w.loop (.task t) → Refused op (op.body p t w.count a) (w.begin op)
  /-- an owner of another loop is not moved into a resource scope -/
  adopted : ∀ r o, w.loop (.owner o) ≠ w.loop (.resources r) →
    ∃ x, (x = .affinity ∨ x = .misuse) ∧ exec (Call.own r o).body w = (.error x, w)

theorem own_foreign {w : World} {r : ResourcesId} {o : OwnerId}
    (hl : w.loop (.owner o) ≠ w.loop (.resources r)) :
    ∃ x, (x = .affinity ∨ x = .misuse) ∧ exec (Call.own r o).body w = (.error x, w) := by
  rw [Call.body]
  cases hs : decide ((w.resources r).state = .opened) with
  | false => exact ⟨.misuse, .inr rfl, exec_bind_error (exec_require_false hs) _⟩
  | true =>
    rw [exec_bind_ok (exec_require_true hs), exec_bind, exec_loopAt]
    cases hr : w.loop (.resources r) with
    | none => exact ⟨.misuse, .inr rfl, rfl⟩
    | some l =>
      refine ⟨.affinity, .inl rfl, exec_bind_error (exec_require_false ?_) _⟩
      exact decide_eq_false (hr ▸ hl)

/-- in every run -/
theorem affinity_contract (p : Platform) (as : List Action) (w : World)
    (h : (sys p).run (sys p).init as = some w) : AffinityContract p w := by
  have hb := (run_inv h).bound
  exact
    { resumed := hb.suspended
      slot := hb.slot
      closer := hb.closer
      drainer := hb.drainer
      joiner := hb.joiner
      scopeJoiner := hb.scopeJoiner
      root := fun k c hc => (hb.root k c hc).1
      scope := fun s c hc => (hb.child s c hc).1
      child := by
        rintro c t (hc | ht)
        · exact hb.parent c t hc
        · obtain ⟨l, hl, hc⟩ := hb.suspended t _ ht
          exact ⟨⟨l, hc, hl⟩, hb.awaited t c ht⟩
      foreign := by
        intro t op a e ht he hopen hforeign
        obtain ⟨l, hl⟩ := Option.ne_none_iff_exists'.mp (hb.running t ht)
        rw [hl] at hforeign
        have hopen' : (w.begin op).opened e = true := by
          cases e <;> exact hopen
        exact body_foreign (w := w.begin op) hl he hopen' hforeign
      adopted := fun r o hl => own_foreign hl }

/-- A task of loop 1 reads from connection 0, its child sleeps, and a task of loop 2 runs. -/
def twoLoops : List Action :=
  [.construct 0 .tcpConnection 1 false, .create 0, .spawn 2 0 0, .create 1, .spawn 1 1 1,
    .create 2, .spawn 1 2 2, .create 3, .await 1 (.readSome 0 ⟨4096, 16⟩) {}, .awaitChild 2 3,
    .await 3 .sleep {}]

theorem affinity_contract_twoLoops :
    ∃ w, (sys windows64).run (sys windows64).init twoLoops = some w ∧
    w.status 0 = .running ∧ w.opened (.owner 0) = true ∧ w.loop (.owner 0) ≠ w.loop (.task 0) ∧
    w.status 1 = .suspended (.slot 0 .reader) ∧ w.status 2 = .suspended (.child 3) ∧
    w.status 3 = .suspended (.request 1) ∧ AffinityContract windows64 w :=
  ⟨_, rfl, rfl, rfl, by decide, rfl, rfl, rfl, affinity_contract windows64 twoLoops _ rfl⟩

/-- A task of loop 2 closes its pipe, over which it could send a connection of loop 1. -/
def closedPipe : List Action :=
  [.construct 0 .pipeConnection 2 true, .construct 1 .tcpConnection 1 false, .create 0,
    .spawn 2 0 0, .call (some 0) (.requestClose 0)]

/-- `request_close()` does not ask for the loop: a task of loop 2 closes the connection of loop 1.
And `write_with_handle` does not get to the loop of the connection if the pipe is not open. -/
theorem foreign_close :
    (∃ w v, (sys windows64).run (sys windows64).init
      [.construct 0 .tcpConnection 1 false, .create 0, .spawn 2 0 0] = some w ∧
    w.status 0 = .running ∧ w.opened (.owner 0) = true ∧ w.loop (.owner 0) = some 1 ∧
    w.loop (.task 0) = some 2 ∧ exec (Call.requestClose 0).body w = (.ok (), v) ∧
    step windows64 w (.call (some 0) (.requestClose 0)) = some v ∧
    (w.owner 0).phase = .opened ∧ (v.owner 0).phase = .closing) ∧
    ∃ w, (sys windows64).run (sys windows64).init closedPipe = some w ∧ w.status 0 = .running ∧
      w.opened (.owner 1) = true ∧ w.loop (.owner 1) = some 1 ∧ w.loop (.task 0) = some 2 ∧
      exec ((Op.writeWithHandle 0 1 ⟨4096, 16⟩).body windows64 0 w.count {}) w =
        (.error (.status ebadf), w) :=
  ⟨⟨_, _, rfl, rfl, rfl, rfl, rfl, rfl, rfl, rfl, rfl⟩, ⟨_, rfl, rfl, rfl, rfl, rfl, rfl⟩⟩

end Operation
