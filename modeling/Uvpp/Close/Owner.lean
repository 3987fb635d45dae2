import Uvpp.Machine.Run
import Uvpp.Close.Settle

/-!
# The eight owners

One record (`tcp_connection_state`, `pipe_connection_state`, `tcp_listener_state`,
`pipe_listener_state`, `udp_socket_state`, `signal_source_state`, `fs_event_source_state`,
`poll_source_state`) and its owner.  `requestClose` and `releaseOwner` are the functions of that
name of the eight families; where the families differ the definition asks the family:

* connections and UDP sockets submit `uv_close` at once;
* listeners first hand the pending accept over to the close of its provisional child;
* signal, fs-event and poll sources first cancel the coroutine suspended in `next()`, which runs
  before `uv_close` is submitted and may do anything (`Frame.closing`).

`sys fam` is the machine of one record of the family `fam`, and `close_contract` says what holds
in all its runs.
-/

namespace Close

inductive Family where
  | tcpConnection
  | pipeConnection
  | tcpListener
  | pipeListener
  | udpSocket
  | signalSource
  | fsEventSource
  | pollSource
deriving DecidableEq

namespace Family

/-- the families with borrowed read and write operations -/
def borrowsIo : Family → Bool
  | .tcpConnection | .pipeConnection | .udpSocket => true
  | _ => false

/-- the families whose record may come from a connect or an accept -/
def connects : Family → Bool
  | .tcpConnection | .pipeConnection => true
  | _ => false

def listens : Family → Bool
  | .tcpListener | .pipeListener => true
  | _ => false

/-- the families whose `request_close` resumes the coroutine suspended in `next()` -/
def cancelsInline : Family → Bool
  | .signalSource | .fsEventSource | .pollSource => true
  | _ => false

end Family

/-- a borrowed operation of a connection or socket -/
inductive Io where
  | write
  | read
  | handleExport
deriving DecidableEq

/-- who holds the `unique_ptr` of the record -/
inductive Owner where
  /-- a constructor, or the awaiter of a connect or accept -/
  | provisional
  | held (id : Nat)
  | gone
deriving DecidableEq

/-- a record, its owner and the loop thread -/
structure World where
  life : Life Empty := {}
  /-- `io.write_active`, `send_active` -/
  writeActive : Bool := false
  /-- `io.active_read`, `active_receive` -/
  readActive : Bool := false
  handleExportActive : Bool := false
  /-- the exclusive slot: `accept` of a listener, `waiter` of a source -/
  slot : Option Coro := none
  owner : Owner := .provisional

inductive Act where
  /-- construction succeeds: the record moves into the owner object -/
  | adopt (id : Nat)
  /-- construction fails; a failed connect or accept hands its coroutine to the close -/
  | initFailed (c : Option Coro)
  /-- `co_await` of one of the close awaiters by a coroutine of the right loop -/
  | close (c : Coro) (rejectActive : Bool)
  | requestClose
  | move (id : Nat)
  | destroy
  | ioStart (op : Io)
  | ioFinish (op : Io)
  /-- `accept()` or `next()` suspends -/
  | claim (c : Coro)
  /-- a native notification or a stop of the task empties the slot and resumes -/
  | deliver
  /-- libuv calls the close callback -/
  | closeCallback
  /-- the activation on top of the stack goes on -/
  | tick
  /-- the foreign code on top of the stack returns -/
  | ret
deriving DecidableEq

/-- what `await_suspend` of a close awaiter comes to -/
inductive AwaitClose where
  /-- not suspended: the record is closed -/
  | ready
  /-- not suspended: `UV_EBUSY` -/
  | busy
  | suspended (initiated : Bool)
deriving DecidableEq

namespace World

def io (w : World) : Io → Bool
  | .write => w.writeActive
  | .read => w.readActive
  | .handleExport => w.handleExportActive

def setIo (w : World) (b : Bool) : Io → World
  | .write => { w with writeActive := b }
  | .read => { w with readActive := b }
  | .handleExport => { w with handleExportActive := b }

/-- `has_active_operation()` -/
def hasActiveOperation (w : World) : Family → Bool
  | .tcpConnection => w.writeActive || w.readActive || w.handleExportActive
  | .pipeConnection | .udpSocket => w.writeActive || w.readActive
  | _ => false

/-- `request_close()` of the record: whether this call claimed the close -/
def requestClose (fam : Family) (w : World) : World × Bool :=
  match w.life.close.begin with
  | (_, false) => (w, false)
  | (_, true) =>
    if fam.cancelsInline ∧ w.slot.isSome then
      -- the cancelled coroutine runs now; `uv_close` follows when it returns
      ({ w with life := w.life.beginInline, slot := none }, true)
    else if fam.listens then
      -- `accept.quiesce()`: the accept goes on with the close of its provisional child
      ({ w with life := w.life.beginSubmit, slot := none }, true)
    else ({ w with life := w.life.beginSubmit }, true)

/-- `release_owner()` of the record -/
def releaseOwner (fam : Family) (w : World) : World :=
  let w := { w with life := w.life.releaseOwner }
  if w.life.close.phase = .opened then (w.requestClose fam).1
  else if w.life.close.canDestroyNow then { w with life := w.life.delete }
  else w

/-- `request_close_from_callback()` -/
def requestCloseFromCallback (fam : Family) (w : World) (c : Coro) : World :=
  ({ w with life := w.life.suspendCallback c }.requestClose fam).1

/-- `owner_close_awaiter::await_suspend` -/
def awaitClose (fam : Family) (w : World) (c : Coro) (rejectActive : Bool) : World × AwaitClose :=
  if w.life.close.phase = .closed then (w, .ready)
  else if rejectActive && w.hasActiveOperation fam then (w, .busy)
  else
    let r := { w with life := w.life.suspend c }.requestClose fam
    (r.1, .suspended r.2)

/-- `request_close()` of the owner: connections and sockets refuse while an operation is active -/
def ownerRequestClose (fam : Family) (w : World) : World :=
  if w.life.close.phase ≠ .closed ∧ w.hasActiveOperation fam then w
  else (w.requestClose fam).1

/-- the coroutines suspended on this record -/
def suspended (w : World) : List Coro := w.slot.toList ++ w.life.suspended

/-- what the destructor of the owner checks: no borrowed operation, no pending accept -/
def quiet (fam : Family) (w : World) : Bool :=
  !w.hasActiveOperation fam && !(fam.listens && w.slot.isSome)

def held (w : World) : Bool :=
  match w.owner with
  | .held _ => true
  | _ => false

end World

/-- one action; all but the last three need foreign code to run -/
def step (fam : Family) (w : World) : Act → Option World
  | .adopt id =>
    if foreign w.life.stack ∧ w.owner = .provisional then some { w with owner := .held id }
    else none
  | .initFailed none =>
    if foreign w.life.stack ∧ w.owner = .provisional ∧ ¬ fam.connects then
      some ({ w with owner := .gone }.releaseOwner fam)
    else none
  | .initFailed (some c) =>
    if foreign w.life.stack ∧ w.owner = .provisional ∧ fam.connects then
      some (({ w with owner := .gone }.releaseOwner fam).requestCloseFromCallback fam c)
    else none
  | .close c rejectActive =>
    if foreign w.life.stack ∧ w.held ∧ c ∉ w.suspended then some (w.awaitClose fam c rejectActive).1
    else none
  | .requestClose =>
    if foreign w.life.stack ∧ w.held then some (w.ownerRequestClose fam) else none
  | .move id =>
    if foreign w.life.stack ∧ w.held then some { w with owner := .held id } else none
  | .destroy =>
    if foreign w.life.stack ∧ w.held ∧ w.quiet fam then
      some ({ w with owner := .gone }.releaseOwner fam)
    else none
  | .ioStart op =>
    if foreign w.life.stack ∧ w.held ∧ fam.borrowsIo ∧ w.life.close.phase = .opened
        ∧ w.io op = false ∧ (op = .handleExport → fam = .tcpConnection) then
      some (w.setIo true op)
    else none
  | .ioFinish op =>
    if foreign w.life.stack ∧ w.life.live ∧ w.io op then
      some { w.setIo false op with life := w.life.enter }
    else none
  | .claim c =>
    if foreign w.life.stack ∧ w.held ∧ (fam.listens ∨ fam.cancelsInline)
        ∧ w.life.close.phase = .opened ∧ w.slot = none ∧ c ∉ w.suspended then
      some { w with slot := some c }
    else none
  | .deliver =>
    if foreign w.life.stack ∧ w.life.live ∧ w.slot.isSome then
      some { w with slot := none, life := w.life.enter }
    else none
  | .closeCallback =>
    if w.life.stack = [] ∧ w.life.inFlight then some { w with life := w.life.onClose } else none
  | .tick => w.life.tick.map fun l => { w with life := l }
  | .ret => w.life.ret.map fun l => { w with life := l }

/-- the machine of one record, from its native initialisation on -/
def sys (fam : Family) : Sys World Act := ⟨{}, step fam⟩

/-! ## what each function does to the life of the record -/

section
variable (fam : Family) {w : World}

theorem requestClose_claimed (h : w.life.close.phase ≠ .opened) :
    w.requestClose fam = (w, false) := by
  unfold World.requestClose
  rw [begin_claimed h]

/-- the first `request_close` claims the close, at once or around a cancelled coroutine -/
theorem requestClose_opened (h : w.life.close.phase = .opened) :
    ((w.requestClose fam).1.life = w.life.beginSubmit ∨
      fam.cancelsInline ∧ (w.requestClose fam).1.life = w.life.beginInline) ∧
    (w.requestClose fam).1.owner = w.owner := by
  unfold World.requestClose
  rw [begin_opened h]
  dsimp only
  split
  · rename_i hc
    exact ⟨Or.inr ⟨hc.1, rfl⟩, rfl⟩
  · split
    · exact ⟨Or.inl rfl, rfl⟩
    · exact ⟨Or.inl rfl, rfl⟩

theorem requestClose_owner : (w.requestClose fam).1.owner = w.owner := by
  by_cases h : w.life.close.phase = .opened
  · exact (requestClose_opened fam h).2
  · rw [requestClose_claimed fam h]

theorem requestClose_resumed : resumedBy (w.requestClose fam).1.life.log = resumedBy w.life.log := by
  by_cases h : w.life.close.phase = .opened
  · obtain ⟨hs | ⟨_, hi⟩, _⟩ := requestClose_opened fam h
    · rw [hs]
      simp [Life.beginSubmit, Life.submit]
    · rw [hi]
      rfl
  · rw [requestClose_claimed fam h]

theorem releaseOwner_owner : (w.releaseOwner fam).owner = w.owner := by
  unfold World.releaseOwner
  dsimp only
  split
  · rw [requestClose_owner]
  · split <;> rfl

theorem releaseOwner_resumed : resumedBy (w.releaseOwner fam).life.log = resumedBy w.life.log := by
  unfold World.releaseOwner
  dsimp only
  split
  · rw [requestClose_resumed]
    rfl
  · split
    · simp [Life.delete, Life.releaseOwner]
    · rfl

@[simp] theorem setIo_life (b : Bool) (op : Io) : (w.setIo b op).life = w.life := by
  cases op <;> rfl

@[simp] theorem setIo_owner (b : Bool) (op : Io) : (w.setIo b op).owner = w.owner := by
  cases op <;> rfl

end

/-! ## the invariant -/

structure Inv (w : World) : Prop where
  life : LifeInv w.life
  fresh : Fresh w.life
  quiet : Quiet w.life
  released : w.life.close.ownerReleased = true ↔ w.owner = .gone
  gone : w.owner = .gone → w.life.close.phase ≠ .opened
  provisional : w.owner = .provisional → w.life.close.phase = .opened

section
variable (fam : Family) {w : World}

/-- `request_close` on a record somebody may already wait for -/
theorem requestClose_life (h : LifeInv w.life) (hf : Fresh w.life) :
    LifeInv (w.requestClose fam).1.life ∧
    (w.requestClose fam).1.life.close =
      { w.life.close with phase := (w.requestClose fam).1.life.close.phase } ∧
    (w.requestClose fam).1.life.close.phase ≠ .opened := by
  by_cases hp : w.life.close.phase = .opened
  · obtain ⟨hs | ⟨_, hi⟩, _⟩ := requestClose_opened fam hp
    · rw [hs]
      refine ⟨beginSubmit_inv h hp hf, ?_, ?_⟩ <;>
        simp [Life.beginSubmit, Life.submit, begin_opened hp]
    · rw [hi]
      refine ⟨beginInline_inv h hp hf, ?_, ?_⟩ <;> simp [Life.beginInline, begin_opened hp]
  · rw [requestClose_claimed fam hp]
    exact ⟨h, rfl, hp⟩

/-- a claimed close: the conditions on the open phase are void -/
theorem Inv.of_claimed (h : LifeInv w.life) (hp : w.life.close.phase ≠ .opened)
    (hr : w.life.close.ownerReleased = true ↔ w.owner = .gone) (ho : w.owner ≠ .provisional) :
    Inv w where
  life := h
  fresh := fun hc => absurd hc hp
  quiet := fun hc => absurd hc hp
  released := hr
  gone := fun _ => hp
  provisional := fun hc => absurd hc ho

theorem held_ne (h : w.held = true) : w.owner ≠ .provisional ∧ w.owner ≠ .gone := by
  unfold World.held at h
  split at h <;> simp_all

theorem not_released (h : Inv w) (ho : w.owner ≠ .gone) : w.life.close.ownerReleased = false := by
  rw [← Bool.not_eq_true, h.released]
  exact ho

/-- `release_owner`, called by the owner that leaves: the close is claimed afterwards, and the
coroutines that wait are the same -/
theorem release_inv (h : Inv w) (ho : w.owner ≠ .gone) :
    Inv ({ w with owner := .gone }.releaseOwner fam) ∧
    (w.life.close.phase = .opened →
      ({ w with owner := .gone }.releaseOwner fam).life.close.phase = .closing ∧
      ({ w with owner := .gone }.releaseOwner fam).life.close.waiters = [] ∧
      ({ w with owner := .gone }.releaseOwner fam).life.close.callbackWaiter = none) := by
  have howner : ({ w with owner := .gone }.releaseOwner fam).owner = .gone := releaseOwner_owner fam
  have hnr := not_released h ho
  unfold World.releaseOwner at howner ⊢
  dsimp only at howner ⊢
  by_cases hp : w.life.close.phase = .opened
  · have hp' : w.life.releaseOwner.close.phase = .opened := hp
    rw [if_pos hp'] at howner ⊢
    obtain ⟨hl, hc, hne⟩ := requestClose_life fam
      (w := { w with life := w.life.releaseOwner, owner := .gone })
      (releaseOwner_inv h.life fun hcl => absurd (hp.symm.trans hcl) (fun h => by cases h)) h.fresh
    refine ⟨Inv.of_claimed hl hne ?_ (by rw [howner]; exact fun h => by cases h), fun _ => ?_⟩
    · rw [hc, howner]
      exact ⟨fun _ => rfl, fun _ => rfl⟩
    · obtain ⟨hw, hcw⟩ := h.quiet hp
      refine ⟨?_, by rw [hc]; exact hw, by rw [hc]; exact hcw⟩
      obtain ⟨hs | ⟨_, hi⟩, _⟩ := requestClose_opened fam
        (w := { w with life := w.life.releaseOwner, owner := .gone }) hp'
      · rw [hs]
        simp [Life.beginSubmit, Life.submit, begin_opened hp']
      · rw [hi]
        simp [Life.beginInline, begin_opened hp']
  · have hp' : w.life.releaseOwner.close.phase ≠ .opened := hp
    rw [if_neg hp'] at howner ⊢
    refine ⟨?_, fun hc => absurd hc hp⟩
    by_cases hd : w.life.releaseOwner.close.canDestroyNow = true
    · rw [if_pos hd] at howner ⊢
      have hboth : w.life.close.phase = .closed ∧ w.life.close.completionActive = false := by
        rw [canDestroyNow_iff] at hd
        exact hd.2
      exact Inv.of_claimed (releaseDelete_inv h.life hboth.1 hboth.2 hnr) hp
        ⟨fun _ => rfl, fun _ => rfl⟩ (fun h => by cases h)
    · rw [if_neg hd] at howner ⊢
      refine Inv.of_claimed (releaseOwner_inv h.life fun hcl => ?_) hp
        ⟨fun _ => rfl, fun _ => rfl⟩ (fun h => by cases h)
      rw [canDestroyNow_iff] at hd
      by_contra hact
      exact hd ⟨rfl, hcl, (Bool.not_eq_true _).mp hact⟩

/-- a failed connect or accept -/
theorem initFailed_inv (h : Inv w) (ho : w.owner = .provisional) (c : Coro) :
    Inv (({ w with owner := .gone }.releaseOwner fam).requestCloseFromCallback fam c) := by
  obtain ⟨hr, hopen⟩ := release_inv fam h (by rw [ho]; exact nofun)
  obtain ⟨hphase, hw, hcw⟩ := hopen (h.provisional ho)
  have howner : ({ w with owner := .gone }.releaseOwner fam).owner = .gone := releaseOwner_owner fam
  generalize { w with owner := .gone }.releaseOwner fam = v at *
  have hne : v.life.close.phase ≠ .opened := by rw [hphase]; exact nofun
  have hcl : v.life.close.phase ≠ .closed := by rw [hphase]; exact nofun
  have hsame : v.requestCloseFromCallback fam c = { v with life := v.life.suspendCallback c } := by
    unfold World.requestCloseFromCallback
    rw [requestClose_claimed fam (w := { v with life := v.life.suspendCallback c }) hne]
  rw [hsame]
  exact Inv.of_claimed (suspendCallback_inv hr.life hcl hw hcw c) hne hr.released
    (by rw [howner]; exact nofun)

theorem awaitClose_inv (h : Inv w) (ho : w.held = true) {c : Coro} (hc : c ∉ w.suspended)
    (rejectActive : Bool) : Inv (w.awaitClose fam c rejectActive).1 := by
  unfold World.awaitClose
  split
  · exact h
  · rename_i hp
    split
    · exact h
    · have hl := suspend_inv h.life hp fun hm => hc (List.mem_append_right _ hm)
      have hadd : (w.life.suspend c).close = { w.life.close with waiters := w.life.close.waiters ++ [c] } := by
        rw [Life.suspend_eq hp]
      have hf : Fresh (w.life.suspend c) := by
        intro hop
        rw [hadd] at hop
        simpa [Life.suspend] using h.fresh hop
      obtain ⟨hl', hclose, hne⟩ := requestClose_life fam
        (w := { w with life := w.life.suspend c }) hl hf
      have howner := requestClose_owner fam (w := { w with life := w.life.suspend c })
      refine Inv.of_claimed hl' hne ?_ ?_
      · dsimp only at howner ⊢
        rw [hclose, howner, hadd]
        exact h.released
      · dsimp only at howner ⊢
        rw [howner]
        exact (held_ne ho).1

theorem ownerRequestClose_inv (h : Inv w) (ho : w.held = true) : Inv (w.ownerRequestClose fam) := by
  unfold World.ownerRequestClose
  split
  · exact h
  · obtain ⟨hl, hclose, hne⟩ := requestClose_life fam h.life h.fresh
    refine Inv.of_claimed hl hne ?_ ?_
    · rw [hclose, requestClose_owner]
      exact h.released
    · rw [requestClose_owner]
      exact (held_ne ho).1

/-- a step of the life that leaves `async_close_state` alone -/
theorem life_inv (h : Inv w) {l : Life Empty} (hl : LifeInv l) (hc : l.close = w.life.close)
    (hf : Fresh l) : Inv { w with life := l } where
  life := hl
  fresh := hf
  quiet := by unfold Quiet; rw [hc]; exact h.quiet
  released := by dsimp only; rw [hc]; exact h.released
  gone := by dsimp only; rw [hc]; exact h.gone
  provisional := by dsimp only; rw [hc]; exact h.provisional

theorem enter_world (h : Inv w) : Inv { w with life := w.life.enter } :=
  life_inv h (enter_inv h.life) rfl fun hp => by simpa [Life.enter] using h.fresh hp

theorem tick_world (h : Inv w) {l : Life Empty} (ht : w.life.tick = some l) :
    Inv { w with life := l } := by
  have hp := tick_claimed h.life h.fresh ht
  obtain ⟨hphase, hrel⟩ := tick_close ht
  refine Inv.of_claimed (tick_inv h.life ht) (by rw [hphase]; exact hp) ?_ ?_
  · rw [hrel]
    exact h.released
  · exact fun ho => hp (h.provisional ho)

theorem ret_world (h : Inv w) {l : Life Empty} (hr : w.life.ret = some l) :
    Inv { w with life := l } := by
  have hl := ret_inv h.life hr
  unfold Life.ret at hr
  split at hr
  · rename_i k hk
    cases hr
    refine life_inv h hl rfl fun hp => ?_
    have hf := h.fresh hp
    rw [hk] at hf
    simpa using hf
  · cases hr

theorem onClose_world (h : Inv w) (hk : w.life.stack = []) (hf : w.life.inFlight = true) :
    Inv { w with life := w.life.onClose } := by
  have hne : w.life.close.phase ≠ .opened := fun hp => by
    have hs := (h.life.inFlight.mp hf).1
    rw [(h.fresh hp).1] at hs
    cases hs
  exact Inv.of_claimed (onClose_inv h.life hk hf) nofun h.released
    fun ho => hne (h.provisional ho)

/-- every action keeps the invariant -/
theorem step_inv {w' : World} {a : Act} (h : Inv w) (hs : step fam w a = some w') : Inv w' := by
  cases a with
  | adopt id =>
    obtain ⟨hc, rfl⟩ := by simpa [step] using hs
    exact ⟨h.life, h.fresh, h.quiet, by simpa [hc.2] using h.released, nofun, nofun⟩
  | initFailed c =>
    cases c with
    | none =>
      obtain ⟨hc, rfl⟩ := by simpa [step] using hs
      exact (release_inv fam h (by rw [hc.2.1]; exact nofun)).1
    | some c =>
      obtain ⟨hc, rfl⟩ := by simpa [step] using hs
      exact initFailed_inv fam h hc.2.1 c
  | close c rejectActive =>
    obtain ⟨hc, rfl⟩ := by simpa [step] using hs
    exact awaitClose_inv fam h hc.2.1 hc.2.2 rejectActive
  | requestClose =>
    obtain ⟨hc, rfl⟩ := by simpa [step] using hs
    exact ownerRequestClose_inv fam h hc.2
  | move id =>
    obtain ⟨hc, rfl⟩ := by simpa [step] using hs
    have hr := h.released
    exact ⟨h.life, h.fresh, h.quiet, by simpa [(held_ne hc.2).2] using hr, nofun, nofun⟩
  | destroy =>
    obtain ⟨hc, rfl⟩ := by simpa [step] using hs
    exact (release_inv fam h (held_ne hc.2.1).2).1
  | ioStart op =>
    obtain ⟨hc, rfl⟩ := by simpa [step] using hs
    exact ⟨by simpa using h.life, by simpa using h.fresh, by simpa using h.quiet,
      by simpa using h.released, by simpa using h.gone, by simpa using h.provisional⟩
  | ioFinish op =>
    obtain ⟨hc, rfl⟩ := by simpa [step] using hs
    have he := enter_world h
    exact ⟨he.life, he.fresh, he.quiet, by simpa using he.released, by simpa using he.gone,
      by simpa using he.provisional⟩
  | claim c =>
    obtain ⟨hc, rfl⟩ := by simpa [step] using hs
    exact ⟨h.life, h.fresh, h.quiet, h.released, h.gone, h.provisional⟩
  | deliver =>
    obtain ⟨hc, rfl⟩ := by simpa [step] using hs
    have he := enter_world h
    exact ⟨he.life, he.fresh, he.quiet, he.released, he.gone, he.provisional⟩
  | closeCallback =>
    obtain ⟨hc, rfl⟩ := by simpa [step] using hs
    exact onClose_world h hc.1 hc.2
  | tick =>
    obtain ⟨l, hl, rfl⟩ := Option.map_eq_some_iff.mp hs
    exact tick_world h hl
  | ret =>
    obtain ⟨l, hl, rfl⟩ := Option.map_eq_some_iff.mp hs
    exact ret_world h hl

theorem inv_init : Inv {} :=
  ⟨lifeInv_init, fun _ => ⟨rfl, rfl⟩, fun _ => ⟨rfl, rfl⟩, ⟨nofun, nofun⟩, nofun, fun _ => rfl⟩

/-- **the invariant holds in every run** -/
theorem reach_inv (h : (sys fam).Reach w) : Inv w :=
  Sys.Reach.inv (P := Inv) inv_init (fun _ _ _ hi hs => step_inv fam hi hs) h

/-! ## the contract -/

/-- only the loop of `complete` resumes a coroutine that suspended on close -/
theorem resumed_step {w' : World} {a : Act} (hs : step fam w a = some w')
    (hne : resumedBy w'.life.log ≠ resumedBy w.life.log) :
    a = .tick ∧ ∃ rest k, w.life.stack = .complete rest :: k := by
  cases a with
  | adopt | move | ioFinish | claim | deliver =>
    obtain ⟨-, rfl⟩ := by simpa [step] using hs
    exact absurd rfl hne
  | initFailed c =>
    cases c with
    | none =>
      obtain ⟨-, rfl⟩ := by simpa [step] using hs
      exact absurd (releaseOwner_resumed fam) hne
    | some c =>
      obtain ⟨-, rfl⟩ := by simpa [step] using hs
      refine absurd ?_ hne
      rw [World.requestCloseFromCallback, requestClose_resumed]
      simp only [Life.suspendCallback, resumedBy_snoc, Event.resumes, Option.toList_none,
        List.append_nil]
      exact releaseOwner_resumed fam
  | close c rejectActive =>
    obtain ⟨-, rfl⟩ := by simpa [step] using hs
    refine absurd ?_ hne
    unfold World.awaitClose
    split
    · rfl
    · split
      · rfl
      · dsimp only
        rw [requestClose_resumed]
        simp [Life.suspend]
  | requestClose =>
    obtain ⟨-, rfl⟩ := by simpa [step] using hs
    refine absurd ?_ hne
    unfold World.ownerRequestClose
    split
    · rfl
    · rw [requestClose_resumed]
  | destroy =>
    obtain ⟨-, rfl⟩ := by simpa [step] using hs
    exact absurd (releaseOwner_resumed fam) hne
  | ioStart op =>
    obtain ⟨-, rfl⟩ := by simpa [step] using hs
    exact absurd (by rw [setIo_life]) hne
  | closeCallback =>
    obtain ⟨-, rfl⟩ := by simpa [step] using hs
    exact absurd (by simp [Life.onClose]) hne
  | tick =>
    obtain ⟨l, hl, rfl⟩ := Option.map_eq_some_iff.mp hs
    exact ⟨rfl, tick_resumed hl hne⟩
  | ret =>
    obtain ⟨l, hl, rfl⟩ := Option.map_eq_some_iff.mp hs
    refine absurd ?_ hne
    unfold Life.ret at hl
    split at hl <;> cases hl
    rfl

end

/-- what holds in every state `w` of a run of the family `fam` -/
structure CloseContract (fam : Family) (w : World) : Prop where
  /-- the record is never used after its deletion -/
  noFault : w.life.fault = false
  submittedOnce : w.life.log.count .submitted ≤ 1
  /-- no coroutine is registered twice, so those resumed so far are resumed once -/
  distinct : (callbackRegistered w.life.log ++ registered w.life.log).Nodup
  /-- the failed-connect waiter is resumed first, the others in registration order -/
  inOrder : resumedBy w.life.log <+: callbackRegistered w.life.log ++ registered w.life.log
  /-- a coroutine is resumed by the loop of `complete` only, after the close callback began -/
  fromCallback : ∀ a w', step fam w a = some w' → resumedBy w'.life.log ≠ resumedBy w.life.log →
    a = .tick ∧ (∃ rest k, w.life.stack = .complete rest :: k) ∧ w.life.log.count .callbackBegan = 1
  /-- the close callback returns when all are resumed -/
  delivered : w.life.closeFinished → resumedBy w.life.log
    = callbackRegistered w.life.log ++ registered w.life.log
  /-- the record is deleted once, as soon as the owner is gone and the close callback is over -/
  deletedIff : w.life.log.count .deleted = if w.owner = .gone ∧ w.life.closeFinished then 1 else 0
  /-- if somebody waits or the owner is gone, then foreign code returning and libuv calling back
  end in a state where all are resumed, and the record is deleted if its owner is gone -/
  finishes : callbackRegistered w.life.log ++ registered w.life.log ≠ [] ∨ w.owner = .gone →
    ∃ as v, (∀ a ∈ as, a ∈ [Act.ret, Act.tick, Act.closeCallback]) ∧
      (sys fam).run w as = some v ∧
      resumedBy v.life.log = callbackRegistered w.life.log ++ registered w.life.log ∧
      v.life.log.count .deleted = if w.owner = .gone then 1 else 0

section
variable (fam : Family) {w : World}

/-- somebody waits, or the owner is gone: the close is claimed -/
theorem Inv.claimed (h : Inv w)
    (hw : callbackRegistered w.life.log ++ registered w.life.log ≠ [] ∨ w.owner = .gone) :
    w.life.close.phase ≠ .opened := by
  intro hp
  rcases hw with hw | hw
  · obtain ⟨-, hcb, hreg⟩ := h.life.waiting (by rw [hp]; exact nofun)
    obtain ⟨hq1, hq2⟩ := h.quiet hp
    rw [hcb, hreg, hq1, hq2] at hw
    exact hw rfl
  · exact h.gone hw hp

theorem finishes_of_inv (h : Inv w)
    (hw : callbackRegistered w.life.log ++ registered w.life.log ≠ [] ∨ w.owner = .gone) :
    ∃ as v, (∀ a ∈ as, a ∈ [Act.ret, Act.tick, Act.closeCallback]) ∧
      (sys fam).run w as = some v ∧
      resumedBy v.life.log = callbackRegistered w.life.log ++ registered w.life.log ∧
      v.life.log.count .deleted = if w.owner = .gone then 1 else 0 := by
  obtain ⟨l, hsteps, hl, -, hfin, hrel, hcb, hreg⟩ := settles h.life (h.life.claimed (h.claimed hw))
  obtain ⟨as, has, hrun⟩ := Sys.run_lift (S := sys fam) (f := fun l => { w with life := l })
    (fun _ _ hn => next_lift (W := World) (f := fun l => { w with life := l }) (step fam)
      .ret .tick .closeCallback (fun _ hk hf => if_pos ⟨hk, hf⟩) (fun _ => rfl) (fun _ => rfl) hn)
    hsteps
  refine ⟨as, _, has, hrun, ?_, ?_⟩
  · show resumedBy l.log = _
    rw [resumed_all hl hfin, hcb, hreg]
  · show l.log.count .deleted = _
    rw [deleted_count hl, hrel]
    simp only [h.released, hfin, and_true]

/-- **The close contract of the eight owners**, in every state of every run. -/
theorem close_contract (h : (sys fam).Reach w) : CloseContract fam w where
  noFault := (reach_inv fam h).life.fault
  submittedOnce := by
    have hm := (reach_inv fam h).life.atMost
    omega
  distinct := (reach_inv fam h).life.nodup
  inOrder := resumed_prefix (reach_inv fam h).life
  fromCallback := by
    intro a w' hs hne
    obtain ⟨ha, rest, k, hk⟩ := resumed_step fam hs hne
    have hl := (reach_inv fam h).life
    refine ⟨ha, ⟨rest, k, hk⟩, ?_⟩
    rw [hl.began, if_pos]
    by_contra hp
    have hc := (hl.notActive hp).2.1
    rw [hk, completes_complete] at hc
    omega
  delivered := resumed_all (reach_inv fam h).life
  deletedIff := by
    have hi := reach_inv fam h
    rw [deleted_count hi.life]
    simp only [hi.released]
  finishes := finishes_of_inv fam (reach_inv fam h)

end

/-- An fs-event source: `close()` by coroutine 1 cancels the coroutine 7 suspended in `next()`,
which awaits `close()` too and then destroys the owner, all before `uv_close` is submitted. -/
def cancelledConsumer : List Act :=
  [.adopt 0, .claim 7, .close 1 false, .close 7 false, .destroy, .ret, .tick, .closeCallback,
   .tick, .ret, .tick, .ret, .tick]

theorem close_contract_cancelledConsumer :
    ∃ w, (sys .fsEventSource).run (sys .fsEventSource).init cancelledConsumer = some w ∧
      w.life.log = [.suspended 1, .suspended 7, .submitted, .callbackBegan, .resumed 1, .resumed 7,
        .deleted] ∧
      CloseContract .fsEventSource w :=
  ⟨_, rfl, rfl, close_contract .fsEventSource ⟨cancelledConsumer, rfl⟩⟩

end Close
