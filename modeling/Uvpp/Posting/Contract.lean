import Uvpp.Queue.Fifo
import Uvpp.Posting.Exclusion

/-!
# `loop_posting` is a bounded queue that loses no wakeup

* `accepted`, `rejected`, `invoked`, `destroyed`   the history, by kind;
* `Fresh`       a callable is offered once;
* `fifo`        the view as the bounded queue of `Queue.Fifo`;
* `moved_fifo`  **every move of the view is a run of operations of that queue**;
* `fifo_contract`      order, admission and shutdown, under every interleaving;
* `posting_safe`       wakeups, the close and its waiters, and who runs under the mutex.
-/

namespace Posting

/-! ## the history by kind -/

def accepted (log : List Event) : List Nat :=
  log.filterMap fun
    | .accepted x => some x
    | _ => none

def rejected (log : List Event) : List Nat :=
  log.filterMap fun
    | .rejected x _ => some x
    | _ => none

def invoked (log : List Event) : List Nat :=
  log.filterMap fun
    | .invoked x => some x
    | _ => none

def destroyed (log : List Event) : List Nat :=
  log.filterMap fun
    | .destroyed x => some x
    | _ => none

/-! ## the view as a bounded queue -/

/-- how many callables of the batch have been invoked -/
def cursor (v : View) : Nat :=
  match v.drain with
  | some (.invoke _ i) => i
  | some (.clear _) => v.state.batch.length
  | _ => 0

def fifo (v : View) : Queue.Fifo Nat where
  waiting := settled v
  batch := v.state.batch.drop (cursor v)
  spent := v.state.batch.take (cursor v)
  accepted := accepted v.state.log
  rejected := rejected v.state.log
  invoked := invoked v.state.log
  destroyed := destroyed v.state.log
  isShut := decide (v.state.phase ≠ .opened)
  closed := decide (v.state.phase = .closing ∨ v.state.phase = .closed)

/-- a callable is offered once -/
structure Fresh (v : View) : Prop where
  decided : ∀ x, x ∈ accepted v.state.log ∨ x ∈ rejected v.state.log →
    x < v.state.offered ∧ v.unsent ≠ some x
  unsent : ∀ x, v.unsent = some x → x < v.state.offered

/-- operations of the bounded queue lead from one view to the other -/
def Explained (cfg : Config) (v v' : View) : Prop :=
  (Queue.sys Nat cfg.capacity cfg.drainBudget).Along (fun _ => True) (fifo v) (fifo v')

/-- an event, seen by the bounded queue -/
theorem fifo_emit (v : View) (e : Event) : fifo { v with state := v.state.emit e } =
    { fifo v with
      accepted := accepted v.state.log ++ accepted [e]
      rejected := rejected v.state.log ++ rejected [e]
      invoked := invoked v.state.log ++ invoked [e]
      destroyed := destroyed v.state.log ++ destroyed [e] } := by
  simp only [fifo, State.emit, accepted, rejected, invoked, destroyed, List.filterMap_append]
  rfl

theorem fifo_rejected (v : View) (x : Nat) (r : Reason) :
    fifo { v with state := v.state.emit (.rejected x r) } =
      { fifo v with rejected := rejected v.state.log ++ [x] } := by
  rw [fifo_emit]
  simp only [accepted, rejected, invoked, destroyed, List.filterMap_cons, List.filterMap_nil,
    List.append_nil]
  rfl

/-- an event that is not about a callable of the queue -/
theorem fifo_emit_quiet (v : View) {e : Event} (ha : accepted [e] = []) (hr : rejected [e] = [])
    (hi : invoked [e] = []) (hd : destroyed [e] = []) :
    fifo { v with state := v.state.emit e } = fifo v := by
  rw [fifo_emit, ha, hr, hi, hd]
  simp only [List.append_nil]
  rfl

/-- a change of where `drain` is, with nothing more invoked -/
theorem fifo_drain {v : View} {d : Option DrainAt}
    (hc : v.state.batch = [] ∨ cursor { v with drain := d } = cursor v) :
    fifo { v with drain := d } = fifo v := by
  have hset : settled { v with drain := d } = settled v := rfl
  rcases hc with hb | hc
  · simp only [fifo, hset, hb, List.take_nil, List.drop_nil]
  · simp only [fifo, hset, hc]

section
variable {cfg : Config} {v v' : View}

theorem Explained.same (h : fifo v' = fifo v) : Explained cfg v v' := by
  rw [Explained, h]
  exact Sys.Along.refl _

theorem Explained.op (o : Queue.Op Nat)
    (h : (fifo v).step cfg.capacity cfg.drainBudget o = some (fifo v')) : Explained cfg v v' :=
  Sys.Along.one trivial h

theorem Explained.trans {u : View} (h1 : Explained cfg v u) (h2 : Explained cfg u v') :
    Explained cfg v v' :=
  Sys.Along.trans h1 h2

theorem explained_refuse (h : Fresh v) (r : Reason) :
    Explained cfg v { v with state := v.state.refuse r } := by
  have hnew : (fifo v).isNew v.state.offered :=
    ⟨fun hm => absurd (h.decided _ (Or.inl hm)).1 (Nat.lt_irrefl _),
      fun hm => absurd (h.decided _ (Or.inr hm)).1 (Nat.lt_irrefl _)⟩
  have hv : fifo { v with state := v.state.refuse r } =
      { fifo v with rejected := rejected v.state.log ++ [v.state.offered] } :=
    fifo_rejected { v with state := { v.state with offered := v.state.offered + 1 } } _ r
  exact .op (.reject v.state.offered) ((if_pos hnew).trans (congrArg some hv.symm))

theorem explained_rollback {x : Nat} (h : Fresh v) (hu : v.unsent = some x) :
    Explained cfg v { v with state := v.state.rollback x, unsent := none } := by
  have hnew : (fifo v).isNew x :=
    ⟨fun hm => (h.decided x (Or.inl hm)).2 hu, fun hm => (h.decided x (Or.inr hm)).2 hu⟩
  have hv : fifo { v with state := v.state.rollback x, unsent := none } =
      { fifo v with rejected := rejected v.state.log ++ [x] } := by
    -- what leaves the queue was not settled
    have hset : v.state.queue.dropLast = settled v := by simp [settled, hu]
    refine (fifo_rejected
      { v with state := { v.state with queue := v.state.queue.dropLast }, unsent := none } x _).trans ?_
    simp only [fifo, ← hset]
    rfl
  exact .op (.reject x) ((if_pos hnew).trans (congrArg some hv.symm))

theorem explained_sendAccepted {x : Nat} (hg : Good cfg v) (h : Fresh v) (hu : v.unsent = some x) :
    Explained cfg v { v with state := v.state.sendAccepted x, unsent := none } := by
  have hnew : (fifo v).isNew x :=
    ⟨fun hm => (h.decided x (Or.inl hm)).2 hu, fun hm => (h.decided x (Or.inr hm)).2 hu⟩
  obtain ⟨hp, q, hq⟩ := hg.unsent x hu
  have hset : settled v = q := by simp [settled, hu, hq]
  have hopen : (fifo v).isShut = false := by simp [fifo, hp]
  have hroom : (fifo v).waiting.length < cfg.capacity := by
    have hbound := hg.bound
    rw [hq, List.length_append, List.length_singleton] at hbound
    show (settled v).length < cfg.capacity
    rw [hset]
    omega
  have hv : fifo { v with state := v.state.sendAccepted x, unsent := none } =
      { fifo v with waiting := settled v ++ [x], accepted := accepted v.state.log ++ [x] } := by
    rw [hset, ← hq]
    refine (fifo_emit
      { v with state := { v.state with pending := true }.emit .sent, unsent := none } _).trans ?_
    simp only [fifo, State.emit, accepted, rejected, invoked, destroyed, List.filterMap_append,
      List.filterMap_cons, List.filterMap_nil, List.append_nil]
    rfl
  exact .op (.accept x) ((if_pos ⟨hopen, hroom, hnew⟩).trans (congrArg some hv.symm))

theorem explained_take (hb : v.state.batch = []) (hu : v.unsent = none) :
    Explained cfg v { v with state := v.state.take cfg, drain := some .unlockBatch } := by
  have hempty : (fifo v).batch = [] ∧ (fifo v).spent = [] := by simp [fifo, hb]
  have hset : settled v = v.state.queue := by simp [settled, hu]
  have hv : fifo { v with state := v.state.take cfg, drain := some .unlockBatch } =
      { fifo v with
        batch := (settled v).take cfg.drainBudget, waiting := (settled v).drop cfg.drainBudget } := by
    have htake := List.take_eq_take_min (l := v.state.queue) (i := cfg.drainBudget)
    have hdrop := List.drop_eq_drop_min (l := v.state.queue) (i := cfg.drainBudget)
    simp [fifo, settled, cursor, State.take, hu, hb, htake, hdrop]
  exact .op .take ((if_pos hempty).trans (congrArg some hv.symm))

theorem explained_invoke {had : Bool} {i x : Nat} (hd : v.drain = some (.invoke had i))
    (hx : v.state.batch[i]? = some x) :
    Explained cfg v
      { v with state := v.state.emit (.invoked x), drain := some (.invoke had (i + 1)) } := by
  obtain ⟨hi, rfl⟩ := List.getElem?_eq_some_iff.mp hx
  have hnext : (fifo v).batch = v.state.batch[i] :: v.state.batch.drop (i + 1) := by
    simp only [fifo, cursor, hd]
    exact List.drop_eq_getElem_cons hi
  have hv : fifo { v with
        state := v.state.emit (.invoked v.state.batch[i]), drain := some (.invoke had (i + 1)) } =
      { fifo v with
        batch := v.state.batch.drop (i + 1)
        spent := (fifo v).spent ++ [v.state.batch[i]]
        invoked := invoked v.state.log ++ [v.state.batch[i]] } := by
    refine (fifo_emit { v with drain := some (.invoke had (i + 1)) } _).trans ?_
    have hspent : v.state.batch.take (i + 1) = v.state.batch.take i ++ [v.state.batch[i]] :=
      List.take_succ_eq_append_getElem hi
    simp only [fifo, cursor, hd, hspent, accepted, rejected, invoked, destroyed,
      List.filterMap_cons, List.filterMap_nil, List.append_nil]
    rfl
  refine .op .invoke ?_
  rw [hv]
  simp only [Queue.Fifo.step, hnext]
  rfl

theorem explained_destroy {had : Bool} {x : Nat} {rest : List Nat}
    (hd : v.drain = some (.clear had)) (hb : v.state.batch = x :: rest) :
    Explained cfg v { v with state := { v.state with batch := rest }.emit (.destroyed x) } := by
  have hdone : (fifo v).batch = [] ∧ (fifo v).spent = x :: rest := by
    simp [fifo, cursor, hd, hb]
  have hv : fifo { v with state := { v.state with batch := rest }.emit (.destroyed x) } =
      { fifo v with spent := rest, destroyed := destroyed v.state.log ++ [x] } := by
    refine (fifo_emit { v with state := { v.state with batch := rest } } _).trans ?_
    simp only [fifo, cursor, hd, hb, accepted, rejected, invoked, destroyed, List.filterMap_cons,
      List.filterMap_nil, List.append_nil, List.take_length, List.drop_length]
    rfl
  refine .op .destroy ?_
  rw [hv]
  simp only [Queue.Fifo.step, hdone.1, hdone.2]
  rfl

theorem explained_beginClose {s : State} {d : Option DrainAt} {o : Option OnCloseAt}
    (hidle : s.activeBatches = 0 → s.batch = []) :
    Explained cfg ⟨s, none, d, o⟩ ⟨s.beginCloseIfDrained, none, d, o⟩ := by
  by_cases hdr : s.phase ≠ .draining ∨ s.queue ≠ [] ∨ s.activeBatches ≠ 0
  · rw [beginClose_not hdr]
    exact .same rfl
  · obtain ⟨hp, hq, ha⟩ : s.phase = .draining ∧ s.queue = [] ∧ s.activeBatches = 0 := by
      simpa using hdr
    rw [beginClose_drained hp hq ha]
    have hb := hidle ha
    have hready : (fifo ⟨s, none, d, o⟩).isShut = true ∧ (fifo ⟨s, none, d, o⟩).waiting = [] ∧
        (fifo ⟨s, none, d, o⟩).batch = [] ∧ (fifo ⟨s, none, d, o⟩).spent = [] := by
      simp [fifo, settled, hp, hq, hb]
    refine .op .close ((if_pos hready).trans (congrArg some ?_))
    refine Eq.trans ?_ (fifo_emit_quiet
      ⟨{ s with phase := .closing, closeInFlight := true }, none, d, o⟩ rfl rfl rfl rfl).symm
    simp [fifo, settled, cursor, hp, hb]

theorem explained_requestClose (hg : Good cfg v) (hu : v.unsent = none) :
    Explained cfg v { v with state := v.state.requestClose } := by
  obtain ⟨s, u, d, o⟩ := v
  obtain rfl : u = none := hu
  -- shut first, then closed if there is nothing left
  have hshut : Explained cfg ⟨s, none, d, o⟩ ⟨{ s with
      phase := if s.phase = .opened then .draining else s.phase : State }.emit .closeRequested,
      none, d, o⟩ := by
    refine .op .shut (congrArg some (Eq.trans ?_ (fifo_emit_quiet ⟨_, none, d, o⟩ rfl rfl rfl rfl).symm))
    by_cases hp : s.phase = .opened <;> simp [fifo, settled, cursor, hp]
  exact hshut.trans (explained_beginClose fun ha => hg.batches.idle ha)

theorem explained_settle {had : Bool} (hg : Good cfg v) (hd : v.drain = some (.settle had))
    (hu : v.unsent = none) :
    Explained cfg v { v with state := v.state.settle had, drain := some .unlock } := by
  obtain ⟨s, u, d, o⟩ := v
  obtain rfl : u = none := hu
  obtain rfl : d = some (.settle had) := hd
  have hb : s.batch = [] := hg.batches.1
  -- the queue sees neither the count of batches nor the wakeup
  have hclose {s' : State} (hb' : s'.batch = []) (hsame : fifo ⟨s', none, some .unlock, o⟩ =
      fifo ⟨s, none, some (.settle had), o⟩) : Explained cfg ⟨s, none, some (.settle had), o⟩
        ⟨s'.beginCloseIfDrained, none, some .unlock, o⟩ :=
    (Explained.same hsame).trans (explained_beginClose fun _ => hb')
  unfold State.settle
  dsimp only
  split
  · refine hclose hb ((fifo_emit_quiet ⟨_, none, _, o⟩ rfl rfl rfl rfl).trans ?_)
    rfl
  · exact hclose hb rfl

/-- every move of the view is a run of operations of the bounded queue -/
theorem moved_fifo (hi : Invariant cfg v) (hf : Fresh v) (hm : Moved cfg v v') :
    Explained cfg v v' := by
  have hg := hi.good
  cases hm with
  | refuse hu r => exact explained_refuse hf r
  | push hu ha =>
    have hset : settled { v with state := v.state.push, unsent := some v.state.offered } =
        settled v := by
      simp [settled, State.push, hu]
    refine .same ?_
    simp only [fifo, hset]
    rfl
  | sendAccepted hu => exact explained_sendAccepted hg hf hu
  | rollback hu => exact explained_rollback hf hu
  | sendFailed | discard => exact .same (fifo_emit_quiet v rfl rfl rfl rfl)
  | asyncCallback hd hp =>
    have hcur : cursor { v with drain := some .lock } = cursor v := by simp [cursor, hd]
    exact .same (fifo_drain (Or.inr hcur))
  | drainTake hd hu hp =>
    have hb := hg.batches
    rw [hd] at hb
    exact explained_take hb.1 hu
  | drainInvoke hd hx => exact explained_invoke hd hx
  | drainInvoked hd hx =>
    have hb := hg.batches
    rw [hd] at hb
    have hlen := List.getElem?_eq_none_iff.mp hx
    refine .same (fifo_drain (Or.inr ?_))
    simp only [cursor, hd]
    exact Nat.le_antisymm hlen hb.2.2.1
  | drainDestroy hd hb => exact explained_destroy hd hb
  | drainCleared hd hb => exact .same (fifo_drain (Or.inl hb))
  | drainSettle hd hu => exact explained_settle hg hd hu
  | requestClose hu => exact explained_requestClose hg hu
  | addCloseWaiter hp c =>
    exact .same ((fifo_emit_quiet
      { v with state := { v.state with closeWaiters := v.state.closeWaiters ++ [c] } }
      rfl rfl rfl rfl).trans rfl)
  | closeCallback ho hc =>
    exact .same ((fifo_emit_quiet
      { v with state := { v.state with closeInFlight := false }, onClose := some .lock }
      rfl rfl rfl rfl).trans rfl)
  | onCloseBody ho =>
    have hp := hi.waiters.closing ho
    exact .same (by simp [fifo, settled, cursor, State.close, hp])
  | onCloseResume ho =>
    exact .same ((fifo_emit_quiet { v with onClose := some (.resume _) } rfl rfl rfl rfl).trans rfl)
  | onCloseLock ho | onCloseUnlock ho | onCloseReset ho | onCloseDone ho => exact .same rfl
  | drainLock hd | drainLeave hd | drainLeft hd | drainUnlock hd | drainRelock hd | drainDone hd =>
    exact .same (fifo_drain (Or.inr (by simp [cursor, hd])))

/-- what the bounded queue does not see as offered -/
theorem Fresh.keep (h : Fresh v) (hu : v'.unsent = v.unsent)
    (ho : v'.state.offered = v.state.offered)
    (ha : accepted v'.state.log = accepted v.state.log)
    (hr : rejected v'.state.log = rejected v.state.log) : Fresh v' := by
  refine ⟨?_, ?_⟩
  · rw [ha, hr, ho, hu]
    exact h.decided
  · rw [hu, ho]
    exact h.unsent

theorem beginClose_fresh (s : State) : s.beginCloseIfDrained.offered = s.offered ∧
    accepted s.beginCloseIfDrained.log = accepted s.log ∧
    rejected s.beginCloseIfDrained.log = rejected s.log := by
  unfold State.beginCloseIfDrained
  split
  · exact ⟨rfl, rfl, rfl⟩
  · exact ⟨rfl, by simp [State.emit, accepted], by simp [State.emit, rejected]⟩

/-- a callable is decided -/
theorem Fresh.decide (h : Fresh v) {x : Nat} (hx : x < v'.state.offered) (hu : v'.unsent = none)
    (ho : v.state.offered ≤ v'.state.offered)
    (hl : ∀ y, y ∈ accepted v'.state.log ∨ y ∈ rejected v'.state.log →
      (y ∈ accepted v.state.log ∨ y ∈ rejected v.state.log) ∨ y = x) : Fresh v' := by
  refine ⟨fun y hy => ?_, fun y hy => absurd (hu.symm.trans hy) nofun⟩
  rw [hu]
  refine ⟨?_, nofun⟩
  rcases hl y hy with hy | rfl
  · exact Nat.lt_of_lt_of_le (h.decided y hy).1 ho
  · exact hx

theorem fresh_move (h : Fresh v) (hm : Moved cfg v v') : Fresh v' := by
  cases hm with
  | refuse hu r =>
    refine h.decide (x := v.state.offered) (Nat.lt_succ_self _) hu (Nat.le_succ _) ?_
    simp [State.refuse, State.emit, accepted, rejected, or_assoc]
  | push hu ha =>
    refine ⟨fun x hx => ?_, fun x hx => ?_⟩
    · have hlt := (h.decided x hx).1
      exact ⟨Nat.lt_succ_of_lt hlt, fun he => by cases he; exact absurd hlt (Nat.lt_irrefl _)⟩
    · cases hx
      exact Nat.lt_succ_self _
  | @sendAccepted x hu =>
    refine h.decide (x := x) (h.unsent x hu) rfl (Nat.le_refl _) (fun y hy => ?_)
    have hacc : accepted (v.state.sendAccepted x).log = accepted v.state.log ++ [x] := by
      simp [State.sendAccepted, State.emit, accepted]
    have hrej : rejected (v.state.sendAccepted x).log = rejected v.state.log := by
      simp [State.sendAccepted, State.emit, rejected]
    simp only [hacc, hrej, List.mem_append, List.mem_singleton] at hy
    tauto
  | @rollback x hu =>
    refine h.decide (x := x) (h.unsent x hu) rfl (Nat.le_refl _) ?_
    simp [State.rollback, State.emit, accepted, rejected, or_assoc]
  | requestClose hu =>
    obtain ⟨h1, h2, h3⟩ := beginClose_fresh ({ v.state with
      phase := if v.state.phase = .opened then .draining else v.state.phase : State }.emit
        .closeRequested)
    refine h.keep rfl h1 (h2.trans ?_) (h3.trans ?_)
    · simp [State.emit, accepted]
    · simp [State.emit, rejected]
  | @drainSettle had hd hu =>
    unfold State.settle
    dsimp only
    split
    · refine h.keep rfl (beginClose_fresh _).1 ((beginClose_fresh _).2.1.trans ?_)
        ((beginClose_fresh _).2.2.trans ?_)
      · simp [State.emit, accepted]
      · simp [State.emit, rejected]
    · exact h.keep rfl (beginClose_fresh _).1 (beginClose_fresh _).2.1 (beginClose_fresh _).2.2
  | sendFailed hu | discard x | drainInvoke hd hx | drainDestroy hd hb | addCloseWaiter hp c
  | closeCallback ho hf | onCloseResume ho =>
    refine h.keep rfl rfl ?_ ?_
    · simp [State.sendFailed, State.addCloseWaiter, State.emit, accepted]
    · simp [State.sendFailed, State.addCloseWaiter, State.emit, rejected]
  | _ => exact h.keep rfl rfl rfl rfl

/-- under every interleaving the component is the bounded queue -/
theorem reach_fifo {w : World} (h : (sys cfg).Reach w) :
    (Queue.sys Nat cfg.capacity cfg.drainBudget).Reach (fifo (view w)) := by
  refine (reach_view (P := fun v => (Invariant cfg v ∧ Fresh v) ∧
    (Queue.sys Nat cfg.capacity cfg.drainBudget).Reach (fifo v)) ⟨⟨invariant_init cfg, ?_⟩, ?_⟩ ?_
    h).2
  · exact ⟨nofun, nofun⟩
  · exact Sys.Reach.init _
  · rintro v v' ⟨⟨hi, hf⟩, hr⟩ hm
    obtain ⟨ops, -, hops⟩ := moved_fifo hi hf hm
    exact ⟨⟨invariant_move hi hm, fresh_move hf hm⟩, hr.run _ hops⟩

end

/-! ## order, admission and shutdown -/

/-- one bounded queue -/
structure FifoContract (cfg : Config) (w : World) : Prop where
  refines : (Queue.sys Nat cfg.capacity cfg.drainBudget).Reach (fifo (view w))
  order : invoked w.state.log <+: accepted w.state.log
  once : (accepted w.state.log).Nodup
  rejected : ∀ x ∈ rejected w.state.log, x ∉ accepted w.state.log ∧ x ∉ invoked w.state.log
  /-- nothing is accepted after the first `request_close` -/
  shut : w.state.log.Pairwise fun a b => a = .closeRequested → ∀ x, b ≠ .accepted x
  waiting : w.state.queue.length ≤ cfg.capacity
  running : w.state.batch.length ≤ min cfg.capacity cfg.drainBudget
  /-- when `uv_close` is submitted, everything accepted has been invoked and destroyed -/
  closed : Event.uvClose ∈ w.state.log →
    invoked w.state.log = accepted w.state.log ∧ destroyed w.state.log = accepted w.state.log

theorem fifo_contract (cfg : Config) (as : List Act) (w : World)
    (hr : (sys cfg).run (sys cfg).init as = some w) : FifoContract cfg w := by
  have hreach : (sys cfg).Reach w := ⟨as, hr⟩
  have hi := reach_invariant hreach
  have hq := Queue.reach_ordered (reach_fifo hreach)
  refine ⟨reach_fifo hreach, hq.invoked_initial, hq.fresh, fun x hx => ?_, ?_, hi.good.bound,
    hi.good.batches.bound, fun hc => ?_⟩
  · exact ⟨hq.rejected x hx, hq.rejected_not_invoked hx⟩
  · exact hi.shutdown.order.imp fun hab => hab.2
  · have hphase := hi.shutdown.closes.mp hc
    exact hq.closed_done (decide_eq_true hphase)

def twoByOne : Config := ⟨2, 1, by decide, by decide⟩

/-- a `post` that is accepted -/
def posted (t : Tid) : List Act := [.post t, .tick t, .tick t, .tick t, .tick t]

/-- a `post` that is refused; the callable is destroyed -/
def refused (t : Tid) : List Act := [.post t, .tick t, .tick t, .tick t, .ret t]

/-- the rest of a `drain` whose callable is running -/
def finished (inDestructor : List Act) : List Act :=
  [.ret 0, .tick 0, .tick 0] ++ inDestructor ++ [.ret 0, .tick 0, .tick 0, .tick 0, .tick 0]

/-- `drain` up to the first callable -/
def begun : List Act := [.asyncCallback, .tick 0, .tick 0, .tick 0, .tick 0]

/-- Two producers fill the queue and one of them is refused; the first callable posts and asks for
the close, its destructor posts in vain; the next callables run and the handle is closed. -/
def postedInside : List Act :=
  posted 1 ++ posted 2 ++ refused 1 ++
    (begun ++ posted 0 ++ [.requestClose, .tick 0, .tick 0, .tick 0] ++ finished (refused 0)) ++
    (begun ++ finished []) ++ (begun ++ finished [])

theorem fifo_contract_postedInside : ∃ w,
    (sys twoByOne).run (sys twoByOne).init postedInside = some w ∧
      invoked w.state.log = [0, 1, 3] ∧ rejected w.state.log = [2, 4] ∧
      Event.uvClose ∈ w.state.log ∧ FifoContract twoByOne w :=
  ⟨_, rfl, rfl, rfl, by decide, fifo_contract twoByOne postedInside _ rfl⟩

/-! ## wakeups, the close and its waiters, and the mutex -/

theorem drainOf_mem {k : List Frame} {pc : DrainAt} (h : drainOf k = some pc) :
    Frame.drain pc ∈ k := by
  induction k with
  | nil => cases h
  | cons f k ih =>
    cases f with
    | drain pc' =>
      obtain rfl := Option.some.inj h
      exact List.mem_cons_self ..
    | _ => exact List.mem_cons_of_mem _ (ih h)

theorem onCloseOf_mem {k : List Frame} {pc : OnCloseAt} (h : onCloseOf k = some pc) :
    Frame.onClose pc ∈ k := by
  induction k with
  | nil => cases h
  | cons f k ih =>
    cases f with
    | onClose pc' =>
      obtain rfl := Option.some.inj h
      exact List.mem_cons_self ..
    | _ => exact List.mem_cons_of_mem _ (ih h)

theorem critical_not_foreign {f : Frame} (h : f.critical = true) : f.foreign = false := by
  cases f <;> first | rfl | cases h

structure PostingSafe (w : World) : Prop where
  /-- no wakeup is lost -/
  wake : w.mutex = none → w.state.queue ≠ [] →
    w.state.phase = .opened ∨ w.state.phase = .draining →
    w.state.pending = true ∨ ∃ pc, Frame.drain pc ∈ w.stack loopThread
  /-- a shutdown is not stuck: what it waits for is there -/
  draining : w.mutex = none → w.state.phase = .draining →
    w.state.queue ≠ [] ∨ 0 < w.state.activeBatches
  afterClose : w.state.log.Pairwise fun a b => a = .uvClose → b ≠ .sent ∧ b ≠ .uvClose
  /-- the waiters are resumed in the order of their registration, each one once -/
  resumedOnce : resumed w.state.log <+: registered w.state.log
  resumedByClose : Event.closeCallback ∉ w.state.log → resumed w.state.log = []
  resumedAll : Event.closeCallback ∈ w.state.log →
    (∀ pc, Frame.onClose pc ∉ w.stack loopThread) → resumed w.state.log = registered w.state.log
  /-- the owner of the mutex is not in user code -/
  unlocked : ∀ t, w.mutex = some t →
    ∃ f k, w.stack t = f :: k ∧ f.critical = true ∧ f.foreign = false

theorem resumed_all {v : View} (h : Waiters v) (hc : Event.closeCallback ∈ v.state.log)
    (ho : v.onClose = none) : resumed v.state.log = registered v.state.log := by
  have hclosed : v.state.phase = .closed := by
    rcases h.called hc with hp | hl | hb
    · exact hp
    · exact absurd (ho.symm.trans hl) nofun
    · exact absurd (ho.symm.trans hb) nofun
  have horder := h.order
  rw [ho, (h.closed hclosed).1] at horder
  simpa [movedOut] using horder.symm

theorem posting_safe (cfg : Config) (as : List Act) (w : World)
    (hr : (sys cfg).run (sys cfg).init as = some w) : PostingSafe w := by
  have hreach : (sys cfg).Reach w := ⟨as, hr⟩
  have hex := reach_excl hreach
  have hi := reach_invariant hreach
  refine ⟨fun hm hq hp => ?_, fun _ => hi.good.draining, ?_, ⟨_, hi.waiters.order.symm⟩,
    hi.waiters.early, fun hc hno => ?_, fun t ht => ?_⟩
  · -- with the mutex free, everything in the queue is settled
    have hset : settled (view w) = w.state.queue := by simp [settled, view, hm]
    refine (hi.good.wake (hset ▸ hq) hp).imp_right fun hbusy => ?_
    cases hd : (view w).drain with
    | none =>
      rw [hd] at hbusy
      cases hbusy
    | some pc => exact ⟨pc, drainOf_mem hd⟩
  · exact hi.shutdown.order.imp fun hab => hab.1
  · refine resumed_all hi.waiters hc ?_
    cases ho : (view w).onClose with
    | none => rfl
    | some pc => exact absurd (onCloseOf_mem ho) (hno pc)
  · have htop := (hex.owner t).mp ht
    cases hk : w.stack t with
    | nil =>
      rw [hk] at htop
      cases htop
    | cons f k =>
      rw [hk] at htop
      exact ⟨f, k, rfl, htop, critical_not_foreign htop⟩

/-- A producer posts; a coroutine awaits the close; the callable runs and the handle is closed; the
close callback resumes the coroutine. -/
def closeAwaited : List Act :=
  posted 1 ++
    [.enter 0, .awaitClose 7, .tick 0, .tick 0, .tick 0, .tick 0, .tick 0, .tick 0] ++
    (begun ++ finished []) ++
    [.closeCallback, .tick 0, .tick 0, .tick 0, .tick 0, .ret 0, .tick 0, .ret 0, .tick 0]

theorem posting_safe_closeAwaited : ∃ w,
    (sys twoByOne).run (sys twoByOne).init closeAwaited = some w ∧
      Event.closeCallback ∈ w.state.log ∧ resumed w.state.log = [7] ∧ PostingSafe w :=
  ⟨_, rfl, by decide, rfl, posting_safe twoByOne closeAwaited _ rfl⟩

end Posting
