import Uvpp.Posting.Model

/-!
# `loop_posting` without the threads

What the mutex protects: the state of the component, the callable that a `post` has put into the
queue and not yet sent for, and where `drain` and `on_close` are.  A move is what one thread does to
this view; that the threads of `Posting.Model` make no other moves, and make those of a critical
section only one at a time, is shown in `Posting.Exclusion`.

* `View`, `Moved`   the view and its moves;
* `Batches`     what `drain` has in its batch, and the count of active batches;
* `Good`        admission, wakeups and phases;
* `Shutdown`    the order of sends, closes and acceptances in the history;
* `Waiters`     the coroutines that wait for the close;
* `Invariant`   all of them, kept by every move.
-/

namespace Posting

@[ext]
structure View where
  state : State := {}
  /-- the callable that is in the queue and neither accepted nor taken out again -/
  unsent : Option Nat := none
  drain : Option DrainAt := none
  onClose : Option OnCloseAt := none

inductive Moved (cfg : Config) (v : View) : View → Prop
  | refuse (hu : v.unsent = none) (r : Reason) : Moved cfg v { v with state := v.state.refuse r }
  | push (hu : v.unsent = none) (ha : v.state.admits cfg = none) :
      Moved cfg v { v with state := v.state.push, unsent := some v.state.offered }
  | sendAccepted {x : Nat} (hu : v.unsent = some x) :
      Moved cfg v { v with state := v.state.sendAccepted x, unsent := none }
  | sendFailed {x : Nat} (hu : v.unsent = some x) : Moved cfg v { v with state := v.state.sendFailed }
  | rollback {x : Nat} (hu : v.unsent = some x) :
      Moved cfg v { v with state := v.state.rollback x, unsent := none }
  | discard (x : Nat) : Moved cfg v { v with state := v.state.emit (.discarded x) }
  | asyncCallback (hd : v.drain = none) (hp : v.state.pending = true) :
      Moved cfg v { v with state := { v.state with pending := false }, drain := some .lock }
  | drainLock (hd : v.drain = some .lock) : Moved cfg v { v with drain := some .take }
  | drainLeave (hd : v.drain = some .take) (hp : v.state.phase = .closing ∨ v.state.phase = .closed) :
      Moved cfg v { v with drain := some .leave }
  | drainLeft (hd : v.drain = some .leave) : Moved cfg v { v with drain := none }
  | drainTake (hd : v.drain = some .take) (hu : v.unsent = none)
      (hp : ¬ (v.state.phase = .closing ∨ v.state.phase = .closed)) :
      Moved cfg v { v with state := v.state.take cfg, drain := some .unlockBatch }
  | drainUnlock (hd : v.drain = some .unlockBatch) :
      Moved cfg v { v with drain := some (.invoke (!v.state.batch.isEmpty) 0) }
  | drainInvoke {had : Bool} {i x : Nat} (hd : v.drain = some (.invoke had i))
      (hx : v.state.batch[i]? = some x) :
      Moved cfg v { v with state := v.state.emit (.invoked x), drain := some (.invoke had (i + 1)) }
  | drainInvoked {had : Bool} {i : Nat} (hd : v.drain = some (.invoke had i))
      (hx : v.state.batch[i]? = none) : Moved cfg v { v with drain := some (.clear had) }
  | drainDestroy {had : Bool} {x : Nat} {rest : List Nat} (hd : v.drain = some (.clear had))
      (hb : v.state.batch = x :: rest) :
      Moved cfg v { v with state := { v.state with batch := rest }.emit (.destroyed x) }
  | drainCleared {had : Bool} (hd : v.drain = some (.clear had)) (hb : v.state.batch = []) :
      Moved cfg v { v with drain := some (.relock had) }
  | drainRelock {had : Bool} (hd : v.drain = some (.relock had)) :
      Moved cfg v { v with drain := some (.settle had) }
  | drainSettle {had : Bool} (hd : v.drain = some (.settle had)) (hu : v.unsent = none) :
      Moved cfg v { v with state := v.state.settle had, drain := some .unlock }
  | drainDone (hd : v.drain = some .unlock) : Moved cfg v { v with drain := none }
  | requestClose (hu : v.unsent = none) : Moved cfg v { v with state := v.state.requestClose }
  | addCloseWaiter (hp : v.state.phase ≠ .closed) (c : Coro) :
      Moved cfg v { v with state := v.state.addCloseWaiter c }
  | closeCallback (ho : v.onClose = none) (hf : v.state.closeInFlight = true) :
      Moved cfg v { v with
        state := { v.state with closeInFlight := false }.emit .closeCallback
        onClose := some .lock }
  | onCloseLock (ho : v.onClose = some .lock) : Moved cfg v { v with onClose := some .body }
  | onCloseBody (ho : v.onClose = some .body) : Moved cfg v { v with
      state := v.state.close, onClose := some (.unlock v.state.closeWaiters) }
  | onCloseUnlock {ws : List Coro} (ho : v.onClose = some (.unlock ws)) :
      Moved cfg v { v with onClose := some (.reset ws) }
  | onCloseReset {ws : List Coro} (ho : v.onClose = some (.reset ws)) :
      Moved cfg v { v with onClose := some (.resume ws) }
  | onCloseResume {c : Coro} {ws : List Coro} (ho : v.onClose = some (.resume (c :: ws))) :
      Moved cfg v { v with
        state := v.state.emit (.waiterResumed c), onClose := some (.resume ws) }
  | onCloseDone (ho : v.onClose = some (.resume [])) : Moved cfg v { v with onClose := none }

/-! ## closing, when everything is drained -/

/-- a component that has submitted its close does not take or drain callables any more -/
theorem Phase.not_both {p : Phase} (ho : p = .opened ∨ p = .draining)
    (hc : p = .closing ∨ p = .closed) : False := by
  rcases ho with rfl | rfl <;> rcases hc with hc | hc <;> cases hc

section
variable {s : State}

theorem beginClose_drained (hp : s.phase = .draining) (hq : s.queue = []) (ha : s.activeBatches = 0) :
    s.beginCloseIfDrained = { s with phase := .closing, closeInFlight := true }.emit .uvClose :=
  if_neg (by simp [hp, hq, ha])

theorem beginClose_not (h : s.phase ≠ .draining ∨ s.queue ≠ [] ∨ s.activeBatches ≠ 0) :
    s.beginCloseIfDrained = s :=
  if_pos h

end

/-! ## batches -/

/-- what is in the batch and how many batches are active, at each point of `drain` -/
def Batches (cfg : Config) (s : State) : Option DrainAt → Prop
  | some .unlockBatch => s.activeBatches = (!s.batch.isEmpty).toNat ∧
      s.batch.length ≤ min cfg.capacity cfg.drainBudget
  | some (.invoke had i) => had = !s.batch.isEmpty ∧ s.activeBatches = had.toNat ∧
      i ≤ s.batch.length ∧ s.batch.length ≤ min cfg.capacity cfg.drainBudget
  | some (.clear had) => (s.batch ≠ [] → had = true) ∧ s.activeBatches = had.toNat ∧
      s.batch.length ≤ min cfg.capacity cfg.drainBudget
  | some (.relock had) | some (.settle had) => s.batch = [] ∧ s.activeBatches = had.toNat
  | _ => s.batch = [] ∧ s.activeBatches = 0

/-- `drain` will still look at the queue -/
def busy : Option DrainAt → Bool
  | none | some .leave | some .unlock => false
  | _ => true

section
variable {cfg : Config} {s s' : State} {d : Option DrainAt}

theorem Batches.congr (h : Batches cfg s d) (hb : s'.batch = s.batch)
    (ha : s'.activeBatches = s.activeBatches) : Batches cfg s' d := by
  unfold Batches at h ⊢
  rw [hb, ha]
  exact h

theorem Batches.bound (h : Batches cfg s d) : s.batch.length ≤ min cfg.capacity cfg.drainBudget := by
  unfold Batches at h
  split at h
  · exact h.2
  · exact h.2.2.2
  · exact h.2.2
  all_goals
    rw [h.1]
    exact Nat.zero_le _

/-- without an active batch there is nothing in the batch -/
theorem Batches.idle (h : Batches cfg s d) (ha : s.activeBatches = 0) : s.batch = [] := by
  unfold Batches at h
  split at h
  · have hb : (!s.batch.isEmpty).toNat = 0 := h.1.symm.trans ha
    simpa using hb
  · rename_i had i
    have hhad : had.toNat = 0 := h.2.1.symm.trans ha
    have hb : (!s.batch.isEmpty).toNat = 0 := h.1 ▸ hhad
    simpa using hb
  · rename_i had
    have hhad : had.toNat = 0 := h.2.1.symm.trans ha
    by_contra hne
    rw [h.1 hne] at hhad
    cases hhad
  all_goals exact h.1

theorem batches_take (h : s.batch = [] ∧ s.activeBatches = 0) (hq : s.queue.length ≤ cfg.capacity) :
    Batches cfg (s.take cfg) (some .unlockBatch) := by
  obtain ⟨hb, ha⟩ := h
  simp only [Batches, State.take, hb, ha, List.nil_append]
  refine ⟨?_, ?_⟩
  · cases s.queue.take (min cfg.drainBudget s.queue.length) <;> rfl
  · rw [List.length_take]
    omega

end

/-! ## admission, wakeups and phases -/

/-- the accepted callables in the queue -/
def settled (v : View) : List Nat :=
  if v.unsent.isSome then v.state.queue.dropLast else v.state.queue

structure Good (cfg : Config) (v : View) : Prop where
  bound : v.state.queue.length ≤ cfg.capacity
  unsent : ∀ x, v.unsent = some x → v.state.phase = .opened ∧ ∃ q, v.state.queue = q ++ [x]
  batches : Batches cfg v.state v.drain
  /-- a draining component has something to drain -/
  draining : v.state.phase = .draining → v.state.queue ≠ [] ∨ 0 < v.state.activeBatches
  closing : v.state.phase = .closing ∨ v.state.phase = .closed →
    v.state.queue = [] ∧ v.state.activeBatches = 0
  /-- no wakeup is lost -/
  wake : settled v ≠ [] → v.state.phase = .opened ∨ v.state.phase = .draining →
    v.state.pending = true ∨ busy v.drain = true

section
variable {cfg : Config} {v v' : View}

/-- a change that leaves the queue, the batches and the phase alone -/
theorem Good.keep (h : Good cfg v) (hu : v'.unsent = v.unsent) (hd : v'.drain = v.drain)
    (hq : v'.state.queue = v.state.queue) (hb : v'.state.batch = v.state.batch)
    (ha : v'.state.activeBatches = v.state.activeBatches) (hp : v'.state.phase = v.state.phase)
    (hw : v'.state.pending = v.state.pending) : Good cfg v' := by
  have hset : settled v' = settled v := by rw [settled, hu, hq]; rfl
  refine ⟨?_, ?_, ?_, ?_, ?_, ?_⟩
  · rw [hq]
    exact h.bound
  · rw [hu, hp, hq]
    exact h.unsent
  · rw [hd]
    exact h.batches.congr hb ha
  · rw [hp, hq, ha]
    exact h.draining
  · rw [hp, hq, ha]
    exact h.closing
  · rw [hset, hp, hw, hd]
    exact h.wake

/-- a change of where `drain` is that still looks at the queue -/
theorem Good.advance (h : Good cfg v) {d : Option DrainAt} (hb : Batches cfg v.state d)
    (hd : busy v.drain = true → busy d = true) : Good cfg { v with drain := d } :=
  ⟨h.bound, h.unsent, hb, h.draining, h.closing, fun hs hp => (h.wake hs hp).imp_right hd⟩

theorem admits_none {s : State} (h : s.admits cfg = none) :
    s.phase = .opened ∧ s.queue.length ≠ cfg.capacity := by
  unfold State.admits at h
  split at h
  · cases h
  · split at h
    · cases h
    · exact ⟨by simpa using ‹¬ s.phase ≠ .opened›, ‹_›⟩

theorem good_push (h : Good cfg v) (hu : v.unsent = none) (ha : v.state.admits cfg = none) :
    Good cfg { v with state := v.state.push, unsent := some v.state.offered } := by
  obtain ⟨hp, hlen⟩ := admits_none ha
  have hbound := h.bound
  have hwake := h.wake
  refine ⟨?_, ?_, h.batches.congr rfl rfl, fun hd => ?_, fun hc => ?_, ?_⟩
  · simp only [State.push, List.length_append, List.length_singleton]
    omega
  · intro x hx
    obtain rfl := Option.some.inj hx
    exact ⟨hp, _, rfl⟩
  · exact absurd (hp.symm.trans hd) nofun
  · exact (Phase.not_both (Or.inl hp) hc).elim
  · -- what was settled is what is settled: the callable is not sent for yet
    simpa [settled, State.push, hu] using hwake

theorem good_sendAccepted (h : Good cfg v) (x : Nat) :
    Good cfg { v with state := v.state.sendAccepted x, unsent := none } :=
  ⟨h.bound, nofun, h.batches.congr rfl rfl, h.draining, h.closing, fun _ _ => Or.inl rfl⟩

theorem good_rollback (h : Good cfg v) {x : Nat} (hu : v.unsent = some x) :
    Good cfg { v with state := v.state.rollback x, unsent := none } := by
  obtain ⟨hp, q, hq⟩ := h.unsent x hu
  have hbound := h.bound
  have hwake := h.wake
  refine ⟨?_, nofun, h.batches.congr rfl rfl, fun hd => ?_, fun hc => ?_, ?_⟩
  · simp only [State.rollback, State.emit, hq, List.dropLast_concat]
    rw [hq, List.length_append] at hbound
    omega
  · exact absurd (hp.symm.trans hd) nofun
  · exact (Phase.not_both (Or.inl hp) hc).elim
  · simpa [settled, State.rollback, State.emit, hu, hq] using hwake

theorem good_take (h : Good cfg v) (hd : v.drain = some .take) (hu : v.unsent = none)
    (hp : ¬ (v.state.phase = .closing ∨ v.state.phase = .closed)) :
    Good cfg { v with state := v.state.take cfg, drain := some .unlockBatch } := by
  have hidle : v.state.batch = [] ∧ v.state.activeBatches = 0 := by
    have hb := h.batches
    rwa [hd] at hb
  have hbound := h.bound
  refine ⟨?_, ?_, batches_take hidle h.bound, fun hdr => Or.inr ?_, fun hc => absurd hc hp,
    fun _ _ => Or.inr rfl⟩
  · simp only [State.take, List.length_drop]
    omega
  · intro x hx
    exact absurd (hu.symm.trans hx) nofun
  · -- a draining queue is not empty, so something is taken
    have hne : v.state.queue ≠ [] := (h.draining hdr).resolve_right (by omega)
    have hpos := cfg.drainBudget_pos
    have hlen := List.length_pos_iff.mpr hne
    have htake : v.state.queue.take (min cfg.drainBudget v.state.queue.length) ≠ [] := by
      rw [ne_eq, ← List.length_eq_zero_iff, List.length_take]
      omega
    simp only [State.take, hidle.1, List.nil_append, if_neg htake]
    omega

/-- `begin_close_if_drained_locked` leaves no draining component with nothing to drain -/
theorem good_beginClose {s : State} {d : Option DrainAt} {o : Option OnCloseAt}
    (hbound : s.queue.length ≤ cfg.capacity) (hb : Batches cfg s d)
    (hc : s.phase = .closing ∨ s.phase = .closed → s.queue = [] ∧ s.activeBatches = 0)
    (hw : s.queue ≠ [] → s.phase = .opened ∨ s.phase = .draining → s.pending = true ∨ busy d = true) :
    Good cfg ⟨s.beginCloseIfDrained, none, d, o⟩ := by
  by_cases hdr : s.phase ≠ .draining ∨ s.queue ≠ [] ∨ s.activeBatches ≠ 0
  · rw [beginClose_not hdr]
    refine ⟨hbound, nofun, hb, fun hp => ?_, hc, hw⟩
    rcases hdr with hn | hq | ha
    · exact absurd hp hn
    · exact Or.inl hq
    · exact Or.inr (by show 0 < s.activeBatches; omega)
  · obtain ⟨hp, hq, ha⟩ : s.phase = .draining ∧ s.queue = [] ∧ s.activeBatches = 0 := by
      simpa using hdr
    rw [beginClose_drained hp hq ha]
    exact ⟨hbound, nofun, hb.congr rfl rfl, nofun, fun _ => ⟨hq, ha⟩, fun hs => absurd hq hs⟩

theorem good_requestClose (h : Good cfg v) (hu : v.unsent = none) :
    Good cfg { v with state := v.state.requestClose } := by
  obtain ⟨s, u, d, o⟩ := v
  obtain rfl : u = none := hu
  refine good_beginClose h.bound (h.batches.congr rfl rfl) (fun hc => ?_) (fun hq hp => ?_)
  · refine h.closing ?_
    show s.phase = .closing ∨ s.phase = .closed
    by_cases hp : s.phase = .opened
    · simp [State.emit, hp] at hc
    · simpa [State.emit, hp] using hc
  · refine h.wake hq ?_
    show s.phase = .opened ∨ s.phase = .draining
    by_cases ho : s.phase = .opened
    · exact Or.inl ho
    · exact Or.inr (by simpa [State.emit, ho] using hp)

theorem good_settle (h : Good cfg v) {had : Bool} (hd : v.drain = some (.settle had))
    (hu : v.unsent = none) :
    Good cfg { v with state := v.state.settle had, drain := some .unlock } := by
  obtain ⟨s, u, d, o⟩ := v
  obtain rfl : u = none := hu
  obtain rfl : d = some (.settle had) := hd
  obtain ⟨hb, ha⟩ : s.batch = [] ∧ s.activeBatches = had.toNat := h.batches
  -- the batch of this activation is not active any more
  have hnone : (if had = true then s.activeBatches - 1 else s.activeBatches) = 0 := by
    cases had <;> simp [ha]
  have hclosing := h.closing
  unfold State.settle
  dsimp only
  by_cases hq : s.queue = []
  · rw [if_neg (by simpa using hq)]
    exact good_beginClose h.bound ⟨hb, hnone⟩ (fun hc => ⟨hq, hnone⟩) (fun hne => absurd hq hne)
  · rw [if_pos hq]
    refine good_beginClose h.bound ⟨hb, hnone⟩ (fun hc => ?_) (fun _ _ => Or.inl rfl)
    exact absurd (hclosing hc).1 hq

theorem good_move (h : Good cfg v) (hclose : v.onClose = some .body → v.state.phase = .closing)
    (hm : Moved cfg v v') : Good cfg v' := by
  have hbat {d : Option DrainAt} (hd : v.drain = d) : Batches cfg v.state d := hd ▸ h.batches
  cases hm with
  | refuse | sendFailed | discard | addCloseWaiter | closeCallback | onCloseLock | onCloseUnlock
  | onCloseReset | onCloseResume | onCloseDone => exact h.keep rfl rfl rfl rfl rfl rfl rfl
  | push hu ha => exact good_push h hu ha
  | sendAccepted => exact good_sendAccepted h _
  | rollback hu => exact good_rollback h hu
  | asyncCallback hd hp =>
    exact ⟨h.bound, h.unsent, (hbat hd).congr rfl rfl, h.draining, h.closing, fun _ _ => Or.inr rfl⟩
  | drainLock hd =>
    obtain ⟨hb, ha⟩ := hbat hd
    exact h.advance ⟨hb, ha⟩ (fun _ => rfl)
  | drainLeave hd hp =>
    obtain ⟨hb, ha⟩ := hbat hd
    refine ⟨h.bound, h.unsent, ⟨hb, ha⟩, h.draining, h.closing, fun _ ho => ?_⟩
    exact (Phase.not_both ho hp).elim
  | drainLeft hd =>
    obtain ⟨hb, ha⟩ := hbat hd
    exact h.advance ⟨hb, ha⟩ (by rw [hd]; exact nofun)
  | drainTake hd hu hp => exact good_take h hd hu hp
  | drainUnlock hd =>
    obtain ⟨ha, hlen⟩ := hbat hd
    exact h.advance ⟨rfl, ha, Nat.zero_le _, hlen⟩ (fun _ => rfl)
  | @drainInvoke had i x hd hx =>
    obtain ⟨h1, h2, h3, h4⟩ := hbat hd
    have hi := (List.getElem?_eq_some_iff.mp hx).1
    have hnext : Batches cfg v.state (some (.invoke had (i + 1))) := ⟨h1, h2, hi, h4⟩
    exact (h.advance hnext (fun _ => rfl)).keep rfl rfl rfl rfl rfl rfl rfl
  | drainInvoked hd hx =>
    obtain ⟨h1, h2, h3, h4⟩ := hbat hd
    refine h.advance ⟨fun hne => ?_, h2, h4⟩ (fun _ => rfl)
    rw [h1]
    simpa using hne
  | drainDestroy hd hb =>
    obtain ⟨h1, h2, h3⟩ := hbat hd
    rw [hb, List.length_cons] at h3
    have hhad := h1 (by rw [hb]; exact List.cons_ne_nil _ _)
    refine ⟨h.bound, h.unsent, ?_, h.draining, h.closing, fun hs hp => h.wake hs hp⟩
    rw [hd]
    exact ⟨fun _ => hhad, h2, by show _ ≤ _; simp only [State.emit]; omega⟩
  | drainCleared hd hb =>
    exact h.advance ⟨hb, (hbat hd).2.1⟩ (fun _ => rfl)
  | drainRelock hd =>
    obtain ⟨hb, ha⟩ := hbat hd
    exact h.advance ⟨hb, ha⟩ (fun _ => rfl)
  | drainSettle hd hu => exact good_settle h hd hu
  | drainDone hd =>
    obtain ⟨hb, ha⟩ := hbat hd
    exact h.advance ⟨hb, ha⟩ (by rw [hd]; exact nofun)
  | requestClose hu => exact good_requestClose h hu
  | onCloseBody ho =>
    have hp := hclose ho
    refine ⟨h.bound, fun x hx => ?_, h.batches.congr rfl rfl, nofun,
      fun _ => h.closing (Or.inl hp), fun _ hw => ?_⟩
    · exact absurd (hp.symm.trans (h.unsent x hx).1) nofun
    · rcases hw with hw | hw <;> cases hw

end

/-! ## the order of sends, closes and acceptances -/

/-- what may not come after what -/
def After (a b : Event) : Prop :=
  (a = .uvClose → b ≠ .sent ∧ b ≠ .uvClose) ∧ (a = .closeRequested → ∀ x, b ≠ .accepted x)

structure Shutdown (s : State) : Prop where
  closes : Event.uvClose ∈ s.log ↔ s.phase = .closing ∨ s.phase = .closed
  requested : Event.closeRequested ∈ s.log ↔ s.phase ≠ .opened
  order : s.log.Pairwise After

section
variable {s s' : State}

theorem Shutdown.keep (h : Shutdown s) (hl : s'.log = s.log) (hp : s'.phase = s.phase) :
    Shutdown s' := by
  refine ⟨?_, ?_, ?_⟩
  · rw [hl, hp]
    exact h.closes
  · rw [hl, hp]
    exact h.requested
  · rw [hl]
    exact h.order

/-- an event that may come now can be added to the history -/
theorem Shutdown.order_emit (h : Shutdown s) {e : Event}
    (hc : s.phase = .closing ∨ s.phase = .closed → e ≠ .sent ∧ e ≠ .uvClose)
    (ha : s.phase ≠ .opened → ∀ x, e ≠ .accepted x) : (s.log ++ [e]).Pairwise After := by
  refine List.pairwise_append.mpr ⟨h.order, List.pairwise_singleton _ _, fun a hm b hb => ?_⟩
  rw [List.mem_singleton.mp hb]
  refine ⟨fun he => hc (h.closes.mp (he ▸ hm)), fun he => ha (h.requested.mp (he ▸ hm))⟩

theorem Shutdown.emit (h : Shutdown s) {e : Event} (hl : s'.log = s.log ++ [e])
    (hp : s'.phase = s.phase) (hu : e ≠ .uvClose) (hr : e ≠ .closeRequested)
    (hs : s.phase = .closing ∨ s.phase = .closed → e ≠ .sent)
    (ha : s.phase ≠ .opened → ∀ x, e ≠ .accepted x) : Shutdown s' := by
  refine ⟨?_, ?_, ?_⟩
  · rw [hl, hp, ← h.closes]
    simp [hu.symm]
  · rw [hl, hp, ← h.requested]
    simp [hr.symm]
  · rw [hl]
    exact h.order_emit (fun hc => ⟨hs hc, hu⟩) ha

theorem shutdown_beginClose (h : Shutdown s) : Shutdown s.beginCloseIfDrained := by
  by_cases hdr : s.phase ≠ .draining ∨ s.queue ≠ [] ∨ s.activeBatches ≠ 0
  · rw [beginClose_not hdr]
    exact h
  · obtain ⟨hp, hq, ha⟩ : s.phase = .draining ∧ s.queue = [] ∧ s.activeBatches = 0 := by
      simpa using hdr
    rw [beginClose_drained hp hq ha]
    have hreq := h.requested
    refine ⟨by simp [State.emit], ?_, h.order_emit (fun hc => ?_) (fun _ => nofun)⟩
    · simpa [State.emit, hp] using hreq
    · exact (Phase.not_both (Or.inr hp) hc).elim

theorem shutdown_requestClose (h : Shutdown s) : Shutdown s.requestClose := by
  refine shutdown_beginClose ⟨?_, ?_, h.order_emit (fun _ => ⟨nofun, nofun⟩) (fun _ => nofun)⟩
  · have hcl := h.closes
    by_cases hp : s.phase = .opened <;> simpa [State.emit, hp] using hcl
  · by_cases hp : s.phase = .opened <;> simp [State.emit, hp]

theorem shutdown_settle (h : Shutdown s) (had : Bool)
    (hc : s.phase = .closing ∨ s.phase = .closed → s.queue = []) : Shutdown (s.settle had) := by
  unfold State.settle
  refine shutdown_beginClose ?_
  dsimp only
  split
  · rename_i hq
    exact h.emit rfl rfl nofun nofun (fun hp => absurd (hc hp) hq) (fun _ => nofun)
  · exact h.keep rfl rfl

end

theorem shutdown_move {cfg : Config} {v v' : View} (hg : Good cfg v) (h : Shutdown v.state)
    (hclose : v.onClose = some .body → v.state.phase = .closing) (hm : Moved cfg v v') :
    Shutdown v'.state := by
  cases hm with
  | refuse | rollback | discard | drainInvoke | drainDestroy | addCloseWaiter | closeCallback
  | onCloseResume => exact h.emit rfl rfl nofun nofun (fun _ => nofun) (fun _ => nofun)
  | push hu ha => exact h.keep rfl rfl
  | @sendAccepted x hu =>
    have hp := (hg.unsent x hu).1
    have hsent : Shutdown ({ v.state with pending := true }.emit .sent) := by
      refine h.emit rfl rfl nofun nofun (fun hc => ?_) (fun _ => nofun)
      exact (Phase.not_both (Or.inl hp) hc).elim
    exact hsent.emit rfl rfl nofun nofun (fun _ => nofun) (fun hn => absurd hp hn)
  | @sendFailed x hu =>
    have hp := (hg.unsent x hu).1
    refine h.emit rfl rfl nofun nofun (fun hc => ?_) (fun _ => nofun)
    exact (Phase.not_both (Or.inl hp) hc).elim
  | drainSettle hd hu => exact shutdown_settle h _ (fun hc => (hg.closing hc).1)
  | requestClose hu => exact shutdown_requestClose h
  | onCloseBody ho =>
    have hp := hclose ho
    have hcl := h.closes
    have hreq := h.requested
    refine ⟨?_, ?_, h.order⟩
    · simpa [State.close, hp] using hcl
    · simpa [State.close, hp] using hreq
  | _ => exact h.keep rfl rfl

/-! ## the coroutines that wait for the close -/

def registered (log : List Event) : List Coro :=
  log.filterMap fun
    | .waiterRegistered c => some c
    | _ => none

def resumed (log : List Event) : List Coro :=
  log.filterMap fun
    | .waiterResumed c => some c
    | _ => none

/-- the waiters that `on_close` has moved out and not resumed -/
def movedOut : Option OnCloseAt → List Coro
  | some (.unlock ws) | some (.reset ws) | some (.resume ws) => ws
  | _ => []

/-- what is known at each point of `on_close` -/
def OnCloseStage (s : State) : Option OnCloseAt → Prop
  | none => True
  | some .lock | some .body => s.phase = .closing ∧ Event.closeCallback ∈ s.log
  | _ => s.phase = .closed

structure Waiters (v : View) : Prop where
  order : registered v.state.log =
    resumed v.state.log ++ (movedOut v.onClose ++ v.state.closeWaiters)
  early : Event.closeCallback ∉ v.state.log → resumed v.state.log = []
  flight : v.state.closeInFlight = true ↔
    v.state.phase = .closing ∧ Event.closeCallback ∉ v.state.log
  called : Event.closeCallback ∈ v.state.log →
    v.state.phase = .closed ∨ v.onClose = some .lock ∨ v.onClose = some .body
  stage : OnCloseStage v.state v.onClose
  closed : v.state.phase = .closed → v.state.closeWaiters = [] ∧ Event.closeCallback ∈ v.state.log

section
variable {cfg : Config} {v v' : View}

theorem Waiters.closing (h : Waiters v) (ho : v.onClose = some .body) : v.state.phase = .closing := by
  have hst := h.stage
  rw [ho] at hst
  exact hst.1

/-- a change that the waiters do not see -/
theorem Waiters.keep (h : Waiters v) (ho : v'.onClose = v.onClose)
    (hw : v'.state.closeWaiters = v.state.closeWaiters)
    (hf : v'.state.closeInFlight = v.state.closeInFlight) (hp : v'.state.phase = v.state.phase)
    (hl : ∃ es, v'.state.log = v.state.log ++ es ∧ registered es = [] ∧ resumed es = [] ∧
      Event.closeCallback ∉ es) : Waiters v' := by
  obtain ⟨es, hl, h1, h2, h3⟩ := hl
  have hreg : registered v'.state.log = registered v.state.log := by
    rw [hl, registered, List.filterMap_append]
    exact (congrArg _ h1).trans (List.append_nil _)
  have hres : resumed v'.state.log = resumed v.state.log := by
    rw [hl, resumed, List.filterMap_append]
    exact (congrArg _ h2).trans (List.append_nil _)
  have hmem : Event.closeCallback ∈ v'.state.log ↔ Event.closeCallback ∈ v.state.log := by
    rw [hl, List.mem_append]
    exact ⟨fun hm => hm.resolve_right h3, Or.inl⟩
  refine ⟨?_, ?_, ?_, ?_, ?_, ?_⟩
  · rw [hreg, hres, ho, hw]
    exact h.order
  · rw [hmem, hres]
    exact h.early
  · rw [hf, hp, hmem]
    exact h.flight
  · rw [hmem, hp, ho]
    exact h.called
  · have hst := h.stage
    unfold OnCloseStage at hst ⊢
    rw [ho, hp, hmem]
    exact hst
  · rw [hp, hw, hmem]
    exact h.closed

/-- before the close is submitted the callback has not been called -/
theorem Waiters.not_called (h : Waiters v)
    (hp : v.state.phase = .opened ∨ v.state.phase = .draining) :
    Event.closeCallback ∉ v.state.log := by
  intro hm
  have hst := h.stage
  rcases h.called hm with hc | ho | ho
  · exact Phase.not_both hp (Or.inr hc)
  · rw [ho] at hst
    exact Phase.not_both hp (Or.inl hst.1)
  · rw [ho] at hst
    exact Phase.not_both hp (Or.inl hst.1)

/-- `on_close` does not run before the close is submitted -/
theorem Waiters.not_running (h : Waiters v)
    (hp : v.state.phase = .opened ∨ v.state.phase = .draining) : v.onClose = none := by
  have hst := h.stage
  cases ho : v.onClose with
  | none => rfl
  | some pc =>
    rw [ho] at hst
    cases pc with
    | lock | body => exact (Phase.not_both hp (Or.inl hst.1)).elim
    | _ => exact (Phase.not_both hp (Or.inr hst)).elim

theorem waiters_beginClose {s : State} {u : Option Nat} {d : Option DrainAt} {o : Option OnCloseAt}
    (h : Waiters ⟨s, u, d, o⟩) : Waiters ⟨s.beginCloseIfDrained, u, d, o⟩ := by
  by_cases hdr : s.phase ≠ .draining ∨ s.queue ≠ [] ∨ s.activeBatches ≠ 0
  · rw [beginClose_not hdr]
    exact h
  · obtain ⟨hp, hq, ha⟩ : s.phase = .draining ∧ s.queue = [] ∧ s.activeBatches = 0 := by
      simpa using hdr
    have hnot : Event.closeCallback ∉ s.log := h.not_called (Or.inr hp)
    have hnot' : Event.closeCallback ∉ s.log ++ [.uvClose] := by simpa using hnot
    have horder := h.order
    have hearly := h.early hnot
    rw [beginClose_drained hp hq ha]
    refine ⟨?_, fun _ => ?_, ?_, fun hm => absurd hm hnot', ?_, nofun⟩
    · simpa [State.emit, registered, resumed] using horder
    · simpa [State.emit, resumed] using hearly
    · simpa [State.emit] using hnot
    · have hnone : o = none := h.not_running (Or.inr hp)
      rw [hnone]
      trivial

theorem waiters_requestClose (h : Waiters v) : Waiters { v with state := v.state.requestClose } := by
  refine waiters_beginClose ?_
  by_cases hp : v.state.phase = .opened
  · have hnot := h.not_called (Or.inl hp)
    have horder := h.order
    have hflight := h.flight
    refine ⟨?_, fun _ => ?_, ?_, fun hm => absurd hm ?_, ?_, ?_⟩
    · simpa [State.emit, registered, resumed] using horder
    · simpa [State.emit, resumed] using h.early hnot
    · simpa [State.emit, hp] using hflight
    · simpa [State.emit] using hnot
    · rw [h.not_running (Or.inl hp)]
      trivial
    · simp [State.emit, hp]
  · exact h.keep rfl rfl rfl (by simp [State.emit, hp])
      ⟨[.closeRequested], rfl, rfl, rfl, by simp⟩

theorem waiters_settle (h : Waiters v) (had : Bool) (d : Option DrainAt) :
    Waiters { v with state := v.state.settle had, drain := d } := by
  unfold State.settle
  refine waiters_beginClose ?_
  dsimp only
  split
  · exact h.keep rfl rfl rfl rfl ⟨[.sent], rfl, rfl, rfl, by simp⟩
  · exact h.keep rfl rfl rfl rfl ⟨[], by simp, rfl, rfl, by simp⟩

theorem waiters_addCloseWaiter (h : Waiters v) (hp : v.state.phase ≠ .closed) (c : Coro) :
    Waiters { v with state := v.state.addCloseWaiter c } := by
  have horder := h.order
  have hflight := h.flight
  have hcalled := h.called
  have hst := h.stage
  refine ⟨?_, fun hn => ?_, ?_, ?_, ?_, fun hc => absurd hc hp⟩
  · simp only [registered, resumed] at horder
    simp [State.addCloseWaiter, State.emit, registered, resumed, horder]
  · have hnot : Event.closeCallback ∉ v.state.log := by
      simpa [State.addCloseWaiter, State.emit] using hn
    simpa [State.addCloseWaiter, State.emit, resumed] using h.early hnot
  · simpa [State.addCloseWaiter, State.emit] using hflight
  · simpa [State.addCloseWaiter, State.emit] using hcalled
  · unfold OnCloseStage at hst ⊢
    simpa [State.addCloseWaiter, State.emit] using hst

theorem waiters_closeCallback (h : Waiters v) (ho : v.onClose = none)
    (hf : v.state.closeInFlight = true) : Waiters { v with
      state := { v.state with closeInFlight := false }.emit .closeCallback
      onClose := some .lock } := by
  obtain ⟨hp, hnot⟩ := h.flight.mp hf
  have horder := h.order
  rw [ho] at horder
  refine ⟨?_, fun hn => ?_, ?_, fun _ => Or.inr (Or.inl rfl), ⟨hp, ?_⟩, fun hc => ?_⟩
  · simpa [State.emit, registered, resumed, movedOut] using horder
  · simp [State.emit] at hn
  · simp [State.emit]
  · simp [State.emit]
  · exact absurd (hp.symm.trans hc) nofun

theorem waiters_move (h : Waiters v) (hm : Moved cfg v v') : Waiters v' := by
  -- the moves that emit an event of no interest here, and those that emit nothing
  have hquiet : ∀ {v' : View} (e : Event), v'.onClose = v.onClose →
      v'.state.closeWaiters = v.state.closeWaiters →
      v'.state.closeInFlight = v.state.closeInFlight → v'.state.phase = v.state.phase →
      v'.state.log = v.state.log ++ [e] → registered [e] = [] → resumed [e] = [] →
      e ≠ .closeCallback → Waiters v' :=
    fun e h1 h2 h3 h4 h5 h6 h7 h8 => h.keep h1 h2 h3 h4 ⟨[e], h5, h6, h7, by simpa using h8.symm⟩
  have hsame : ∀ {v' : View}, v'.onClose = v.onClose → v'.state = v.state → Waiters v' :=
    fun h1 h2 => h.keep h1 (by rw [h2]) (by rw [h2]) (by rw [h2]) ⟨[], by simp [h2], rfl, rfl, by simp⟩
  cases hm with
  | refuse | sendFailed | rollback | discard | drainInvoke | drainDestroy =>
    exact hquiet _ rfl rfl rfl rfl rfl rfl rfl nofun
  | push hu ha => exact h.keep rfl rfl rfl rfl ⟨[], by simp [State.push], rfl, rfl, by simp⟩
  | @sendAccepted x hu =>
    exact h.keep rfl rfl rfl rfl
      ⟨[.sent, .accepted x], by simp [State.sendAccepted, State.emit], rfl, rfl, by simp⟩
  | asyncCallback hd hp => exact h.keep rfl rfl rfl rfl ⟨[], by simp, rfl, rfl, by simp⟩
  | drainTake hd hu hp => exact h.keep rfl rfl rfl rfl ⟨[], by simp [State.take], rfl, rfl, by simp⟩
  | drainSettle hd hu => exact waiters_settle h _ _
  | requestClose hu => exact waiters_requestClose h
  | addCloseWaiter hp c => exact waiters_addCloseWaiter h hp c
  | closeCallback ho hf => exact waiters_closeCallback h ho hf
  | onCloseLock ho =>
    have horder := h.order
    have hst := h.stage
    rw [ho] at horder hst
    exact ⟨horder, h.early, h.flight, fun _ => Or.inr (Or.inr rfl), hst, h.closed⟩
  | onCloseBody ho =>
    have horder := h.order
    have hst := h.stage
    have hflight := h.flight
    rw [ho] at horder hst
    obtain ⟨hp, hin⟩ := hst
    refine ⟨?_, h.early, ?_, fun _ => Or.inl rfl, rfl, fun _ => ⟨rfl, hin⟩⟩
    · simpa [State.close, movedOut] using horder
    · simpa [State.close, hp, hin] using hflight
  | onCloseUnlock ho | onCloseReset ho =>
    have horder := h.order
    have hst := h.stage
    rw [ho] at horder hst
    exact ⟨horder, h.early, h.flight, fun _ => Or.inl hst, hst, h.closed⟩
  | @onCloseResume c ws ho =>
    have horder := h.order
    have hst : v.state.phase = .closed := by
      have hst := h.stage
      rwa [ho] at hst
    have hflight := h.flight
    obtain ⟨hnil, hin⟩ := h.closed hst
    rw [ho] at horder
    refine ⟨?_, fun hn => ?_, ?_, fun _ => Or.inl hst, hst, fun _ => ⟨hnil, ?_⟩⟩
    · simpa [State.emit, registered, resumed, movedOut] using horder
    · exact absurd (List.mem_append_left _ hin) hn
    · simpa [State.emit] using hflight
    · exact List.mem_append_left _ hin
  | onCloseDone ho =>
    have horder := h.order
    have hst : v.state.phase = .closed := by
      have hst := h.stage
      rwa [ho] at hst
    rw [ho] at horder
    exact ⟨horder, h.early, h.flight, fun _ => Or.inl hst, trivial, h.closed⟩
  | _ => exact hsame rfl rfl

/-- everything that every move keeps -/
structure Invariant (cfg : Config) (v : View) : Prop where
  good : Good cfg v
  shutdown : Shutdown v.state
  waiters : Waiters v

theorem invariant_move (h : Invariant cfg v) (hm : Moved cfg v v') : Invariant cfg v' :=
  ⟨good_move h.good h.waiters.closing hm, shutdown_move h.good h.shutdown h.waiters.closing hm,
    waiters_move h.waiters hm⟩

theorem invariant_init (cfg : Config) : Invariant cfg {} := by
  refine ⟨⟨Nat.zero_le _, nofun, ⟨rfl, rfl⟩, nofun, fun hc => ?_, fun hs => absurd rfl hs⟩, ?_, ?_⟩
  · rcases hc with hc | hc <;> cases hc
  · exact ⟨by simp, by simp, List.Pairwise.nil⟩
  · exact ⟨rfl, fun _ => rfl, by simp, by simp, trivial, nofun⟩

end

end Posting
