import Mathlib.Algebra.GroupWithZero.Nat
import Uvpp.Posting.Exclusion

/-!
# A requested close of `loop_posting` comes to its end

Once the close is requested, nothing is accepted any more.  When foreign code returns and libuv
makes its callbacks, what is in the queue is drained, the handle is closed, and the coroutines that
wait for it are resumed: every state has a next step that makes its `rank` smaller.

* `Act.winds`     the actions with which nobody asks for anything new and nothing fails;
* `loopRank`      what the loop thread still has to do;
* `rank`          the same, and what the owner of the mutex has to do before it;
* `wind_*`        each activation on top of the loop thread goes on and makes the rank smaller;
* `shutdown_finishes`   **a requested close ends, with every waiter resumed.**
-/

namespace Posting

def Act.winds : Act → Bool
  | .tick _ | .ret _ | .asyncCallback | .closeCallback => true
  | _ => false

/-! ## the rank -/

/-- the steps of an activation that is not a callback of libuv, with what it calls at its end -/
def frameRank : Frame → Nat
  | .post .lock => 4
  | .post .check => 3
  | .post (.unlock (some _)) => 2
  | .requestClose .lock => 3
  | .requestClose .body => 2
  | .awaitClose _ .lock => 8
  | .awaitClose _ .body => 7
  | .awaitClose _ (.unlock true) => 4
  | .awaitClose _ (.unlock false) => 2
  | .drain _ | .onClose _ => 0
  | _ => 1

/-- the steps of `drain`, with those of the callables and destructors it calls; an idle component
that is draining waits for the next callback -/
def drainRank (s : State) : Option DrainAt → Nat
  | none => if s.phase = .draining then 10 else 0
  | some .lock => 9
  | some .take => 8
  | some .leave => (if s.phase = .draining then 10 else 0) + 1
  | some .unlockBatch => 16 + 4 * s.batch.length
  | some (.invoke _ i) => 15 + 2 * s.batch.length + 2 * (s.batch.length - i)
  | some (.clear _) => 14 + 2 * s.batch.length
  | some (.relock _) => 13
  | some (.settle _) => 12
  | some .unlock => 11

def onCloseRank : Option OnCloseAt → Nat
  | none => 0
  | some .lock => 10
  | some .body => 9
  | some (.unlock ws) => 8 + 2 * ws.length
  | some (.reset ws) => 7 + 2 * ws.length
  | some (.resume ws) => 5 + 2 * ws.length

def phaseRank (s : State) : Nat :=
  match s.phase with
  | .draining => 40
  | .closing => if s.closeInFlight then 20 else 0
  | _ => 0

/-- a callable in the queue costs a round of `drain` at most, a waiter its resumption -/
def stateRank (s : State) : Nat :=
  20 * s.queue.length + 2 * s.closeWaiters.length + phaseRank s

def loopRank (s : State) (k : List Frame) : Nat :=
  stateRank s + drainRank s (drainOf k) + onCloseRank (onCloseOf k) + (k.map frameRank).sum

/-- the owner of the mutex leaves its critical section first -/
def ownerRank (w : World) : Nat :=
  match w.mutex with
  | some t => if t = loopThread then 0 else ((w.stack t).map frameRank).headD 0
  | none => 0

def rank (w : World) : Nat := loopRank w.state (w.stack loopThread) + ownerRank w

section
variable {s : State} {f : Frame} {k : List Frame}

theorem loopRank_cons (hf : f.callback = false) :
    loopRank s (f :: k) = loopRank s k + frameRank f := by
  have hd : drainOf (f :: k) = drainOf k := by cases f <;> first | rfl | cases hf
  have ho : onCloseOf (f :: k) = onCloseOf k := by cases f <;> first | rfl | cases hf
  simp only [loopRank, hd, ho, List.map_cons, List.sum_cons]
  omega

theorem loopRank_nil : loopRank s [] = stateRank s + drainRank s none := by
  simp [loopRank, drainOf, onCloseOf, onCloseRank]

theorem loopRank_drain {pc : DrainAt} :
    loopRank s [.drain pc] = stateRank s + drainRank s (some pc) := by
  simp [loopRank, drainOf, onCloseOf, onCloseRank, frameRank]

theorem loopRank_onClose {pc : OnCloseAt} :
    loopRank s [.onClose pc] = stateRank s + drainRank s none + onCloseRank (some pc) := by
  simp [loopRank, drainOf, onCloseOf, frameRank]

/-- `begin_close_if_drained_locked` goes on to the next phase or changes nothing -/
theorem beginClose_rank (hp : s.phase ≠ .opened) : s.beginCloseIfDrained.phase ≠ .opened ∧
    loopRank s.beginCloseIfDrained k ≤ loopRank s k := by
  by_cases hdr : s.phase ≠ .draining ∨ s.queue ≠ [] ∨ s.activeBatches ≠ 0
  · rw [beginClose_not hdr]
    exact ⟨hp, Nat.le_refl _⟩
  · obtain ⟨hd, hq, ha⟩ : s.phase = .draining ∧ s.queue = [] ∧ s.activeBatches = 0 := by
      simpa using hdr
    rw [beginClose_drained hd hq ha]
    refine ⟨nofun, ?_⟩
    have hdrain : ∀ d, drainRank ({ s with phase := .closing, closeInFlight := true }.emit .uvClose) d
        ≤ drainRank s d := by
      intro d
      unfold drainRank
      split <;> simp [State.emit, hd]
    have hstate : stateRank ({ s with phase := .closing, closeInFlight := true }.emit .uvClose) ≤
        stateRank s := by
      simp [stateRank, phaseRank, State.emit, hd]
    have hsum := hdrain (drainOf k)
    simp only [loopRank]
    omega

end

/-! ## the loop thread goes on -/

/-- the close is requested and the process goes on -/
structure Winding (cfg : Config) (w : World) : Prop where
  reach : (sys cfg).Reach w
  running : w.terminated = false
  requested : w.state.phase ≠ .opened

/-- nobody else has the mutex -/
def LoopTurn (w : World) : Prop := w.mutex = none ∨ w.mutex = some loopThread

/-- the loop thread has made a step -/
structure Gains (w w' : World) : Prop where
  running : w'.terminated = w.terminated
  requested : w'.state.phase ≠ .opened
  turn : LoopTurn w'
  less : loopRank w'.state (w'.stack loopThread) < loopRank w.state (w.stack loopThread)

section
variable {cfg : Config} {w w' : World} {k k' : List Frame} {s : State}

theorem rank_loop (ht : LoopTurn w) : rank w = loopRank w.state (w.stack loopThread) := by
  rcases ht with hm | hm <;> simp [rank, ownerRank, hm]

theorem gains_go (hk : w.stack loopThread = k) (ht : LoopTurn w) (hp : s.phase ≠ .opened)
    (hr : loopRank s k' < loopRank w.state k) : Gains w (w.go loopThread s k') := by
  refine ⟨rfl, hp, ht, ?_⟩
  simp only [World.go, Function.update_self, hk]
  exact hr

theorem gains_unlock (hk : w.stack loopThread = k) (hp : s.phase ≠ .opened)
    (hr : loopRank s k' < loopRank w.state k) : Gains w (w.unlock loopThread s k') := by
  refine ⟨rfl, hp, Or.inl rfl, ?_⟩
  simp only [World.unlock, World.go, Function.update_self, hk]
  exact hr

/-- the loop thread is not in a critical section, so the mutex is free -/
theorem gains_lock (h : Excl w) (hk : w.stack loopThread = k) (hn : topCritical k = false)
    (ht : LoopTurn w) (hp : w.state.phase ≠ .opened) (hr : loopRank w.state k' < loopRank w.state k) :
    ∃ w', w.lock loopThread k' = some w' ∧ Gains w w' := by
  have hm : w.mutex = none := by
    refine ht.resolve_right fun hm => ?_
    have htop := (h.owner loopThread).mp hm
    rw [hk, hn] at htop
    cases htop
  refine ⟨_, if_pos hm, rfl, hp, Or.inr rfl, ?_⟩
  simp only [World.go, Function.update_self, hk]
  exact hr

theorem wind_post {pc : PostAt} (h : Winding cfg w) (hk : w.stack loopThread = .post pc :: k)
    (ht : LoopTurn w) : ∃ w', w.post cfg loopThread k pc = some w' ∧ Gains w w' := by
  have hex := reach_excl h.reach
  have hp := h.requested
  -- after the request nothing is between the queue and its send
  have hsent : unsentOf (.post pc :: k) = none := by
    by_cases hc : (Frame.post pc).critical = true
    · rw [← hex.unsent hk hc]
      cases hu : (view w).unsent with
      | none => rfl
      | some x => exact absurd ((reach_invariant h.reach).good.unsent x hu).1 hp
    · cases pc <;> first | rfl | exact absurd rfl hc
  cases pc with
  | lock =>
    refine gains_lock hex hk rfl ht hp ?_
    rw [loopRank_cons rfl, loopRank_cons rfl]
    simp only [frameRank]
    omega
  | check =>
    have ha : w.state.admits cfg = some .canceled := if_pos hp
    simp only [World.post, ha]
    refine ⟨_, rfl, gains_go hk ht hp ?_⟩
    rw [loopRank_cons rfl, loopRank_cons rfl]
    show loopRank w.state k + 2 < loopRank w.state k + 3
    omega
  | send x => cases hsent
  | rollback x => cases hsent
  | unlock r =>
    cases r with
    | none =>
      refine ⟨_, rfl, gains_unlock hk hp ?_⟩
      rw [loopRank_cons rfl]
      show loopRank w.state k < loopRank w.state k + 1
      omega
    | some x =>
      refine ⟨_, rfl, gains_unlock hk hp ?_⟩
      rw [loopRank_cons rfl, loopRank_cons rfl]
      show loopRank w.state k + 1 < loopRank w.state k + 2
      omega

theorem wind_requestClose {pc : CloseAt} (h : Winding cfg w)
    (hk : w.stack loopThread = .requestClose pc :: k) (ht : LoopTurn w) :
    ∃ w', w.requestClose loopThread k pc = some w' ∧ Gains w w' := by
  have hp := h.requested
  cases pc with
  | lock =>
    refine gains_lock (reach_excl h.reach) hk rfl ht hp ?_
    rw [loopRank_cons rfl, loopRank_cons rfl]
    simp only [frameRank]
    omega
  | body =>
    have hbegin : w.state.requestClose = (w.state.emit .closeRequested).beginCloseIfDrained := by
      simp only [State.requestClose, if_neg hp]
    obtain ⟨hp', hle⟩ := beginClose_rank (s := w.state.emit .closeRequested) (k := k) hp
    refine ⟨_, rfl, gains_go hk ht (by rw [hbegin]; exact hp') ?_⟩
    rw [hbegin, loopRank_cons rfl, loopRank_cons rfl]
    have hsame : loopRank (w.state.emit .closeRequested) k = loopRank w.state k := rfl
    simp only [frameRank]
    omega
  | unlock =>
    refine ⟨_, rfl, gains_unlock hk hp ?_⟩
    rw [loopRank_cons rfl]
    show loopRank w.state k < loopRank w.state k + 1
    omega

theorem wind_awaitClose {c : Coro} {pc : AwaitAt} (h : Winding cfg w)
    (hk : w.stack loopThread = .awaitClose c pc :: k) (ht : LoopTurn w) :
    ∃ w', w.awaitClose loopThread c k pc = some w' ∧ Gains w w' := by
  have hp := h.requested
  cases pc with
  | lock =>
    refine gains_lock (reach_excl h.reach) hk rfl ht hp ?_
    rw [loopRank_cons rfl, loopRank_cons rfl]
    simp only [frameRank]
    omega
  | body =>
    simp only [World.awaitClose]
    split
    · refine ⟨_, rfl, gains_go hk ht hp ?_⟩
      rw [loopRank_cons rfl, loopRank_cons rfl]
      simp only [frameRank]
      omega
    · refine ⟨_, rfl, gains_go hk ht hp ?_⟩
      rw [loopRank_cons rfl, loopRank_cons rfl]
      have hadd : loopRank (w.state.addCloseWaiter c) k = loopRank w.state k + 2 := by
        have hphase : phaseRank (w.state.addCloseWaiter c) = phaseRank w.state := rfl
        have hs : stateRank (w.state.addCloseWaiter c) = stateRank w.state + 2 := by
          have hlen : (w.state.addCloseWaiter c).closeWaiters.length =
              w.state.closeWaiters.length + 1 := List.length_append
          have hqueue : (w.state.addCloseWaiter c).queue = w.state.queue := rfl
          simp only [stateRank, hphase, hlen, hqueue]
          omega
        have hd : drainRank (w.state.addCloseWaiter c) = drainRank w.state := by
          funext d
          cases d with
          | none => rfl
          | some pc => cases pc <;> rfl
        simp only [loopRank, hs, hd]
        omega
      simp only [frameRank]
      omega
  | unlock registered =>
    cases registered with
    | true | false =>
      refine ⟨_, rfl, gains_unlock hk hp ?_⟩
      rw [loopRank_cons rfl, loopRank_cons rfl]
      simp only [frameRank]
      omega

/-- a draining `drain` takes something from the queue -/
theorem take_rank (hb : s.batch = []) (hq : s.queue ≠ []) :
    loopRank (s.take cfg) [.drain .unlockBatch] < loopRank s [.drain .take] := by
  have hpos := cfg.drainBudget_pos
  have hlen := List.length_pos_iff.mpr hq
  have hphase : phaseRank (s.take cfg) = phaseRank s := rfl
  have hbatch : (s.take cfg).batch.length = min cfg.drainBudget s.queue.length := by
    simp only [State.take, hb, List.nil_append, List.length_take]
    omega
  have hqueue : (s.take cfg).queue.length =
      s.queue.length - min cfg.drainBudget s.queue.length := by
    simp only [State.take, List.length_drop]
  have hwait : (s.take cfg).closeWaiters = s.closeWaiters := rfl
  rw [loopRank_drain, loopRank_drain]
  simp only [stateRank, drainRank, hphase, hbatch, hqueue, hwait]
  omega

theorem wind_drain {pc : DrainAt} (h : Winding cfg w) (hk : w.stack loopThread = [.drain pc])
    (ht : LoopTurn w) : ∃ w', w.drain cfg loopThread [] pc = some w' ∧ Gains w w' := by
  have hex := reach_excl h.reach
  have hgood := (reach_invariant h.reach).good
  have hp := h.requested
  have hbat : Batches cfg w.state (some pc) := by
    have hb := hgood.batches
    rwa [show (view w).drain = some pc from congrArg drainOf hk] at hb
  cases pc with
  | lock | relock =>
    refine gains_lock hex hk rfl ht hp ?_
    rw [loopRank_drain, loopRank_drain]
    simp only [drainRank]
    omega
  | take =>
    simp only [World.drain]
    split
    · rename_i hc
      refine ⟨_, rfl, gains_go hk ht hp ?_⟩
      have hn : w.state.phase ≠ .draining := fun hd => Phase.not_both (Or.inr hd) hc
      rw [loopRank_drain, loopRank_drain]
      simp only [drainRank, if_neg hn]
      omega
    · rename_i hc
      refine ⟨_, rfl, gains_go hk ht hp ?_⟩
      have hd : w.state.phase = .draining := by
        cases hph : w.state.phase with
        | draining => rfl
        | opened => exact absurd hph hp
        | closing => exact absurd (Or.inl hph) hc
        | closed => exact absurd (Or.inr hph) hc
      obtain ⟨hb, ha⟩ := hbat
      refine take_rank hb ((hgood.draining hd).resolve_right ?_)
      show ¬ 0 < w.state.activeBatches
      omega
  | leave =>
    refine ⟨_, rfl, gains_unlock hk hp ?_⟩
    rw [loopRank_nil, loopRank_drain]
    simp only [drainRank]
    omega
  | unlockBatch =>
    refine ⟨_, rfl, gains_unlock hk hp ?_⟩
    rw [loopRank_drain, loopRank_drain]
    simp only [drainRank]
    omega
  | invoke had i =>
    simp only [World.drain]
    split
    · rename_i x hx
      have hi := (List.getElem?_eq_some_iff.mp hx).1
      refine ⟨_, rfl, gains_go hk ht hp ?_⟩
      rw [loopRank_cons rfl, loopRank_drain, loopRank_drain]
      show stateRank w.state + (15 + 2 * w.state.batch.length +
        2 * (w.state.batch.length - (i + 1))) + 1 < stateRank w.state +
          (15 + 2 * w.state.batch.length + 2 * (w.state.batch.length - i))
      omega
    · refine ⟨_, rfl, gains_go hk ht hp ?_⟩
      rw [loopRank_drain, loopRank_drain]
      simp only [drainRank]
      omega
  | clear had =>
    simp only [World.drain]
    split
    · rename_i x rest hb
      refine ⟨_, rfl, gains_go hk ht hp ?_⟩
      rw [loopRank_cons rfl, loopRank_drain, loopRank_drain]
      show stateRank w.state + (14 + 2 * rest.length) + 1 <
        stateRank w.state + (14 + 2 * w.state.batch.length)
      rw [hb, List.length_cons]
      omega
    · refine ⟨_, rfl, gains_go hk ht hp ?_⟩
      rw [loopRank_drain, loopRank_drain]
      simp only [drainRank]
      omega
  | settle had =>
    -- the count of batches and the wakeup do not matter
    have hbegin {s' : State} (hp' : s'.phase ≠ .opened) (hs : stateRank s' = stateRank w.state) :
        s'.beginCloseIfDrained.phase ≠ .opened ∧ loopRank s'.beginCloseIfDrained [.drain .unlock] <
          loopRank w.state [.drain (.settle had)] := by
      obtain ⟨h1, h2⟩ := beginClose_rank (k := [.drain .unlock]) hp'
      refine ⟨h1, Nat.lt_of_le_of_lt h2 ?_⟩
      rw [loopRank_drain, loopRank_drain, hs]
      simp only [drainRank]
      omega
    have hsettle : (w.state.settle had).phase ≠ .opened ∧
        loopRank (w.state.settle had) [.drain .unlock] <
          loopRank w.state [.drain (.settle had)] := by
      unfold State.settle
      dsimp only
      split
      · exact hbegin hp rfl
      · exact hbegin hp rfl
    exact ⟨_, rfl, gains_go hk ht hsettle.1 hsettle.2⟩
  | unlock =>
    refine ⟨_, rfl, gains_unlock hk hp ?_⟩
    rw [loopRank_nil, loopRank_drain]
    simp only [drainRank]
    split <;> omega

theorem wind_onClose {pc : OnCloseAt} (h : Winding cfg w) (hk : w.stack loopThread = [.onClose pc])
    (ht : LoopTurn w) : ∃ w', w.onClose loopThread [] pc = some w' ∧ Gains w w' := by
  have hp := h.requested
  cases pc with
  | lock =>
    refine gains_lock (reach_excl h.reach) hk rfl ht hp ?_
    rw [loopRank_onClose, loopRank_onClose]
    simp only [onCloseRank]
    omega
  | body =>
    refine ⟨_, rfl, gains_go hk ht nofun ?_⟩
    rw [loopRank_onClose, loopRank_onClose]
    show 20 * w.state.queue.length + 2 * 0 + 0 + 0 + (8 + 2 * w.state.closeWaiters.length) <
      20 * w.state.queue.length + 2 * w.state.closeWaiters.length + phaseRank w.state +
        drainRank w.state none + 9
    omega
  | unlock ws =>
    refine ⟨_, rfl, gains_unlock hk hp ?_⟩
    rw [loopRank_onClose, loopRank_onClose]
    simp only [onCloseRank]
    omega
  | reset ws =>
    have hgo : Gains w (w.go loopThread w.state [.user, .onClose (.resume ws)]) := by
      refine gains_go hk ht hp ?_
      rw [loopRank_cons rfl, loopRank_onClose, loopRank_onClose]
      simp only [onCloseRank, frameRank]
      omega
    exact ⟨_, rfl, hgo.running, hgo.requested, hgo.turn, hgo.less⟩
  | resume ws =>
    cases ws with
    | nil =>
      refine ⟨_, rfl, gains_go hk ht hp ?_⟩
      rw [loopRank_nil, loopRank_onClose]
      simp only [onCloseRank]
      omega
    | cons c ws =>
      refine ⟨_, rfl, gains_go hk ht hp ?_⟩
      rw [loopRank_cons rfl, loopRank_onClose, loopRank_onClose]
      show stateRank w.state + drainRank w.state none + (5 + 2 * ws.length) + 1 <
        stateRank w.state + drainRank w.state none + (5 + 2 * (ws.length + 1))
      omega

/-- foreign code on top of the loop thread returns -/
theorem wind_ret {f : Frame} (h : Winding cfg w) (hk : w.stack loopThread = f :: k)
    (hf : f.foreign = true) (ht : LoopTurn w) : ∃ w', w.ret loopThread = some w' ∧ Gains w w' := by
  have hgo : Gains w (w.go loopThread w.state k) := by
    have hcb : f.callback = false := by cases f <;> first | rfl | cases hf
    have hone : frameRank f = 1 := by cases f <;> first | rfl | cases hf
    refine gains_go hk ht h.requested ?_
    rw [loopRank_cons hcb, hone]
    omega
  unfold World.ret
  rw [hk]
  cases f with
  | user | callable => exact ⟨_, rfl, hgo⟩
  | failureHandler g c => exact ⟨_, rfl, hgo.running, hgo.requested, hgo.turn, hgo.less⟩
  | _ => cases hf

/-- the loop thread is idle: libuv has a callback to make -/
theorem wind_idle (h : Winding cfg w) (hk : w.stack loopThread = []) (ht : LoopTurn w)
    (hn : w.state.phase ≠ .closed) :
    ∃ a w', a.winds = true ∧ step cfg w a = some w' ∧ Gains w w' := by
  have hi := reach_invariant h.reach
  have hp := h.requested
  have hrun : ¬ w.terminated = true := by simp [h.running]
  cases hph : w.state.phase with
  | opened => exact absurd hph hp
  | closed => exact absurd hph hn
  | draining =>
    -- nothing is active, so the queue is not empty and its wakeup is pending
    have hd : (view w).drain = none := congrArg drainOf hk
    have hidle : w.state.batch = [] ∧ w.state.activeBatches = 0 := by
      have hb := hi.good.batches
      rwa [hd] at hb
    have hm : w.mutex = none := by
      refine ht.resolve_right fun hm => ?_
      have htop := ((reach_excl h.reach).owner loopThread).mp hm
      rw [hk] at htop
      cases htop
    have hset : settled (view w) = w.state.queue := by simp [settled, view, hm]
    have hq : w.state.queue ≠ [] := (hi.good.draining hph).resolve_right (by
      show ¬ 0 < w.state.activeBatches
      omega)
    have hpend : w.state.pending = true := by
      refine (hi.good.wake (hset ▸ hq) (Or.inr hph)).resolve_right fun hb => ?_
      rw [hd] at hb
      cases hb
    refine ⟨.asyncCallback, w.go loopThread { w.state with pending := false } [.drain .lock], rfl,
      ?_, gains_go hk ht hp ?_⟩
    · simp [step, hrun, hk, hpend]
    · rw [loopRank_nil, loopRank_drain]
      show stateRank w.state + 9 < stateRank w.state + drainRank w.state none
      simp only [drainRank, if_pos hph]
      omega
  | closing =>
    have hfl : w.state.closeInFlight = true := by
      refine hi.waiters.flight.mpr ⟨hph, fun hc => ?_⟩
      have ho : (view w).onClose = none := congrArg onCloseOf hk
      rcases hi.waiters.called hc with hcl | hl | hb
      · exact absurd (hph.symm.trans hcl) (fun h => by cases h)
      · exact absurd (ho.symm.trans hl) (fun h => by cases h)
      · exact absurd (ho.symm.trans hb) (fun h => by cases h)
    refine ⟨.closeCallback, w.go loopThread
      ({ w.state with closeInFlight := false }.emit .closeCallback) [.onClose .lock], rfl,
      ?_, gains_go hk ht hp ?_⟩
    · simp [step, hrun, hk, hfl]
    · rw [loopRank_nil, loopRank_onClose]
      simp only [stateRank, phaseRank, drainRank, onCloseRank, State.emit, hph, hfl]
      simp

/-- the loop thread has the turn and is not done -/
theorem wind_loop (h : Winding cfg w) (ht : LoopTurn w)
    (hn : ¬ (w.stack loopThread = [] ∧ w.state.phase = .closed)) :
    ∃ a w', a.winds = true ∧ step cfg w a = some w' ∧ Gains w w' := by
  have hok := (reach_excl h.reach).threads loopThread
  have hrun : ¬ w.terminated = true := by simp [h.running]
  -- the step is a tick of the loop thread
  have htick {g : Option World} (hg : tick cfg w loopThread = g)
      (hw : ∃ w', g = some w' ∧ Gains w w') :
      ∃ a w', a.winds = true ∧ step cfg w a = some w' ∧ Gains w w' := by
    obtain ⟨w', hw', hgain⟩ := hw
    exact ⟨.tick loopThread, w', rfl, by simp only [step, if_neg hrun]; exact hg.trans hw', hgain⟩
  have hret (hw : ∃ w', w.ret loopThread = some w' ∧ Gains w w') :
      ∃ a w', a.winds = true ∧ step cfg w a = some w' ∧ Gains w w' := by
    obtain ⟨w', hw', hgain⟩ := hw
    exact ⟨.ret loopThread, w', rfl, by simp only [step, if_neg hrun]; exact hw', hgain⟩
  cases hk : w.stack loopThread with
  | nil => exact wind_idle h hk ht fun hc => hn ⟨hk, hc⟩
  | cons f k =>
    rw [hk] at hok
    cases f with
    | user | callable | failureHandler => exact hret (wind_ret h hk rfl ht)
    | post pc => exact htick (by rw [tick, hk]) (wind_post h hk ht)
    | requestClose pc => exact htick (by rw [tick, hk]) (wind_requestClose h hk ht)
    | awaitClose c pc => exact htick (by rw [tick, hk]) (wind_awaitClose h hk ht)
    | drain pc =>
      obtain rfl : k = [] := hok.bottom.1 rfl
      exact htick (by rw [tick, hk]) (wind_drain h hk ht)
    | onClose pc =>
      obtain rfl : k = [] := hok.bottom.1 rfl
      exact htick (by rw [tick, hk]) (wind_onClose h hk ht)

/-- another thread has the mutex: it is in `post`, and leaves -/
theorem wind_owner {t : Tid} (h : Winding cfg w) (hm : w.mutex = some t) (ht : t ≠ loopThread) :
    ∃ w', step cfg w (.tick t) = some w' ∧ w'.terminated = false ∧ w'.state.phase ≠ .opened ∧
      rank w' < rank w := by
  have hex := reach_excl h.reach
  have hp := h.requested
  have hrun : ¬ w.terminated = true := by simp [h.running]
  have htop := (hex.owner t).mp hm
  cases hk : w.stack t with
  | nil =>
    rw [hk] at htop
    cases htop
  | cons f k =>
    rw [hk] at htop
    have hrank : rank w = loopRank w.state (w.stack loopThread) + frameRank f := by
      simp [rank, ownerRank, hm, ht, hk]
    have hloop (k' : List Frame) : Function.update w.stack t k' loopThread = w.stack loopThread :=
      Function.update_of_ne (Ne.symm ht) _ _
    cases f with
    | post pc =>
      have hstep : step cfg w (.tick t) = w.post cfg t k pc := by
        simp only [step, if_neg hrun, tick, hk]
      rw [hstep]
      have hsent : unsentOf (.post pc :: k) = none := by
        rw [← hex.unsent hk htop]
        cases hu : (view w).unsent with
        | none => rfl
        | some x => exact absurd ((reach_invariant h.reach).good.unsent x hu).1 hp
      cases pc with
      | lock => cases htop
      | check =>
        have ha : w.state.admits cfg = some .canceled := if_pos hp
        simp only [World.post, ha]
        refine ⟨_, rfl, h.running, hp, ?_⟩
        rw [hrank]
        simp only [rank, ownerRank, World.go, hm, hloop, if_neg ht, Function.update_self]
        show loopRank w.state (w.stack loopThread) + 2 < loopRank w.state (w.stack loopThread) + 3
        omega
      | send x => cases hsent
      | rollback x => cases hsent
      | unlock r =>
        cases r with
        | none =>
          refine ⟨_, rfl, h.running, hp, ?_⟩
          rw [hrank]
          simp only [rank, ownerRank, World.unlock, World.go, hloop]
          show loopRank w.state (w.stack loopThread) + 0 < loopRank w.state (w.stack loopThread) + 1
          omega
        | some x =>
          refine ⟨_, rfl, h.running, hp, ?_⟩
          rw [hrank]
          simp only [rank, ownerRank, World.unlock, World.go, hloop]
          show loopRank w.state (w.stack loopThread) + 0 < loopRank w.state (w.stack loopThread) + 2
          omega
    | user | callable _ | failureHandler _ _ => cases htop
    | drain _ | requestClose _ | awaitClose _ _ | onClose _ =>
      exact absurd ((hex.ok hk).loop _ (List.mem_cons_self ..) rfl) ht

/-- the close callback has returned -/
def Wound (w : World) : Prop :=
  LoopTurn w ∧ w.stack loopThread = [] ∧ w.state.phase = .closed

theorem wind_step (h : Winding cfg w) (hn : ¬ Wound w) :
    ∃ a w', a.winds = true ∧ (sys cfg).step w a = some w' ∧ Winding cfg w' ∧ rank w' < rank w := by
  by_cases ht : LoopTurn w
  · obtain ⟨a, w', ha, hs, hg⟩ := wind_loop h ht fun hd => hn ⟨ht, hd⟩
    refine ⟨a, w', ha, hs, ⟨h.reach.step _ hs, hg.running.trans h.running, hg.requested⟩, ?_⟩
    rw [rank_loop ht, rank_loop hg.turn]
    exact hg.less
  · cases hm : w.mutex with
    | none => exact absurd (Or.inl hm) ht
    | some t =>
      have hne : t ≠ loopThread := fun he => ht (Or.inr (he ▸ hm))
      obtain ⟨w', hs, hrun, hp, hlt⟩ := wind_owner h hm hne
      exact ⟨.tick t, w', rfl, hs, ⟨Sys.Reach.step (sys cfg) (a := .tick t) h.reach hs, hrun, hp⟩, hlt⟩

/-- **A shutdown does not get stuck.**  From every state in which the close is requested, the
activations that are there and the callbacks of libuv lead to the end of the close callback. -/
theorem shutdown_finishes (h : Winding cfg w) :
    ∃ w', (sys cfg).Along (fun a => a.winds = true) w w' ∧ Winding cfg w' ∧ Wound w' :=
  Sys.Along.of_rank rank (fun _ hw hn => wind_step hw hn) h

end

/-- room for two callables, which are taken one by one -/
def twoOneByOne : Config := ⟨2, 1, Nat.two_pos, Nat.one_pos⟩

/-- The loop thread and another one post a callable each, then a coroutine awaits `close()`. -/
def requested : List Act :=
  [.enter 0, .post 0, .tick 0, .tick 0, .tick 0, .tick 0, .enter 1, .post 1, .tick 1, .tick 1,
    .tick 1, .tick 1, .awaitClose 7, .tick 0, .tick 0, .tick 0, .tick 0, .tick 0, .tick 0]

theorem shutdown_finishes_requested : ∃ w, (sys twoOneByOne).run {} requested = some w ∧
    w.state.queue = [0, 1] ∧ w.state.closeWaiters = [7] ∧ ∃ w',
    (sys twoOneByOne).Along (fun a => a.winds = true) w w' ∧ Winding twoOneByOne w' ∧ Wound w' :=
  ⟨_, rfl, rfl, rfl, shutdown_finishes ⟨⟨requested, rfl⟩, rfl, fun h => by cases h⟩⟩

end Posting
