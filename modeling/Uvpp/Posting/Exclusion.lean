import Uvpp.Posting.Component

/-!
# The threads of `loop_posting` and its mutex

* `Excl`        the mutex is held by the thread whose topmost activation is in a critical section,
                and by nobody else; callbacks of the loop start on an empty stack;
* `view`        what the threads show of the component;
* `step_view`   **a step of any thread leaves the view alone or makes one of its moves**;
* `reach_excl`, `reach_invariant`   so what the moves keep holds under every interleaving.
-/

namespace Posting

/-! ## who is in a critical section -/

/-- activations that only the loop thread has -/
def Frame.loopOnly : Frame → Bool
  | .user | .post _ => false
  | _ => true

/-- activations that libuv calls -/
def Frame.callback : Frame → Bool
  | .drain _ | .onClose _ => true
  | _ => false

def topCritical : List Frame → Bool
  | [] => false
  | f :: _ => f.critical

def Bottom : List Frame → Prop
  | [] => True
  | f :: k => (f.callback = true → k = []) ∧ Bottom k

/-- what the stack of the thread `t` looks like -/
structure ThreadOk (t : Tid) (k : List Frame) : Prop where
  below : ∀ g ∈ k.tail, g.critical = false
  loop : ∀ f ∈ k, f.loopOnly = true → t = loopThread
  bottom : Bottom k

section
variable {t : Tid} {f g : Frame} {k : List Frame}

theorem ThreadOk.pop (h : ThreadOk t (f :: k)) : ThreadOk t k ∧ topCritical k = false := by
  refine ⟨⟨?_, ?_, h.bottom.2⟩, ?_⟩
  · exact fun g hg => h.below g (List.mem_of_mem_tail hg)
  · exact fun g hg => h.loop g (List.mem_cons_of_mem f hg)
  · cases k with
    | nil => rfl
    | cons g k => exact h.below g (List.mem_cons_self ..)

theorem ThreadOk.push (h : ThreadOk t k) (hn : topCritical k = false)
    (hl : g.loopOnly = true → t = loopThread) (hc : g.callback = true → k = []) :
    ThreadOk t (g :: k) := by
  refine ⟨fun f hf => ?_, fun f hf => ?_, hc, h.bottom⟩
  · cases k with
    | nil => cases hf
    | cons g k =>
      rcases List.mem_cons.mp hf with rfl | hf
      · exact hn
      · exact h.below f hf
  · rcases List.mem_cons.mp hf with rfl | hf
    · exact hl
    · exact h.loop f hf

/-- an activation goes on -/
theorem ThreadOk.replace (h : ThreadOk t (f :: k)) (hl : g.loopOnly = true → f.loopOnly = true)
    (hc : g.callback = true → f.callback = true) : ThreadOk t (g :: k) :=
  h.pop.1.push h.pop.2 (fun hg => h.loop f (List.mem_cons_self ..) (hl hg))
    (fun hg => h.bottom.1 (hc hg))

end

structure Excl (w : World) : Prop where
  owner : ∀ t, w.mutex = some t ↔ topCritical (w.stack t) = true
  threads : ∀ t, ThreadOk t (w.stack t)

/-! What a thread does to its stack `k` is told by the new stack `k'`. -/

section
variable {w w' : World} {t : Tid} {k k' : List Frame} {s : State}

theorem Excl.ok (h : Excl w) (hk : w.stack t = k) : ThreadOk t k := hk ▸ h.threads t

theorem Excl.holds (h : Excl w) (hk : w.stack t = k) (hc : topCritical k = true) :
    w.mutex = some t :=
  (h.owner t).mpr (by rw [hk]; exact hc)

theorem Excl.go (h : Excl w) (hk : w.stack t = k) (hok : ThreadOk t k')
    (hc : topCritical k' = topCritical k) : Excl (w.go t s k') := by
  subst hk
  refine ⟨fun u => ?_, fun u => ?_⟩
  all_goals rcases eq_or_ne u t with rfl | hu
  · simp only [World.go, Function.update_self, hc]
    exact h.owner u
  · simp only [World.go, Function.update_of_ne hu]
    exact h.owner u
  · simpa only [World.go, Function.update_self] using hok
  · simpa only [World.go, Function.update_of_ne hu] using h.threads u

theorem Excl.lock (h : Excl w) (hok : ThreadOk t k') (hc : topCritical k' = true)
    (hl : w.lock t k' = some w') : Excl w' := by
  obtain ⟨hm, rfl⟩ := by simpa [World.lock] using hl
  refine ⟨fun u => ?_, fun u => ?_⟩
  all_goals rcases eq_or_ne u t with rfl | hu
  · simp [World.go, hc]
  · have hnot := h.owner u
    rw [hm] at hnot
    simp only [World.go, Function.update_of_ne hu, ← hnot]
    simp [hu.symm]
  · simpa only [World.go, Function.update_self] using hok
  · simpa only [World.go, Function.update_of_ne hu] using h.threads u

theorem Excl.unlock (h : Excl w) (hk : w.stack t = k) (hold : topCritical k = true)
    (hok : ThreadOk t k') (hc : topCritical k' = false) : Excl (w.unlock t s k') := by
  have hm := h.holds hk hold
  refine ⟨fun u => ?_, fun u => ?_⟩
  all_goals rcases eq_or_ne u t with rfl | hu
  · simp [World.unlock, World.go, hc]
  · have hnot := h.owner u
    rw [hm] at hnot
    simp only [World.unlock, World.go, Function.update_of_ne hu, ← hnot]
    simp [hu.symm]
  · simpa only [World.unlock, World.go, Function.update_self] using hok
  · simpa only [World.unlock, World.go, Function.update_of_ne hu] using h.threads u

end

/-! ## the view -/

/-- the callable that this thread has put into the queue and not yet sent for -/
def unsentOf : List Frame → Option Nat
  | .post (.send x) :: _ | .post (.rollback x) :: _ => some x
  | _ => none

def drainOf : List Frame → Option DrainAt
  | [] => none
  | .drain pc :: _ => some pc
  | _ :: k => drainOf k

def onCloseOf : List Frame → Option OnCloseAt
  | [] => none
  | .onClose pc :: _ => some pc
  | _ :: k => onCloseOf k

/-- what the threads show of the component -/
def view (w : World) : View where
  state := w.state
  unsent := w.mutex.bind fun t => unsentOf (w.stack t)
  drain := drainOf (w.stack loopThread)
  onClose := onCloseOf (w.stack loopThread)

/-- where `drain` is, after the thread `t` has changed its stack -/
def drainAfter (w : World) (t : Tid) (k : List Frame) : Option DrainAt :=
  if t = loopThread then drainOf k else (view w).drain

def onCloseAfter (w : World) (t : Tid) (k : List Frame) : Option OnCloseAt :=
  if t = loopThread then onCloseOf k else (view w).onClose

/-- the view after a change of the state and of the stack of `t` -/
def View.after (w : World) (t : Tid) (s : State) (k : List Frame) : View :=
  { view w with state := s, drain := drainAfter w t k, onClose := onCloseAfter w t k }

section
variable {w w' : World} {t : Tid} {k k' : List Frame} {s : State} {v : View}

theorem drainAfter_same (hk : w.stack t = k) (hd : drainOf k' = drainOf k) :
    drainAfter w t k' = (view w).drain := by
  unfold drainAfter
  split
  · rename_i ht
    rw [hd, ← hk, ht]
    rfl
  · rfl

theorem onCloseAfter_same (hk : w.stack t = k) (ho : onCloseOf k' = onCloseOf k) :
    onCloseAfter w t k' = (view w).onClose := by
  unfold onCloseAfter
  split
  · rename_i ht
    rw [ho, ← hk, ht]
    rfl
  · rfl

theorem update_drain : drainOf (Function.update w.stack t k' loopThread) = drainAfter w t k' := by
  unfold drainAfter
  split
  · rename_i ht
    rw [ht, Function.update_self]
  · rename_i ht
    rw [Function.update_of_ne (Ne.symm ht)]
    rfl

theorem update_onClose :
    onCloseOf (Function.update w.stack t k' loopThread) = onCloseAfter w t k' := by
  unfold onCloseAfter
  split
  · rename_i ht
    rw [ht, Function.update_self]
  · rename_i ht
    rw [Function.update_of_ne (Ne.symm ht)]
    rfl

theorem View.after_same (hk : w.stack t = k) (hd : drainOf k' = drainOf k)
    (ho : onCloseOf k' = onCloseOf k) : View.after w t s k' = { view w with state := s } := by
  rw [View.after, drainAfter_same hk hd, onCloseAfter_same hk ho]

theorem View.after_drain (hk : w.stack loopThread = k) (ho : onCloseOf k' = onCloseOf k) :
    View.after w loopThread s k' = { view w with state := s, drain := drainOf k' } := by
  rw [View.after, onCloseAfter_same hk ho]
  rfl

theorem View.after_onClose (hk : w.stack loopThread = k) (hd : drainOf k' = drainOf k) :
    View.after w loopThread s k' = { view w with state := s, onClose := onCloseOf k' } := by
  rw [View.after, drainAfter_same hk hd]
  rfl

theorem Excl.unsent (h : Excl w) (hk : w.stack t = k) (hc : topCritical k = true) :
    (view w).unsent = unsentOf k := by
  simp only [view, h.holds hk hc, Option.bind_some, hk]

theorem view_go (hk : w.stack t = k) (hu : unsentOf k' = unsentOf k)
    (hv : View.after w t s k' = v) : view (w.go t s k') = v := by
  rw [← hv]
  refine View.ext rfl ?_ update_drain update_onClose
  show (w.mutex.bind fun u => unsentOf (Function.update w.stack t k' u)) =
    w.mutex.bind fun u => unsentOf (w.stack u)
  congr 1
  funext u
  rcases eq_or_ne u t with rfl | hne
  · rw [Function.update_self, hu, hk]
  · rw [Function.update_of_ne hne]

/-- the owner of the mutex changes what it has put into the queue -/
theorem Excl.view_owner (h : Excl w) (hk : w.stack t = k) (hc : topCritical k = true) :
    view (w.go t s k') = { View.after w t s k' with unsent := unsentOf k' } := by
  refine View.ext rfl ?_ update_drain update_onClose
  simp only [view, World.go, h.holds hk hc, Option.bind_some, Function.update_self]

theorem view_lock (hu : unsentOf k' = none) (hl : w.lock t k' = some w')
    (hv : View.after w t w.state k' = v) : view w' = v := by
  rw [← hv]
  obtain ⟨hm, rfl⟩ := by simpa [World.lock] using hl
  refine View.ext rfl ?_ update_drain update_onClose
  simp only [view, View.after, World.go, hm, Option.bind_some, Option.bind_none,
    Function.update_self, hu]

theorem Excl.view_unlock (h : Excl w) (hk : w.stack t = k) (hc : topCritical k = true)
    (hu : unsentOf k = none) (hv : View.after w t s k' = v) : view (w.unlock t s k') = v := by
  rw [← hv]
  refine View.ext rfl ?_ update_drain update_onClose
  exact ((h.unsent hk hc).trans hu).symm

end

/-! ## a step of a thread, seen in the view -/

/-- the mutex is respected, and the view stands still or makes a move -/
def Shows (cfg : Config) (w w' : World) : Prop :=
  Excl w' ∧ (view w' = view w ∨ Moved cfg (view w) (view w'))

section
variable {cfg : Config} {w w' : World} {t : Tid} {k : List Frame} {s : State}

theorem Shows.still (h : Excl w') (hv : view w' = view w) : Shows cfg w w' := ⟨h, Or.inl hv⟩

theorem Shows.moves {v : View} (h : Excl w') (hv : view w' = v) (hm : Moved cfg (view w) v) :
    Shows cfg w w' :=
  ⟨h, Or.inr (hv ▸ hm)⟩

theorem shows_post {pc : PostAt} (h : Excl w) (hk : w.stack t = .post pc :: k)
    (hs : w.post cfg t k pc = some w') : Shows cfg w w' := by
  have hok := h.ok hk
  have hrep (pc' : PostAt) : ThreadOk t (.post pc' :: k) := hok.replace nofun nofun
  -- an activation of `post` is not one of `drain` or `on_close`
  have hsame (s' : State) (pc' : PostAt) :
      View.after w t s' (.post pc' :: k) = { view w with state := s' } :=
    View.after_same hk rfl rfl
  have hpop (s' : State) : View.after w t s' k = { view w with state := s' } :=
    View.after_same hk rfl rfl
  cases pc with
  | lock => exact .still (h.lock (hrep _) rfl hs) (view_lock rfl hs (hsame _ _))
  | check =>
    have hnone : (view w).unsent = none := h.unsent hk rfl
    simp only [World.post] at hs
    split at hs <;> cases hs
    · exact .moves (h.go hk (hrep _) rfl) (view_go hk rfl (hsame _ _))
        (.refuse hnone _)
    · rename_i ha
      refine .moves (h.go hk (hrep _) rfl) ((h.view_owner hk rfl).trans ?_)
        (.push hnone ha)
      rw [hsame]
      rfl
  | send x =>
    cases hs
    refine .moves (h.go hk (hrep _) rfl) ((h.view_owner hk rfl).trans ?_)
      (.sendAccepted (h.unsent hk rfl))
    rw [hsame]
    rfl
  | rollback x =>
    cases hs
    refine .moves (h.go hk (hrep _) rfl) ((h.view_owner hk rfl).trans ?_)
      (.rollback (h.unsent hk rfl))
    rw [hsame]
    rfl
  | unlock r =>
    cases r with
    | none =>
      cases hs
      exact .still (h.unlock hk rfl hok.pop.1 hok.pop.2)
        (h.view_unlock hk rfl rfl (hpop _))
    | some x =>
      cases hs
      have huser : ThreadOk t (.user :: k) := hok.replace nofun nofun
      exact .moves (h.unlock hk rfl huser rfl) (h.view_unlock hk rfl rfl (hpop _))
        (.discard x)

theorem shows_requestClose {pc : CloseAt} (h : Excl w) (hk : w.stack t = .requestClose pc :: k)
    (hs : w.requestClose t k pc = some w') : Shows cfg w w' := by
  have hok := h.ok hk
  have hrep (pc' : CloseAt) : ThreadOk t (.requestClose pc' :: k) := hok.replace (fun _ => rfl) nofun
  have hsame (s' : State) (pc' : CloseAt) :
      View.after w t s' (.requestClose pc' :: k) = { view w with state := s' } :=
    View.after_same hk rfl rfl
  cases pc with
  | lock => exact .still (h.lock (hrep _) rfl hs) (view_lock rfl hs (hsame _ _))
  | body =>
    cases hs
    exact .moves (h.go hk (hrep _) rfl) (view_go hk rfl (hsame _ _))
      (.requestClose (h.unsent hk rfl))
  | unlock =>
    cases hs
    exact .still (h.unlock hk rfl hok.pop.1 hok.pop.2)
      (h.view_unlock hk rfl rfl (View.after_same hk rfl rfl))

theorem shows_awaitClose {c : Coro} {pc : AwaitAt} (h : Excl w)
    (hk : w.stack t = .awaitClose c pc :: k) (hs : w.awaitClose t c k pc = some w') :
    Shows cfg w w' := by
  have hok := h.ok hk
  have hrep (pc' : AwaitAt) : ThreadOk t (.awaitClose c pc' :: k) :=
    hok.replace (fun _ => rfl) nofun
  have hsame (s' : State) (pc' : AwaitAt) :
      View.after w t s' (.awaitClose c pc' :: k) = { view w with state := s' } :=
    View.after_same hk rfl rfl
  cases pc with
  | lock => exact .still (h.lock (hrep _) rfl hs) (view_lock rfl hs (hsame _ _))
  | body =>
    simp only [World.awaitClose] at hs
    split at hs <;> cases hs
    · exact .still (h.go hk (hrep _) rfl) (view_go hk rfl (hsame _ _))
    · rename_i hp
      exact .moves (h.go hk (hrep _) rfl) (view_go hk rfl (hsame _ _))
        (.addCloseWaiter hp c)
  | unlock registered =>
    cases registered with
    | true =>
      cases hs
      exact .still (h.unlock hk rfl (hok.replace (fun _ => rfl) nofun) rfl)
        (h.view_unlock hk rfl rfl (View.after_same hk rfl rfl))
    | false =>
      cases hs
      exact .still (h.unlock hk rfl (hok.replace nofun nofun) rfl)
        (h.view_unlock hk rfl rfl (View.after_same hk rfl rfl))

theorem shows_drain {pc : DrainAt} (h : Excl w) (hk : w.stack t = .drain pc :: k)
    (hs : w.drain cfg t k pc = some w') : Shows cfg w w' := by
  have hok := h.ok hk
  -- the callback is at the bottom of the stack of the loop thread
  obtain rfl : t = loopThread := hok.loop _ (List.mem_cons_self ..) rfl
  obtain rfl : k = [] := hok.bottom.1 rfl
  have hd : (view w).drain = some pc := congrArg drainOf hk
  have hrep (pc' : DrainAt) : ThreadOk loopThread [.drain pc'] :=
    hok.replace (fun _ => rfl) (fun _ => rfl)
  have hcall {pc' : DrainAt} {f : Frame} (hn : (Frame.drain pc').critical = false)
      (hf : f.callback = false) : ThreadOk loopThread [f, .drain pc'] :=
    (hrep pc').push hn (fun _ => rfl) (fun hc => absurd (hf.symm.trans hc) nofun)
  have hat (s' : State) (k' : List Frame) (ho : onCloseOf k' = none) :
      View.after w loopThread s' k' = { view w with state := s', drain := drainOf k' } :=
    View.after_drain hk ho
  cases pc with
  | lock =>
    exact .moves (h.lock (hrep _) rfl hs) (view_lock rfl hs (hat _ _ rfl))
      (.drainLock hd)
  | take =>
    simp only [World.drain] at hs
    split at hs <;> cases hs
    · rename_i hp
      exact .moves (h.go hk (hrep _) rfl) (view_go hk rfl (hat _ _ rfl))
        (.drainLeave hd hp)
    · rename_i hp
      exact .moves (h.go hk (hrep _) rfl) (view_go hk rfl (hat _ _ rfl))
        (.drainTake hd (h.unsent hk rfl) hp)
  | leave =>
    cases hs
    exact .moves (h.unlock hk rfl hok.pop.1 rfl)
      (h.view_unlock hk rfl rfl (hat _ _ rfl)) (.drainLeft hd)
  | unlockBatch =>
    cases hs
    exact .moves (h.unlock hk rfl (hrep _) rfl)
      (h.view_unlock hk rfl rfl (hat _ _ rfl)) (.drainUnlock hd)
  | invoke had i =>
    simp only [World.drain] at hs
    split at hs <;> cases hs
    · rename_i x hx
      exact .moves (h.go hk (hcall rfl rfl) rfl) (view_go hk rfl (hat _ _ rfl))
        (.drainInvoke hd hx)
    · rename_i hx
      exact .moves (h.go hk (hrep _) rfl) (view_go hk rfl (hat _ _ rfl))
        (.drainInvoked hd hx)
  | clear had =>
    simp only [World.drain] at hs
    split at hs <;> cases hs
    · rename_i x rest hb
      refine .moves (h.go hk (hcall rfl rfl) rfl) ?_ (.drainDestroy hd hb)
      exact view_go hk rfl ((hat _ _ rfl).trans (View.ext rfl rfl hd.symm rfl))
    · rename_i hb
      exact .moves (h.go hk (hrep _) rfl) (view_go hk rfl (hat _ _ rfl))
        (.drainCleared hd hb)
  | relock had =>
    exact .moves (h.lock (hrep _) rfl hs) (view_lock rfl hs (hat _ _ rfl))
      (.drainRelock hd)
  | settle had =>
    cases hs
    exact .moves (h.go hk (hrep _) rfl) (view_go hk rfl (hat _ _ rfl))
      (.drainSettle hd (h.unsent hk rfl))
  | unlock =>
    cases hs
    exact .moves (h.unlock hk rfl hok.pop.1 rfl)
      (h.view_unlock hk rfl rfl (hat _ _ rfl)) (.drainDone hd)

theorem shows_onClose {pc : OnCloseAt} (h : Excl w) (hk : w.stack t = .onClose pc :: k)
    (hs : w.onClose t k pc = some w') : Shows cfg w w' := by
  have hok := h.ok hk
  obtain rfl : t = loopThread := hok.loop _ (List.mem_cons_self ..) rfl
  obtain rfl : k = [] := hok.bottom.1 rfl
  have ho : (view w).onClose = some pc := congrArg onCloseOf hk
  have hrep (pc' : OnCloseAt) : ThreadOk loopThread [.onClose pc'] :=
    hok.replace (fun _ => rfl) (fun _ => rfl)
  have hcall (ws : List Coro) : ThreadOk loopThread [.user, .onClose (.resume ws)] :=
    (hrep _).push rfl nofun nofun
  have hat (s' : State) (k' : List Frame) (hd : drainOf k' = none) :
      View.after w loopThread s' k' = { view w with state := s', onClose := onCloseOf k' } :=
    View.after_onClose hk hd
  cases pc with
  | lock =>
    exact .moves (h.lock (hrep _) rfl hs) (view_lock rfl hs (hat _ _ rfl))
      (.onCloseLock ho)
  | body =>
    cases hs
    exact .moves (h.go hk (hrep _) rfl) (view_go hk rfl (hat _ _ rfl))
      (.onCloseBody ho)
  | unlock ws =>
    cases hs
    exact .moves (h.unlock hk rfl (hrep _) rfl)
      (h.view_unlock hk rfl rfl (hat _ _ rfl)) (.onCloseUnlock ho)
  | reset ws =>
    cases hs
    have hex : Excl (w.go loopThread w.state [.user, .onClose (.resume ws)]) :=
      h.go hk (hcall ws) rfl
    exact .moves ⟨hex.owner, hex.threads⟩ (view_go hk rfl (hat _ _ rfl))
      (.onCloseReset ho)
  | resume ws =>
    cases ws with
    | nil =>
      cases hs
      exact .moves (h.go hk hok.pop.1 rfl) (view_go hk rfl (hat _ _ rfl))
        (.onCloseDone ho)
    | cons c ws =>
      cases hs
      exact .moves (h.go hk (hcall ws) rfl) (view_go hk rfl (hat _ _ rfl))
        (.onCloseResume ho)

theorem shows_tick (h : Excl w) (hs : tick cfg w t = some w') : Shows cfg w w' := by
  unfold tick at hs
  split at hs
  · exact shows_post h ‹_› hs
  · exact shows_drain h ‹_› hs
  · exact shows_requestClose h ‹_› hs
  · exact shows_awaitClose h ‹_› hs
  · exact shows_onClose h ‹_› hs
  · cases hs

theorem shows_fail (h : Excl w) (hs : fail cfg w t = some w') : Shows cfg w w' := by
  unfold fail at hs
  split at hs
  · rename_i k hk
    obtain ⟨ha, rfl⟩ := by simpa using hs
    exact .moves (h.go hk ((h.ok hk).replace nofun nofun) rfl)
      (view_go hk rfl (View.after_same hk rfl rfl)) (.refuse (h.unsent hk rfl) _)
  · rename_i x k hk
    cases hs
    exact .moves (h.go hk ((h.ok hk).replace nofun nofun) rfl)
      (view_go hk rfl (View.after_same hk rfl rfl)) (.sendFailed (h.unsent hk rfl))
  · -- the process is terminated: nothing of the component has changed
    obtain ⟨hq, rfl⟩ := by simpa using hs
    exact .still ⟨h.owner, h.threads⟩ rfl
  · rename_i c k hk
    obtain ⟨hp, rfl⟩ := by simpa using hs
    exact .still (h.go hk ((h.ok hk).replace (fun _ => rfl) nofun) rfl)
      (view_go hk rfl (View.after_same hk rfl rfl))
  · cases hs

/-- foreign code returns -/
theorem shows_pop {f : Frame} (h : Excl w) (hk : w.stack t = f :: k) (hf : f.foreign = true) :
    Shows cfg w (w.go t w.state k) := by
  have hok := h.ok hk
  have hc : f.critical = false := by cases f <;> first | rfl | cases hf
  have hu : unsentOf k = unsentOf (f :: k) := by
    have hbelow := hok.pop.2
    have hf' : unsentOf (f :: k) = none := by cases f <;> first | rfl | cases hf
    rw [hf']
    unfold unsentOf
    split <;> first | rfl | cases hbelow
  have hd : drainOf k = drainOf (f :: k) := by cases f <;> first | rfl | cases hf
  have ho : onCloseOf k = onCloseOf (f :: k) := by cases f <;> first | rfl | cases hf
  exact .still (h.go hk hok.pop.1 (hok.pop.2.trans hc.symm))
    (view_go hk hu (View.after_same hk hd ho))

theorem shows_ret (h : Excl w) (hs : w.ret t = some w') : Shows cfg w w' := by
  unfold World.ret at hs
  split at hs
  · cases hs
    exact shows_pop h ‹_› rfl
  · cases hs
    exact shows_pop h ‹_› rfl
  · cases hs
    have hpop : Shows cfg w (w.go t w.state _) := shows_pop h ‹_› rfl
    exact ⟨⟨hpop.1.owner, hpop.1.threads⟩, hpop.2⟩
  · cases hs

theorem shows_raise (h : Excl w) (hs : w.raise = some w') : Shows cfg w w' := by
  unfold World.raise at hs
  split at hs
  · rename_i x k hk
    split at hs <;> cases hs
    · exact .still ⟨h.owner, h.threads⟩ rfl
    · rename_i s c hb
      have hex : Excl (w.go loopThread w.state (.failureHandler w.slot.generation c :: k)) :=
        h.go hk ((h.ok hk).replace (fun _ => rfl) nofun) rfl
      exact .still ⟨hex.owner, hex.threads⟩ (view_go hk rfl (View.after_same hk rfl rfl))
  · cases hs
    exact .still ⟨h.owner, h.threads⟩ rfl
  · cases hs

theorem foreign_not_critical (hf : foreign k = true) : topCritical k = false ∧ unsentOf k = none := by
  cases k with
  | nil => exact ⟨rfl, rfl⟩
  | cons f k => cases f <;> first | exact ⟨rfl, rfl⟩ | cases hf

/-- foreign code calls something -/
theorem shows_call {f : Frame} (h : Excl w) (hf : foreign (w.stack t) = true)
    (hc : f.critical = false) (hcb : f.callback = false)
    (hl : f.loopOnly = true → t = loopThread) :
    Shows cfg w (w.go t w.state (f :: w.stack t)) := by
  obtain ⟨hn, hu⟩ := foreign_not_critical hf
  have hok : ThreadOk t (f :: w.stack t) :=
    (h.threads t).push hn hl (fun hcall => absurd (hcb.symm.trans hcall) nofun)
  refine .still (h.go rfl hok (hc.trans hn.symm)) (view_go rfl ?_ (View.after_same rfl ?_ ?_))
  · rw [hu]
    unfold unsentOf
    split <;> first | rfl | (rename_i he; cases he; cases hc)
  · cases f <;> first | rfl | cases hcb
  · cases f <;> first | rfl | cases hcb

/-- libuv calls a callback -/
theorem excl_callback {f : Frame} (h : Excl w) (hk : w.stack loopThread = [])
    (hc : f.critical = false) : Excl (w.go loopThread s [f]) := by
  have hok : ThreadOk loopThread (f :: w.stack loopThread) :=
    (h.threads loopThread).push (by rw [hk]; rfl) (fun _ => rfl) (fun _ => hk)
  rw [hk] at hok
  exact h.go hk hok hc

theorem step_view {a : Act} (h : Excl w) (hs : step cfg w a = some w') : Shows cfg w w' := by
  unfold step at hs
  split at hs
  · cases hs
  cases a with
  | enter | post =>
    obtain ⟨hf, rfl⟩ := by simpa using hs
    exact shows_call h hf rfl rfl nofun
  | ret t => exact shows_ret h hs
  | raise => exact shows_raise h hs
  | requestClose =>
    obtain ⟨hf, rfl⟩ := by simpa using hs
    exact shows_call h hf rfl rfl (fun _ => rfl)
  | awaitClose c =>
    dsimp only at hs
    split at hs <;> cases hs
    rename_i k hk
    obtain ⟨hok, hn⟩ := (h.ok hk).pop
    exact .still (h.go hk (hok.push hn (fun _ => rfl) nofun) rfl)
      (view_go hk rfl (View.after_same hk rfl rfl))
  | setFailureHandler c =>
    obtain ⟨hf, rfl⟩ := by simpa using hs
    exact .still ⟨h.owner, h.threads⟩ rfl
  | asyncCallback =>
    obtain ⟨⟨hk, hp⟩, rfl⟩ := by simpa using hs
    have hd : (view w).drain = none := congrArg drainOf hk
    exact .moves (excl_callback h hk rfl) (view_go hk rfl (View.after_drain hk rfl))
      (.asyncCallback hd hp)
  | closeCallback =>
    obtain ⟨⟨hk, hp⟩, rfl⟩ := by simpa using hs
    have ho : (view w).onClose = none := congrArg onCloseOf hk
    exact .moves (excl_callback h hk rfl) (view_go hk rfl (View.after_onClose hk rfl))
      (.closeCallback ho hp)
  | tick t => exact shows_tick h hs
  | fail t => exact shows_fail h hs

theorem excl_init : Excl (sys cfg).init :=
  ⟨fun _ => ⟨nofun, nofun⟩, fun _ => ⟨nofun, nofun, trivial⟩⟩

theorem reach_excl (h : (sys cfg).Reach w) : Excl w :=
  Sys.Reach.inv (P := Excl) excl_init (fun _ _ _ hi hs => (step_view hi hs).1) h

/-- what every move of the view keeps holds under every interleaving -/
theorem reach_view {P : View → Prop} (h0 : P {}) (hm : ∀ v v', P v → Moved cfg v v' → P v')
    (h : (sys cfg).Reach w) : P (view w) := by
  have hboth : Excl w ∧ P (view w) := by
    refine Sys.Reach.inv (P := fun w => Excl w ∧ P (view w)) ⟨excl_init, h0⟩ ?_ h
    rintro w a w' ⟨he, hp⟩ hs
    obtain ⟨he', hv | hv⟩ := step_view he hs
    · exact ⟨he', hv ▸ hp⟩
    · exact ⟨he', hm _ _ hp hv⟩
  exact hboth.2

theorem reach_invariant (h : (sys cfg).Reach w) : Invariant cfg (view w) :=
  reach_view (invariant_init cfg) (fun _ _ hi hm => invariant_move hi hm) h

end

end Posting
