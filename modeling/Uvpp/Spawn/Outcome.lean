import Uvpp.Spawn.Lifetime

/-!
# The outcome of a root

Who learns that a root is complete, and where its exception goes.  The invariants are about the
life of one root (`Spawn.Life`); the loop inherits them through `step_life`.

* `Joins`      the registered joiners are resumed in order, none before the completion;
* `Verdict`    what the history and the flags say about the exception agree, and exclude each other;
* `Buried`     the frame is destroyed once;
* `Owed`       a failure with no destination yet still has a handle, or a delivery in progress after
               the handle is gone; this is the one that `overwrite` breaks;
* `Outcome`    the contract of one root, over the history of the loop;
* `Undisturbed`        what `operator=` and the destructor have to find after `release()`;
* `outcome_contract`   **every root keeps it in every run in which they find that**;
* `assigned_over`      foreign code fills or destroys the handle inside `release()`.
-/

namespace Spawn

/-! ## joiners -/

def registered : List Mark → List Coro
  | [] => []
  | .joinSuspended c :: log => c :: registered log
  | _ :: log => registered log

def resumed : List Mark → List Coro
  | [] => []
  | .joinResumed c :: log => c :: resumed log
  | _ :: log => resumed log

@[simp] theorem registered_append (log es : List Mark) :
    registered (log ++ es) = registered log ++ registered es := by
  induction log with
  | nil => rfl
  | cons e log ih => cases e <;> simp [registered, ih]

@[simp] theorem resumed_append (log es : List Mark) :
    resumed (log ++ es) = resumed log ++ resumed es := by
  induction log with
  | nil => rfl
  | cons e log ih => cases e <;> simp [resumed, ih]

structure Joins (l : Life) : Prop where
  order : registered l.log = resumed l.log ++ (l.deliveries.flatten ++ l.root.joiners)
  early : l.root.completed = false → resumed l.log = []

section
variable {l l' : Life} {m : Move}

/-- a change that joiners do not see -/
theorem Joins.keep (h : Joins l) (hd : l'.deliveries = l.deliveries)
    (hx : l'.root.joiners = l.root.joiners ∧ l'.root.completed = l.root.completed)
    (hlog : registered l'.log = registered l.log ∧ resumed l'.log = resumed l.log) : Joins l' := by
  refine ⟨?_, fun hc => ?_⟩
  · rw [hlog.1, hlog.2, hd, hx.1]
    exact h.order
  · rw [hlog.2]
    exact h.early (hx.2 ▸ hc)

theorem joins_collect (h : Joins l) : Joins l.collect := by
  unfold Life.collect
  split
  · exact h.keep rfl ⟨rfl, rfl⟩ (by simp [Life.emit, registered, resumed])
  · exact h

theorem joins_report (h : Joins l) : Joins l.report := by
  unfold Life.report
  split
  · exact h.keep rfl ⟨rfl, rfl⟩ (by simp [Life.emit, registered, resumed])
  · exact h

theorem joins_step (hr : Refs l) (h : Joins l) (hs : lifeSys.step l m = some l') : Joins l' := by
  cases moved hs with
  | spawn hf =>
    rw [hr.unborn hf]
    exact ⟨rfl, fun _ => rfl⟩
  | handOut _ | suspend _ | resume _ | join _ => exact h.keep rfl ⟨rfl, rfl⟩ ⟨rfl, rfl⟩
  | release hh =>
    unfold Life.release
    split
    · exact joins_report (h.keep rfl ⟨rfl, rfl⟩ ⟨rfl, rfl⟩)
    · exact h.keep rfl ⟨rfl, rfl⟩ ⟨rfl, rfl⟩
  | dropToken _ | overwrite _ | dropAwaiter _ | dropBaton _ =>
    exact joins_collect (h.keep rfl ⟨rfl, rfl⟩ ⟨rfl, rfl⟩)
  | finish ha e =>
    -- nothing is being delivered yet: the joiners become the delivery
    have hc := (hr.before (Or.inl (hr.running ha))).1
    have hd := (hr.incomplete hc).1
    have horder := h.order
    refine ⟨?_, nofun⟩
    simpa [Life.finish, registered, resumed, hd] using horder
  | observe hh hc =>
    unfold Life.observe
    split
    · exact h.keep rfl ⟨rfl, rfl⟩ (by simp [Life.emit, registered, resumed])
    · exact h
  | await ha hc c =>
    have horder := h.order
    refine ⟨?_, fun hc' => ?_⟩
    · simp [Life.await, Life.emit, registered, resumed, horder]
    · simpa [Life.await, Life.emit, resumed] using h.early hc
  | resumeJoiner hd =>
    have hc := (hr.delivering (by rw [hd, List.length_cons]; omega)).2
    have horder := h.order
    refine ⟨?_, fun hc' => ?_⟩
    · simp [Life.resumeJoiner, registered, resumed, horder, hd]
    · exact absurd (hc.symm.trans hc') (by decide)
  | @endDelivery ds hd =>
    have hmoved : Joins { l with deliveries := ds, ending := l.ending + 1 } := by
      refine ⟨?_, h.early⟩
      simpa [hd] using h.order
    unfold Life.endDelivery
    split
    · exact joins_report hmoved
    · exact hmoved

/-! ## the exception -/

structure Verdict (l : Life) : Prop where
  routed : l.log.count .routed = l.root.failureReported.toNat
  observed : Mark.observed ∈ l.log ↔ l.root.failureObserved = true
  completed : ∀ e, Mark.completed e ∈ l.log → l.root.completed = true ∧ l.root.failure = e
  logged : l.root.completed = true → ∃ e, Mark.completed e ∈ l.log
  pending : l.root.completed = false → l.root.failureObserved = false ∧ l.root.failureReported = false
  exclusive : l.root.failureObserved = true → l.root.failureReported = false
  left : l.root.publicHandleAbandoned = true ∨ l.root.failureReported = true →
    l.spawning = 0 ∧ l.handles = 0

/-- a change that leaves the exception and the handles alone -/
theorem Verdict.keep (h : Verdict l)
    (hx : l'.root.failureReported = l.root.failureReported ∧
      l'.root.failureObserved = l.root.failureObserved ∧ l'.root.failure = l.root.failure ∧
      l'.root.completed = l.root.completed ∧
      l'.root.publicHandleAbandoned = l.root.publicHandleAbandoned)
    (hlog : ∃ es, l'.log = l.log ++ es ∧ ∀ e ∈ es, e ≠ .routed ∧ e ≠ .observed ∧
      ∀ x, e ≠ .completed x)
    (hh : l.spawning = 0 ∧ l.handles = 0 → l'.spawning = 0 ∧ l'.handles = 0) : Verdict l' := by
  obtain ⟨h1, h2, h3, h4, h5⟩ := hx
  obtain ⟨es, hlog, hes⟩ := hlog
  refine ⟨?_, ?_, ?_, ?_, ?_, ?_, ?_⟩
  · rw [hlog, List.count_append, h1, h.routed,
      List.count_eq_zero_of_not_mem fun he => (hes _ he).1 rfl, Nat.add_zero]
  · rw [hlog, List.mem_append, h2, ← h.observed]
    exact ⟨fun hm => hm.resolve_right fun he => (hes _ he).2.1 rfl, Or.inl⟩
  · intro e hm
    rw [hlog, List.mem_append] at hm
    rw [h3, h4]
    exact h.completed e (hm.resolve_right fun he => (hes _ he).2.2 e rfl)
  · rw [h4, hlog]
    intro hc
    obtain ⟨e, he⟩ := h.logged hc
    exact ⟨e, List.mem_append_left _ he⟩
  · rw [h1, h2, h4]
    exact h.pending
  · rw [h1, h2]
    exact h.exclusive
  · rw [h1, h5]
    exact fun hp => hh (h.left hp)

theorem verdict_collect (h : Verdict l) : Verdict l.collect := by
  unfold Life.collect
  split
  · exact h.keep ⟨rfl, rfl, rfl, rfl, rfl⟩ ⟨[.frameDestroyed], rfl, by simp⟩ id
  · exact h

/-- the report is made when no handle is left -/
theorem verdict_report (h : Verdict l) (hc : l.root.completed = true)
    (hh : l.spawning = 0 ∧ l.handles = 0) : Verdict l.report := by
  unfold Life.report
  split
  · rename_i hn
    obtain ⟨⟨hf, ho⟩, hr⟩ : (l.root.failure.isSome = true ∧ l.root.failureObserved = false) ∧
        l.root.failureReported = false := by simpa [Root.needsReport] using hn
    refine ⟨?_, ?_, ?_, ?_, fun hc' => ?_, fun ho' => ?_, fun _ => hh⟩
    · simpa [Life.emit, hr] using h.routed
    · simpa [Life.emit] using h.observed
    · simpa [Life.emit] using h.completed
    · simpa [Life.emit] using h.logged
    · exact absurd (hc.symm.trans hc') (by decide)
    · exact absurd (ho.symm.trans ho') (by decide)
  · exact h

theorem verdict_step (hr : Refs l) (h : Verdict l) (hs : lifeSys.step l m = some l') :
    Verdict l' := by
  cases moved hs with
  | spawn hf =>
    rw [hr.unborn hf]
    exact ⟨rfl, by simp, by simp, by simp, fun _ => ⟨rfl, rfl⟩, by simp, by simp⟩
  | handOut hp =>
    refine h.keep ⟨rfl, rfl, rfl, rfl, rfl⟩ ⟨[], by simp, by simp⟩ ?_
    intro ⟨h0, _⟩
    omega
  | suspend _ | resume _ | join _ =>
    exact h.keep ⟨rfl, rfl, rfl, rfl, rfl⟩ ⟨[], by simp, by simp⟩ id
  | release hh =>
    -- the token was in the handle and nowhere else
    have hone := hr.token
    rw [hr.held (by omega), Bool.toNat_true] at hone
    have hgone : l.spawning = 0 ∧ l.handles - 1 = 0 := by omega
    have hmoved : Verdict { l with handles := l.handles - 1, releasing := l.releasing + 1 } :=
      h.keep ⟨rfl, rfl, rfl, rfl, rfl⟩ ⟨[], by simp, by simp⟩ fun _ => hgone
    unfold Life.release
    split
    · rename_i hc
      exact verdict_report hmoved hc hgone
    · exact ⟨h.routed, h.observed, h.completed, h.logged, h.pending, h.exclusive, fun _ => hgone⟩
  | dropToken _ | dropAwaiter _ | dropBaton _ =>
    exact verdict_collect (h.keep ⟨rfl, rfl, rfl, rfl, rfl⟩ ⟨[], by simp, by simp⟩ id)
  | overwrite hh =>
    refine verdict_collect (h.keep ⟨rfl, rfl, rfl, rfl, rfl⟩ ⟨[], by simp, by simp⟩ ?_)
    intro ⟨h1, h2⟩
    exact ⟨h1, by show l.handles - 1 = 0; omega⟩
  | finish ha e =>
    have hc := (hr.before (Or.inl (hr.running ha))).1
    obtain ⟨ho, hrep⟩ := h.pending hc
    refine ⟨?_, ?_, ?_, ?_, nofun, ?_, h.left⟩
    · simpa [Life.finish] using h.routed
    · simpa [Life.finish] using h.observed
    · intro x hx
      rcases List.mem_append.mp hx with hx | hx
      · exact absurd (hc.symm.trans (h.completed x hx).1) (by decide)
      · obtain rfl : x = e := by simpa using hx
        exact ⟨rfl, rfl⟩
    · exact fun _ => ⟨e, by simp [Life.finish]⟩
    · exact h.exclusive
  | observe hh hc =>
    unfold Life.observe
    split
    · have hnot : l.root.failureReported = false := by
        cases hrep : l.root.failureReported with
        | false => rfl
        | true =>
          have := (h.left (Or.inr hrep)).2
          omega
      refine ⟨?_, ?_, ?_, ?_, ?_, fun _ => hnot, h.left⟩
      · simpa [Life.emit] using h.routed
      · simp [Life.emit]
      · simpa [Life.emit] using h.completed
      · simpa [Life.emit] using h.logged
      · exact fun hc' => absurd (hc.symm.trans hc') (by decide)
    · exact h
  | await ha hc c =>
    exact h.keep ⟨rfl, rfl, rfl, rfl, rfl⟩ ⟨[.joinSuspended c], rfl, by simp⟩ id
  | @resumeJoiner c rest ds hd =>
    exact h.keep ⟨rfl, rfl, rfl, rfl, rfl⟩ ⟨[.joinResumed c], rfl, by simp⟩ id
  | @endDelivery ds hd =>
    have hc := (hr.delivering (by rw [hd, List.length_cons]; omega)).2
    have hmoved : Verdict { l with deliveries := ds, ending := l.ending + 1 } :=
      h.keep ⟨rfl, rfl, rfl, rfl, rfl⟩ ⟨[], by simp, by simp⟩ id
    unfold Life.endDelivery
    split
    · rename_i hab
      exact verdict_report hmoved hc (h.left (Or.inl hab))
    · exact hmoved

/-! ## the frame -/

def Buried (l : Life) : Prop :=
  l.log.count .frameDestroyed = if l.root.frame = .destroyed then 1 else 0

/-- a change of a frame that is not destroyed and stays so -/
theorem Buried.keep (h : Buried l) (hf : l'.root.frame = .destroyed ↔ l.root.frame = .destroyed)
    (hlog : l'.log.count .frameDestroyed = l.log.count .frameDestroyed) : Buried l' := by
  rw [Buried, hlog, h]
  exact if_congr hf.symm rfl rfl

theorem buried_collect (h : Buried l) : Buried l.collect := by
  unfold Life.collect
  split
  · rename_i hc
    have hnone : l.log.count .frameDestroyed = 0 := by simpa [Buried, hc.2] using h
    simp [Buried, Life.emit, hnone]
  · exact h

theorem buried_report (h : Buried l) : Buried l.report := by
  unfold Life.report
  split
  · exact h.keep Iff.rfl (by simp [Life.emit])
  · exact h

theorem buried_step (hr : Refs l) (h : Buried l) (hs : lifeSys.step l m = some l') :
    Buried l' := by
  cases moved hs with
  | spawn hf =>
    rw [hr.unborn hf]
    rfl
  | handOut _ | join _ => exact h.keep Iff.rfl rfl
  | suspend ha => exact h.keep (by simp [hr.running ha]) rfl
  | resume hf => exact h.keep (by simp [hf]) rfl
  | finish ha e => exact h.keep (by simp [Life.finish, hr.running ha]) (by simp [Life.finish])
  | release hh =>
    unfold Life.release
    split
    · exact buried_report (h.keep Iff.rfl rfl)
    · exact h.keep Iff.rfl rfl
  | dropToken _ | overwrite _ | dropAwaiter _ | dropBaton _ =>
    exact buried_collect (h.keep Iff.rfl rfl)
  | observe hh hc =>
    unfold Life.observe
    split
    · exact h.keep Iff.rfl (by simp [Life.emit])
    · exact h
  | await ha hc c => exact h.keep Iff.rfl (by simp [Life.await, Life.emit])
  | resumeJoiner hd => exact h.keep Iff.rfl (by simp [Life.resumeJoiner])
  | endDelivery hd =>
    unfold Life.endDelivery
    split
    · exact buried_report (h.keep Iff.rfl rfl)
    · exact h.keep Iff.rfl rfl

/-! ## what is owed -/

structure Owed (l : Life) : Prop where
  /-- a root on its way has a handle, or knows that it lost it -/
  underway : l.root.completed = false → l.root.frame ≠ .unborn →
    0 < l.spawning + l.handles ∨ l.root.publicHandleAbandoned = true
  /-- a failure without destination has a handle, or a delivery that will report it -/
  failed : l.root.completed = true → l.root.needsReport = true →
    0 < l.spawning + l.handles ∨ (l.root.publicHandleAbandoned = true ∧ l.deliveries ≠ [])

/-- a change that leaves the exception, the handles and the deliveries alone -/
theorem Owed.keep (h : Owed l)
    (hx : l'.root.needsReport = l.root.needsReport ∧ l'.root.completed = l.root.completed ∧
      l'.root.publicHandleAbandoned = l.root.publicHandleAbandoned)
    (hf : l.root.frame = .unborn → l'.root.frame = .unborn)
    (hd : l.deliveries ≠ [] → l'.deliveries ≠ [])
    (hh : l'.spawning + l'.handles = l.spawning + l.handles) : Owed l' := by
  obtain ⟨h1, h2, h3⟩ := hx
  refine ⟨fun hc hu => ?_, fun hc hn => ?_⟩
  · rw [hh, h3]
    exact h.underway (h2 ▸ hc) fun h0 => hu (hf h0)
  · rw [hh, h3]
    rcases h.failed (h2 ▸ hc) (h1 ▸ hn) with hheld | ⟨hab, hdel⟩
    · exact Or.inl hheld
    · exact Or.inr ⟨hab, hd hdel⟩

theorem owed_collect (h : Owed l) : Owed l.collect := by
  unfold Life.collect
  split
  · rename_i hc
    exact h.keep ⟨rfl, rfl, rfl⟩ (fun hu => absurd (hc.2.symm.trans hu) nofun) id rfl
  · exact h

/-- after the report nothing is owed -/
theorem owed_report (hc : l.root.completed = true) : Owed l.report := by
  unfold Life.report
  split
  · refine ⟨fun hc' => absurd (hc.symm.trans hc') (by decide), fun _ hn => ?_⟩
    simp [Life.emit, Root.needsReport] at hn
  · rename_i hn
    exact ⟨fun hc' => absurd (hc.symm.trans hc') (by decide), fun _ hn' => absurd hn' hn⟩

theorem owed_step (hr : Refs l) (h : Owed l) (hm : m ≠ .overwrite)
    (hs : lifeSys.step l m = some l') : Owed l' := by
  cases moved hs with
  | spawn hf =>
    refine ⟨fun _ _ => Or.inl ?_, nofun⟩
    show 0 < l.spawning + 1 + l.handles
    omega
  | handOut hp =>
    refine h.keep ⟨rfl, rfl, rfl⟩ id id ?_
    show l.spawning - 1 + (l.handles + 1) = _
    omega
  | suspend ha =>
    exact h.keep ⟨rfl, rfl, rfl⟩ (fun hu => absurd ((hr.running ha).symm.trans hu) nofun) id rfl
  | resume hf => exact h.keep ⟨rfl, rfl, rfl⟩ (fun hu => absurd (hf.symm.trans hu) nofun) id rfl
  | join | await => exact h.keep ⟨rfl, rfl, rfl⟩ id id rfl
  | release hh =>
    unfold Life.release
    split
    · rename_i hc
      exact owed_report hc
    · rename_i hc
      exact ⟨fun _ _ => Or.inr rfl, fun hc' => absurd hc' hc⟩
  | dropToken _ | dropAwaiter _ | dropBaton _ =>
    exact owed_collect (h.keep ⟨rfl, rfl, rfl⟩ id id rfl)
  | overwrite _ => exact absurd rfl hm
  | finish ha e =>
    have hf := hr.running ha
    have hc := (hr.before (Or.inl hf)).1
    refine ⟨nofun, fun _ _ => ?_⟩
    rcases h.underway hc (by rw [hf]; exact nofun) with hheld | hab
    · exact Or.inl hheld
    · exact Or.inr ⟨hab, List.cons_ne_nil _ _⟩
  | observe hh hc =>
    unfold Life.observe
    split
    · refine ⟨fun hc' => absurd (hc.symm.trans hc') (by decide), fun _ hn => ?_⟩
      simp [Life.emit, Root.needsReport] at hn
    · exact h
  | resumeJoiner hd => exact h.keep ⟨rfl, rfl, rfl⟩ id (fun _ => List.cons_ne_nil _ _) rfl
  | endDelivery hd =>
    have hc := (hr.delivering (by rw [hd, List.length_cons]; omega)).2
    unfold Life.endDelivery
    split
    · exact owed_report hc
    · rename_i hab
      refine ⟨fun hc' => absurd (hc.symm.trans hc') (by decide), fun _ hn => Or.inl ?_⟩
      exact (h.failed hc hn).resolve_right fun hx => hab hx.1

/-- what holds of every root in every run; `Owed` is apart, it needs a condition -/
structure LifeInv (l : Life) : Prop where
  refs : Refs l
  joins : Joins l
  verdict : Verdict l
  buried : Buried l

theorem lifeInv_step (h : LifeInv l) (hs : lifeSys.step l m = some l') : LifeInv l' :=
  ⟨refs_step h.refs hs, joins_step h.refs h.joins hs, verdict_step h.refs h.verdict hs,
    buried_step h.refs h.buried hs⟩

theorem lifeInv_init : LifeInv {} := by
  refine ⟨refs_init, ⟨rfl, fun _ => rfl⟩, ?_, rfl⟩
  exact ⟨rfl, by simp, by simp, by simp, fun _ => ⟨rfl, rfl⟩, by simp, by simp⟩

end

/-! ## the contract -/

/-- what the history of the loop says about the root `r` -/
abbrev history (w : World) (r : Nat) : List Mark := (life w r).log

/-- nothing refers to the public side of `r` any more: no handle that exists, and no `spawn` that
will return one -/
def HandleGone (w : World) (r : Nat) : Prop :=
  (∀ h, w.refers h ≠ some r) ∧ Frame.spawning r ∉ w.stack

/-- `deliver_completion` of `r` is over or has not begun -/
def NoDelivery (w : World) (r : Nat) : Prop := ∀ rest, Frame.deliver r rest ∉ w.stack

structure Outcome (w : World) (r : Nat) : Prop where
  /-- no joiner is resumed before the root completes -/
  early : (∀ e, Mark.completed e ∉ history w r) → resumed (history w r) = []
  /-- the joiners are resumed in the order of their registration, each once -/
  order : resumed (history w r) <+: registered (history w r)
  /-- after the completion all of them are -/
  all : (∃ e, Mark.completed e ∈ history w r) → NoDelivery w r →
    resumed (history w r) = registered (history w r)
  routedOnce : (history w r).count .routed ≤ 1
  notBoth : Mark.observed ∈ history w r → Mark.routed ∉ history w r
  /-- a failed root that is complete and has lost its handle has a destination for its exception -/
  destination : ∀ x, Mark.completed (some x) ∈ history w r → HandleGone w r → NoDelivery w r →
    Mark.observed ∈ history w r ∨ Mark.routed ∈ history w r
  /-- the frame of a root is destroyed once, when the last reference goes -/
  buried : (history w r).count .frameDestroyed =
    if (w.root r).frame ≠ .unborn ∧ (w.root r).refs = 0 then 1 else 0
  /-- and only at its final suspend point -/
  final : ∀ a w', step w a = some w' →
    (history w r).count .frameDestroyed < (history w' r).count .frameDestroyed →
    (w.root r).frame = .final

/-- `operator=` goes on with an empty handle, and neither that one nor its operand is destroyed; a
destructor goes on with an empty handle -/
def Undisturbed (w : World) : Act → Prop
  | .tick =>
    match w.stack with
    | .assignEnd dst src :: _ => w.handle dst = none ∧ w.ended dst = false ∧ w.ended src = false
    | .destroyEnd h :: _ => w.handle h = none
    | _ => True
  | _ => True

instance (w : World) (a : Act) : Decidable (Undisturbed w a) := by
  unfold Undisturbed
  repeat' split
  all_goals infer_instance

theorem Undisturbed.overwrites {w : World} {a : Act} (h : Undisturbed w a) :
    overwrites w a = false := by
  unfold Spawn.overwrites
  split
  · rename_i hk
    simp only [Undisturbed, hk] at h
    rw [h.1]
    rfl
  · rename_i hk
    simp only [Undisturbed, hk] at h
    rw [h]
    rfl
  · rfl

structure OutcomeInv (w : World) : Prop where
  wf : Wf w
  lives : ∀ r, LifeInv (life w r)
  owed : ∀ r, Owed (life w r)
  ended : ∀ h, w.ended h = true → w.handle h = none

section
variable {w w' : World} {a : Act} {r : Nat}

theorem step_lives (hw : Wf w) (h : LifeInv (life w r)) (hs : step w a = some w') :
    LifeInv (life w' r) :=
  (step_life hw hs r).inv (fun _ _ _ hl _ hm => lifeInv_step hl hm) h

/-- a handle that does not exist any more is empty -/
theorem HandleStep.ended (hs : HandleStep w a w') (hw : Wf w) (hc : Undisturbed w a)
    (h : ∀ n, w.ended n = true → w.handle n = none) (n : Nat) (hn : w'.ended n = true) :
    w'.handle n = none := by
  cases hs with
  | keeps hh hm he =>
    rw [hh]
    exact h n (he ▸ hn)
  | empties m hh hm he =>
    rw [hh]
    rcases eq_or_ne n m with rfl | hne
    · exact Function.update_self ..
    · rw [Function.update_of_ne hne]
      exact h n (he ▸ hn)
  | makes u v hu hh hm he =>
    rw [he] at hn
    have hne : n ≠ w.made := fun hm => by
      rw [hw.exist n hm.ge] at hn
      cases hn
    rw [hh, Function.update_of_ne hne]
    rcases hu n with hu | hu
    · exact hu
    · exact hu.trans (h n hn)
  | @assigns dst src k ha hk hh hm he =>
    subst ha
    simp only [Undisturbed, hk] at hc
    rw [he] at hn
    have hne : n ≠ dst := fun hd => by
      rw [hd, hc.2.1] at hn
      cases hn
    rw [hh]
    rcases eq_or_ne n src with rfl | hsrc
    · exact Function.update_self ..
    · rw [Function.update_of_ne hsrc, Function.update_of_ne hne]
      exact h n hn
  | @ends m k hk hh hm he =>
    rw [hh]
    rcases eq_or_ne n m with rfl | hne
    · exact Function.update_self ..
    · rw [he, Function.update_of_ne hne] at hn
      rw [Function.update_of_ne hne]
      exact h n hn

theorem step_outcomeInv (h : OutcomeInv w) (hc : Undisturbed w a) (hs : step w a = some w') :
    OutcomeInv w' := by
  refine ⟨step_wf h.wf hs, fun r => step_lives h.wf (h.lives r) hs, fun r => ?_,
    (step_handles hs).ended h.wf hc h.ended⟩
  have hboth : LifeInv (life w' r) ∧ Owed (life w' r) := by
    refine (step_life h.wf hs r).inv (P := fun l => LifeInv l ∧ Owed l) ?_ ⟨h.lives r, h.owed r⟩
    intro l m l' ⟨hl, ho⟩ hm hstep
    refine ⟨lifeInv_step hl hstep, owed_step hl.refs ho (fun hover => ?_) hstep⟩
    have := hm.overwrite hover
    rw [hc.overwrites] at this
    cases this
  exact hboth.2

theorem outcomeInv_init (c : Option Handler) : OutcomeInv (sys c).init :=
  ⟨(base_init c).wf, fun _ => lifeInv_init, fun _ => ⟨nofun, nofun⟩, nofun⟩

theorem held_zero (he : ∀ n, w.ended n = true → w.handle n = none) (h : HandleGone w r) :
    (life w r).spawning + (life w r).handles = 0 := by
  have h1 : (life w r).spawning = 0 := List.count_eq_zero_of_not_mem h.2
  have h2 : (life w r).handles = 0 := by
    refine List.countP_eq_zero.mpr fun n _ hn => h.1 n ?_
    have hn : w.handle n = some r := of_decide_eq_true hn
    unfold World.refers
    split
    · rename_i hend
      rw [he n hend] at hn
      cases hn
    · exact hn
  omega

theorem deliveries_nil {k : List Frame} (h : ∀ rest, Frame.deliver r rest ∉ k) :
    deliveries r k = [] := by
  induction k with
  | nil => rfl
  | cons f k ih =>
    have hrest := ih fun rest hm => h rest (List.mem_cons_of_mem f hm)
    cases f with
    | deliver q rest =>
      have hq : q ≠ r := fun hq => h rest (hq ▸ List.mem_cons_self ..)
      simpa [deliveries, hq] using hrest
    | _ => exact hrest

/-- all joiners of a complete root have been handed to its delivery -/
theorem LifeInv.joiners_nil {l : Life} (h : LifeInv l) (hc : l.root.completed = true) :
    l.root.joiners = [] := by
  cases hf : l.root.frame with
  | unborn => rw [h.refs.unborn hf]
  | running => simp [h.refs.before (Or.inl hf)] at hc
  | suspended => simp [h.refs.before (Or.inr hf)] at hc
  | final => exact (h.refs.after (Or.inl hf)).2
  | destroyed => exact (h.refs.after (Or.inr hf)).2

theorem LifeInv.destination {l : Life} (h : LifeInv l) (ho : Owed l) {x : Exc}
    (hx : Mark.completed (some x) ∈ l.log) (hh : l.spawning + l.handles = 0)
    (hd : l.deliveries = []) : Mark.observed ∈ l.log ∨ Mark.routed ∈ l.log := by
  obtain ⟨hc, hfail⟩ := h.verdict.completed _ hx
  have hdone : l.root.needsReport ≠ true := fun hn => by
    rcases ho.failed hc hn with hheld | ⟨-, hdel⟩
    · omega
    · exact hdel hd
  have hflags : l.root.failureObserved = true ∨ l.root.failureReported = true := by
    cases h1 : l.root.failureObserved <;> cases h2 : l.root.failureReported <;>
      simp_all [Root.needsReport]
  rcases hflags with hobs | hrep
  · exact Or.inl (h.verdict.observed.mpr hobs)
  · refine Or.inr (List.count_pos_iff.mp ?_)
    rw [h.verdict.routed, hrep]
    exact Nat.one_pos

theorem collect_frame (w : World) (q : Nat) :
    ((w.collect q).root r).frame = (w.root r).frame ∨ (w.root r).frame = .final := by
  unfold World.collect
  split
  · split
    · rename_i hf
      rcases eq_or_ne r q with rfl | hne
      · exact Or.inr hf
      · exact Or.inl (by simp [World.setRoot, World.emit, hne])
    · exact Or.inl rfl
  · exact Or.inl rfl

/-- a step that gives up a reference destroys the frame at the final suspend point only -/
theorem step_gives_frame (hs : step w a = some w') (hg : gives w a = some r) :
    (w'.root r).frame = (w.root r).frame ∨ (w.root r).frame = .final := by
  have hdrop (v : World) (hv : v.root = w.root) {x : Root} (hx : x.frame = (w.root r).frame) :
      (((v.setRoot r x).collect r).root r).frame = (w.root r).frame ∨ (w.root r).frame = .final := by
    have := collect_frame (r := r) (v.setRoot r x) r
    simpa [World.setRoot, hx] using this
  cases step_cases hs with
  | dropAwaiter hf ha =>
    cases hg
    exact hdrop w rfl rfl
  | @releaseEnd q k hk | @batonEnd q k hk =>
    obtain rfl : q = r := by simpa [gives, hk] using hg
    exact hdrop { w with stack := k } rfl rfl
  | @assignEnd dst src k hk =>
    have hh : w.handle dst = some r := by simpa [gives, hk] using hg
    rw [World.assign, discard_some (w := { w with stack := k }) hh, World.dropToken]
    apply hdrop
    · rfl
    · rfl
  | @destroyEnd n k hk =>
    have hh : w.handle n = some r := by simpa [gives, hk] using hg
    rw [World.endDestroy, discard_some (w := { w with stack := k }) hh, World.dropToken]
    apply hdrop
    · rfl
    · rfl
  | stopRound hk | deliver hk | spawning hk => simp [gives, hk] at hg
  | _ => cases hg

theorem destroyed_at_final (hw : Wf w) (h : LifeInv (life w r)) (hs : step w a = some w')
    (hlt : (history w r).count .frameDestroyed < (history w' r).count .frameDestroyed) :
    (w.root r).frame = .final := by
  have hbefore : (history w r).count .frameDestroyed =
    if (w.root r).frame = .destroyed then 1 else 0 := h.buried
  have hafter : (history w' r).count .frameDestroyed =
    if (w'.root r).frame = .destroyed then 1 else 0 := (step_lives hw h hs).buried
  have hnew : (w'.root r).frame = .destroyed ∧ (w.root r).frame ≠ .destroyed := by
    rw [hbefore, hafter] at hlt
    split at hlt <;> split at hlt <;> first | omega | exact ⟨‹_›, ‹_›⟩
  by_cases hg : gives w a = some r
  · exact (step_gives_frame hs hg).resolve_left fun he => hnew.2 (he ▸ hnew.1)
  · -- no reference is given up: the frame was destroyed before
    refine absurd ?_ hnew.2
    have hkeep := (step_life hw hs r).inv
      (P := fun l => l.root.frame = .destroyed → (w.root r).frame = .destroyed)
      (fun l m l' hl hm hstep hd => hl ((alive_step ?_ hstep).2 hd)) id
    · exact hkeep hnew.1
    · cases hd : m.drops with
      | false => rfl
      | true => exact absurd (hm.drops hd) hg

theorem outcome_of_inv (h : OutcomeInv w) (r : Nat) : Outcome w r := by
  have hl := h.lives r
  have horder := hl.joins.order
  refine ⟨fun hnone => ?_, ⟨_, horder.symm⟩, fun hdone hno => ?_, ?_, fun hobs hrep => ?_,
    fun x hx hgone hno => ?_, ?_, fun a w' hs hlt => destroyed_at_final h.wf hl hs hlt⟩
  · refine hl.joins.early ?_
    cases hc : (life w r).root.completed with
    | false => rfl
    | true =>
      obtain ⟨e, he⟩ := hl.verdict.logged hc
      exact absurd he (hnone e)
  · obtain ⟨e, he⟩ := hdone
    have hjoin := hl.joiners_nil (hl.verdict.completed e he).1
    rw [hjoin, show (life w r).deliveries = [] from deliveries_nil hno] at horder
    simpa using horder.symm
  · rw [hl.verdict.routed]
    exact Bool.toNat_le _
  · have hnot := hl.verdict.exclusive (hl.verdict.observed.mp hobs)
    have hpos := List.count_pos_iff.mpr hrep
    rw [hl.verdict.routed, hnot, Bool.toNat_false] at hpos
    omega
  · exact hl.destination (h.owed r) hx (held_zero h.ended hgone) (deliveries_nil hno)
  · rw [hl.buried]
    exact if_congr hl.refs.destroyed rfl rfl

theorem outcome_contract {c : Option Handler} {as : List Act}
    (hr : (sys c).run (sys c).init as = some w)
    (hc : (sys c).Meets Undisturbed (sys c).init as) (r : Nat) : Outcome w r :=
  outcome_of_inv (Sys.run_inv_meets (P := OutcomeInv)
    (fun _ _ _ h hc hs => step_outcomeInv h hc hs) (outcomeInv_init c) hc hr) r

end

/-- a failed root is joined; the joiner destroys the handle when it is resumed -/
def joinerDestroys : List Act :=
  [.spawn 0, .suspend false, .tick, .enter, .join 0, .await 0 5, .resume 0, .finish (some 9), .tick,
    .destroyHandle 0, .ret, .tick, .tick, .dropAwaiter 0, .ret, .tick, .tick]

theorem outcome_contract_joinerDestroys :
    ∃ w, (sys (some 1)).run (sys (some 1)).init joinerDestroys = some w ∧
      w.log = [.joinSuspended 0 5, .completed 0 (some 9), .joinResumed 0 5, .routed 0, .handled 0 1,
        .frameDestroyed 0] ∧ Outcome w 0 :=
  ⟨_, rfl, rfl,
    outcome_contract (show (sys (some 1)).run (sys (some 1)).init joinerDestroys = some _ from rfl)
      (by decide) 0⟩

/-- Handle 0 is assigned from handle 1.  The stop callback that `release()` runs spawns a root that
fails and puts its handle into handle 0. -/
def assignInside : List Act :=
  [.spawn 0, .suspend true, .tick, .spawn 1, .suspend true, .tick, .moveAssign 0 1, .tick,
    .spawn 2, .finish (some 7), .tick, .tick, .tick, .moveAssign 0 2, .tick, .ret, .tick, .tick, .tick]

/-- Handle 0 is assigned from handle 1.  The stop callback that `release()` runs destroys handle 0;
the root that `operator=` moves there fails. -/
def destroyedInside : List Act :=
  [.spawn 0, .suspend true, .tick, .spawn 1, .suspend false, .tick, .moveAssign 0 1, .tick,
    .destroyHandle 0, .tick, .ret, .tick, .tick, .tick, .resume 1, .finish (some 7), .tick, .tick]

/-- Handle 0 is destroyed.  The stop callback that `release()` runs spawns a root that fails and puts
its handle into handle 0. -/
def filledInside : List Act :=
  [.spawn 0, .suspend true, .tick, .destroyHandle 0, .tick, .spawn 1, .finish (some 7), .tick, .tick,
    .tick, .moveAssign 0 1, .tick, .ret, .tick, .tick, .tick]

/-- a failure that goes nowhere although the root has lost its handle -/
theorem not_outcome {w : World} {r : Nat} {x : Exc} (hx : Mark.completed (some x) ∈ history w r)
    (hobs : Mark.observed ∉ history w r) (hrep : Mark.routed ∉ history w r)
    (hgone : HandleGone w r) (hno : NoDelivery w r) : ¬ Outcome w r := by
  intro h
  rcases h.destination x hx hgone hno with ho | ho
  · exact hobs ho
  · exact hrep ho

/-- **the failure of a root whose handle is overwritten, or destroyed without `release()`, goes
nowhere** -/
theorem assigned_over :
    (∃ w, (sys (some 1)).run (sys (some 1)).init assignInside = some w ∧
      w.log = [.completed 2 (some 7), .frameDestroyed 2] ∧ ¬ Outcome w 2) ∧
    (∃ w, (sys (some 1)).run (sys (some 1)).init destroyedInside = some w ∧
      w.log = [.completed 1 (some 7)] ∧ ¬ Outcome w 1) ∧
    ∃ w, (sys (some 1)).run (sys (some 1)).init filledInside = some w ∧
      w.log = [.completed 1 (some 7), .frameDestroyed 1] ∧ ¬ Outcome w 1 := by
  refine ⟨⟨_, rfl, rfl, ?_⟩, ⟨_, rfl, rfl, ?_⟩, ⟨_, rfl, rfl, ?_⟩⟩
  · refine not_outcome (x := 7) (by decide) (by decide) (by decide) ⟨fun n => ?_, by decide⟩ nofun
    rcases n with _ | _ | _ | n <;> exact nofun
  · refine not_outcome (x := 7) (by decide) (by decide) (by decide) ⟨fun n => ?_, by decide⟩ nofun
    rcases n with _ | _ | n <;> exact nofun
  · refine not_outcome (x := 7) (by decide) (by decide) (by decide) ⟨fun n => ?_, by decide⟩ nofun
    rcases n with _ | _ | n <;> exact nofun

end Spawn
