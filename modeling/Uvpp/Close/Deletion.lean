import Uvpp.Machine.Run
import Uvpp.Close.Settle
import Uvpp.Close.Exit

/-!
# The deletion of a process

Over the runs of `uv::process`, what `Exits` leaves open: the life of the record.

* `step_inv`              the invariant is kept by every step but one: the destruction of the
                          owner by a coroutine that `complete` has just resumed;
* `deletion_contract_iff` the runs that keep the deletion contract are those without such a step;
* `destroyed_inside_complete`   a run with such a step.
-/

namespace Close.Process

/-- what also holds between the parts of one function -/
structure Core (w : World) : Prop where
  life : LifeInv w.life
  closeReleased : w.life.close.ownerReleased = w.ownerReleased

/-- what the steps keep together with `Exits` -/
structure Rest (w : World) : Prop extends Core w where
  waiter : w.waiter.isSome → w.child = .running
  late : w.child = .exited → w.owner = .gone → w.life.close.phase ≠ .opened

structure Inv (w : World) : Prop extends Exits w, Rest w

section
variable {w : World}

/-- a step of the life that keeps the phase -/
theorem Rest.setLife (h : Rest w) {l : Life ProcessEvent} (hl : LifeInv l)
    (hp : l.close.phase = w.life.close.phase)
    (hr : l.close.ownerReleased = w.life.close.ownerReleased) : Rest { w with life := l } where
  life := hl
  closeReleased := hr.trans h.closeReleased
  waiter := h.waiter
  late := fun hc ho => by rw [show l.close.phase = _ from hp]; exact h.late hc ho

/-- with the close claimed, `late` is void -/
theorem Core.rest (h : Core w) (hw : w.waiter = none) (hp : w.life.close.phase ≠ .opened) :
    Rest w where
  toCore := h
  waiter := fun hs => by rw [hw] at hs; cases hs
  late := fun _ _ => hp

theorem Rest.no_waiter (h : Rest w) (hc : w.child ≠ .running) : w.waiter = none := by
  cases hw : w.waiter with
  | none => rfl
  | some c => exact absurd (h.waiter (by rw [hw]; rfl)) hc

/-- `request_close` after the exit: the close is claimed, and nothing but the life changed -/
theorem Core.requestClose (h : Core w) (he : Exits w) (hx : w.exited = true) :
    Core w.requestClose.1 ∧ w.requestClose.1.life.close.phase ≠ .opened ∧
      w.requestClose.1 = { w with life := w.requestClose.1.life } := by
  rw [requestClose_exited hx]
  by_cases hp : w.life.close.phase = .opened
  · rw [if_pos hp]
    have hclose : w.life.beginSubmit.close = { w.life.close with phase := .closing } := by
      rw [Life.beginSubmit, begin_opened hp]
      rfl
    have hfresh : Fresh w.life := fun hp =>
      ⟨he.fresh (by simp [he.exited.mp hx]) hp, he.noInline⟩
    refine ⟨⟨beginSubmit_inv h.life hp hfresh, ?_⟩, ?_, rfl⟩
    · rw [hclose]
      exact h.closeReleased
    · simp [hclose]
  · rw [if_neg hp]
    exact ⟨h, hp, rfl⟩

theorem Core.deliver (h : Core w) (r : WaitResult) :
    Core (w.deliver r) ∧ (w.deliver r).waiter = none ∧ (w.deliver r).child = w.child ∧
      (w.deliver r).owner = w.owner ∧ (w.deliver r).life.close = w.life.close := by
  unfold World.deliver
  cases hw : w.waiter with
  | none => exact ⟨h, hw, rfl, rfl, rfl⟩
  | some c => exact ⟨⟨enter_inv (own_inv h.life _), h.closeReleased⟩, rfl, rfl, rfl, rfl⟩

theorem Inv.held_released (h : Inv w) (ho : w.held = true) :
    w.life.close.ownerReleased = false := by
  obtain ⟨id, ho⟩ := held_iff.mp ho
  rw [h.closeReleased, ← Bool.not_eq_true, h.released, ho]
  simp

/-! ## the actions -/

theorem onExit_rest (h : Inv w) (hc : w.child = .running) (x : ProcessExit) :
    Rest (w.onExit x) := by
  have hret := h.retainExit hc x
  have hcore : Core (w.retainExit x) := ⟨own_inv h.life _, h.closeReleased⟩
  have hx : (w.retainExit x).exited = true := rfl
  unfold World.onExit
  dsimp only
  generalize w.retainExit x = v at *
  have hclosed : ∀ u, u = (if v.ownerReleased = true then v.requestClose.1 else v) →
      Core u ∧ (u.owner = .gone → u.life.close.phase ≠ .opened) := by
    intro u hu
    split at hu
    · subst hu
      obtain ⟨hcore', hphase, -⟩ := hcore.requestClose hret hx
      exact ⟨hcore', fun _ => hphase⟩
    · rename_i ho
      subst hu
      exact ⟨hcore, fun hg => absurd (hret.released.mpr hg) ho⟩
  obtain ⟨hu, hphase⟩ := hclosed _ rfl
  generalize (if v.ownerReleased = true then v.requestClose.1 else v) = u at *
  obtain ⟨hd, hw, -, howner, hclose⟩ := hu.deliver (.exit u.exit)
  refine ⟨hd, fun hs => ?_, fun _ hg => ?_⟩
  · rw [hw] at hs
    cases hs
  · rw [hclose]
    exact hphase (howner ▸ hg)

theorem awaitWait_rest (h : Inv w) (ho : w.held = true) (c : Coro) (stopped : Bool) :
    Rest (w.awaitWait c stopped) := by
  have hemit : ∀ e, Rest { w with life := w.life.emit (.own e) } := fun e =>
    h.toRest.setLife (own_inv h.life e) rfl rfl
  unfold World.awaitWait
  dsimp only
  split
  · exact hemit _
  split
  · exact hemit _
  split
  · exact hemit _
  split
  · exact hemit _
  rename_i hne _
  have hrun : w.child = .running := (h.held_child ho).resolve_right fun he => hne (h.exited.mpr he)
  have he := hemit (.waitSuspended c)
  exact ⟨⟨he.life, he.closeReleased⟩, fun _ => hrun, he.late⟩

theorem requestClose_rest (h : Core w) (he : Exits w) (hx : w.exited = true)
    (hw : w.waiter = none) : Rest w.requestClose.1 := by
  obtain ⟨hcore, hphase, heq⟩ := h.requestClose he hx
  have hwaiter : w.requestClose.1.waiter = w.waiter := by rw [heq]
  exact hcore.rest (hwaiter.trans hw) hphase

theorem Inv.exited_waiter (h : Inv w) (hx : w.exited = true) : w.waiter = none :=
  h.toRest.no_waiter (by simp [h.exited.mp hx])

theorem awaitClose_rest (h : Inv w) {c : Coro} (hc : c ∉ w.suspended) : Rest (w.awaitClose c) := by
  unfold World.awaitClose
  split
  · exact h.toRest
  rename_i hp
  split
  · exact h.toRest
  rename_i hx
  have hexited : w.exited = true := by simpa [World.hasActiveOperation] using hx
  have hadd := Life.suspend_eq hp c
  refine requestClose_rest ⟨suspend_inv h.life hp fun hm => hc (List.mem_append_right _ hm), ?_⟩
    (h.aside (by rw [hadd]) h.noInline rfl rfl trivial) hexited (h.exited_waiter hexited)
  rw [hadd]
  exact h.closeReleased

theorem ownerRequestClose_rest (h : Inv w) : Rest w.ownerRequestClose := by
  unfold World.ownerRequestClose
  split
  · exact h.toRest
  · rename_i hx
    have hexited : w.exited = true := by simpa using hx
    exact requestClose_rest h.toCore h.toExits hexited (h.exited_waiter hexited)

/-- `release_owner` while no `complete` runs -/
theorem releaseOwner_rest (h : Inv w) (ho : w.held = true) (hk : completes w.life.stack = 0) :
    Rest { w with owner := .gone }.releaseOwner := by
  have hact : w.life.close.completionActive = false := by
    have ha := h.life.active
    cases hc : w.life.close.completionActive with
    | false => rfl
    | true => simp [hc, hk] at ha
  have hcore (hp : w.life.close.phase ≠ .closed) :
      Core { w with owner := .gone, ownerReleased := true, life := w.life.releaseOwner } :=
    ⟨releaseOwner_inv h.life fun hc => absurd hc hp, rfl⟩
  unfold World.releaseOwner
  dsimp only
  by_cases hx : w.exited = true
  · have hchild := h.exited.mp hx
    have hw := h.exited_waiter hx
    rw [if_neg (by simp [hx])]
    by_cases hp : w.life.close.phase = .opened
    · rw [if_pos (show w.life.releaseOwner.close.phase = .opened from hp)]
      exact requestClose_rest (hcore (by simp [hp]))
        (h.release (by simp [hchild])) hx hw
    · rw [if_neg (show ¬ w.life.releaseOwner.close.phase = .opened from hp)]
      by_cases hcl : w.life.close.phase = .closed
      · rw [if_pos (show w.life.releaseOwner.close.phase = .closed from hcl)]
        exact Core.rest ⟨releaseDelete_inv h.life hcl hact (h.held_released ho), rfl⟩ hw hp
      · rw [if_neg (show ¬ w.life.releaseOwner.close.phase = .closed from hcl)]
        exact (hcore hcl).rest hw hp
  · rw [if_pos (by simpa using hx)]
    have hrun := (h.held_child ho).resolve_right fun he => hx (h.exited.mpr he)
    refine ⟨hcore (by simp [h.early (.inr hrun)]), h.waiter, fun hc => ?_⟩
    cases hrun.symm.trans hc

theorem spawnFailed_rest (h : Inv w) (ho : w.owner = .constructor) :
    Rest { w with owner := .gone, child := .failed }.spawnFailed := by
  have hchild := h.unborn.mp ho
  have hop := h.early (.inl hchild)
  have hne : w.life.close.phase ≠ .closed := by simp [hop]
  have hx : w.exited = false := by
    rw [← Bool.not_eq_true, h.exited, hchild]
    simp
  have hsub := h.fresh (by simp [hchild]) hop
  unfold World.spawnFailed World.releaseOwner
  dsimp only
  rw [if_pos (by simp [hx])]
  refine ⟨⟨submit_inv (releaseOwner_inv h.life fun hc => absurd hc hne) hne hsub h.noInline, rfl⟩,
    fun hs => ?_, (fun h => by cases h)⟩
  rw [h.toRest.no_waiter (by simp [hchild])] at hs
  cases hs

/-- what the owner must not do: leave while `complete` is on the stack -/
def OwnerStays (w : World) (a : Act) : Prop := a = .destroy → completes w.life.stack = 0

instance (w : World) (a : Act) : Decidable (OwnerStays w a) :=
  inferInstanceAs (Decidable (a = .destroy → completes w.life.stack = 0))

/-- every action but the destruction of the owner inside `complete` keeps the invariant -/
theorem step_inv {w' : World} {a : Act} (h : Inv w) (hc : OwnerStays w a)
    (hs : step w a = some w') : Inv w' := by
  refine ⟨step_exits h.toExits hs, ?_⟩
  cases a with
  | spawned id =>
    obtain ⟨-, rfl⟩ := by simpa [step] using hs
    exact ⟨⟨h.life, h.closeReleased⟩, fun _ => rfl, fun h => by cases h⟩
  | spawnFailed =>
    obtain ⟨⟨-, ho⟩, rfl⟩ := by simpa [step] using hs
    exact spawnFailed_rest h ho
  | wait c stopped =>
    obtain ⟨⟨-, ho, -⟩, rfl⟩ := by simpa [step] using hs
    exact awaitWait_rest h ho c stopped
  | stopWait =>
    obtain ⟨-, rfl⟩ := by simpa [step] using hs
    obtain ⟨hd, hw, hch, how, hcl⟩ := h.toCore.deliver .canceled
    refine ⟨hd, fun hsome => ?_, fun hx hg => ?_⟩
    · rw [hw] at hsome
      cases hsome
    · rw [hcl]
      exact h.late (hch ▸ hx) (how ▸ hg)
  | exit x =>
    obtain ⟨⟨-, hr⟩, rfl⟩ := by simpa [step] using hs
    exact onExit_rest h hr x
  | close c =>
    obtain ⟨⟨-, -, hm⟩, rfl⟩ := by simpa [step] using hs
    exact awaitClose_rest h hm
  | requestClose =>
    obtain ⟨-, rfl⟩ := by simpa [step] using hs
    exact ownerRequestClose_rest h
  | move id =>
    obtain ⟨-, rfl⟩ := by simpa [step] using hs
    exact ⟨⟨h.life, h.closeReleased⟩, h.waiter, fun _ h => by cases h⟩
  | destroy =>
    obtain ⟨⟨-, ho⟩, rfl⟩ := by simpa [step] using hs
    exact releaseOwner_rest h ho (hc rfl)
  | closeCallback =>
    obtain ⟨⟨hk, hf⟩, rfl⟩ := by simpa [step] using hs
    exact ⟨⟨onClose_inv h.life hk hf, h.closeReleased⟩, h.waiter, fun _ _ h => by cases h⟩
  | tick =>
    obtain ⟨l, hl, rfl⟩ := Option.map_eq_some_iff.mp hs
    obtain ⟨hphase, hrel⟩ := tick_close hl
    exact h.toRest.setLife (tick_inv h.life hl) hphase hrel
  | ret =>
    obtain ⟨l, hl, rfl⟩ := Option.map_eq_some_iff.mp hs
    have hinv := ret_inv h.life hl
    unfold Life.ret at hl
    split at hl
    · cases hl
      exact h.toRest.setLife hinv rfl rfl
    · cases hl

theorem inv_init : Inv {} where
  toExits := exits_init
  life := lifeInv_init
  closeReleased := rfl
  waiter := fun h => by cases h
  late := fun h => by cases h

/-! ## the deletion contract -/

end

/-- what is to hold in every state of a run -/
structure DeletionContract (w : World) : Prop where
  /-- deleted once, as soon as the owner is gone and the close callback is over -/
  deletedIff : w.life.log.count .deleted = if w.owner = .gone ∧ w.life.closeFinished then 1 else 0
  afterCallback : .deleted ∈ w.life.log → .callbackBegan ∈ w.life.log
  /-- no activation of `complete` is on the stack of a deleted record -/
  notDuring : w.life.live = false → completes w.life.stack = 0
  noFault : w.life.fault = false
  /-- without an owner and without a running child, the deletion comes as soon as foreign code
  returns and libuv calls back -/
  finishes : w.owner = .gone → w.child ≠ .running →
    ∃ as v, (∀ a ∈ as, a ∈ [Act.ret, Act.tick, Act.closeCallback]) ∧ sys.run w as = some v ∧
      v.life.log.count .deleted = 1

section
variable {w : World}

theorem Inv.claimed (h : Inv w) (ho : w.owner = .gone) (hc : w.child ≠ .running) :
    w.life.Claimed := by
  cases hchild : w.child with
  | unborn =>
    have hu := h.unborn.mpr hchild
    rw [ho] at hu
    cases hu
  | running => exact absurd hchild hc
  | exited => exact h.life.claimed (h.late hchild ho)
  | failed =>
    show w.life.log.count .submitted + w.life.stack.count .closing = 1
    rw [(h.failed hchild).2, h.noInline]

theorem deletionContract_of_inv (h : Inv w) : DeletionContract w where
  deletedIff := by
    rw [deleted_count h.life]
    simp only [h.closeReleased, h.released]
  afterCallback := by
    intro hd
    have hcount := List.count_pos_iff.mpr hd
    rw [deleted_count h.life] at hcount
    split at hcount
    · rename_i hf
      obtain ⟨hmem, -⟩ := Bool.and_eq_true_iff.mp hf.2
      exact of_decide_eq_true hmem
    · omega
  notDuring := by
    intro hl
    have hdead : w.life.close.canDestroyNow = true := by
      have hlive := h.life.live
      rw [hl] at hlive
      simpa using hlive
    rw [h.life.active, (canDestroyNow_iff.mp hdead).2.2]
    rfl
  noFault := h.life.fault
  finishes := by
    intro ho hc
    obtain ⟨l, hsteps, hl, -, hfin, hrel, -, -⟩ := settles h.life (h.claimed ho hc)
    obtain ⟨as, has, hrun⟩ := Sys.run_lift (S := sys) (f := fun l => { w with life := l })
      (fun _ _ hn => next_lift (W := World) (f := fun l => { w with life := l }) step
        .ret .tick .closeCallback (fun _ hk hf => if_pos ⟨hk, hf⟩) (fun _ => rfl) (fun _ => rfl) hn)
      hsteps
    refine ⟨as, _, has, hrun, ?_⟩
    show l.log.count .deleted = 1
    rw [deleted_count hl, hrel, h.closeReleased, if_pos ⟨h.released.mpr ho, hfin⟩]

/-- the owner leaves while `complete` runs: the record is deleted under it -/
theorem destroy_inside (h : Inv w) {w' : World} (hk : completes w.life.stack ≠ 0)
    (hs : step w .destroy = some w') : w'.life.live = false ∧ w'.life.stack = w.life.stack := by
  obtain ⟨⟨-, ho⟩, rfl⟩ := by simpa [step] using hs
  have hcl : w.life.close.phase = .closed := by
    by_contra hne
    exact hk (h.life.notActive hne).2.1
  have hx : w.exited = true := by
    rcases h.held_child ho with hr | he
    · have hop := h.early (Or.inr hr)
      rw [hcl] at hop
      cases hop
    · exact h.exited.mpr he
  unfold World.releaseOwner
  dsimp only
  rw [if_neg (by simp [hx]), if_neg, if_pos]
  · exact ⟨rfl, rfl⟩
  · exact hcl
  · rw [show w.life.releaseOwner.close.phase = _ from hcl]
    simp

/-- **The runs that keep the deletion contract** are those in which no owner is destroyed while
`complete` is on the stack. -/
theorem deletion_contract_iff {as : List Act} (h : sys.run sys.init as = some w) :
    sys.Always DeletionContract sys.init as ↔ sys.Meets OwnerStays sys.init as := by
  refine Sys.always_iff_meets (I := Inv) (fun _ => deletionContract_of_inv) ?_ inv_init h
  intro w a w' hi hs
  refine ⟨fun hc => step_inv hi hc hs, fun hP ha => ?_⟩
  subst ha
  by_contra hk
  obtain ⟨hdead, hstack⟩ := destroy_inside hi hk hs
  have hnone := hP.notDuring hdead
  rw [hstack] at hnone
  exact hk hnone

end

/-- the child exits, two coroutines await `close()`, and after both have run the owner goes -/
def closedThenDestroyed : List Act :=
  [.spawned 0, .wait 5 false, .exit {}, .ret, .close 1, .close 2, .closeCallback, .tick, .ret,
   .tick, .ret, .tick, .destroy]

theorem deletion_contract_iff_closedThenDestroyed :
    sys.Always DeletionContract sys.init closedThenDestroyed :=
  (deletion_contract_iff (show sys.run sys.init closedThenDestroyed = some _ from rfl)).mpr
    (by decide)

/-- the first of the two coroutines destroys the owner as soon as it is resumed -/
def destroyedByWaiter : List Act :=
  [.spawned 0, .exit {}, .close 1, .close 2, .closeCallback, .tick, .destroy]

/-- The record is deleted while `complete` runs; when the remaining waiter has run too, the loop
ends with a write to the deleted record. -/
theorem destroyed_inside_complete : ∃ w v, sys.run sys.init destroyedByWaiter = some w ∧
    w.life.live = false ∧ completes w.life.stack = 1 ∧ ¬ DeletionContract w ∧
    sys.run w [.ret, .tick, .ret, .tick] = some v ∧ v.life.fault = true :=
  ⟨_, _, rfl, rfl, rfl, fun h => absurd (h.notDuring rfl) (by decide), rfl, rfl⟩

end Close.Process
