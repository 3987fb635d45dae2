import Uvpp.Operation.Run

/-!
# Whoever can resume a task is on its loop

* `Joint L e t`     the object `e` and the task `t` exist and have the same loop;
* `Bound w`         every pointer to the continuation of a task is in an object of its loop, what a
                    suspended task waits for is there too, and children have the loop and the
                    cancellation state they were bound to;
* `Bound.claim`, .. what the parts of an operation do to it.
-/

namespace Operation

def Joint (L : Object → Option LoopId) (e : Object) (t : TaskId) : Prop :=
  ∃ l, L e = some l ∧ L (.task t) = some l

/-- a new object changes nothing for those that exist -/
theorem Joint.update {L : Object → Option LoopId} {e e' : Object} {t : TaskId} {l : LoopId}
    (h : Joint L e t) (hnew : L e' = none) : Joint (Function.update L e' (some l)) e t := by
  obtain ⟨m, he, ht⟩ := h
  refine ⟨m, ?_, ?_⟩
  · rw [Function.update_of_ne (by rintro rfl; rw [hnew] at he; cases he), he]
  · rw [Function.update_of_ne (by rintro rfl; rw [hnew] at ht; cases ht), ht]

structure Bound (w : World) : Prop where
  slot : ∀ o s t, (w.owner o).slot s = some t → Joint w.loop (.owner o) t
  closer : ∀ o, ∀ t ∈ (w.owner o).closers, Joint w.loop (.owner o) t
  joiner : ∀ h, ∀ t ∈ (w.root h).joiners, Joint w.loop (.root h) t
  scopeJoiner : ∀ s t, (w.scope s).joiner = some t → Joint w.loop (.scope s) t
  drainer : ∀ q, ∀ t ∈ (w.posting q).closers, Joint w.loop (.posting q) t
  parent : ∀ c t, w.parent c = some t → Joint w.loop (.task c) t ∧ w.cancel c = w.cancel t
  root : ∀ h c, (w.root h).task = some c →
    Joint w.loop (.root h) c ∧ w.cancel c = some (.root h)
  child : ∀ s, ∀ c ∈ (w.scope s).children,
    Joint w.loop (.scope s) c ∧ w.cancel c = some (.scope s)
  suspended : ∀ t r, w.status t = .suspended r →
    ∃ l, w.loop (.task t) = some l ∧ loopOf w.loop r = some l
  awaited : ∀ t c, w.status t = .suspended (.child c) → w.cancel c = w.cancel t
  running : ∀ t, w.status t = .running → w.loop (.task t) ≠ none
  cold : ∀ t, w.status t = .absent ∨ w.status t = .cold → w.loop (.task t) = none

section
variable {w : World} {o : OwnerId} {t : TaskId} {l : LoopId}

theorem bound_init : Bound {} where
  slot := nofun
  closer := nofun
  joiner := nofun
  scopeJoiner := nofun
  drainer := nofun
  parent := nofun
  root := nofun
  child := nofun
  suspended := nofun
  awaited := nofun
  running := nofun
  cold _ _ := rfl

/-! ## changes that no part of it sees -/

theorem Bound.emit (h : Bound w) (e : Event) : Bound (w.emit e) := { h with }

theorem Bound.register (h : Bound w) : Bound (w.register t) := by
  rw [World.register]
  split
  · exact h
  · exact { h with }

theorem Bound.unregister (h : Bound w) : Bound (w.unregister t) := { h with }

theorem Bound.setTransfer (h : Bound w) (x : Option Transfer) : Bound (w.setTransfer t x) :=
  { h with }

theorem Bound.setPin (h : Bound w) (x : Option OwnerId) : Bound (w.setPin t x) := { h with }

theorem Bound.setResources (h : Bound w) (r : ResourcesId) (x : Resources) :
    Bound (w.setResources r x) := { h with }

theorem Bound.setStopped (h : Bound w) (s : Cancel → Bool) : Bound { w with stopped := s } :=
  { h with }

/-! ## owners -/

theorem Bound.setOwner (h : Bound w) {x : Owner}
    (hslot : ∀ s t, x.slot s = some t → Joint w.loop (.owner o) t)
    (hcloser : ∀ t ∈ x.closers, Joint w.loop (.owner o) t) : Bound (w.setOwner o x) :=
  { h with
    slot := (Function.forall_update_iff w.owner fun o y =>
      ∀ s t, y.slot s = some t → Joint w.loop (.owner o) t).mpr ⟨hslot, fun o' _ => h.slot o'⟩
    closer := (Function.forall_update_iff w.owner fun o y =>
      ∀ t ∈ y.closers, Joint w.loop (.owner o) t).mpr ⟨hcloser, fun o' _ => h.closer o'⟩ }

/-- neither the slots nor the close waiters change -/
theorem Bound.setOwner_same (h : Bound w) {x : Owner} (hslot : x.slot = (w.owner o).slot)
    (hcloser : x.closers = (w.owner o).closers) : Bound (w.setOwner o x) :=
  h.setOwner (by rw [hslot]; exact h.slot o) (by rw [hcloser]; exact h.closer o)

theorem Bound.setPhase (h : Bound w) (x : Phase) : Bound (w.setPhase o x) :=
  h.setOwner_same rfl rfl

theorem Bound.setExported (h : Bound w) (b : Bool) : Bound (w.setExported o b) :=
  h.setOwner_same rfl rfl

theorem Bound.setPending (h : Bound w) (b : Bool) : Bound (w.setPending o b) :=
  h.setOwner_same rfl rfl

theorem Bound.claim (h : Bound w) {s : Slot} (hj : Joint w.loop (.owner o) t) :
    Bound (w.claim o s t) :=
  h.setOwner ((Function.forall_update_iff (w.owner o).slot fun _ y =>
    ∀ t, y = some t → Joint w.loop (.owner o) t).mpr
      ⟨fun _ ht => Option.some.inj ht ▸ hj, fun s' _ => h.slot o s'⟩) (h.closer o)

theorem Bound.release (h : Bound w) {s : Slot} : Bound (w.release o s) :=
  h.setOwner ((Function.forall_update_iff (w.owner o).slot fun _ y =>
    ∀ t, y = some t → Joint w.loop (.owner o) t).mpr
      ⟨nofun, fun s' _ => h.slot o s'⟩) (h.closer o)

theorem Bound.addCloser (h : Bound w) (hj : Joint w.loop (.owner o) t) :
    Bound (w.addCloser o t) := by
  refine h.setOwner (h.slot o) fun t' ht => ?_
  rcases List.mem_append.mp ht with ht | ht
  · exact h.closer o t' ht
  · exact List.mem_singleton.mp ht ▸ hj

/-! ## postings, roots and scopes -/

theorem Bound.setPosting (h : Bound w) {q : PostingId} {x : Posting}
    (hx : ∀ t ∈ x.closers, Joint w.loop (.posting q) t) : Bound (w.setPosting q x) :=
  { h with
    drainer := (Function.forall_update_iff w.posting fun q y =>
      ∀ t ∈ y.closers, Joint w.loop (.posting q) t).mpr ⟨hx, fun q' _ => h.drainer q'⟩ }

theorem Bound.setRoot (h : Bound w) {k : RootId} {x : Root} (htask : x.task = (w.root k).task)
    (hx : ∀ t ∈ x.joiners, Joint w.loop (.root k) t) : Bound (w.setRoot k x) :=
  { h with
    joiner := (Function.forall_update_iff w.root fun k y =>
      ∀ t ∈ y.joiners, Joint w.loop (.root k) t).mpr ⟨hx, fun k' _ => h.joiner k'⟩
    root := (Function.forall_update_iff w.root fun k y =>
      ∀ c, y.task = some c → Joint w.loop (.root k) c ∧ w.cancel c = some (.root k)).mpr
        ⟨by rw [htask]; exact h.root k, fun k' _ => h.root k'⟩ }

theorem Bound.setScope (h : Bound w) {s : ScopeId} {x : Scope}
    (hchildren : ∀ c ∈ x.children, c ∈ (w.scope s).children)
    (hx : ∀ t, x.joiner = some t → Joint w.loop (.scope s) t) : Bound (w.setScope s x) :=
  { h with
    scopeJoiner := (Function.forall_update_iff w.scope fun s y =>
      ∀ t, y.joiner = some t → Joint w.loop (.scope s) t).mpr ⟨hx, fun s' _ => h.scopeJoiner s'⟩
    child := (Function.forall_update_iff w.scope fun s y =>
      ∀ c ∈ y.children, Joint w.loop (.scope s) c ∧ w.cancel c = some (.scope s)).mpr
        ⟨fun c hc => h.child s c (hchildren c hc), fun s' _ => h.child s'⟩ }

/-! ## tasks -/

/-- tasks may go on or end -/
theorem Bound.setStatus (h : Bound w) {f : TaskId → Status}
    (hs : ∀ t r, f t = .suspended r → w.status t = .suspended r)
    (hr : ∀ t, f t = .running → w.loop (.task t) ≠ none)
    (hc : ∀ t, f t = .absent ∨ f t = .cold → w.loop (.task t) = none) :
    Bound { w with status := f } :=
  { h with
    suspended := fun t r ht => h.suspended t r (hs t r ht)
    awaited := fun t c ht => h.awaited t c (hs t _ ht)
    running := hr
    cold := hc }

theorem Bound.resumeAll (h : Bound w) {ts : List TaskId}
    (hts : ∀ t ∈ ts, w.loop (.task t) ≠ none) : Bound (w.resumeAll ts) := by
  have hs : Bound { w with status := fun t => if t ∈ ts then .running else w.status t } := by
    refine h.setStatus (fun t r ht => ?_) (fun t ht => ?_) (fun t ht => ?_)
    · split at ht
      · cases ht
      · exact ht
    · split at ht
      · exact hts t ‹_›
      · exact h.running t ht
    · split at ht
      · rcases ht with ht | ht <;> cases ht
      · exact h.cold t ht
  exact { hs with }

theorem Joint.ne_none {L : Object → Option LoopId} {e : Object} (h : Joint L e t) :
    L (.task t) ≠ none := by
  obtain ⟨l, -, ht⟩ := h
  rw [ht]
  exact nofun

theorem Bound.resume (h : Bound w) (ht : w.loop (.task t) ≠ none) : Bound (w.resume t) :=
  h.resumeAll fun _ hq => List.mem_singleton.mp hq ▸ ht

/-- a task that does not wait for anything -/
theorem Bound.setStatusOf (h : Bound w) {x : Status} (hx : ∀ r, x ≠ .suspended r)
    (hrun : x ≠ .running) (hcold : x = .absent ∨ x = .cold → w.loop (.task t) = none) :
    Bound { w with status := Function.update w.status t x } := by
  refine h.setStatus ?_ ?_ ?_
  · exact (Function.forall_update_iff w.status fun t x =>
      ∀ r, x = .suspended r → w.status t = .suspended r).mpr
        ⟨fun r hr => absurd hr (hx r), fun _ _ _ hs => hs⟩
  · exact (Function.forall_update_iff w.status fun t x =>
      x = .running → w.loop (.task t) ≠ none).mpr
        ⟨fun hr => absurd hr hrun, fun q _ => h.running q⟩
  · exact (Function.forall_update_iff w.status fun t x =>
      x = .absent ∨ x = .cold → w.loop (.task t) = none).mpr ⟨hcold, fun q _ => h.cold q⟩

theorem Bound.suspend (h : Bound w) {r : Resumer}
    (hr : ∃ l, w.loop (.task t) = some l ∧ loopOf w.loop r = some l)
    (hc : ∀ c, r = .child c → w.cancel c = w.cancel t) : Bound (w.suspend t r) :=
  { h with
    suspended := (Function.forall_update_iff w.status fun t x =>
      ∀ r, x = .suspended r → ∃ l, w.loop (.task t) = some l ∧ loopOf w.loop r = some l).mpr
        ⟨fun _ he => Status.suspended.inj he ▸ hr, fun t' _ => h.suspended t'⟩
    awaited := (Function.forall_update_iff w.status fun t x =>
      ∀ c, x = .suspended (.child c) → w.cancel c = w.cancel t).mpr
        ⟨fun c he => hc c (Status.suspended.inj he), fun t' _ => h.awaited t'⟩
    running := (Function.forall_update_iff w.status fun t x =>
      x = .running → w.loop (.task t) ≠ none).mpr ⟨nofun, fun q _ => h.running q⟩
    cold := (Function.forall_update_iff w.status fun t x =>
      x = .absent ∨ x = .cold → w.loop (.task t) = none).mpr ⟨nofun, fun q _ => h.cold q⟩ }

theorem Bound.closeUntransferred (h : Bound w) (hj : Joint w.loop (.owner o) t) :
    Bound (w.closeUntransferred o t) := by
  obtain ⟨l, ho, ht⟩ := hj
  rw [World.closeUntransferred, ho]
  exact h.unregister.suspend ⟨l, ht, rfl⟩ nofun

theorem Bound.requestClose (h : Bound w) : Bound (w.requestClose o) := by
  rw [World.requestClose]
  dsimp only
  split
  · exact h
  · have hclosing : Bound (w.setPhase o .closing) := h.setPhase .closing
    split
    · exact hclosing
    · rename_i t ht
      split
      · exact hclosing.release.closeUntransferred (h.slot o .waiter t ht)
      · split
        · exact hclosing.release.resume (h.slot o .waiter t ht).ne_none
        · exact hclosing

/-! ## new objects and new tasks -/

/-- one object more; nothing points to it yet -/
theorem Bound.bindObject (h : Bound w) {e : Object} (hnew : w.loop e = none)
    (htask : ∀ t, e = .task t → w.status t ≠ .absent ∧ w.status t ≠ .cold) :
    Bound { w with loop := Function.update w.loop e (some l) } where
  slot o s t ht := (h.slot o s t ht).update hnew
  closer o t ht := (h.closer o t ht).update hnew
  joiner k t ht := (h.joiner k t ht).update hnew
  scopeJoiner s t ht := (h.scopeJoiner s t ht).update hnew
  drainer q t ht := (h.drainer q t ht).update hnew
  parent c t ht := ⟨(h.parent c t ht).1.update hnew, (h.parent c t ht).2⟩
  root k c hc := ⟨(h.root k c hc).1.update hnew, (h.root k c hc).2⟩
  child s c hc := ⟨(h.child s c hc).1.update hnew, (h.child s c hc).2⟩
  suspended := by
    intro t r ht
    obtain ⟨m, hm, hr⟩ := h.suspended t r ht
    have hupd : ∀ e', w.loop e' = some m → Function.update w.loop e (some l) e' = some m := by
      intro e' he'
      rw [Function.update_of_ne (by rintro rfl; rw [hnew] at he'; cases he'), he']
    refine ⟨m, hupd _ hm, ?_⟩
    cases r with
    | request _ => exact hr
    | _ => exact hupd _ hr
  awaited := h.awaited
  running := by
    intro t ht
    dsimp only
    by_cases he : Object.task t = e
    · rw [he, Function.update_self]
      exact nofun
    · rw [Function.update_of_ne he]
      exact h.running t ht
  cold := by
    intro t ht
    dsimp only
    rw [Function.update_of_ne]
    · exact h.cold t ht
    · rintro rfl
      obtain ⟨h1, h2⟩ := htask t rfl
      rcases ht with ht | ht
      · exact h1 ht
      · exact h2 ht

/-- no pointer to a task without a loop -/
theorem Joint.ne {L : Object → Option LoopId} {e : Object} {c : TaskId} (h : Joint L e c)
    (hnew : L (.task t) = none) : c ≠ t ∧ e ≠ .task t := by
  obtain ⟨l, he, hc⟩ := h
  refine ⟨?_, ?_⟩
  · rintro rfl
    rw [hnew] at hc
    cases hc
  · rintro rfl
    rw [hnew] at he
    cases he

/-- the cancellation state of a task that nothing points to -/
theorem Bound.setCancel (h : Bound w) {x : Option Cancel} (hnew : w.loop (.task t) = none) :
    Bound { w with cancel := Function.update w.cancel t x } :=
  { h with
    parent := by
      intro c q hc
      obtain ⟨hj, heq⟩ := h.parent c q hc
      obtain ⟨hq, hc'⟩ := hj.ne hnew
      dsimp only
      rw [Function.update_of_ne (fun he => hc' (congrArg _ he)), Function.update_of_ne hq]
      exact ⟨hj, heq⟩
    root := by
      intro k c hc
      obtain ⟨hj, heq⟩ := h.root k c hc
      dsimp only
      rw [Function.update_of_ne (hj.ne hnew).1]
      exact ⟨hj, heq⟩
    child := by
      intro s c hc
      obtain ⟨hj, heq⟩ := h.child s c hc
      dsimp only
      rw [Function.update_of_ne (hj.ne hnew).1]
      exact ⟨hj, heq⟩
    awaited := by
      intro q c hq
      obtain ⟨l, hl, hc⟩ := h.suspended q _ hq
      have hj : Joint w.loop (.task c) q := ⟨l, hc, hl⟩
      obtain ⟨hq', hc'⟩ := hj.ne hnew
      dsimp only
      rw [Function.update_of_ne (fun he => hc' (congrArg _ he)), Function.update_of_ne hq']
      exact h.awaited q c hq }

/-- The task ends its cold life first, so that it may get a loop, and runs once it has one. -/
theorem Bound.bind (h : Bound w) {x : Option Cancel} (hcold : w.status t = .cold) :
    Bound (w.bind t l x) := by
  have hnew := h.cold t (.inr hcold)
  have hdone : Bound { w with status := Function.update w.status t .done } :=
    h.setStatusOf nofun nofun nofun
  have hloop : Bound { w with
      status := Function.update w.status t .done
      cancel := Function.update w.cancel t x
      loop := Function.update w.loop (.task t) (some l) } := by
    refine (hdone.setCancel hnew).bindObject hnew fun q hq => ?_
    cases hq
    dsimp only
    rw [Function.update_self]
    exact ⟨nofun, nofun⟩
  have hother : ∀ q, q ≠ t → Function.update w.loop (.task t) (some l) (.task q) = w.loop (.task q) :=
    fun q hq => Function.update_of_ne (fun he => hq (Object.task.inj he)) ..
  refine hloop.setStatus (f := Function.update w.status t .running) ?_ ?_ ?_
  · exact (Function.forall_update_iff w.status fun q y =>
      ∀ r, y = .suspended r → Function.update w.status t .done q = .suspended r).mpr
        ⟨nofun, fun q hq r hr => by rw [Function.update_of_ne hq, hr]⟩
  · exact (Function.forall_update_iff w.status fun q y =>
      y = .running → Function.update w.loop (.task t) (some l) (.task q) ≠ none).mpr
        ⟨fun _ => by rw [Function.update_self]; exact nofun,
          fun q hq hr => by rw [hother q hq]; exact h.running q hr⟩
  · exact (Function.forall_update_iff w.status fun q y =>
      y = .absent ∨ y = .cold → Function.update w.loop (.task t) (some l) (.task q) = none).mpr
        ⟨nofun, fun q hq hc => by rw [hother q hq]; exact h.cold q hc⟩

end

end Operation
