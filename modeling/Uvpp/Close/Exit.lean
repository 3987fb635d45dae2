import Uvpp.Close.Process
import Uvpp.Core.Errno

/-!
# The exit of a process

When the close of a `process_state` is submitted and what its waiters are told, over every run of
`uv::process`, those included in which the owner is destroyed inside `complete`.  The calls that
leave the record as it is join the machine here: `kill`, a wait from another loop, and a wait whose
stop callback is not registered.

* `reports`            the exits that libuv reported;
* `Explained`          a close, and the exit that a wait returns, come after the report;
* `Exits`, `call_inv`  the invariant;
* `exit_retained`      the contract.
-/

namespace Close.Process
open Errno

inductive Call where
  | act (a : Act)
  /-- what `uv_process_kill` answers, if it is called -/
  | kill (e : Int)
  /-- `co_await wait()` by a task of another loop -/
  | waitElsewhere (c : Coro)
  /-- `co_await wait()`, where `register_callback` answers `false` -/
  | waitUnregistered (c : Coro)
deriving DecidableEq

namespace World

/-- the record, and what is returned or thrown -/
def kill (w : World) (e : Int) : World × Int :=
  if w.life.close.phase ≠ .opened then (w, ebadf) else (w, e)

/-- the exception comes before the slot is looked at -/
def awaitElsewhere (w : World) (c : Coro) : World :=
  if w.life.close.phase ≠ .opened then { w with life := w.life.emit (.own (.waitEnded c .badf)) }
  else w

/-- as `awaitWait`, but the slot is released again -/
def awaitUnregistered (w : World) (c : Coro) : World :=
  let ended (r : WaitResult) := { w with life := w.life.emit (.own (.waitEnded c r)) }
  if w.life.close.phase ≠ .opened then ended .badf
  else if w.exited then ended (.exit w.exit)
  else if w.waiter.isSome then ended .busy
  else { ended .canceled with waiter := none }

end World

def callStep (w : World) : Call → Option World
  | .act a => step w a
  | .kill e => if foreign w.life.stack ∧ w.held then some (w.kill e).1 else none
  | .waitElsewhere c =>
    if foreign w.life.stack ∧ w.held ∧ c ∉ w.suspended then some (w.awaitElsewhere c) else none
  | .waitUnregistered c =>
    if foreign w.life.stack ∧ w.held ∧ c ∉ w.suspended then some (w.awaitUnregistered c) else none

def callSys : Sys World Call := ⟨{}, callStep⟩

/-! ## what comes after the report -/

def reports (log : List (Event ProcessEvent)) : List ProcessExit :=
  log.filterMap fun
    | .own (.exited x) => some x
    | _ => none

/-- what must have happened before an event, if not even the spawn `failed` -/
def Due (failed : Prop) (before : List (Event ProcessEvent)) : Event ProcessEvent → Prop
  | .submitted => failed ∨ reports before ≠ []
  | .own (.waitEnded _ (.exit x)) => reports before = [x]
  | _ => True

def Explained (failed : Prop) (log : List (Event ProcessEvent)) : Prop :=
  ∀ before e after, log = before ++ e :: after → Due failed before e

/-- events that report nothing and need nothing -/
def Aside : Event ProcessEvent → Prop
  | .submitted | .own (.exited _) | .own (.waitEnded _ (.exit _)) => False
  | _ => True

section
variable {failed failed' : Prop} {log es : List (Event ProcessEvent)} {e : Event ProcessEvent}

@[simp] theorem reports_append : reports (log ++ es) = reports log ++ reports es :=
  List.filterMap_append

theorem Explained.nil : Explained failed [] := by
  intro before e after h
  cases before <;> cases h

theorem Explained.snoc (h : Explained failed log) (he : Due failed log e) :
    Explained failed (log ++ [e]) := by
  intro before e' after heq
  rcases after.eq_nil_or_concat with rfl | ⟨after', x, rfl⟩
  · obtain ⟨rfl, hlast⟩ := List.append_inj' heq rfl
    cases hlast
    exact he
  · rw [List.concat_eq_append, ← List.cons_append, ← List.append_assoc] at heq
    exact h before e' after' (List.append_inj' heq rfl).1

theorem Explained.mono (h : Explained failed log) (hf : failed → failed') : Explained failed' log := by
  intro before e after heq
  have hd := h before e after heq
  unfold Due at hd ⊢
  split
  · exact hd.imp_left hf
  · exact hd
  · trivial

theorem Aside.due (h : Aside e) (before : List (Event ProcessEvent)) : Due failed before e := by
  match e, h with
  | .suspended _, _ | .callbackSuspended _, _ | .callbackBegan, _ | .resumed _, _ | .deleted, _
  | .own (.waitSuspended _), _ | .own (.waitEnded _ .badf), _ | .own (.waitEnded _ .canceled), _
  | .own (.waitEnded _ .busy), _ => trivial

theorem Aside.reports (h : Aside e) : reports [e] = [] := by
  match e, h with
  | .suspended _, _ | .callbackSuspended _, _ | .callbackBegan, _ | .resumed _, _ | .deleted, _
  | .own (.waitSuspended _), _ | .own (.waitEnded _ .badf), _ | .own (.waitEnded _ .canceled), _
  | .own (.waitEnded _ .busy), _ => rfl

theorem Aside.ne_submitted (h : Aside e) : e ≠ .submitted := by
  rintro rfl
  exact h

end

/-! ## the invariant -/

/-- nothing is asked of the deletion of the record -/
structure Exits (w : World) : Prop where
  released : w.ownerReleased = true ↔ w.owner = .gone
  exited : w.exited = true ↔ w.child = .exited
  unborn : w.owner = .constructor ↔ w.child = .unborn
  failed : w.child = .failed → w.owner = .gone ∧ w.life.log.count .submitted = 1
  /-- nothing is quiesced before `uv_close` -/
  noInline : w.life.stack.count .closing = 0
  /-- native close never starts before the exit -/
  early : w.child = .unborn ∨ w.child = .running → w.life.close.phase = .opened
  fresh : w.child ≠ .failed → w.life.close.phase = .opened → w.life.log.count .submitted = 0
  once : w.life.log.count .submitted ≤ 1
  inFlight : w.life.inFlight = true → w.life.log.count .submitted = 1
  reports : reports w.life.log = if w.exited then [w.exit] else []
  explained : Explained (w.child = .failed) w.life.log

section
variable {w w' : World}

theorem exits_init : Exits {} where
  released := ⟨nofun, nofun⟩
  exited := ⟨nofun, nofun⟩
  unborn := ⟨fun _ => rfl, fun _ => rfl⟩
  failed := nofun
  noInline := rfl
  early := fun _ => rfl
  fresh := fun _ _ => rfl
  once := Nat.zero_le 1
  inFlight := nofun
  reports := rfl
  explained := .nil

/-- the life takes a step and adds an event that is no report and no close -/
theorem Exits.setLife (h : Exits w) {l : Life ProcessEvent} {e : Event ProcessEvent}
    (hp : l.close.phase = w.life.close.phase) (hk : l.stack.count .closing = 0)
    (hf : l.inFlight = w.life.inFlight) (hlog : l.log = w.life.log ++ [e]) (hs : e ≠ .submitted)
    (hr : Process.reports [e] = []) (hd : Due (w.child = .failed) w.life.log e) :
    Exits { w with life := l } := by
  have hcount : l.log.count .submitted = w.life.log.count .submitted := by
    rw [hlog, List.count_append, List.count_singleton, if_neg (by simpa using hs), Nat.add_zero]
  exact {
    released := h.released
    exited := h.exited
    unborn := h.unborn
    failed := fun hc => ⟨(h.failed hc).1, hcount.trans (h.failed hc).2⟩
    noInline := hk
    early := fun hc => hp.trans (h.early hc)
    fresh := fun hc ho => hcount.trans (h.fresh hc (hp.symm.trans ho))
    once := hcount ▸ h.once
    inFlight := fun hi => hcount.trans (h.inFlight (hf ▸ hi))
    reports := by
      show Process.reports l.log = _
      rw [hlog, reports_append, hr, List.append_nil]
      exact h.reports
    explained := by
      show Explained _ l.log
      rw [hlog]
      exact h.explained.snoc hd }

theorem Exits.aside (h : Exits w) {l : Life ProcessEvent} {e : Event ProcessEvent}
    (hp : l.close.phase = w.life.close.phase) (hk : l.stack.count .closing = 0)
    (hf : l.inFlight = w.life.inFlight) (hlog : l.log = w.life.log ++ [e]) (he : Aside e) :
    Exits { w with life := l } :=
  h.setLife hp hk hf hlog he.ne_submitted he.reports (he.due _)

/-- the life takes a step that the history does not show -/
theorem Exits.silent (h : Exits w) {l : Life ProcessEvent}
    (hp : l.close.phase = w.life.close.phase) (hk : l.stack.count .closing = 0)
    (hf : l.inFlight = w.life.inFlight) (hlog : l.log = w.life.log) : Exits { w with life := l } where
  released := h.released
  exited := h.exited
  unborn := h.unborn
  failed := hlog ▸ h.failed
  noInline := hk
  early := fun hc => hp.trans (h.early hc)
  fresh := fun hc ho => hlog ▸ h.fresh hc (hp.symm.trans ho)
  once := hlog ▸ h.once
  inFlight := fun hi => hlog ▸ h.inFlight (hf ▸ hi)
  reports := hlog ▸ h.reports
  explained := hlog ▸ h.explained

/-- `request_close` after the exit -/
theorem Exits.requestClose (h : Exits w) (hx : w.exited = true) : Exits w.requestClose.1 := by
  rw [requestClose_exited hx]
  by_cases hp : w.life.close.phase = .opened
  · rw [if_pos hp]
    have hchild := h.exited.mp hx
    have hcount := h.fresh (by rw [hchild]; exact fun h => by cases h) hp
    have hclose : w.life.beginSubmit.close.phase = .closing := by
      rw [Life.beginSubmit, begin_opened hp]
      rfl
    have hlog : w.life.beginSubmit.log = w.life.log ++ [.submitted] := rfl
    have hone : w.life.beginSubmit.log.count .submitted = 1 := by
      rw [hlog, List.count_append, hcount]
      rfl
    exact {
      released := h.released
      exited := h.exited
      unborn := h.unborn
      failed := fun hc => by cases hchild.symm.trans hc
      noInline := h.noInline
      early := fun hc => by
        rcases hc with hc | hc <;> cases hchild.symm.trans hc
      fresh := fun _ ho => by cases hclose.symm.trans ho
      once := Nat.le_of_eq hone
      inFlight := fun _ => hone
      reports := by
        show Process.reports w.life.beginSubmit.log = _
        rw [hlog, reports_append]
        exact (List.append_nil _).trans h.reports
      explained := by
        refine h.explained.snoc (.inr ?_)
        rw [h.reports, if_pos hx]
        exact fun h => by cases h }
  · rw [if_neg hp]
    exact h

theorem Exits.held_child (h : Exits w) (ho : w.held = true) :
    w.child = .running ∨ w.child = .exited := by
  obtain ⟨id, ho⟩ := held_iff.mp ho
  cases hc : w.child with
  | unborn => cases ho.symm.trans (h.unborn.mpr hc)
  | running => exact .inl rfl
  | exited => exact .inr rfl
  | failed => cases ho.symm.trans (h.failed hc).1

/-- the end of a wait, told by the record or by the awaiter -/
theorem Exits.ended (h : Exits w) (c : Coro) (r : WaitResult)
    (hr : ∀ x, r = .exit x → w.exited = true ∧ w.exit = x) :
    Exits { w with life := w.life.emit (.own (.waitEnded c r)) } := by
  refine h.setLife rfl h.noInline rfl rfl nofun rfl ?_
  cases r with
  | exit x =>
    obtain ⟨hx, rfl⟩ := hr x rfl
    show Process.reports w.life.log = _
    rw [h.reports, if_pos hx]
  | badf | canceled | busy => trivial

theorem Exits.setWaiter (h : Exits w) (o : Option Coro) : Exits { w with waiter := o } :=
  ⟨h.released, h.exited, h.unborn, h.failed, h.noInline, h.early, h.fresh, h.once, h.inFlight,
    h.reports, h.explained⟩

theorem Exits.enter (h : Exits w) : Exits { w with life := w.life.enter } :=
  h.silent rfl (by simpa [Life.enter] using h.noInline) rfl rfl

theorem Exits.deliver (h : Exits w) (r : WaitResult)
    (hr : ∀ x, r = .exit x → w.exited = true ∧ w.exit = x) : Exits (w.deliver r) := by
  unfold World.deliver
  cases hw : w.waiter with
  | none => exact h
  | some c => exact (h.ended c r hr).enter.setWaiter none

theorem Exits.retainExit (h : Exits w) (hc : w.child = .running) (x : ProcessExit) :
    Exits (w.retainExit x) where
  released := h.released
  exited := ⟨fun _ => rfl, fun _ => rfl⟩
  unborn := ⟨fun ho => (by cases hc.symm.trans (h.unborn.mp ho)), (fun h => by cases h)⟩
  failed := fun h => by cases h
  noInline := h.noInline
  early := fun hf => by rcases hf with hf | hf <;> cases hf
  fresh := fun _ ho => by
    simpa [World.retainExit, Life.emit] using h.fresh (by rw [hc]; exact fun h => by cases h) ho
  once := by simpa [World.retainExit, Life.emit] using h.once
  inFlight := fun hi => by simpa [World.retainExit, Life.emit] using h.inFlight hi
  reports := by
    have hx : w.exited = false := by
      rw [← Bool.not_eq_true, h.exited, hc]
      exact fun h => by cases h
    have hr := h.reports
    rw [hx] at hr
    show Process.reports (w.life.log ++ [.own (.exited x)]) = [x]
    rw [reports_append, hr]
    rfl
  explained := by
    refine (h.explained.mono fun hf => ?_).snoc trivial
    cases hc.symm.trans hf

theorem Exits.onExit (h : Exits w) (hc : w.child = .running) (x : ProcessExit) :
    Exits (w.onExit x) := by
  have hretain := h.retainExit hc x
  unfold World.onExit
  dsimp only
  split
  · have hx : (w.retainExit x).requestClose.1.exited = true ∧
        (w.retainExit x).requestClose.1.exit = (w.retainExit x).exit := by
      rw [requestClose_exited rfl]
      split <;> exact ⟨rfl, rfl⟩
    exact (hretain.requestClose rfl).deliver _ fun y hy => ⟨hx.1, by cases hy; rfl⟩
  · exact hretain.deliver _ fun y hy => ⟨rfl, by cases hy; rfl⟩

theorem Exits.awaitWait (h : Exits w) (c : Coro) (stopped : Bool) :
    Exits (w.awaitWait c stopped) := by
  unfold World.awaitWait
  dsimp only
  split
  · exact h.ended c _ nofun
  split
  · exact h.ended c _ nofun
  split
  · next hx => exact h.ended c _ fun y hy => ⟨hx, by cases hy; rfl⟩
  split
  · exact h.ended c _ nofun
  · exact (h.aside (l := w.life.emit (.own (.waitSuspended c))) rfl h.noInline rfl rfl
      trivial).setWaiter (some c)

theorem Exits.awaitElsewhere (h : Exits w) (c : Coro) : Exits (w.awaitElsewhere c) := by
  unfold World.awaitElsewhere
  split
  · exact h.ended c _ nofun
  · exact h

theorem Exits.awaitUnregistered (h : Exits w) (c : Coro) : Exits (w.awaitUnregistered c) := by
  unfold World.awaitUnregistered
  dsimp only
  split
  · exact h.ended c _ nofun
  split
  · next hx => exact h.ended c _ fun y hy => ⟨hx, by cases hy; rfl⟩
  split
  · exact h.ended c _ nofun
  · exact (h.ended c .canceled nofun).setWaiter none

theorem Exits.awaitClose (h : Exits w) (c : Coro) : Exits (w.awaitClose c) := by
  unfold World.awaitClose
  split
  · exact h
  · next hp =>
    split
    · exact h
    · next hx =>
      have hadd := Life.suspend_eq hp c
      refine Exits.requestClose ?_ (by simpa [World.hasActiveOperation] using hx)
      exact h.aside (by rw [hadd]) h.noInline rfl rfl trivial

/-- the owner leaves -/
theorem Exits.release (h : Exits w) (ho : w.child ≠ .unborn) :
    Exits { w with owner := .gone, ownerReleased := true, life := w.life.releaseOwner } where
  released := ⟨fun _ => rfl, fun _ => rfl⟩
  exited := h.exited
  unborn := ⟨nofun, fun hu => absurd hu ho⟩
  failed := fun hc => ⟨rfl, (h.failed hc).2⟩
  noInline := h.noInline
  early := h.early
  fresh := h.fresh
  once := h.once
  inFlight := h.inFlight
  reports := h.reports
  explained := h.explained

theorem Exits.releaseOwner (h : Exits w) (ho : w.held = true) :
    Exits { w with owner := .gone }.releaseOwner := by
  have hrel := h.release (by rcases h.held_child ho with hc | hc <;> rw [hc] <;> exact nofun)
  unfold World.releaseOwner
  dsimp only
  split
  · exact hrel
  · next hx =>
    split
    · exact hrel.requestClose (by simpa using hx)
    · split
      · exact hrel.aside (l := w.life.releaseOwner.delete) (e := .deleted) rfl h.noInline rfl rfl
          trivial
      · exact hrel

theorem Exits.spawnFailed (h : Exits w) (ho : w.owner = .constructor) :
    Exits { w with owner := .gone, child := .failed }.spawnFailed := by
  have hchild := h.unborn.mp ho
  have hx : w.exited = false := by
    rw [← Bool.not_eq_true, h.exited, hchild]
    exact fun h => by cases h
  have hcount := h.fresh (by rw [hchild]; exact fun h => by cases h) (h.early (.inl hchild))
  have hlog : w.life.submit.log.count .submitted = 1 := by
    simp [Life.submit, hcount]
  unfold World.spawnFailed World.releaseOwner
  dsimp only
  rw [if_pos (by simp [hx])]
  exact {
    released := ⟨fun _ => rfl, fun _ => rfl⟩
    exited := by simp [hx]
    unborn := ⟨(fun h => by cases h), (fun h => by cases h)⟩
    failed := fun _ => ⟨rfl, hlog⟩
    noInline := h.noInline
    early := fun hc => by rcases hc with hc | hc <;> cases hc
    fresh := fun hc => absurd rfl hc
    once := Nat.le_of_eq hlog
    inFlight := fun _ => hlog
    reports := by
      show Process.reports (w.life.log ++ [.submitted]) = _
      rw [reports_append]
      exact (List.append_nil _).trans h.reports
    explained := (h.explained.mono fun _ => rfl).snoc (.inl rfl) }

theorem Exits.onClose (h : Exits w) (hf : w.life.inFlight = true) :
    Exits { w with life := w.life.onClose } := by
  have hone := h.inFlight hf
  have hcount : w.life.onClose.log.count .submitted = 1 := by
    simp [Life.onClose, hone]
  exact {
    released := h.released
    exited := h.exited
    unborn := h.unborn
    failed := fun hc => ⟨(h.failed hc).1, hcount⟩
    noInline := by simpa [Life.onClose] using h.noInline
    early := fun hc => by
      have hzero := h.fresh (by rcases hc with hc | hc <;> rw [hc] <;> exact fun h => by cases h)
        (h.early hc)
      omega
    fresh := fun _ h => by cases h
    once := Nat.le_of_eq hcount
    inFlight := fun h => by cases h
    reports := by
      show Process.reports (w.life.log ++ [.callbackBegan]) = _
      rw [reports_append]
      exact (List.append_nil _).trans h.reports
    explained := h.explained.snoc trivial }

/-- an activation goes on, with nothing to submit -/
theorem Exits.tick (h : Exits w) {l : Life ProcessEvent} (ht : w.life.tick = some l) :
    Exits { w with life := l } := by
  obtain ⟨hp, -⟩ := tick_close ht
  obtain ⟨hk, -⟩ := tick_submits h.noInline ht
  unfold Life.tick at ht
  split at ht
  · next k hs =>
    have hn := h.noInline
    rw [hs] at hn
    simp at hn
  · cases ht
    exact h.aside hp hk rfl rfl trivial
  · split at ht <;> cases ht
    · unfold Life.endComplete at hp hk ⊢
      dsimp only at hp hk ⊢
      split at hp
      · next hd =>
        rw [if_pos hd] at hk ⊢
        exact h.aside (e := .deleted) hp hk rfl rfl trivial
      · next hd =>
        rw [if_neg hd] at hk ⊢
        exact h.silent hp hk rfl rfl
    · exact h.silent hp hk rfl rfl
  · cases ht

theorem Exits.ret (h : Exits w) {l : Life ProcessEvent} (hr : w.life.ret = some l) :
    Exits { w with life := l } := by
  unfold Life.ret at hr
  split at hr
  · next k hk =>
    cases hr
    have hn := h.noInline
    rw [hk] at hn
    exact h.silent rfl (by simpa using hn) rfl rfl
  · cases hr

theorem step_exits {a : Act} (h : Exits w) (hs : step w a = some w') : Exits w' := by
  cases a with
  | spawned id =>
    obtain ⟨⟨-, ho⟩, rfl⟩ := by simpa [step] using hs
    have hchild := h.unborn.mp ho
    have hrel := h.released
    have hx := h.exited
    rw [ho] at hrel
    rw [hchild] at hx
    exact {
      released := by simpa using hrel
      exited := by simpa using hx
      unborn := ⟨(fun h => by cases h), (fun h => by cases h)⟩
      failed := fun h => by cases h
      noInline := h.noInline
      early := fun _ => h.early (.inl hchild)
      fresh := fun _ => h.fresh (by rw [hchild]; exact fun h => by cases h)
      once := h.once
      inFlight := h.inFlight
      reports := h.reports
      explained := h.explained.mono fun hf => by cases hchild.symm.trans hf }
  | spawnFailed =>
    obtain ⟨⟨-, ho⟩, rfl⟩ := by simpa [step] using hs
    exact h.spawnFailed ho
  | wait c stopped =>
    obtain ⟨-, rfl⟩ := by simpa [step] using hs
    exact h.awaitWait c stopped
  | stopWait =>
    obtain ⟨-, rfl⟩ := by simpa [step] using hs
    exact h.deliver .canceled (fun _ h => by cases h)
  | exit x =>
    obtain ⟨⟨-, hr⟩, rfl⟩ := by simpa [step] using hs
    exact h.onExit hr x
  | close c =>
    obtain ⟨-, rfl⟩ := by simpa [step] using hs
    exact h.awaitClose c
  | requestClose =>
    obtain ⟨-, rfl⟩ := by simpa [step] using hs
    unfold World.ownerRequestClose
    split
    · exact h
    · next hx => exact h.requestClose (by simpa using hx)
  | move id =>
    obtain ⟨⟨-, ho⟩, rfl⟩ := by simpa [step] using hs
    have hrun := h.held_child ho
    obtain ⟨id', ho'⟩ := held_iff.mp ho
    have hrel := h.released
    rw [ho'] at hrel
    refine { h with
      released := by simpa using hrel, unborn := ⟨(fun h => by cases h), fun hu => ?_⟩, failed := ?_ }
    · rcases hrun with hr | hr <;> cases hr.symm.trans hu
    · intro hf
      rcases hrun with hr | hr <;> cases hr.symm.trans hf
  | destroy =>
    obtain ⟨⟨-, ho⟩, rfl⟩ := by simpa [step] using hs
    exact h.releaseOwner ho
  | closeCallback =>
    obtain ⟨⟨-, hf⟩, rfl⟩ := by simpa [step] using hs
    exact h.onClose hf
  | tick =>
    obtain ⟨l, hl, rfl⟩ := Option.map_eq_some_iff.mp hs
    exact h.tick hl
  | ret =>
    obtain ⟨l, hl, rfl⟩ := Option.map_eq_some_iff.mp hs
    exact h.ret hl

theorem kill_fst (e : Int) : (w.kill e).1 = w := by
  unfold World.kill
  split <;> rfl

theorem call_inv (w : World) (a : Call) (w' : World) (h : Exits w) (hs : callStep w a = some w') :
    Exits w' := by
  cases a with
  | act a => exact step_exits h hs
  | kill e =>
    obtain ⟨-, heq⟩ := Option.ite_none_right_eq_some.mp hs
    cases heq
    rw [kill_fst]
    exact h
  | waitElsewhere c =>
    obtain ⟨-, heq⟩ := Option.ite_none_right_eq_some.mp hs
    cases heq
    exact h.awaitElsewhere c
  | waitUnregistered c =>
    obtain ⟨-, heq⟩ := Option.ite_none_right_eq_some.mp hs
    cases heq
    exact h.awaitUnregistered c

end

/-! ## the contract -/

/-- the calls by which a wait is made or stopped -/
def Call.waits : Call → Bool
  | .act (.wait ..) | .act .stopWait | .waitElsewhere _ | .waitUnregistered _ => true
  | _ => false

structure ExitContract (w : World) : Prop where
  once : w.life.log.count .submitted ≤ 1
  /-- of a child that was spawned -/
  afterExit : w.child ≠ .failed → ∀ before after, w.life.log = before ++ .submitted :: after →
    ∃ x, .own (.exited x) ∈ before
  /-- the owner is gone when the child exits -/
  atExit : w.owner = .gone → ∀ x w', callStep w (.act (.exit x)) = some w' →
    w'.life.inFlight = true ∧ w'.life.log = w.life.log ++ [.own (.exited x), .submitted] ++
      w.waiter.toList.map fun c => .own (.waitEnded c (.exit x))
  /-- a wait that began before the exit -/
  delivered : ∀ x w', callStep w (.act (.exit x)) = some w' → ∀ c, w.waiter = some c →
    .own (.waitEnded c (.exit x)) ∈ w'.life.log
  /-- a wait that began after it -/
  immediate : w.exited = true → w.life.close.phase = .opened → ∀ c w',
    callStep w (.act (.wait c false)) = some w' →
      w'.life.log = w.life.log ++ [.own (.waitEnded c (.exit w.exit))]
  /-- either of them returns what was reported, once and before -/
  result : ∀ c x before after, w.life.log = before ++ .own (.waitEnded c (.exit x)) :: after →
    reports before = [x] ∧ reports w.life.log = [x]
  retained : ∀ x, .own (.exited x) ∈ w.life.log → w.exited = true ∧ w.exit = x
  /-- waits do not change what is retained -/
  kept : ∀ a w', a.waits = true → callStep w a = some w' → w'.exited = w.exited ∧ w'.exit = w.exit

section
variable {w w' : World}

theorem mem_reports {log : List (Event ProcessEvent)} {x : ProcessExit} :
    x ∈ reports log ↔ .own (.exited x) ∈ log := by
  unfold reports
  rw [List.mem_filterMap]
  constructor
  · rintro ⟨e, he, hx⟩
    split at hx
    · cases hx
      exact he
    · cases hx
  · exact fun h => ⟨_, h, rfl⟩

theorem Exits.atExit (h : Exits w) (ho : w.owner = .gone) {x : ProcessExit}
    (hs : callStep w (.act (.exit x)) = some w') :
    w'.life.inFlight = true ∧ w'.life.log = w.life.log ++ [.own (.exited x), .submitted] ++
      w.waiter.toList.map fun c => .own (.waitEnded c (.exit x)) := by
  obtain ⟨⟨-, hc⟩, rfl⟩ := by simpa [callStep, step] using hs
  have hrel := h.released.mpr ho
  have hp := h.early (.inr hc)
  have hreq : (w.retainExit x).requestClose.1 =
      { w.retainExit x with life := (w.retainExit x).life.beginSubmit } := by
    rw [requestClose_exited rfl, if_pos (show (w.retainExit x).life.close.phase = .opened from hp)]
  unfold World.onExit
  dsimp only
  rw [if_pos (show (w.retainExit x).ownerReleased = true from hrel), hreq]
  unfold World.deliver
  cases hw : w.waiter with
  | none => simp [World.retainExit, hw, Life.beginSubmit, Life.submit, Life.emit]
  | some c => simp [World.retainExit, hw, Life.beginSubmit, Life.submit, Life.emit, Life.enter]

theorem exit_delivered {x : ProcessExit} {c : Coro}
    (hs : callStep w (.act (.exit x)) = some w') (hw : w.waiter = some c) :
    .own (.waitEnded c (.exit x)) ∈ w'.life.log := by
  obtain ⟨-, rfl⟩ := by simpa [callStep, step] using hs
  have hv : ∀ v : World, v = (if (w.retainExit x).ownerReleased then
      (w.retainExit x).requestClose.1 else w.retainExit x) → v.waiter = some c ∧ v.exit = x := by
    intro v hv
    rw [requestClose_exited rfl] at hv
    split at hv
    · split at hv <;> subst hv <;> exact ⟨hw, rfl⟩
    · subst hv
      exact ⟨hw, rfl⟩
  obtain ⟨hwait, hexit⟩ := hv _ rfl
  unfold World.onExit
  dsimp only
  unfold World.deliver
  rw [hwait, hexit]
  simp [Life.enter, Life.emit]

theorem wait_immediate {c : Coro} (hx : w.exited = true) (hp : w.life.close.phase = .opened)
    (hs : callStep w (.act (.wait c false)) = some w') :
    w'.life.log = w.life.log ++ [.own (.waitEnded c (.exit w.exit))] := by
  obtain ⟨-, rfl⟩ := by simpa [callStep, step] using hs
  simp [World.awaitWait, hp, hx, Life.emit]

theorem Exits.result (h : Exits w) {c : Coro} {x : ProcessExit}
    {before after : List (Event ProcessEvent)}
    (hlog : w.life.log = before ++ .own (.waitEnded c (.exit x)) :: after) :
    Process.reports before = [x] ∧ Process.reports w.life.log = [x] := by
  have hdue : Process.reports before = [x] := h.explained before _ after hlog
  refine ⟨hdue, ?_⟩
  have hx := h.reports
  rw [hlog, reports_append, hdue] at hx
  split at hx
  · next hex =>
    obtain ⟨rfl, -⟩ := List.cons.inj hx
    rw [h.reports, if_pos hex]
  · cases hx

theorem Exits.retained (h : Exits w) {x : ProcessExit} (hm : .own (.exited x) ∈ w.life.log) :
    w.exited = true ∧ w.exit = x := by
  have hx := mem_reports.mpr hm
  rw [h.reports] at hx
  split at hx
  · next hex => exact ⟨hex, (List.mem_singleton.mp hx).symm⟩
  · cases hx

/-- a wait touches the slot and the history at most -/
theorem wait_keeps {a : Call} (ha : a.waits = true) (hs : callStep w a = some w') :
    w'.exited = w.exited ∧ w'.exit = w.exit := by
  unfold Call.waits at ha
  split at ha
  · obtain ⟨-, rfl⟩ := by simpa [callStep, step] using hs
    unfold World.awaitWait
    dsimp only
    repeat' split
    all_goals exact ⟨rfl, rfl⟩
  · obtain ⟨-, rfl⟩ := by simpa [callStep, step] using hs
    unfold World.deliver
    split <;> exact ⟨rfl, rfl⟩
  · obtain ⟨-, rfl⟩ := by simpa [callStep] using hs
    unfold World.awaitElsewhere
    split <;> exact ⟨rfl, rfl⟩
  · obtain ⟨-, rfl⟩ := by simpa [callStep] using hs
    unfold World.awaitUnregistered
    dsimp only
    repeat' split
    all_goals exact ⟨rfl, rfl⟩
  · cases ha

end

/-- The contract of `wait()`: the close of a process comes after its exit, and the exit is retained
for every wait. -/
theorem exit_retained (as : List Call) (w : World)
    (hrun : callSys.run callSys.init as = some w) : ExitContract w := by
  have h : Exits w := Sys.run_inv (S := callSys) call_inv exits_init hrun
  exact {
    once := h.once
    afterExit := fun hc before after hlog => by
      obtain hf | hr := h.explained before _ after hlog
      · exact absurd hf hc
      · obtain ⟨x, hx⟩ := List.exists_mem_of_ne_nil _ hr
        exact ⟨x, mem_reports.mp hx⟩
    atExit := fun ho x w' hs => h.atExit ho hs
    delivered := fun x w' hs c hw => exit_delivered hs hw
    immediate := fun hx hp c w' hs => wait_immediate hx hp hs
    result := fun c x before after hlog => h.result hlog
    retained := fun x hm => h.retained hm
    kept := fun a w' ha hs => wait_keeps ha hs }

/-- A wait is stopped, a second one is made and a third rejected; the owner goes, and the child exits
after that. -/
def orphanRun : List Call :=
  [.act (.spawned 0), .act (.wait 1 false), .act .stopWait, .act .ret, .kill 0,
    .act (.wait 2 false), .act (.wait 3 false), .waitElsewhere 4, .act .destroy,
    .act (.exit ⟨3, 15⟩), .act .ret, .act .closeCallback, .act .tick]

theorem exit_retained_orphanRun : ∃ w, callSys.run callSys.init orphanRun = some w ∧
    w.life.log = [.own (.waitSuspended 1), .own (.waitEnded 1 .canceled), .own (.waitSuspended 2),
      .own (.waitEnded 3 .busy), .own (.exited ⟨3, 15⟩), .submitted,
      .own (.waitEnded 2 (.exit ⟨3, 15⟩)), .callbackBegan, .deleted] ∧ ExitContract w :=
  ⟨_, rfl, rfl, exit_retained orphanRun _ rfl⟩

end Close.Process
