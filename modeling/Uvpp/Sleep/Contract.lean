import Mathlib.Data.List.Count
import Uvpp.Machine.History
import Uvpp.Sleep.Model

/-!
# Expiry and stop race for one close

* `Event.about o`        the events about one sleep;
* `stopFirst t o log`    the task was stopped before the timer fired;
* `Story`                what the trace of a sleep looks like in each of its states;
* `step_inv`             every step keeps it;
* `sleep_contract`       what follows for all runs.
-/

namespace Sleep
open Errno History Cancel

/-! ## The events about one sleep -/

def Event.about (o : Op) : Event → Bool
  | .stopRequested _ => false
  | .initialised o' | .failed o' _ | .fired o' | .uvClose o' | .suspended o' | .resumed o' _
  | .ended o' _ => o' = o

def Event.resumes (o : Op) : Event → Bool
  | .resumed o' _ => o' = o
  | _ => false

def closes (log : List Event) (o : Op) : Nat := log.count (.uvClose o)

def resumptions (log : List Event) (o : Op) : Nat := log.countP (Event.resumes o)

/-- the task `t` was stopped before the timer of `o` fired -/
def stopFirst (t : Option CancelId) (o : Op) : List Event → Bool
  | [] => false
  | .stopRequested c :: l => t = some c || stopFirst t o l
  | .fired o' :: l => o' ≠ o && stopFirst t o l
  | _ :: l => stopFirst t o l

theorem closes_trace (log : List Event) (o : Op) :
    (trace Event.about log o).count (.uvClose o) = closes log o :=
  List.count_filter (by simp [Event.about])

theorem resumptions_trace (log : List Event) (o : Op) :
    (trace Event.about log o).countP (Event.resumes o) = resumptions log o := by
  rw [trace, List.countP_filter]
  refine List.countP_congr fun e _ => ?_
  cases e <;> simp [Event.resumes, Event.about]

section
variable {t : Option CancelId} {o : Op}

theorem stopFirst_append {l : List Event} (h : stopFirst t o l = true) (m : List Event) :
    stopFirst t o (l ++ m) = true := by
  induction l with
  | nil => cases h
  | cons e l ih =>
    cases e <;> simp only [List.cons_append, stopFirst, Bool.or_eq_true, Bool.and_eq_true] at h ⊢
    case stopRequested c => exact h.imp_right ih
    case fired o' => exact h.imp_right ih
    all_goals exact ih h

/-- what comes after the timer has fired does not matter -/
theorem stopFirst_fired {l : List Event} (h : .fired o ∈ l) (m : List Event) :
    stopFirst t o (l ++ m) = stopFirst t o l := by
  induction l with
  | nil => cases h
  | cons e l ih =>
    cases e <;> simp only [List.cons_append, stopFirst]
    case fired o' =>
      by_cases ho : o' = o
      · simp [ho]
      · rw [ih (by simpa [Ne.symm ho] using h)]
    case stopRequested c => rw [ih (by simpa using h)]
    all_goals exact ih (by simpa using h)

/-- before the timer fires -/
theorem stopFirst_iff {l : List Event} (h : .fired o ∉ l) :
    stopFirst t o l = true ↔ ∃ c, t = some c ∧ .stopRequested c ∈ l := by
  induction l with
  | nil => simp [stopFirst]
  | cons e l ih =>
    have hne : Event.fired o ≠ e := fun he => h (he ▸ List.mem_cons_self)
    have hl : Event.fired o ∉ l := fun hm => h (List.mem_cons_of_mem _ hm)
    cases e with
    | stopRequested c =>
      simp only [stopFirst, Bool.or_eq_true, decide_eq_true_eq, ih hl, List.mem_cons,
        Event.stopRequested.injEq]
      constructor
      · rintro (rfl | ⟨c', rfl, hc⟩)
        · exact ⟨c, rfl, .inl rfl⟩
        · exact ⟨c', rfl, .inr hc⟩
      · rintro ⟨c', rfl, rfl | hc⟩
        · exact .inl rfl
        · exact .inr ⟨c', rfl, hc⟩
    | fired o' =>
      have ho : o' ≠ o := fun ho => hne (by rw [ho])
      simp [stopFirst, ho, ih hl]
    | _ => simp [stopFirst, ih hl]

theorem stopFirst_snoc_fired {l : List Event} (h : stopFirst t o l = false) :
    stopFirst t o (l ++ [.fired o]) = false := by
  induction l with
  | nil => simp [stopFirst]
  | cons e l ih =>
    cases e <;> simp only [List.cons_append, stopFirst, Bool.or_eq_false_iff,
      Bool.and_eq_false_iff] at h ⊢
    case stopRequested c => exact h.imp_right ih
    case fired o' => exact h.imp_right ih
    all_goals exact ih h

end

/-! ## The story of a sleep -/

/-- how the close was started: the final status, and the events up to then -/
inductive Ending (o : Op) (t : Option CancelId) (log : List Event) : Int → List Event → Prop
  | fired (h : stopFirst t o log = false) :
      Ending o t log 0 [.initialised o, .suspended o, .fired o, .uvClose o]
  | stopped (h : stopFirst t o log = true) :
      Ending o t log ecanceled [.initialised o, .suspended o, .uvClose o]
  | refused (e : Int) (h : e < 0) :
      Ending o t log e [.initialised o, .failed o e, .uvClose o, .suspended o]

/-- the trace of a sleep that ended without suspending -/
inductive Inline (o : Op) (t : Option CancelId) (log : List Event) : Int → List Event → Prop
  | stopped (h : stopFirst t o log = true) : Inline o t log ecanceled [.ended o ecanceled]
  | failed (e : Int) (h : e < 0) : Inline o t log e [.failed o e, .ended o e]

def Story (log : List Event) (o : Op) (x : Rec) : Prop :=
  match x.status, x.timer with
  | .fresh, .unused => trace Event.about log o = []
  | .suspended, .active =>
    trace Event.about log o = [.initialised o, .suspended o] ∧ x.closeStarted = false
  | .suspended, .closing => Ending o x.cancellation log x.code (trace Event.about log o)
  | .finished, .closed =>
    ∃ l, Ending o x.cancellation log x.code l ∧ trace Event.about log o = l ++ [.resumed o x.code]
  | .finished, .unused => Inline o x.cancellation log x.code (trace Event.about log o)
  | _, _ => False

section
variable {o : Op} {t : Option CancelId} {log : List Event} {code : Int} {l : List Event}

theorem Ending.append (h : Ending o t log code l) (hl : ∀ e ∈ l, e ∈ log) (m : List Event) :
    Ending o t (log ++ m) code l := by
  cases h with
  | fired h =>
    refine .fired ?_
    rwa [stopFirst_fired (hl _ (by simp))]
  | stopped h => exact .stopped (stopFirst_append h m)
  | refused _ h => exact .refused _ h

theorem Inline.append (h : Inline o t log code l) (m : List Event) :
    Inline o t (log ++ m) code l := by
  cases h with
  | stopped h => exact .stopped (stopFirst_append h m)
  | failed _ h => exact .failed _ h

theorem Ending.closed (h : Ending o t log code l) : l.count (.uvClose o) = 1 ∧
    l.countP (Event.resumes o) = 0 ∧ ∀ c, .ended o c ∉ l ∧ .resumed o c ∉ l := by
  cases h <;> simp [Event.resumes]

theorem Inline.ended (h : Inline o t log code l) :
    .initialised o ∉ l ∧ ∀ c, .resumed o c ∉ l := by
  cases h <;> simp

/-- events about others do not change the story -/
theorem Story.append {x : Rec} (h : Story log o x) {m : List Event}
    (hm : ∀ e ∈ m, e.about o = false) : Story (log ++ m) o x := by
  have htrace : trace Event.about (log ++ m) o = trace Event.about log o := by
    rw [trace_append, trace_other hm, List.append_nil]
  have hmem : ∀ {l k}, trace Event.about log o = l ++ k → ∀ e ∈ l, e ∈ log := fun hl e he =>
    (List.mem_filter.mp (hl ▸ List.mem_append_left _ he)).1
  unfold Story at h ⊢
  rw [htrace]
  split at h
  · exact h
  · exact h
  · exact h.append (hmem (List.append_nil _).symm) m
  · obtain ⟨l, hl, heq⟩ := h
    exact ⟨l, hl.append (hmem heq) m, heq⟩
  · exact h.append m
  · exact h

theorem Story.of_fresh {x : Rec} (h : Story log o x) (hs : x.status = .fresh) :
    x.timer = .unused ∧ trace Event.about log o = [] := by
  unfold Story at h
  rw [hs] at h
  cases ht : x.timer <;> rw [ht] at h
  · exact ⟨rfl, h⟩
  all_goals exact h.elim

theorem Story.of_active {x : Rec} (h : Story log o x) (ht : x.timer = .active) :
    x.status = .suspended ∧ trace Event.about log o = [.initialised o, .suspended o] ∧
      x.closeStarted = false := by
  unfold Story at h
  rw [ht] at h
  cases hs : x.status <;> rw [hs] at h
  · exact h.elim
  · exact ⟨rfl, h⟩
  · exact h.elim

theorem Story.of_closing {x : Rec} (h : Story log o x) (ht : x.timer = .closing) :
    x.status = .suspended ∧ Ending o x.cancellation log x.code (trace Event.about log o) := by
  unfold Story at h
  rw [ht] at h
  cases hs : x.status <;> rw [hs] at h
  · exact h.elim
  · exact ⟨rfl, h⟩
  · exact h.elim

end

/-! ## The invariant -/

structure Inv (w : World) : Prop where
  story : ∀ o, Story w.log o (w.op o)
  /-- a sleep is registered exactly while its timer runs -/
  listed : ∀ o c, .sleep o ∈ (w.stops c).regs.map Prod.fst ↔
    (w.op o).timer = .active ∧ (w.op o).cancellation = some c
  requested : ∀ c, (w.stops c).requested = true ↔ .stopRequested c ∈ w.log
  stopping : ∀ c, (w.stops c).requested = true → .stopping c ∈ w.stack ∨ (w.stops c).regs = []
  loops : ∀ c, .stopping c ∈ w.stack → (w.stops c).requested = true

section
variable {w w' : World}

theorem inv_init : Inv {} where
  story := fun o => rfl
  listed := by simp
  requested := by simp
  stopping := nofun
  loops := nofun

theorem finish_eq {o : Op} (hc : (w.op o).closeStarted = false) (s : Int) :
    w.finish o s =
      { w with
        op := Function.update w.op o { w.op o with code := s, timer := .closing, closeStarted := true }
        stops := delist w.stops (.sleep o) (w.op o).cancellation
        log := w.log ++ [.uvClose o] } := by
  unfold World.finish
  rw [hc, if_neg (by simp)]
  cases ht : (w.op o).cancellation <;>
    simp [World.setOp, World.unregister, World.uvClose, World.emit, World.setStops, delist, ht]

/-- a running timer is closed: `m` is what happened, `s` the status -/
theorem Inv.finish (h : Inv w) {o : Op} (ha : (w.op o).timer = .active) (m : List Event) (s : Int)
    (hm : ∀ e ∈ m, ∀ o', e.about o' = true → o' = o)
    (hstop : ∀ c, .stopRequested c ∉ m)
    (hend : Ending o (w.op o).cancellation (w.log ++ m) s
      ([.initialised o, .suspended o] ++ trace Event.about m o)) :
    Inv { w with
      op := Function.update w.op o { w.op o with code := s, timer := .closing, closeStarted := true }
      stops := delist w.stops (.sleep o) (w.op o).cancellation
      log := w.log ++ m } := by
  obtain ⟨hst, htrace, -⟩ := (h.story o).of_active ha
  refine ⟨fun o' => ?_, fun o' c => ?_, fun c => ?_, fun c hr => ?_, fun c hc => ?_⟩
  · by_cases ho : o' = o
    · subst ho
      dsimp only
      rw [Function.update_self]
      simp only [Story, hst]
      rw [trace_append, htrace]
      exact hend
    · dsimp only
      rw [Function.update_of_ne ho]
      refine (h.story o').append fun e he => ?_
      cases hab : e.about o' with
      | false => rfl
      | true => exact absurd (hm e he o' hab) ho
  · rw [mem_delist, h.listed]
    by_cases ho : o' = o
    · subst ho
      simp only [Function.update_self, reduceCtorEq, false_and, iff_false]
      rintro ⟨⟨-, hc⟩, hn⟩
      exact hn hc rfl
    · simp [ho]
  · rw [delist_requested, h.requested]
    simp [hstop c]
  · rw [delist_requested] at hr
    exact (h.stopping c hr).imp_right (delist_nil _ _ _ _)
  · rw [delist_requested]
    exact h.loops c hc

/-- only the stack and registrations of others change -/
theorem Inv.others (h : Inv w) {l : CancelId → Cancel.Stops Reg Unit} {k : List Frame}
    (hreg : ∀ o c, .sleep o ∈ (l c).regs.map Prod.fst ↔ .sleep o ∈ (w.stops c).regs.map Prod.fst)
    (hreq : ∀ c, (l c).requested = (w.stops c).requested)
    (hstop : ∀ c, (w.stops c).requested = true → .stopping c ∈ k ∨ (l c).regs = [])
    (hk : ∀ c, .stopping c ∈ k → .stopping c ∈ w.stack) : Inv { w with stops := l, stack := k } where
  story := h.story
  listed := fun o c => (hreg o c).trans (h.listed o c)
  requested := fun c => by rw [hreq, h.requested]
  stopping := fun c hr => hstop c (by rwa [hreq] at hr)
  loops := fun c hc => by rw [hreq]; exact h.loops c (hk c hc)

/-- the registrations of others in one list change -/
theorem Inv.relist (h : Inv w) {c : CancelId} {t : Cancel.Stops Reg Unit} {k : List Frame}
    (hreg : ∀ o, .sleep o ∈ t.regs.map Prod.fst ↔ .sleep o ∈ (w.stops c).regs.map Prod.fst)
    (hreq : t.requested = (w.stops c).requested)
    (hnil : (w.stops c).requested = true → (w.stops c).regs = [] → t.regs = [])
    (hsub : ∀ c, .stopping c ∈ w.stack → .stopping c ∈ k)
    (hk : ∀ c, .stopping c ∈ k → .stopping c ∈ w.stack) :
    Inv { w.setStops c t with stack := k } := by
  refine h.others (fun o c' => ?_) (fun c' => ?_) (fun c' hr => ?_) hk
  · by_cases hc : c' = c
    · subst hc
      simpa using hreg o
    · simp [hc]
  · by_cases hc : c' = c
    · subst hc
      simpa using hreq
    · simp [hc]
  · refine (h.stopping c' hr).imp (hsub c') fun hl => ?_
    by_cases hc : c' = c
    · subst hc
      simpa using hnil hr hl
    · simpa [hc] using hl

theorem registerOther_inv (h : Inv w) (c : CancelId) (n : Nat) :
    Inv (w.setStops c ((w.stops c).register (.other n) ()).1) := by
  unfold Cancel.Stops.register
  cases hr : (w.stops c).requested with
  | true =>
    exact h.relist (k := w.stack) (fun _ => Iff.rfl) rfl (fun _ hl => hl) (fun _ => id) fun _ => id
  | false =>
    refine h.relist (k := w.stack) (fun o => ?_) hr.symm (fun hr' => ?_) (fun _ => id) fun _ => id
    · simp
    · rw [hr] at hr'
      cases hr'

theorem unregisterOther_inv (h : Inv w) (c : CancelId) (n : Nat) :
    Inv (w.setStops c ((w.stops c).unregister (.other n))) := by
  refine h.relist (k := w.stack) (fun o => ?_) rfl (fun _ hl => ?_) (fun _ => id) fun _ => id
  · simp [Cancel.Stops.unregister]
  · simp [Cancel.Stops.unregister, hl]

theorem requestStop_inv (h : Inv w) (c : CancelId) : Inv (w.requestStop c) := by
  unfold World.requestStop Cancel.Stops.exchange
  cases hr : (w.stops c).requested with
  | true => simpa using h
  | false =>
    simp only [Bool.false_eq_true, if_false]
    refine ⟨fun o => ?_, fun o c' => ?_, fun c' => ?_, fun c' hr' => ?_, fun c' hc' => ?_⟩
    · exact (h.story o).append (by simp [Event.about])
    · refine Iff.trans ?_ (h.listed o c')
      by_cases hc : c' = c
      · subst hc
        simp [World.push, World.emit, World.setStops]
      · simp [World.push, World.emit, World.setStops, hc]
    · by_cases hc : c' = c
      · subst hc
        simp [World.push, World.emit, World.setStops]
      · simp [World.push, World.emit, World.setStops, hc, h.requested]
    · by_cases hc : c' = c
      · subst hc
        exact .inl List.mem_cons_self
      · simp only [World.push, World.emit, World.setStops, Function.update_of_ne hc] at hr' ⊢
        exact (h.stopping c' hr').imp_left (List.mem_cons_of_mem _)
    · by_cases hc : c' = c
      · subst hc
        simp [World.push, World.emit, World.setStops]
      · simp only [World.push, World.emit, World.setStops, Function.update_of_ne hc]
        refine h.loops c' ?_
        rcases List.mem_cons.mp hc' with heq | hmem
        · cases heq
          exact absurd rfl hc
        · exact hmem

theorem pop_eq {t t' : Cancel.Stops Reg Unit} {r : Reg} (hp : t.pop = some ((r, ()), t')) :
    t.regs = (r, ()) :: t'.regs ∧ t'.requested = t.requested := by
  unfold Cancel.Stops.pop at hp
  split at hp
  · cases hp
  · rename_i p ps hl
    cases hp
    exact ⟨hl, rfl⟩

/-- the sleep is not fired while its timer runs -/
theorem Inv.active (h : Inv w) {o : Op} (ha : (w.op o).timer = .active) :
    .fired o ∉ w.log ∧ (w.op o).closeStarted = false := by
  obtain ⟨-, htrace, hc⟩ := (h.story o).of_active ha
  refine ⟨fun hf => ?_, hc⟩
  have hmem := (mem_trace Event.about (i := o) (by simp [Event.about])).mpr hf
  rw [htrace] at hmem
  simp at hmem

/-- the stop callback of a sleep -/
theorem popSleep_inv (h : Inv w) {c : CancelId} {o : Op} {t : Cancel.Stops Reg Unit}
    (hk : .stopping c ∈ w.stack) (hp : (w.stops c).pop = some ((.sleep o, ()), t)) :
    Inv ((w.setStops c t).finish o ecanceled) := by
  obtain ⟨hregs, hreq⟩ := pop_eq hp
  obtain ⟨ha, hcanc⟩ := (h.listed o c).mp (by rw [hregs]; simp)
  obtain ⟨hnf, hcs⟩ := h.active ha
  have hsame : delist (w.setStops c t).stops (.sleep o) (some c) = delist w.stops (.sleep o) (some c) := by
    have ht : t.unregister (.sleep o) = (w.stops c).unregister (.sleep o) := by
      simp [Cancel.Stops.unregister, hregs, hreq]
    simp [delist, World.setStops, ht]
  rw [finish_eq (w := w.setStops c t) hcs]
  show Inv { w with op := _, stops := delist (w.setStops c t).stops (.sleep o) (w.op o).cancellation, log := _ }
  rw [hcanc, hsame, ← hcanc]
  refine h.finish ha [.uvClose o] ecanceled (by simp [Event.about]) (by simp) ?_
  have htrace : trace Event.about [.uvClose o] o = [.uvClose o] := by simp [trace, Event.about]
  rw [htrace]
  refine .stopped (stopFirst_append ?_ _)
  rw [stopFirst_iff hnf]
  exact ⟨c, hcanc, (h.requested c).mp (h.loops c hk)⟩

theorem tick_inv (h : Inv w) (hs : w.tick = some w') : Inv w' := by
  unfold World.tick at hs
  split at hs
  case h_2 => cases hs
  rename_i c k hk
  have hmem : .stopping c ∈ w.stack := hk ▸ List.mem_cons_self
  split at hs
  · rename_i hp
    cases hs
    have hnil : (w.stops c).regs = [] := by
      unfold Cancel.Stops.pop at hp
      split at hp
      · assumption
      · cases hp
    refine h.others (fun _ _ => Iff.rfl) (fun _ => rfl) (fun c' hr => ?_) fun c' hc' => ?_
    · rcases h.stopping c' hr with hs' | hl
      · rw [hk] at hs'
        rcases List.mem_cons.mp hs' with heq | hs'
        · cases heq
          exact .inr hnil
        · exact .inl hs'
      · exact .inr hl
    · rw [hk]
      exact List.mem_cons_of_mem _ hc'
  · rename_i o t hp
    cases hs
    exact popSleep_inv h hmem hp
  · rename_i n t hp
    cases hs
    obtain ⟨hregs, hreq⟩ := pop_eq hp
    refine h.relist (k := .user :: w.stack) (fun o => ?_) hreq (fun _ hl => ?_)
      (fun c' hc' => List.mem_cons_of_mem _ hc') fun c' hc' => ?_
    · simp [hregs]
    · rw [hregs] at hl
      cases hl
    · rcases List.mem_cons.mp hc' with heq | hc'
      · cases heq
      · exact hc'

theorem fire_inv (h : Inv w) {o : Op} (hk : w.stack = []) (ha : (w.op o).timer = .active) :
    Inv (w.fire o) := by
  obtain ⟨hnf, hcs⟩ := h.active ha
  unfold World.fire
  rw [finish_eq (w := w.emit (.fired o)) hcs]
  show Inv { w with op := _, stops := _, log := w.log ++ [.fired o] ++ [.uvClose o] }
  rw [List.append_assoc]
  refine h.finish ha [.fired o, .uvClose o] 0 (by simp [Event.about]) (by simp) ?_
  have htrace : trace Event.about [.fired o, .uvClose o] o = [.fired o, .uvClose o] := by
    simp [trace, Event.about]
  rw [htrace]
  refine .fired ?_
  -- a stop that was requested has emptied the list, and the sleep is still in it
  have hnone : stopFirst (w.op o).cancellation o w.log = false := by
    cases hstop : stopFirst (w.op o).cancellation o w.log with
    | false => rfl
    | true =>
      obtain ⟨c, hc, hreq⟩ := (stopFirst_iff hnf).mp hstop
      have hlist := (h.listed o c).mpr ⟨ha, hc⟩
      rcases h.stopping c ((h.requested c).mpr hreq) with hs | hl
      · rw [hk] at hs
        cases hs
      · rw [hl] at hlist
        cases hlist
  rw [show w.log ++ [Event.fired o, .uvClose o] = (w.log ++ [.fired o]) ++ [.uvClose o] by simp,
    stopFirst_fired (by simp)]
  exact stopFirst_snoc_fired hnone

theorem closed_inv (h : Inv w) {o : Op} (hc : (w.op o).timer = .closing) : Inv (w.closed o) := by
  obtain ⟨-, hsusp⟩ := (h.story o).of_closing hc
  refine ⟨fun o' => ?_, fun o' c => ?_, fun c => ?_, fun c hr => ?_, fun c hk => ?_⟩
  · by_cases ho : o' = o
    · subst ho
      have htrace : trace Event.about [.resumed o' (w.op o').code] o' =
          [.resumed o' (w.op o').code] := by
        simp [trace, Event.about]
      have hmem : ∀ e ∈ trace Event.about w.log o', e ∈ w.log := fun e he =>
        (List.mem_filter.mp he).1
      simp only [World.closed, World.push, World.emit, World.setOp, Function.update_self, Story]
      exact ⟨_, hsusp.append hmem _, by rw [trace_append, htrace]⟩
    · simp only [World.closed, World.push, World.emit, World.setOp, Function.update_of_ne ho]
      exact (h.story o').append (by simp [Event.about, Ne.symm ho])
  · refine (h.listed o' c).trans ?_
    by_cases ho : o' = o
    · subst ho
      simp [World.closed, World.push, World.emit, World.setOp, hc]
    · simp [World.closed, World.push, World.emit, World.setOp, ho]
  · rw [show ((w.closed o).stops c) = w.stops c from rfl, h.requested]
    simp [World.closed, World.push, World.emit, World.setOp]
  · exact (h.stopping c hr).imp_left (List.mem_cons_of_mem _)
  · rcases List.mem_cons.mp hk with heq | hk
    · cases heq
    · exact h.loops c hk

/-- a sleep is awaited: `m` is what happened, `x` its record, `t` where it is registered -/
theorem Inv.admit (h : Inv w) {o : Op} (hf : (w.op o).status = .fresh) {x : Rec} {m : List Event}
    {t : Option CancelId} (hm : ∀ e ∈ m, ∀ o', e.about o' = true → o' = o)
    (hstop : ∀ c, .stopRequested c ∉ m) (hx : Story (w.log ++ m) o x)
    (ht : ∀ c, t = some c ↔ x.timer = .active ∧ x.cancellation = some c)
    (hopen : ∀ c, t = some c → (w.stops c).requested = false) :
    Inv { w with
      op := Function.update w.op o x
      stops := enlist w.stops (.sleep o) t
      log := w.log ++ m } := by
  obtain ⟨hunused, -⟩ := (h.story o).of_fresh hf
  refine ⟨fun o' => ?_, fun o' c => ?_, fun c => ?_, fun c hr => ?_, fun c hk => ?_⟩
  · by_cases ho : o' = o
    · subst ho
      dsimp only
      rw [Function.update_self]
      exact hx
    · dsimp only
      rw [Function.update_of_ne ho]
      refine (h.story o').append fun e he => ?_
      cases hab : e.about o' with
      | false => rfl
      | true => exact absurd (hm e he o' hab) ho
  · rw [mem_enlist, h.listed]
    by_cases ho : o' = o
    · subst ho
      simp only [Function.update_self, hunused, reduceCtorEq, false_and, or_false, true_and]
      exact ht c
    · simp [ho]
  · rw [enlist_requested, h.requested]
    simp [hstop c]
  · rw [enlist_requested] at hr
    refine (h.stopping c hr).imp_right fun hl => ?_
    have hne : t ≠ some c := fun htc => by
      rw [hopen c htc] at hr
      cases hr
    exact (congrArg Stops.regs (enlist_of_ne _ _ _ _ hne)).trans hl
  · rw [enlist_requested]
    exact h.loops c hk

/-- `register_callback` while no stop is requested -/
theorem register_open {o : Op} {t : Option CancelId} (hr : w.stopRequested t = false) :
    w.register o t = ({ w with stops := enlist w.stops (.sleep o) t }, true) := by
  cases t with
  | none => rfl
  | some c =>
    have hc : (w.stops c).requested = false := hr
    simp [World.register, enlist, Cancel.Stops.register, hc, World.setStops]

/-- the four exits of `await_suspend` -/
theorem await_eq (w : World) (q : Request) :
    w.await q =
      if w.stopRequested q.task then
        { w with
          op := Function.update w.op q.op
            { status := .finished, cancellation := q.task, code := ecanceled }
          log := w.log ++ [.ended q.op ecanceled] }
      else if q.init < 0 then
        { w with
          op := Function.update w.op q.op
            { status := .finished, cancellation := q.task, code := q.init }
          log := w.log ++ [.failed q.op q.init, .ended q.op q.init] }
      else if q.start < 0 then
        { w with
          op := Function.update w.op q.op
            { status := .suspended, timer := .closing, cancellation := q.task, code := q.start,
              closeStarted := true }
          log := w.log ++
            [.initialised q.op, .failed q.op q.start, .uvClose q.op, .suspended q.op] }
      else
        { w with
          op := Function.update w.op q.op
            { status := .suspended, timer := .active, cancellation := q.task, code := q.start }
          stops := enlist w.stops (.sleep q.op) q.task
          log := w.log ++ [.initialised q.op, .suspended q.op] } := by
  have hsame : ∀ v : World, v.stops = w.stops → v.stopRequested q.task = w.stopRequested q.task := by
    intro v hv
    cases q.task <;> simp [World.stopRequested, hv]
  have hset : (w.setOp q.op fun _ => { cancellation := q.task }).stopRequested q.task =
      w.stopRequested q.task := hsame _ rfl
  unfold World.await
  simp only [hset]
  split_ifs with h1 h2 h3
  · simp [World.endInline, World.setOp, World.emit]
  · simp [World.endInline, World.setOp, World.emit]
  · simp [World.uvClose, World.suspend, World.setOp, World.emit]
  · have hopen : ∀ v : World, v.stops = w.stops →
        v.register q.op q.task = ({ v with stops := enlist v.stops (.sleep q.op) q.task }, true) :=
      fun v hv => register_open ((hsame v hv).trans (by simpa using h1))
    rw [hopen]
    · simp [World.suspend, World.setOp, World.emit]
    · rfl

theorem await_inv (h : Inv w) {q : Request} (hf : (w.op q.op).status = .fresh) :
    Inv (w.await q) := by
  obtain ⟨hunused, htrace⟩ := (h.story q.op).of_fresh hf
  have hnf : .fired q.op ∉ w.log := by
    intro hmem
    have hin := (mem_trace Event.about (i := q.op) (by simp [Event.about])).mpr hmem
    rw [htrace] at hin
    cases hin
  have hself : ∀ {m : List Event}, (∀ e ∈ m, e.about q.op = true) →
      trace Event.about (w.log ++ m) q.op = m := by
    intro m hm
    rw [trace_append, htrace, List.nil_append]
    exact List.filter_eq_self.mpr hm
  have hnone : enlist w.stops (.sleep q.op) none = w.stops := rfl
  rw [await_eq]
  split_ifs with h1 h2 h3
  · rw [← hnone]
    refine h.admit hf (by simp [Event.about]) (by simp) ?_ (by simp) (by simp)
    simp only [Story]
    rw [hself (by simp [Event.about])]
    refine .stopped (stopFirst_append ?_ _)
    rw [stopFirst_iff hnf]
    cases ht : q.task with
    | none =>
      rw [ht] at h1
      cases h1
    | some c =>
      rw [ht] at h1
      exact ⟨c, rfl, (h.requested c).mp h1⟩
  · rw [← hnone]
    refine h.admit hf (by simp [Event.about]) (by simp) ?_ (by simp) (by simp)
    simp only [Story]
    rw [hself (by simp [Event.about])]
    exact .failed _ h2
  · rw [← hnone]
    refine h.admit hf (by simp [Event.about]) (by simp) ?_ (by simp) (by simp)
    simp only [Story]
    rw [hself (by simp [Event.about])]
    exact .refused _ h3
  · refine h.admit hf (by simp [Event.about]) (by simp) ?_ (by simp) fun c hc => ?_
    · simp only [Story]
      exact ⟨hself (by simp [Event.about]), trivial⟩
    · rw [hc] at h1
      simpa [World.stopRequested] using h1

theorem step_inv (h : Inv w) {a : Act} (hs : step w a = some w') : Inv w' := by
  cases a with
  | enter =>
    obtain ⟨hk, hs⟩ := Option.ite_none_right_eq_some.mp hs
    cases hs
    refine h.others (fun _ _ => Iff.rfl) (fun _ => rfl) (fun c hr => ?_) fun c hc => ?_
    · exact (h.stopping c hr).imp_left (List.mem_cons_of_mem _)
    · simpa using hc
  | ret =>
    simp only [step] at hs
    split at hs
    · rename_i k hk
      cases hs
      refine h.others (fun _ _ => Iff.rfl) (fun _ => rfl) (fun c hr => ?_) fun c hc => ?_
      · refine (h.stopping c hr).imp_left fun hm => ?_
        simpa [hk] using hm
      · rw [hk]
        exact List.mem_cons_of_mem _ hc
    · cases hs
  | tick => exact tick_inv h hs
  | await q =>
    obtain ⟨⟨-, hf⟩, hs⟩ := Option.ite_none_right_eq_some.mp hs
    cases hs
    exact await_inv h hf
  | requestStop c =>
    obtain ⟨-, hs⟩ := Option.ite_none_right_eq_some.mp hs
    cases hs
    exact requestStop_inv h c
  | registerOther c n =>
    obtain ⟨-, hs⟩ := Option.ite_none_right_eq_some.mp hs
    cases hs
    exact registerOther_inv h c n
  | unregisterOther c n =>
    obtain ⟨-, hs⟩ := Option.ite_none_right_eq_some.mp hs
    cases hs
    exact unregisterOther_inv h c n
  | fire o =>
    obtain ⟨⟨hk, ha⟩, hs⟩ := Option.ite_none_right_eq_some.mp hs
    cases hs
    exact fire_inv h hk ha
  | closed o =>
    obtain ⟨⟨-, hc⟩, hs⟩ := Option.ite_none_right_eq_some.mp hs
    cases hs
    exact closed_inv h hc

end

/-! ## The contract -/

structure Contract (w : World) : Prop where
  /-- a sleep with a native timer suspends, and is closed and resumed at most once -/
  once : ∀ o, .initialised o ∈ w.log →
    closes w.log o ≤ 1 ∧ resumptions w.log o ≤ 1 ∧ ∀ code, .ended o code ∉ w.log
  /-- until it is resumed, the loop can fire the timer or call the close callback -/
  pending : ∀ o, .initialised o ∈ w.log → resumptions w.log o = 0 → w.stack = [] →
    (closes w.log o = 0 ∧ ∃ w', step w (.fire o) = some w' ∧ closes w'.log o = 1) ∨
      closes w.log o = 1 ∧ ∃ w' code, step w (.closed o) = some w' ∧
        w'.log = w.log ++ [.resumed o code]
  /-- it is resumed by the close callback only, after one `uv_close`, and is not registered then -/
  resumed : ∀ a w' o, step w a = some w' → resumptions w'.log o ≠ resumptions w.log o →
    a = .closed o ∧ closes w.log o = 1 ∧ ∀ c, .sleep o ∉ (w'.stops c).regs.map Prod.fst
  /-- the result: a native error, or `UV_ECANCELED` if the stop came first, or success if the timer
  fired first -/
  outcome : ∀ o code, .resumed o code ∈ w.log ∨ .ended o code ∈ w.log →
    (code < 0 ∧ .failed o code ∈ w.log) ∨
      (∀ e, .failed o e ∉ w.log) ∧
        (code = ecanceled ↔ stopFirst (w.op o).cancellation o w.log = true) ∧
        (code = 0 ↔ .fired o ∈ w.log ∧ stopFirst (w.op o).cancellation o w.log = false)

section
variable {w w' : World}

theorem Inv.once (h : Inv w) {o : Op} (hi : .initialised o ∈ w.log) :
    closes w.log o ≤ 1 ∧ resumptions w.log o ≤ 1 ∧ ∀ code, .ended o code ∉ w.log := by
  have hin := (mem_trace Event.about (i := o) (by simp [Event.about])).mpr hi
  have hend : ∀ code, .ended o code ∈ w.log ↔ .ended o code ∈ trace Event.about w.log o :=
    fun code => (mem_trace Event.about (by simp [Event.about])).symm
  simp only [hend, ← closes_trace, ← resumptions_trace]
  have hstory := h.story o
  unfold Story at hstory
  split at hstory
  · rw [hstory] at hin
    cases hin
  · rw [hstory.1]
    simp [Event.resumes]
  · obtain ⟨hc, hr, he⟩ := hstory.closed
    exact ⟨hc.le, hr.le.trans (Nat.zero_le 1), fun c => (he c).1⟩
  · obtain ⟨l, hl, heq⟩ := hstory
    obtain ⟨hc, hr, he⟩ := hl.closed
    rw [heq]
    refine ⟨?_, ?_, fun c => ?_⟩
    · simp [List.count_append, hc]
    · simp [List.countP_append, hr, Event.resumes]
    · simp [(he c).1]
  · exact absurd hin hstory.ended.1
  · exact hstory.elim

/-- a sleep that is suspended is either running or closing -/
theorem Inv.waiting (h : Inv w) {o : Op} (hi : .initialised o ∈ w.log)
    (hr : resumptions w.log o = 0) :
    ((w.op o).timer = .active ∧ closes w.log o = 0) ∨
      ((w.op o).timer = .closing ∧ closes w.log o = 1) := by
  have hin := (mem_trace Event.about (i := o) (by simp [Event.about])).mpr hi
  rw [← resumptions_trace] at hr
  rw [← closes_trace]
  have hstory := h.story o
  unfold Story at hstory
  split at hstory
  · rw [hstory] at hin
    cases hin
  · rename_i ht
    rw [hstory.1]
    exact .inl ⟨ht, rfl⟩
  · rename_i ht
    exact .inr ⟨ht, hstory.closed.1⟩
  · obtain ⟨l, hl, heq⟩ := hstory
    rw [heq] at hr
    simp [List.countP_append, Event.resumes] at hr
  · exact absurd hin hstory.ended.1
  · exact hstory.elim

theorem finish_log (w : World) (o : Op) (s : Int) :
    (w.finish o s).log = w.log ∨ (w.finish o s).log = w.log ++ [.uvClose o] := by
  cases hc : (w.op o).closeStarted with
  | true =>
    left
    simp [World.finish, hc]
  | false =>
    right
    rw [finish_eq hc]

/-- only the close callback resumes -/
theorem step_resumptions {a : Act} {o : Op} (hs : step w a = some w')
    (hr : resumptions w'.log o ≠ resumptions w.log o) : a = .closed o := by
  have hsame : ∀ m : List Event, (∀ e ∈ m, e.resumes o = false) → w'.log = w.log ++ m → False := by
    intro m hm hlog
    apply hr
    have hzero : m.countP (Event.resumes o) = 0 :=
      List.countP_eq_zero.mpr fun e he => by simp [hm e he]
    rw [hlog, resumptions, List.countP_append, hzero]
    rfl
  cases a with
  | enter | registerOther | unregisterOther =>
    obtain ⟨-, hs⟩ := Option.ite_none_right_eq_some.mp hs
    cases hs
    exact (hr rfl).elim
  | ret =>
    simp only [step] at hs
    split at hs <;> cases hs
    exact (hr rfl).elim
  | tick =>
    change w.tick = some w' at hs
    unfold World.tick at hs
    split at hs
    · split at hs
      · cases hs
        exact (hr rfl).elim
      · rename_i o' t hp
        cases hs
        rcases finish_log (w.setStops _ t) o' ecanceled with hl | hl
        · exact (hsame [] (by simp) (hl.trans (List.append_nil _).symm)).elim
        · exact (hsame _ (by simp [Event.resumes]) hl).elim
      · cases hs
        exact (hr rfl).elim
    · cases hs
  | await q =>
    obtain ⟨-, hs⟩ := Option.ite_none_right_eq_some.mp hs
    cases hs
    rw [await_eq] at hr hsame
    exfalso
    split_ifs at hr hsame
    all_goals exact hsame _ (by simp [Event.resumes]) rfl
  | requestStop c =>
    obtain ⟨-, hs⟩ := Option.ite_none_right_eq_some.mp hs
    cases hs
    unfold World.requestStop at hsame
    split at hsame
    · exact (hsame [] (by simp) (List.append_nil _).symm).elim
    · exact (hsame [.stopRequested c] (by simp [Event.resumes]) rfl).elim
  | fire o' =>
    obtain ⟨-, hs⟩ := Option.ite_none_right_eq_some.mp hs
    cases hs
    rcases finish_log (w.emit (.fired o')) o' 0 with hl | hl
    · exact (hsame [.fired o'] (by simp [Event.resumes]) hl).elim
    · refine (hsame [.fired o', .uvClose o'] (by simp [Event.resumes]) ?_).elim
      rw [World.fire, hl]
      simp [World.emit]
  | closed o' =>
    obtain ⟨-, hs⟩ := Option.ite_none_right_eq_some.mp hs
    cases hs
    by_cases ho : o' = o
    · rw [ho]
    · exact (hsame [.resumed o' (w.op o').code] (by simp [Event.resumes, ho]) rfl).elim

theorem Ending.judge {o : Op} {t : Option CancelId} {log : List Event} {code : Int} {l : List Event}
    (h : Ending o t log code l) (htrace : ∀ e : Event, e.about o = true → (∀ c, e ≠ .resumed o c) →
      (e ∈ log ↔ e ∈ l)) :
    (code < 0 ∧ .failed o code ∈ log) ∨ (∀ e, .failed o e ∉ log) ∧
      (code = ecanceled ↔ stopFirst t o log = true) ∧
      (code = 0 ↔ .fired o ∈ log ∧ stopFirst t o log = false) := by
  have hfired := htrace (.fired o) (by simp [Event.about]) nofun
  have hfailed : ∀ e, .failed o e ∈ log ↔ _ := fun e =>
    htrace (.failed o e) (by simp [Event.about]) nofun
  simp only [hfired, hfailed]
  cases h with
  | fired h => exact .inr ⟨by simp, by simp [h, ecanceled], by simp [h]⟩
  | stopped h => exact .inr ⟨by simp, by simp [h], by simp [h, ecanceled]⟩
  | refused _ h => exact .inl ⟨h, by simp⟩

theorem Inline.judge {o : Op} {t : Option CancelId} {log : List Event} {code' : Int}
    {l : List Event} (h : Inline o t log code' l) {code : Int}
    (hin : .resumed o code ∈ l ∨ .ended o code ∈ l) :
    (code < 0 ∧ .failed o code ∈ l) ∨ (∀ e, .failed o e ∉ l) ∧
      (code = ecanceled ↔ stopFirst t o log = true) ∧
      (code = 0 ↔ .fired o ∈ l ∧ stopFirst t o log = false) := by
  cases h with
  | stopped hs =>
    obtain rfl : code = ecanceled := by simpa using hin
    exact .inr ⟨by simp, by simp [hs], by simp [hs, ecanceled]⟩
  | failed _ he =>
    obtain rfl : code = code' := by simpa using hin
    exact .inl ⟨he, by simp⟩

theorem Inv.outcome (h : Inv w) {o : Op} {code : Int}
    (hin : .resumed o code ∈ w.log ∨ .ended o code ∈ w.log) :
    (code < 0 ∧ .failed o code ∈ w.log) ∨ (∀ e, .failed o e ∉ w.log) ∧
      (code = ecanceled ↔ stopFirst (w.op o).cancellation o w.log = true) ∧
      (code = 0 ↔ .fired o ∈ w.log ∧ stopFirst (w.op o).cancellation o w.log = false) := by
  have hmem : ∀ e : Event, e.about o = true → (e ∈ w.log ↔ e ∈ trace Event.about w.log o) :=
    fun e he => (mem_trace _ he).symm
  rw [hmem _ (by simp [Event.about]), hmem _ (by simp [Event.about])] at hin
  have hstory := h.story o
  unfold Story at hstory
  split at hstory
  · rw [hstory] at hin
    simp at hin
  · rw [hstory.1] at hin
    simp at hin
  · obtain ⟨-, -, he⟩ := hstory.closed
    exact (hin.elim (he code).2 (he code).1).elim
  · obtain ⟨l, hl, heq⟩ := hstory
    obtain ⟨-, -, he⟩ := hl.closed
    obtain rfl : code = (w.op o).code := by
      rw [heq] at hin
      simpa [he] using hin
    refine hl.judge fun e he hne => ?_
    rw [hmem e he, heq]
    simp [hne]
  · have hnf : ∀ e, .failed o e ∈ w.log ↔ .failed o e ∈ trace Event.about w.log o := fun e =>
      hmem _ (by simp [Event.about])
    have hff := hmem (.fired o) (by simp [Event.about])
    simp only [hnf, hff]
    exact hstory.judge hin
  · exact hstory.elim

theorem contract_of_inv (h : Inv w) : Contract w where
  once := fun o hi => h.once hi
  pending := by
    intro o hi hr hk
    rcases h.waiting hi hr with ⟨ht, hc⟩ | ⟨ht, hc⟩
    · refine .inl ⟨hc, w.fire o, by simp [step, hk, ht], ?_⟩
      rw [World.fire, finish_eq (w := w.emit (.fired o)) (h.active ht).2]
      simp only [closes, World.emit, List.count_append] at hc ⊢
      rw [hc]
      simp
    · exact .inr ⟨hc, w.closed o, _, by simp [step, hk, ht], rfl⟩
  resumed := by
    intro a w' o hs hr
    obtain rfl := step_resumptions hs hr
    have h' := step_inv h hs
    obtain ⟨⟨-, ht⟩, hs⟩ := Option.ite_none_right_eq_some.mp hs
    cases hs
    refine ⟨rfl, ?_, fun c hm => ?_⟩
    · obtain ⟨-, hend⟩ := (h.story o).of_closing ht
      rw [← closes_trace]
      exact hend.closed.1
    · have hact := ((h'.listed o c).mp hm).1
      simp [World.closed, World.push, World.emit, World.setOp] at hact
  outcome := fun o code hin => h.outcome hin

/-- Every state of every run keeps the contract of its sleeps. -/
theorem sleep_contract (as : List Act) (w : World) (hr : sys.run sys.init as = some w) :
    Contract w :=
  contract_of_inv (Sys.run_inv (S := sys) (fun _ _ _ h hs => step_inv h hs) inv_init hr)

/-- Three sleeps of one task and one of another.  The first one fires; the task is stopped while
its close is pending; the second is stopped; the third finds the stop; the other one goes on. -/
def raced : List Act :=
  [.enter, .await { op := 0, task := some 0 }, .await { op := 1, task := some 0 },
    .registerOther 0 7, .await { op := 3, task := some 1 }, .ret, .fire 0, .enter, .requestStop 0,
    .tick, .await { op := 2, task := some 0 }, .ret, .tick, .tick, .ret, .closed 1, .ret, .closed 0,
    .ret, .fire 3, .closed 3]

theorem sleep_contract_raced : ∃ w, sys.run sys.init raced = some w ∧
    w.log = [.initialised 0, .suspended 0, .initialised 1, .suspended 1, .initialised 3,
      .suspended 3, .fired 0, .uvClose 0, .stopRequested 0, .ended 2 ecanceled, .uvClose 1,
      .resumed 1 ecanceled, .resumed 0 0, .fired 3, .uvClose 3, .resumed 3 0] ∧ Contract w :=
  ⟨_, rfl, rfl, sleep_contract raced _ rfl⟩

end

end Sleep
