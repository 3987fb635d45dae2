import Uvpp.Wait.Confined
import Uvpp.Wait.Contract
import Uvpp.Wait.Summary

/-!
# What an fs-event source retains

The machine of the waits runs beside a history of what libuv reported to fs-event sources and of
what was handed out, and the retained outcomes are compared with the history.

* `unconsumed s`               the notifications of `s` since the last one was handed out;
* `watched`                    the machine with the history;
* `step_quiet`                 the steps that leave the retained outcomes alone;
* `retained_summary`           the contract, in all runs.
-/

namespace Wait

/-! ## The history -/

inductive Entry where
  /-- libuv reports on `s` -/
  | notice (s : Source) (n : Notification)
  /-- a `next()` of `s` gets what was reported -/
  | got (s : Source)
deriving DecidableEq

def Entry.count (s : Source) (l : List Notification) : Entry → List Notification
  | .notice s' n => if s' = s then l ++ [n] else l
  | .got s' => if s' = s then [] else l

/-- the notifications of `s` since the last consumption -/
def unconsumed (s : Source) (h : List Entry) : List Notification := h.foldl (Entry.count s) []

@[simp] theorem unconsumed_notice (s s' : Source) (h : List Entry) (n : Notification) :
    unconsumed s (h ++ [.notice s' n]) =
      if s' = s then unconsumed s h ++ [n] else unconsumed s h := by
  simp [unconsumed, Entry.count]

@[simp] theorem unconsumed_got (s s' : Source) (h : List Entry) :
    unconsumed s (h ++ [.got s']) = if s' = s then [] else unconsumed s h := by
  simp [unconsumed, Entry.count]

/-- the report in an action -/
def Act.report : Act → List Entry
  | .notify s (.fsEvent filename events status throws) =>
    [.notice s ⟨filename, events, status, throws⟩]
  | _ => []

/-- what the events `l` hand out -/
def handouts (w : World) (l : List Event) : List Entry :=
  (l.filterMap Event.fetches).map fun o => .got (w.op o).source

/-- the machine of the waits and its history -/
structure Watched where
  world : World
  history : List Entry := []

def Watched.step (cfg : Config) (v : Watched) (a : Act) : Option Watched :=
  (Wait.step cfg v.world a).map fun w =>
    ⟨w, v.history ++ a.report ++ handouts w (w.log.drop v.world.log.length)⟩

def watched (cfg : Config) : Sys Watched Act := ⟨⟨init cfg, []⟩, Watched.step cfg⟩

/-! ## Steps that leave the retained outcomes alone -/

theorem Quiet.tick {cfg : Config} {w v : World} (h : Inv cfg w) (hs : w.tick cfg = some v) :
    ∃ t, Quiet t w v := by
  unfold World.tick at hs
  split at hs
  · split at hs
    · cases hs
      exact ⟨0, of_same rfl rfl⟩
    · rename_i p t hp
      cases hs
      exact ⟨_, (of_same rfl rfl : Quiet _ w (w.setStops _ _)).trans (onStopRequested cfg _ _)⟩
  · rename_i s k hk
    cases hs
    have hc : (w.src s).closing = true := h.tails s (hk ▸ List.mem_cons_self)
    exact ⟨s, (of_same rfl rfl : Quiet s w { w with stack := k }).trans (closeTail cfg _ s hc)⟩
  · cases hs

/-! ## What is retained is the summary -/

section
variable {cfg : Config} {w w' : World}

theorem step_quiet (h : Inv cfg w) {a : Act} (hs : step cfg w a = some w') (hrep : a.report = [])
    (hq : ∀ q, a = .await q → w.refusal q = none → cfg.family q.source = .fsEvent →
      (w.src q.source).pendingEvent = none) : ∃ t, Quiet t w w' := by
  unfold step at hs
  split at hs
  · cases hs
  cases a with
  | enter | ret =>
    dsimp only at hs
    split at hs <;> cases hs
    exact ⟨0, .of_same rfl rfl⟩
  | tick => exact Quiet.tick h hs
  | await q =>
    obtain ⟨-, rfl⟩ := by simpa using hs
    exact ⟨_, .await (hq q rfl)⟩
  | requestStop c =>
    obtain ⟨-, rfl⟩ := by simpa using hs
    exact ⟨0, .requestStop w c⟩
  | requestClose s other =>
    obtain ⟨-, rfl⟩ := by simpa using hs
    exact ⟨s, .ownerRequestClose cfg w s other⟩
  | destroy s other =>
    obtain ⟨-, rfl⟩ := by simpa using hs
    exact ⟨s, .destroy cfg w s other⟩
  | alloc s =>
    obtain ⟨-, rfl⟩ := by simpa using hs
    exact ⟨s, .onAlloc cfg w s⟩
  | notify s n =>
    obtain ⟨-, rfl⟩ := by simpa using hs
    refine ⟨s, .notify cfg w s ?_⟩
    rintro filename events status throws rfl
    cases hrep

/-- a notification that nobody waits for is added to the summary -/
theorem onFsEvent_idle {s : Source} (hc : (w.src s).closing = false)
    (hs : (w.src s).slot = none) {l : List Notification}
    (hp : (w.src s).pendingEvent = summary l) (n : Notification) :
    w.onFsEvent s n.outcome = w.setSrc s ({ · with pendingEvent := summary (l ++ [n]) }) := by
  have hsame : ∀ y, (w.src s).pendingEvent = some y →
      w.setSrc s ({ · with pendingEvent := some y }) = w := by
    intro y hy
    have hsrc : Function.update w.src s { w.src s with pendingEvent := some y } = w.src := by
      rw [Function.update_eq_self_iff, ← hy]
    simp [World.setSrc, hsrc]
  rw [summary_snoc]
  unfold World.onFsEvent
  simp only [hc, hs, Bool.false_eq_true, if_false, Option.isSome_none]
  rw [← hp]
  cases hy : (w.src s).pendingEvent with
  | none => rfl
  | some y =>
    dsimp only
    split
    · rw [hsame y hy]
    split
    · rfl
    · rfl

/-- while a `next()` is suspended, a notification goes to it -/
theorem onFsEvent_waiting (h : Inv cfg w) {s : Source} {o : Op} (hs : (w.src s).slot = some o)
    (x : FsOutcome) : w.onFsEvent s x = w.handed o (.value (.fs x))
      (Function.update w.src s { w.src s with slot := none }) w.stack := by
  obtain ⟨hc, -, he, -⟩ := (h.src s).held (by rw [hs]; rfl)
  rw [← deliver_some hs]
  unfold World.onFsEvent
  simp [hc, he, hs]

/-- `next()` when something is retained -/
theorem await_retained {q : Request} (hr : w.refusal q = none)
    (hf : cfg.family q.source = .fsEvent) {x : FsOutcome}
    (hp : (w.src q.source).pendingEvent = some x) :
    w.await cfg q = w.rejected q (.value (.fs x))
      (Function.update w.src q.source { w.src q.source with pendingEvent := none }) := by
  have hp' : ((w.begin q).src q.source).pendingEvent = some x := hp
  unfold World.await
  simp only [hr, hf, World.awaitFsEvent, hp']
  simp [World.begin, World.endInline, World.setOp, World.emit, World.rejected, World.setSrc]

/-- a `next()` that ends at once without a notification leaves all sources as they are -/
theorem await_ended {q : Request} (hf : cfg.family q.source = .fsEvent)
    {r : Outcome} (hlog : (w.await cfg q).log = w.log ++ [.ended q.op r])
    (hv : ∀ x, r ≠ .value (.fs x)) : (w.await cfg q).src = w.src := by
  cases hr : w.refusal q with
  | some r' =>
    unfold World.await
    simp only [hr]
    rfl
  | none =>
    cases hp : (w.src q.source).pendingEvent with
    | some x =>
      rw [await_retained hr hf hp] at hlog
      have hend : Outcome.value (.fs x) = r := by simpa [World.rejected] using hlog
      exact absurd hend.symm (hv x)
    | none =>
      have hp' : ((w.begin q).src q.source).pendingEvent = none := hp
      unfold World.await at hlog ⊢
      simp only [hr, hf, World.awaitFsEvent, hp', World.claimAndRegister] at hlog ⊢
      split
      · rfl
      · rename_i hslot
        rw [if_neg hslot, claim_register (refusal_none hr).2] at hlog
        simp [World.suspend, World.emit, World.setOp] at hlog

end

/-- on open sources, what is retained is the summary of what is unconsumed -/
structure Retains (cfg : Config) (v : Watched) : Prop where
  inv : Inv cfg v.world
  retained : ∀ s, cfg.family s = .fsEvent → (v.world.src s).closing = false →
    (v.world.src s).pendingEvent = summary (unconsumed s v.history)

section
variable {cfg : Config} {v v' : Watched}

theorem Retains.quiet (h : Retains cfg v) {w : World} {l : List Entry} (hi : Inv cfg w)
    {t : Source} (hq : Quiet t v.world w) (hl : l = v.history) : Retains cfg ⟨w, l⟩ := by
  refine ⟨hi, fun s hf hc => ?_⟩
  have hopen : (v.world.src s).closing = false := by
    cases hcl : (v.world.src s).closing with
    | false => rfl
    | true => exact (hq.closing s hcl).symm.trans hc
  rcases hq.pending s with hp | hcl
  · rw [hl]
    exact hp.trans (h.retained s hf hopen)
  · rw [hcl] at hc
    cases hc

/-- nothing is handed out in a quiet step -/
theorem Quiet.history {t : Source} {w w' : World} (hq : Quiet t w w') :
    handouts w' (w'.log.drop w.log.length) = [] := by
  obtain ⟨l, hl, hf⟩ := hq.log
  rw [hl, List.drop_left, handouts, hf]
  rfl

/-- the history after a step whose last event hands something out -/
theorem handouts_snoc {w w' : World} {e : Event} {o : Op} (hl : w'.log = w.log ++ [e])
    (he : e.fetches = some o) :
    handouts w' (w'.log.drop w.log.length) = [.got (w'.op o).source] := by
  rw [hl, List.drop_left]
  simp [handouts, he]

theorem handouts_same {w w' : World} (hl : w'.log = w.log) :
    handouts w' (w'.log.drop w.log.length) = [] := by
  rw [hl, List.drop_length]
  rfl

/-- the three ways of a notification: the source is closing, a `next()` waits, nobody waits -/
theorem Retains.notified (h : Retains cfg v) {s : Source} (hf : cfg.family s = .fsEvent)
    (n : Notification) (hi : Inv cfg (v.world.onFsEvent s n.outcome)) :
    Retains cfg ⟨v.world.onFsEvent s n.outcome, v.history ++ [.notice s n] ++
      handouts (v.world.onFsEvent s n.outcome)
        ((v.world.onFsEvent s n.outcome).log.drop v.world.log.length)⟩ := by
  refine ⟨hi, fun s' hf' hc' => ?_⟩
  cases hc : (v.world.src s).closing with
  | true =>
    have heq : v.world.onFsEvent s n.outcome = v.world := by simp [World.onFsEvent, hc]
    have hne : s ≠ s' := by
      rintro rfl
      rw [heq, hc] at hc'
      cases hc'
    dsimp only at hc' ⊢
    rw [heq] at hc'
    rw [handouts_same (by rw [heq]), heq, List.append_nil, unconsumed_notice, if_neg hne]
    exact h.retained s' hf' hc'
  | false =>
    cases hs : (v.world.src s).slot with
    | some o =>
      obtain ⟨-, -, he, -⟩ := (h.inv.src s).held (by rw [hs]; rfl)
      have heq := onFsEvent_waiting h.inv hs n.outcome
      have hsrc : ((v.world.onFsEvent s n.outcome).op o).source = s := by
        rw [heq]
        simpa [World.handed] using ((h.inv.slot s o).mp hs).2
      dsimp only at *
      rw [handouts_snoc (o := o) (by rw [heq]; rfl) rfl, hsrc, unconsumed_got, unconsumed_notice]
      by_cases hne : s = s'
      · subst hne
        rw [if_pos rfl, heq]
        simpa [World.handed, summary] using he
      · rw [if_neg hne, if_neg hne]
        rw [heq] at hc' ⊢
        have hsame : (Function.update v.world.src s { v.world.src s with slot := none }) s' =
            v.world.src s' := Function.update_of_ne (Ne.symm hne) ..
        simp only [World.handed, hsame] at hc' ⊢
        exact h.retained s' hf' hc'
    | none =>
      have heq := onFsEvent_idle hc hs (h.retained s hf hc) n
      dsimp only at *
      rw [handouts_same (by rw [heq]; rfl), List.append_nil, unconsumed_notice]
      rw [heq] at hc' ⊢
      by_cases hne : s = s'
      · subst hne
        simp
      · rw [if_neg hne]
        simp only [World.setSrc_src, if_neg (Ne.symm hne)] at hc' ⊢
        exact h.retained s' hf' hc'

/-- `next()` takes the summary -/
theorem Retains.consumed (h : Retains cfg v) {q : Request} {x : FsOutcome}
    (hr : v.world.refusal q = none) (hf : cfg.family q.source = .fsEvent)
    (hp : (v.world.src q.source).pendingEvent = some x) (hi : Inv cfg (v.world.await cfg q)) :
    handouts (v.world.await cfg q) ((v.world.await cfg q).log.drop v.world.log.length) =
      [.got q.source] ∧ Retains cfg ⟨v.world.await cfg q, v.history ++ [.got q.source]⟩ := by
  have heq := await_retained hr hf hp
  have hsrc : ((v.world.await cfg q).op q.op).source = q.source := by
    rw [heq]
    simp [World.rejected]
  have hlog : (v.world.await cfg q).log = v.world.log ++ [.ended q.op (.value (.fs x))] := by
    rw [heq]
    rfl
  have hout := handouts_snoc (o := q.op) hlog rfl
  rw [hsrc] at hout
  refine ⟨hout, hi, fun s hs hc => ?_⟩
  dsimp only at *
  rw [unconsumed_got]
  rw [heq] at hc ⊢
  by_cases hne : q.source = s
  · subst hne
    simp [World.rejected, summary]
  · have hsame : (Function.update v.world.src q.source
        { v.world.src q.source with pendingEvent := none }) s = v.world.src s :=
      Function.update_of_ne (Ne.symm hne) ..
    rw [if_neg hne]
    simp only [World.rejected, hsame] at hc ⊢
    exact h.retained s hs hc

theorem retains_init (cfg : Config) : Retains cfg (watched cfg).init :=
  ⟨inv_init cfg, fun _ _ _ => rfl⟩

theorem retains_step (h : Retains cfg v) {a : Act} (hs : v.step cfg a = some v') :
    Retains cfg v' := by
  obtain ⟨w, hw, rfl⟩ := Option.map_eq_some_iff.mp hs
  have hi : Inv cfg w := moved_inv h.inv (step_moved h.inv hw)
  by_cases hrep : a.report = []
  · by_cases hq : ∀ q, a = .await q → v.world.refusal q = none → cfg.family q.source = .fsEvent →
      (v.world.src q.source).pendingEvent = none
    · obtain ⟨t, hquiet⟩ := step_quiet h.inv hw hrep hq
      exact h.quiet hi hquiet (by rw [hrep, hquiet.history, List.append_nil, List.append_nil])
    · push Not at hq
      obtain ⟨q, rfl, hr, hf, hp⟩ := hq
      obtain ⟨x, hx⟩ := Option.ne_none_iff_exists'.mp hp
      obtain rfl := step_await hw
      obtain ⟨hout, hret⟩ := h.consumed hr hf hx hi
      rw [hrep, hout, List.append_nil]
      exact hret
  · cases a with
    | notify s n =>
      cases n with
      | fsEvent filename events status throws =>
        unfold step at hw
        split at hw
        · cases hw
        obtain ⟨⟨-, -, hfits⟩, rfl⟩ := by simpa using hw
        have hf : cfg.family s = .fsEvent := by
          revert hfits
          cases cfg.family s <;> simp [Notice.fits]
        exact h.notified hf ⟨filename, events, status, throws⟩ hi
      | _ => exact absurd rfl hrep
    | _ => exact absurd rfl hrep

theorem reach_retains {as : List Act} (hr : (watched cfg).run (watched cfg).init as = some v) :
    Retains cfg v :=
  Sys.run_inv (S := watched cfg) (fun _ _ _ hv hs => retains_step hv hs) (retains_init cfg) hr

end

/-! ## The contract -/

/-- `q` ends at once with the outcome `x`, and everything reported on its source is consumed -/
def Consumes (v v' : Watched) (q : Request) (x : FsOutcome) : Prop :=
  v'.world.log = v.world.log ++ [.ended q.op (.value (.fs x))] ∧
    unconsumed q.source v'.history = []

structure FsContract (cfg : Config) (v : Watched) : Prop where
  /-- `next()` returns the first failure since the last consumption -/
  failure : ∀ q v' n, v.step cfg (.await q) = some v' → cfg.family q.source = .fsEvent →
    v.world.refusal q = none →
    (unconsumed q.source v.history).find? Notification.fails = some n →
    ∃ x, Consumes v v' q x ∧ x.result = n.result
  /-- without a failure, the union of all flags, and the name that all notifications carried -/
  union : ∀ q v', v.step cfg (.await q) = some v' → cfg.family q.source = .fsEvent →
    v.world.refusal q = none → (∀ n ∈ unconsumed q.source v.history, n.fails = false) →
    unconsumed q.source v.history ≠ [] →
    ∃ x e, Consumes v v' q x ∧ x.result = .event e ∧
      e.events = unionEvents (unconsumed q.source v.history) ∧
      ∀ name, e.filename = some name ↔
        ∀ n ∈ unconsumed q.source v.history, n.filename = some name
  /-- a notification during a suspended `next()` resumes it and nothing else, unchanged -/
  delivered : ∀ o (n : Notification) v', Pending v.world o →
    v.step cfg (.notify (v.world.op o).source
      (.fsEvent n.filename n.events n.status n.throws)) = some v' →
    ∃ x, v'.world.log = v.world.log ++ [.resumed o (.value (.fs x))] ∧ x.result = n.result ∧
      unconsumed (v.world.op o).source v'.history = []
  /-- nothing is retained while a `next()` is suspended -/
  waiting : ∀ o, Pending v.world o → cfg.family (v.world.op o).source = .fsEvent →
    (v.world.src (v.world.op o).source).pendingEvent = none ∧
      unconsumed (v.world.op o).source v.history = []
  /-- a `next()` that ends at once with an error changes no source and consumes nothing -/
  rejected : ∀ q v' r, v.step cfg (.await q) = some v' → cfg.family q.source = .fsEvent →
    v'.world.log = v.world.log ++ [.ended q.op r] → (∀ x, r ≠ .value (.fs x)) →
    v'.world.src = v.world.src ∧ v'.history = v.history
  /-- a `next()` that is resumed with an error consumes nothing -/
  canceled : ∀ a v' o c, v.step cfg a = some v' →
    v'.world.log = v.world.log ++ [.resumed o (.error c)] → a.report = [] →
    v'.history = v.history

theorem Notification.result_outcome (n : Notification) : n.outcome.result = n.result := by
  unfold outcome FsOutcome.make FsOutcome.result result
  by_cases hs : n.status < 0
  · have hge : ¬ n.status ≥ 0 := by omega
    simp [hs, hge]
  · have hge : n.status ≥ 0 := by omega
    cases hf : n.filename with
    | none => simp [hs, hge]
    | some name => cases ht : n.throws <;> simp [hs, hge]

section
variable {cfg : Config} {v v' : Watched}

/-- `next()` on a source with unconsumed notifications -/
theorem Retains.consumes (h : Retains cfg v) {q : Request} {x : FsOutcome}
    (hs : v.step cfg (.await q) = some v') (hf : cfg.family q.source = .fsEvent)
    (hr : v.world.refusal q = none) (hx : summary (unconsumed q.source v.history) = some x) :
    Consumes v v' q x := by
  obtain ⟨w, hw, rfl⟩ := Option.map_eq_some_iff.mp hs
  have hi : Inv cfg w := moved_inv h.inv (step_moved h.inv hw)
  obtain rfl := step_await hw
  have hp := (h.retained q.source hf (refusal_none hr).1).trans hx
  obtain ⟨hout, -⟩ := h.consumed hr hf hp hi
  refine ⟨by rw [await_retained hr hf hp]; rfl, ?_⟩
  rw [hout]
  simp [Act.report]

theorem Retains.contract (h : Retains cfg v) : FsContract cfg v where
  failure := by
    intro q v' n hs hf hr hn
    exact ⟨_, h.consumes hs hf hr (summary_of_find hn), n.result_outcome⟩
  union := by
    intro q v' hs hf hr hall hne
    obtain ⟨m, t, hl⟩ := List.exists_cons_of_ne_nil hne
    have hfind : (m :: t).find? Notification.fails = none := by
      rw [← hl]
      exact List.find?_eq_none.mpr fun n hn => by simp [hall n hn]
    have hst := Notification.status_of_not_fails (fails_of_find_none hfind)
    have hsum : summary (unconsumed q.source v.history) = some (together m.status (m :: t)) := by
      rw [hl]
      exact summary_of_none hfind
    refine ⟨_, (together m.status (m :: t)).event, h.consumes hs hf hr hsum, ?_, ?_,
      fun name => ?_⟩
    · simp [FsOutcome.result, together, hst]
    · rw [hl]
      rfl
    · rw [hl]
      exact commonName_eq_some (List.cons_ne_nil m t) name
  delivered := by
    intro o n v' ho hs
    have hslot := (h.inv.slot _ o).mpr ⟨(pending_iff h.inv).mp ho, rfl⟩
    obtain ⟨w, hw, rfl⟩ := Option.map_eq_some_iff.mp hs
    unfold step at hw
    split at hw
    · cases hw
    obtain ⟨-, rfl⟩ := by simpa using hw
    have heq := onFsEvent_waiting h.inv hslot n.outcome
    have hlog : (v.world.notify cfg (v.world.op o).source
        (.fsEvent n.filename n.events n.status n.throws)).log =
          v.world.log ++ [.resumed o (.value (.fs n.outcome))] := by
      show (v.world.onFsEvent (v.world.op o).source n.outcome).log = _
      rw [heq]
      rfl
    refine ⟨_, hlog, n.result_outcome, ?_⟩
    have hsrc : ((v.world.notify cfg (v.world.op o).source
        (.fsEvent n.filename n.events n.status n.throws)).op o).source = (v.world.op o).source := by
      show ((v.world.onFsEvent (v.world.op o).source n.outcome).op o).source = _
      rw [heq]
      simp [World.handed]
    rw [handouts_snoc hlog rfl, hsrc, unconsumed_got, if_pos rfl]
  waiting := by
    intro o ho hf
    have hslot := (h.inv.slot _ o).mpr ⟨(pending_iff h.inv).mp ho, rfl⟩
    obtain ⟨hc, -, he, -⟩ := (h.inv.src _).held (by rw [hslot]; rfl)
    refine ⟨he, ?_⟩
    have hsum := (h.retained _ hf hc).symm.trans he
    cases hl : unconsumed (v.world.op o).source v.history with
    | nil => rfl
    | cons m t =>
      rw [hl] at hsum
      cases hfind : (m :: t).find? Notification.fails with
      | some n =>
        rw [summary_of_find hfind] at hsum
        cases hsum
      | none =>
        rw [summary_of_none hfind] at hsum
        cases hsum
  rejected := by
    intro q v' r hs hf hlog hv
    obtain ⟨w, hw, rfl⟩ := Option.map_eq_some_iff.mp hs
    obtain rfl := step_await hw
    refine ⟨await_ended hf hlog hv, ?_⟩
    have hnone : (Event.ended q.op r).fetches = none := by
      cases r with
      | value y =>
        cases y with
        | fs x => exact absurd rfl (hv x)
        | _ => rfl
      | _ => rfl
    have hnil : handouts (v.world.await cfg q)
        ((v.world.await cfg q).log.drop v.world.log.length) = [] := by
      rw [show (v.world.await cfg q).log = _ from hlog, List.drop_left]
      simp [handouts, hnone]
    show v.history ++ [] ++ _ = _
    rw [hnil, List.append_nil, List.append_nil]
  canceled := by
    intro a v' o c hs hlog hrep
    obtain ⟨w, hw, rfl⟩ := Option.map_eq_some_iff.mp hs
    have hnil : handouts w (w.log.drop v.world.log.length) = [] := by
      rw [show w.log = _ from hlog, List.drop_left]
      rfl
    show v.history ++ a.report ++ _ = _
    rw [hnil, hrep, List.append_nil, List.append_nil]

end

/-- For every run, with any number of sources, `next()` calls, notifications, stops and closes:
what is handed out is the summary of what was reported since the last consumption. -/
theorem retained_summary (cfg : Config) (as : List Act) (v : Watched)
    (hr : (watched cfg).run (watched cfg).init as = some v) : FsContract cfg v :=
  (reach_retains hr).contract

def oneWatcher : Config where
  family _ := .fsEvent
  allowed := 15

/-- Two notifications are coalesced; the next one finds a suspended `next()`; a stopped task and a
second `next()` are rejected; a failure survives the notification after it. -/
def watchedRun : List Act :=
  [.notify 0 (.fsEvent (some "a") 1 0 false), .notify 0 (.fsEvent (some "a") 2 0 false),
    .enter, .requestStop 1, .tick, .await { op := 0, source := 0, task := some 1 },
    .await { op := 1, source := 0, task := some 0 },
    .await { op := 2, source := 0, task := some 0 },
    .await { op := 3, source := 0, task := none }, .ret,
    .notify 0 (.fsEvent (some "b") 1 0 false), .ret,
    .notify 0 (.fsEvent (some "b") 1 0 true), .notify 0 (.fsEvent none 2 (-2) false),
    .enter, .await { op := 4, source := 0, task := none }]

theorem retained_summary_watchedRun : ∃ v,
    (watched oneWatcher).run (watched oneWatcher).init watchedRun = some v ∧
    v.world.log = [.ended 0 (.error .canceled),
      .ended 1 (.value (.fs ⟨0, ⟨some "a", 3⟩, false⟩)), .suspended 2, .ended 3 (.error .busy),
      .resumed 2 (.value (.fs ⟨0, ⟨some "b", 1⟩, false⟩)),
      .ended 4 (.value (.fs ⟨0, ⟨none, 1⟩, true⟩))] ∧ FsContract oneWatcher v :=
  ⟨_, rfl, rfl, retained_summary oneWatcher watchedRun _ rfl⟩

end Wait
