import Uvpp.Machine.Count
import Uvpp.Spawn.Life

/-!
# Every root of the loop lives its life

`life w r` is what the loop shows of the root `r`: its flags, the handles and activations that hold
or run it, its part of the history.  `step_life`: a step of the loop is, for every root, a run of
moves of that root (none for most roots, two when a root joins itself).  So what every move keeps
holds of every root in every run (`step_base`).

The only steps that take the token from a handle without `release()` are the end of an `operator=`
and the end of a destructor that find their handle filled again (`overwrites`).
-/

namespace Spawn

/-- the handles that refer to `r` -/
def held (handle : Nat → Option Nat) (made r : Nat) : Nat :=
  (List.range made).countP fun h => handle h = some r

theorem held_update (handle : Nat → Option Nat) {made h : Nat} (r : Nat) (hh : h < made)
    (v : Option Nat) :
    held (Function.update handle h v) made r + (decide (handle h = some r)).toNat =
      held handle made r + (decide (v = some r)).toNat := by
  have hchange := countP_range_change (p := fun i => handle i = some r)
    (q := fun i => Function.update handle h v i = some r) hh
    (fun j hj => by simp [Function.update_of_ne hj])
  simpa [held] using hchange

theorem held_succ (handle : Nat → Option Nat) (made r : Nat) (v : Option Nat) :
    held (Function.update handle made v) (made + 1) r =
      held handle made r + (decide (v = some r)).toNat := by
  have hbefore : (List.range made).countP (fun h => Function.update handle made v h = some r) =
      (List.range made).countP (fun h => handle h = some r) := by
    refine List.countP_congr fun j hj => ?_
    have hj := List.mem_range.mp hj
    rw [Function.update_of_ne (by omega)]
  rw [held, List.range_succ, List.countP_append, hbefore, List.countP_singleton]
  rw [Function.update_self]
  cases decide (v = some r) <;> simp [held]

/-- what a handle refers to is moved out of it -/
theorem held_take {handle : Nat → Option Nat} {made : Nat} (hn : ∀ h, made ≤ h → handle h = none)
    (h r : Nat) : held (Function.update handle h none) made r + (decide (handle h = some r)).toNat =
      held handle made r := by
  by_cases hh : h < made
  · simpa using held_update handle r hh none
  · have hnone := hn h (by omega)
    rw [← hnone, Function.update_eq_self]
    simp [hnone]

/-- the state of `src` is moved to `dst` -/
theorem held_move {handle : Nat → Option Nat} {made dst src : Nat}
    (hn : ∀ h, made ≤ h → handle h = none) (hd : dst < made) (hne : dst ≠ src) (r : Nat) :
    held (Function.update (Function.update handle dst (handle src)) src none) made r +
      (decide (handle dst = some r)).toNat = held handle made r := by
  have hto := held_update handle r hd (handle src)
  have hn' : ∀ h, made ≤ h → Function.update handle dst (handle src) h = none := by
    intro h hh
    rw [Function.update_of_ne (by omega)]
    exact hn h hh
  have hfrom := held_take hn' src r
  rw [Function.update_of_ne hne.symm] at hfrom
  omega

theorem held_pos {handle : Nat → Option Nat} {made h r : Nat} (hh : h < made)
    (hr : handle h = some r) : 0 < held handle made r :=
  List.countP_pos_iff.mpr ⟨h, List.mem_range.mpr hh, by simp [hr]⟩

/-- the activations of `deliver_completion` of `r` -/
def deliveries (r : Nat) : List Frame → List (List Coro)
  | [] => []
  | .deliver q rest :: k => if q = r then rest :: deliveries r k else deliveries r k
  | _ :: k => deliveries r k

def Event.mark (r : Nat) : Event → Option Mark
  | .joinSuspended q c => if q = r then some (.joinSuspended c) else none
  | .joinResumed q c => if q = r then some (.joinResumed c) else none
  | .completed q e => if q = r then some (.completed e) else none
  | .observed q => if q = r then some .observed else none
  | .routed q => if q = r then some .routed else none
  | .handled _ _ => none
  | .frameDestroyed q => if q = r then some .frameDestroyed else none

/-- what the loop shows of the root `r` -/
def life (w : World) (r : Nat) : Life where
  root := { w.root r with stops := {} }
  spawning := w.stack.count (.spawning r)
  handles := held w.handle w.made r
  releasing := w.stack.count (.releaseEnd r)
  active := w.stack.count (.root r)
  deliveries := Spawn.deliveries r w.stack
  ending := w.stack.count (.batonEnd r)
  log := w.log.filterMap (Event.mark r)

/-- the end of an `operator=` or of a destructor finds its handle filled again -/
def overwrites (w : World) (a : Act) : Bool :=
  match a, w.stack with
  | .tick, .assignEnd h _ :: _ => (w.handle h).isSome
  | .tick, .destroyEnd h :: _ => (w.handle h).isSome
  | _, _ => false

/-- the root to whose state a step gives up a reference -/
def gives (w : World) : Act → Option Nat
  | .dropAwaiter r => some r
  | .tick =>
    match w.stack with
    | .releaseEnd r :: _ => some r
    | .assignEnd h _ :: _ => w.handle h
    | .destroyEnd h :: _ => w.handle h
    | .batonEnd r :: _ => some r
    | _ => none
  | _ => none

/-- the names of handles are in order -/
structure Wf (w : World) : Prop where
  handles : ∀ h, w.made ≤ h → w.handle h = none
  exist : ∀ h, w.made ≤ h → w.ended h = false
  assigns : ∀ dst src, Frame.assignEnd dst src ∈ w.stack → dst < w.made ∧ dst ≠ src
  destroys : ∀ h, Frame.destroyEnd h ∈ w.stack → h < w.made

theorem Wf.made {w : World} (h : Wf w) {n r : Nat} (hr : w.handle n = some r) : n < w.made := by
  by_contra hn
  have := h.handles n (by omega)
  rw [hr] at this
  cases this

section
variable {w : World}

theorem update_none_handles {handle : Nat → Option Nat} {made : Nat}
    (h : ∀ n, made ≤ n → handle n = none) (m : Nat) :
    ∀ n, made ≤ n → Function.update handle m none n = none := by
  intro n hn
  rcases eq_or_ne n m with rfl | hne
  · rw [Function.update_self]
  · rw [Function.update_of_ne hne]
    exact h n hn

theorem update_handles {handle : Nat → Option Nat} {made m : Nat}
    (h : ∀ n, made ≤ n → handle n = none) (hm : m < made) (v : Option Nat) :
    ∀ n, made ≤ n → Function.update handle m v n = none := by
  intro n hn
  rw [Function.update_of_ne (by omega)]
  exact h n hn

/-- what a step does to the handles -/
inductive HandleStep (w : World) (a : Act) (w' : World) : Prop
  | keeps (hh : w'.handle = w.handle) (hm : w'.made = w.made) (he : w'.ended = w.ended)
  /-- `release()` -/
  | empties (n : Nat) (hh : w'.handle = Function.update w.handle n none) (hm : w'.made = w.made)
      (he : w'.ended = w.ended)
  /-- a new handle gets what `spawn` returns, or what another handle had -/
  | makes (u : Nat → Option Nat) (v : Option Nat) (hu : ∀ n, u n = none ∨ u n = w.handle n)
      (hh : w'.handle = Function.update u w.made v) (hm : w'.made = w.made + 1)
      (he : w'.ended = w.ended)
  | assigns {dst src : Nat} {k : List Frame} (ha : a = .tick) (hk : w.stack = .assignEnd dst src :: k)
      (hh : w'.handle = Function.update (Function.update w.handle dst (w.handle src)) src none)
      (hm : w'.made = w.made) (he : w'.ended = w.ended)
  | ends {n : Nat} {k : List Frame} (hk : w.stack = .destroyEnd n :: k)
      (hh : w'.handle = Function.update w.handle n none) (hm : w'.made = w.made)
      (he : w'.ended = Function.update w.ended n true)

theorem SameRest.keeps {w w' : World} {a : Act} (h : SameRest w w') : HandleStep w a w' :=
  .keeps h.handle h.made h.ended

theorem step_handles {w' : World} {a : Act} (hs : step w a = some w') : HandleStep w a w' := by
  cases step_cases hs with
  | observe hf hh hc =>
    unfold World.observe
    split <;> exact .keeps rfl rfl rfl
  | requestStop hf hh => exact (requestStop_rest w _ _).1.keeps
  | dropAwaiter hf ha => exact (drop_rest w _ _).1.keeps
  | @moveConstruct h hf =>
    refine .makes (Function.update w.handle h none) (w.handle h) (fun n => ?_) rfl rfl rfl
    rcases eq_or_ne n h with rfl | hne
    · exact Or.inl (Function.update_self ..)
    · exact Or.inr (Function.update_of_ne hne ..)
  | @moveAssign dst src hf hne hd =>
    obtain ⟨h1, h2, h3, -, -⟩ := release_rest (w.push (.assignEnd dst src)) dst
    exact .empties dst h1 h2 h3
  | @destroyHandle n hf hd =>
    obtain ⟨h1, h2, h3, -, -⟩ := release_rest (w.push (.destroyEnd n)) n
    exact .empties n h1 h2 h3
  | stopRound hk =>
    unfold World.stopRound
    dsimp only
    split <;> exact .keeps rfl rfl rfl
  | @releaseEnd r k | @batonEnd r k =>
    obtain ⟨h1, h2, h3, -, -⟩ := (drop_rest { w with stack := k } r _).1
    exact .keeps h1 h2 h3
  | @assignEnd dst src k hk =>
    obtain ⟨h1, h2, h3, -, -⟩ := (discard_rest { w with stack := k } { w with
      stack := k
      handle := Function.update (Function.update w.handle dst (w.handle src)) src none } dst).1
    exact .assigns rfl hk h1 h2 h3
  | @destroyEnd n k hk =>
    obtain ⟨h1, h2, h3, -, -⟩ := (discard_rest { w with stack := k } { w with
      stack := k
      handle := Function.update w.handle n none
      ended := Function.update w.ended n true } n).1
    exact .ends hk h1 h2 h3
  | @deliver r rest k hk =>
    unfold World.deliver
    split
    · exact .keeps rfl rfl rfl
    · dsimp only
      split
      · obtain ⟨h1, h2, h3, -, -⟩ := report_rest { w with stack := .batonEnd r :: k } r
        exact .keeps h1 h2 h3
      · exact .keeps rfl rfl rfl
  | spawning hk => exact .makes w.handle _ (fun _ => Or.inr rfl) rfl rfl rfl
  | _ => exact .keeps rfl rfl rfl

theorem HandleStep.wf {w' : World} {a : Act} (hs : HandleStep w a w') (h : Wf w) :
    w.made ≤ w'.made ∧ (∀ n, w'.made ≤ n → w'.handle n = none) ∧
      ∀ n, w'.made ≤ n → w'.ended n = false := by
  cases hs with
  | keeps hh hm he =>
    rw [hh, hm, he]
    exact ⟨le_rfl, h.handles, h.exist⟩
  | empties n hh hm he =>
    rw [hh, hm, he]
    exact ⟨le_rfl, update_none_handles h.handles n, h.exist⟩
  | makes u v hu hh hm he =>
    rw [hh, hm, he]
    refine ⟨Nat.le_succ _, update_handles (fun n hn => ?_) (Nat.lt_succ_self _) v,
      fun n hn => h.exist n (by omega)⟩
    rcases hu n with hn' | hn'
    · exact hn'
    · exact hn'.trans (h.handles n (by omega))
  | @assigns dst src k ha hk hh hm he =>
    have hd := (h.assigns dst src (by rw [hk]; exact List.mem_cons_self ..)).1
    rw [hh, hm, he]
    exact ⟨le_rfl, update_none_handles (update_handles h.handles hd (w.handle src)) src, h.exist⟩
  | @ends n k hk hh hm he =>
    have hn := h.destroys n (by rw [hk]; exact List.mem_cons_self ..)
    rw [hh, hm, he]
    refine ⟨le_rfl, update_none_handles h.handles n, fun m hm => ?_⟩
    rw [Function.update_of_ne (by omega)]
    exact h.exist m hm

theorem step_wf {w' : World} {a : Act} (h : Wf w) (hs : step w a = some w') : Wf w' := by
  obtain ⟨hle, hhandles, hexist⟩ := (step_handles hs).wf h
  refine ⟨hhandles, hexist, fun dst src hm => ?_, fun n hm => ?_⟩
  · rcases step_mem hs hm with hold | hnew
    · obtain ⟨hd, hne⟩ := h.assigns dst src hold
      exact ⟨by omega, hne⟩
    · cases hnew with
      | assignEnd hd hne => exact ⟨by omega, hne⟩
  · rcases step_mem hs hm with hold | hnew
    · have := h.destroys n hold
      omega
    · cases hnew with
      | destroyEnd hd => omega

end

/-! ## the functions of the loop, seen from one root -/

section
variable {w : World} {r q : Nat}

theorem life_collect_self : life (w.collect r) r = (life w r).collect := by
  have hrefs : (life w r).root.refs = (w.root r).refs := rfl
  have hframe : (life w r).root.frame = (w.root r).frame := rfl
  unfold World.collect Life.collect
  rw [hrefs, hframe]
  by_cases h0 : (w.root r).refs = 0
  · by_cases hf : (w.root r).frame = .final
    · rw [if_pos h0, if_pos hf, if_pos ⟨h0, hf⟩]
      simp [life, World.setRoot, World.emit, Life.emit, Event.mark]
    · rw [if_pos h0, if_neg hf, if_neg (fun h => hf h.2)]
      rfl
  · rw [if_neg h0, if_neg (fun h => h0 h.1)]

theorem life_collect_ne (hq : q ≠ r) : life (w.collect r) q = life w q := by
  unfold World.collect
  split
  · split
    · simp [life, World.setRoot, World.emit, Event.mark, hq, hq.symm]
    · rfl
  · rfl

theorem life_report_self : life (w.report r) r = (life w r).report := by
  have hneeds : (life w r).root.needsReport = (w.root r).needsReport := rfl
  unfold World.report Life.report
  rw [hneeds]
  split
  · dsimp only
    split <;>
    simp [life, World.setRoot, World.emit, World.push, Life.emit, Event.mark, deliveries]
  · rfl

theorem life_report_ne (hq : q ≠ r) : life (w.report r) q = life w q := by
  unfold World.report
  split
  · dsimp only
    split <;>
    simp [life, World.setRoot, World.emit, World.push, Event.mark, deliveries, hq, hq.symm]
  · rfl

theorem life_requestStop (v : Via) : life (w.requestStop r v) q = life w q := by
  unfold World.requestStop
  split
  · by_cases hq : q = r
    · subst hq
      simp [life, World.setRoot, World.push, deliveries]
    · simp [life, World.setRoot, World.push, deliveries, hq]
  · rfl

theorem life_push {f : Frame} (hs : f ≠ .spawning q) (hl : f ≠ .releaseEnd q) (hr : f ≠ .root q)
    (hb : f ≠ .batonEnd q) (hd : ∀ rest, f ≠ .deliver q rest) : life (w.push f) q = life w q := by
  have hdel : deliveries q (f :: w.stack) = deliveries q w.stack := by
    cases f <;> simp [deliveries]
    rename_i n rest
    exact fun hn => absurd rfl (hn ▸ hd rest)
  simp [life, World.push, hdel, hs, hl, hr, hb]

theorem life_release_self {h : Nat} (hw : ∀ n, w.made ≤ n → w.handle n = none)
    (hh : w.handle h = some r) : life (w.release h) r = (life w r).release := by
  have htake := held_take hw h r
  rw [hh, decide_eq_true rfl, Bool.toNat_true] at htake
  have hmoved : life ({ w with handle := Function.update w.handle h none }.push (.releaseEnd r)) r =
      { life w r with
        handles := (life w r).handles - 1, releasing := (life w r).releasing + 1 } := by
    simp [life, World.push, deliveries]
    omega
  have hdone : (life w r).root.completed = (w.root r).completed := rfl
  unfold World.release Life.release
  simp only [hh]
  split
  · rename_i hc
    rw [life_report_self, hmoved, if_pos (hdone.trans hc)]
  · rename_i hc
    rw [life_requestStop, if_neg (fun h' => hc (hdone.symm.trans h'))]
    simp [life, World.push, World.setRoot, deliveries]
    omega

theorem life_release_ne {h : Nat} (hw : ∀ n, w.made ≤ n → w.handle n = none)
    (hh : w.handle h = some r) (hq : q ≠ r) : life (w.release h) q = life w q := by
  have htake := held_take hw h q
  rw [hh, decide_eq_false (by simpa using hq.symm), Bool.toNat_false] at htake
  have hmoved : life ({ w with handle := Function.update w.handle h none }.push (.releaseEnd r)) q =
      life w q := by
    simp [life, World.push, deliveries, hq.symm]
    omega
  unfold World.release
  simp only [hh]
  split
  · rw [life_report_ne hq, hmoved]
  · rw [life_requestStop, ← hmoved]
    simp [life, World.push, World.setRoot, deliveries, hq]

end

/-! ## steps of the loop, seen from one root -/

section
variable {w : World} {r q : Nat} {k : List Frame} {Q : Move → Prop}

theorem along_same {w' : World} (h : life w' r = life w r) :
    lifeSys.Along Q (life w r) (life w' r) := by
  rw [h]
  exact .refl _

theorem along_spawn (hm : Q .spawn) (hb : (w.root q).frame = .unborn) :
    lifeSys.Along Q (life w r) (life (w.spawn q) r) := by
  by_cases hq : r = q
  · subst hq
    refine .one hm ((if_pos (show (life w r).root.frame = .unborn from hb)).trans ?_)
    simp [life, World.spawn, World.setRoot, deliveries]
  · refine along_same ?_
    simp [life, World.spawn, World.setRoot, deliveries, hq, Ne.symm hq]

theorem along_suspend {t : Cancel.Stops Unit Unit} (hm : Q .suspend) (hk : w.stack = .root q :: k) :
    lifeSys.Along Q (life w r) (life (w.suspend q k t) r) := by
  by_cases hq : r = q
  · subst hq
    have ha : 0 < (life w r).active := by simp [life, hk]
    refine .one hm ((if_pos ha).trans ?_)
    simp [life, World.suspend, World.setRoot, hk, deliveries]
  · refine along_same ?_
    simp [life, World.suspend, World.setRoot, hk, deliveries, hq, Ne.symm hq]

theorem along_finish {e : Option Exc} (hm : Q (.finish e)) (hk : w.stack = .root q :: k) :
    lifeSys.Along Q (life w r) (life (w.finish q k e) r) := by
  by_cases hq : r = q
  · subst hq
    have ha : 0 < (life w r).active := by simp [life, hk]
    refine .one hm ((if_pos ha).trans ?_)
    simp [life, World.finish, Life.finish, World.setRoot, hk, deliveries, Event.mark]
  · refine along_same ?_
    simp [life, World.finish, World.setRoot, hk, deliveries, Event.mark, hq, Ne.symm hq]

theorem along_resume (hm : Q .resume) (hb : (w.root q).frame = .suspended) :
    lifeSys.Along Q (life w r) (life (w.resume q) r) := by
  by_cases hq : r = q
  · subst hq
    refine .one hm ((if_pos (show (life w r).root.frame = .suspended from hb)).trans ?_)
    simp [life, World.resume, World.setRoot, World.push, deliveries]
  · refine along_same ?_
    simp [life, World.resume, World.setRoot, World.push, deliveries, hq, Ne.symm hq]

theorem along_observe {h : Nat} (hw : Wf w) (hm : Q .observe) (hh : w.handle h = some q)
    (hc : (w.root q).completed = true) : lifeSys.Along Q (life w r) (life (w.observe q) r) := by
  by_cases hq : r = q
  · subst hq
    have hg : 0 < (life w r).handles ∧ (life w r).root.completed = true :=
      ⟨held_pos (hw.made hh) hh, hc⟩
    have hfail : (life w r).root.failure = (w.root r).failure := rfl
    refine .one hm ((if_pos hg).trans ?_)
    rw [Life.observe, World.observe, hfail]
    split <;> simp [life, World.setRoot, World.emit, Life.emit, Event.mark]
  · refine along_same ?_
    unfold World.observe
    split <;> simp [life, World.setRoot, World.emit, Event.mark, hq, Ne.symm hq]

theorem along_join {h : Nat} (hw : Wf w) (hm : Q .join) (hh : w.handle h = some q) :
    lifeSys.Along Q (life w r)
      (life (w.setRoot q { w.root q with awaiters := (w.root q).awaiters + 1 }) r) := by
  by_cases hq : r = q
  · subst hq
    refine .one hm ((if_pos (show 0 < (life w r).handles from held_pos (hw.made hh) hh)).trans ?_)
    simp [life, World.setRoot]
  · exact along_same (by simp [life, World.setRoot, hq])

theorem suspend_awaiters (w : World) (p q : Nat) (k : List Frame) (t : Cancel.Stops Unit Unit) :
    ((w.suspend p k t).root q).awaiters = (w.root q).awaiters ∧
      ((w.suspend p k t).root q).completed = (w.root q).completed := by
  by_cases hq : q = p
  · subst hq
    simp [World.suspend, World.setRoot]
  · simp [World.suspend, World.setRoot, hq]

theorem along_await {c : Coro} (hm : Q (.await c)) (ha : 0 < (w.root q).awaiters)
    (hc : (w.root q).completed = false) : lifeSys.Along Q (life w r) (life (w.await q c) r) := by
  by_cases hq : r = q
  · subst hq
    have hg : 0 < (life w r).root.awaiters ∧ (life w r).root.completed = false := ⟨ha, hc⟩
    refine .one hm ((if_pos hg).trans ?_)
    simp [life, World.await, Life.await, World.setRoot, World.emit, Life.emit, Event.mark]
  · refine along_same ?_
    simp [life, World.await, World.setRoot, World.emit, Event.mark, hq, Ne.symm hq]

theorem along_dropAwaiter (hm : r = q → Q .dropAwaiter) (ha : 0 < (w.root q).awaiters) :
    lifeSys.Along Q (life w r) (life (w.dropAwaiter q) r) := by
  unfold World.dropAwaiter
  by_cases hq : r = q
  · subst hq
    refine .one (hm rfl) ((if_pos (show 0 < (life w r).root.awaiters from ha)).trans ?_)
    rw [life_collect_self, Life.dropAwaiter]
    simp [life, World.setRoot]
  · refine along_same ?_
    rw [life_collect_ne hq]
    simp [life, World.setRoot, hq]

/-- `release()` under an activation of its caller -/
theorem along_release {f : Frame} {h : Nat} (hw : Wf w) (hm : Q .release)
    (hf : life (w.push f) r = life w r) :
    lifeSys.Along Q (life w r) (life ((w.push f).release h) r) := by
  rw [← hf]
  cases hh : w.handle h with
  | none => exact along_same (by simp [World.release, World.push, hh])
  | some q =>
    by_cases hq : r = q
    · subst hq
      refine .one hm ((if_pos (show 0 < (life (w.push f) r).handles from
        held_pos (hw.made hh) hh)).trans ?_)
      rw [life_release_self (w := w.push f) hw.handles hh]
    · exact along_same (life_release_ne (w := w.push f) hw.handles hh hq)

theorem life_stopRound {v : Via} (hk : w.stack = .stopLoop q v :: k) :
    life (w.stopRound q k) r = life w r := by
  unfold World.stopRound
  dsimp only
  split
  · simp [life, hk, deliveries]
  · by_cases hq : r = q
    · subst hq
      simp [life, World.setRoot, World.push, hk, deliveries]
    · simp [life, World.setRoot, World.push, hk, deliveries, hq]

theorem along_releaseEnd (hm : r = q → Q .dropToken) (hk : w.stack = .releaseEnd q :: k) :
    lifeSys.Along Q (life w r) (life ({ w with stack := k }.dropToken q) r) := by
  unfold World.dropToken
  by_cases hq : r = q
  · subst hq
    have hg : 0 < (life w r).releasing := by simp [life, hk]
    refine .one (hm rfl) ((if_pos hg).trans ?_)
    rw [life_collect_self, Life.dropToken]
    simp [life, World.setRoot, hk, deliveries]
  · refine along_same ?_
    rw [life_collect_ne hq]
    simp [life, World.setRoot, hk, deliveries, hq, Ne.symm hq]

/-- the handle `h` is written over or destroyed: what it held is dropped -/
theorem along_discard {h : Nat} {handle : Nat → Option Nat} {ended : Nat → Bool} (hw : Wf w)
    (hpop : life { w with stack := k } r = life w r)
    (hheld : held handle w.made r + (decide (w.handle h = some r)).toNat = held w.handle w.made r)
    (hm : w.handle h = some r → Q .overwrite) :
    lifeSys.Along Q (life w r) (life ({ w with stack := k }.discard
      { w with stack := k, handle := handle, ended := ended } h) r) := by
  unfold World.discard
  rw [← hpop]
  cases hh : w.handle h with
  | none =>
    refine along_same ?_
    rw [hh] at hheld
    simpa [life] using hheld
  | some q =>
    rw [hh] at hheld hm
    dsimp only [World.dropToken]
    by_cases hq : r = q
    · subst hq
      have hg : 0 < (life { w with stack := k } r).handles := held_pos (hw.made hh) hh
      rw [decide_eq_true rfl, Bool.toNat_true] at hheld
      refine .one (hm rfl) ((if_pos hg).trans ?_)
      rw [life_collect_self, Life.dropToken]
      simp [life, World.setRoot, ← hheld]
    · refine along_same ?_
      rw [life_collect_ne hq]
      simpa [life, World.setRoot, hq, Ne.symm hq] using hheld

theorem along_deliver {rest : List Coro} (hj : Q .resumeJoiner) (he : Q .endDelivery)
    (hk : w.stack = .deliver q rest :: k) :
    lifeSys.Along Q (life w r) (life (w.deliver q rest k) r) := by
  cases rest with
  | cons c rest =>
    by_cases hq : r = q
    · subst hq
      refine .one hj ?_
      simp [lifeSys, Life.step, Life.resumeJoiner, life, World.deliver, World.setRoot, hk,
        deliveries, Event.mark]
    · refine along_same ?_
      simp [life, World.deliver, World.setRoot, hk, deliveries, Event.mark, hq, Ne.symm hq]
  | nil =>
    have habandoned : (life w q).root.publicHandleAbandoned =
      (w.root q).publicHandleAbandoned := rfl
    by_cases hq : r = q
    · subst hq
      have hd : (life w r).deliveries = [] :: deliveries r k := by simp [life, hk, deliveries]
      refine .one he ?_
      simp only [lifeSys, Life.step, hd, Life.endDelivery, World.deliver, habandoned]
      split
      · rw [life_report_self]
        simp [life, hk, deliveries]
      · simp [life, hk, deliveries]
    · refine along_same ?_
      simp only [World.deliver]
      split
      · rw [life_report_ne hq]
        simp [life, hk, deliveries, Ne.symm hq]
      · simp [life, hk, deliveries, Ne.symm hq]

theorem along_batonEnd (hm : r = q → Q .dropBaton) (hk : w.stack = .batonEnd q :: k) :
    lifeSys.Along Q (life w r) (life ({ w with stack := k }.dropBaton q) r) := by
  unfold World.dropBaton
  by_cases hq : r = q
  · subst hq
    have hg : 0 < (life w r).ending := by simp [life, hk]
    refine .one (hm rfl) ((if_pos hg).trans ?_)
    rw [life_collect_self, Life.dropBaton]
    simp [life, World.setRoot, hk, deliveries]
  · refine along_same ?_
    rw [life_collect_ne hq]
    simp [life, World.setRoot, hk, deliveries, hq, Ne.symm hq]

theorem along_spawning (hm : Q .handOut) (hk : w.stack = .spawning q :: k) :
    lifeSys.Along Q (life w r) (life { w with
      stack := k, handle := Function.update w.handle w.made (some q), made := w.made + 1 } r) := by
  have hsucc := held_succ w.handle w.made r (some q)
  by_cases hq : r = q
  · subst hq
    have hg : 0 < (life w r).spawning := by simp [life, hk]
    refine .one hm ((if_pos hg).trans ?_)
    simp [life, hk, deliveries, hsucc]
  · refine along_same ?_
    simp [life, hk, deliveries, hsucc, Ne.symm hq]

end

/-- what a step must be to make the move `m` of the root `r` -/
structure Explains (w : World) (a : Act) (r : Nat) (m : Move) : Prop where
  overwrite : m = .overwrite → overwrites w a = true
  drops : m.drops = true → gives w a = some r

/-- a step of the loop is a run of moves of every root -/
theorem step_life {w w' : World} {a : Act} (hw : Wf w) (hs : step w a = some w') (r : Nat) :
    lifeSys.Along (Explains w a r) (life w r) (life w' r) := by
  cases step_cases hs with
  | enter hf => exact along_same (life_push nofun nofun nofun nofun nofun)
  | userRet hk | handlerRet hk => exact along_same (by simp [life, hk, deliveries])
  | spawn hf hb => exact along_spawn ⟨nofun, nofun⟩ hb
  | suspend hk ht => exact along_suspend ⟨nofun, nofun⟩ hk
  | finish hk => exact along_finish ⟨nofun, nofun⟩ hk
  | resume hf hb => exact along_resume ⟨nofun, nofun⟩ hb
  | observe hf hh hc => exact along_observe hw ⟨nofun, nofun⟩ hh hc
  | requestStop hf hh => exact along_same (life_requestStop .handle)
  | join hf hh => exact along_join hw ⟨nofun, nofun⟩ hh
  | @userAwait q c k hk ha hc =>
    have hpop : life { w with stack := k } r = life w r := by simp [life, hk, deliveries]
    rw [← hpop]
    exact along_await ⟨nofun, nofun⟩ ha hc
  | @rootAwait q p c k hk ha hc =>
    have hsame := suspend_awaiters w p q k (w.root p).stops
    exact (along_suspend ⟨nofun, nofun⟩ hk).trans
      (along_await ⟨nofun, nofun⟩ (hsame.1.symm ▸ ha) (hsame.2.trans hc))
  | dropAwaiter hf ha => exact along_dropAwaiter (fun hq => ⟨nofun, fun _ => hq ▸ rfl⟩) ha
  | @moveConstruct h hf =>
    have htake := held_take hw.handles h r
    have hsucc := held_succ (Function.update w.handle h none) w.made r (w.handle h)
    refine along_same ?_
    simp only [life, hsucc, htake]
  | moveAssign | destroyHandle =>
    exact along_release hw ⟨nofun, nofun⟩ (life_push nofun nofun nofun nofun nofun)
  | setHandler hf => exact along_same rfl
  | stopRound hk => exact along_same (life_stopRound hk)
  | releaseEnd hk =>
    exact along_releaseEnd (fun hq => ⟨nofun, fun _ => by simp [gives, hk, hq]⟩) hk
  | @assignEnd dst src k hk =>
    obtain ⟨hd, hne⟩ := hw.assigns dst src (by rw [hk]; exact List.mem_cons_self ..)
    refine along_discard hw (by simp [life, hk, deliveries]) (held_move hw.handles hd hne r)
      fun hr => ⟨fun _ => ?_, fun _ => ?_⟩
    · simp [overwrites, hk, hr]
    · simp [gives, hk, hr]
  | @destroyEnd n k hk =>
    refine along_discard hw (by simp [life, hk, deliveries]) (held_take hw.handles n r)
      fun hr => ⟨fun _ => ?_, fun _ => ?_⟩
    · simp [overwrites, hk, hr]
    · simp [gives, hk, hr]
  | deliver hk => exact along_deliver ⟨nofun, nofun⟩ ⟨nofun, nofun⟩ hk
  | batonEnd hk =>
    exact along_batonEnd (fun hq => ⟨nofun, fun _ => by simp [gives, hk, hq]⟩) hk
  | spawning hk => exact along_spawning ⟨nofun, nofun⟩ hk

/-- what holds of every root in every run -/
structure Base (w : World) : Prop where
  wf : Wf w
  refs : ∀ r, Refs (life w r)

theorem step_base {w w' : World} {a : Act} (h : Base w) (hs : step w a = some w') : Base w' :=
  ⟨step_wf h.wf hs, fun r => (step_life h.wf hs r).inv
    (fun _ _ _ hl _ hm => refs_step hl hm) (h.refs r)⟩

theorem base_init (c : Option Handler) : Base (sys c).init :=
  ⟨⟨fun _ _ => rfl, fun _ _ => rfl, nofun, nofun⟩, fun _ => refs_init⟩

end Spawn
