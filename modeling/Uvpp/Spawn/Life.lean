import Uvpp.Spawn.Model

/-!
# The life of one root

What happens to a single root, whatever the other roots, the handles and the call stack look like:
how many activations and handles hold its token, which of its activations are on the stack, and
what the history says about it.  A `Move` is one change of this view; the loop as a whole is shown
to make only such moves in `Spawn.Project`.

* `Life`, `Life.step`, `lifeSys`   the machine of one root;
* `moved`      what a move can do;
* `Refs`       every reference is accounted for; the last one is dropped at the final suspend point.
-/

namespace Spawn

/-- what the history says about one root -/
inductive Mark where
  | joinSuspended (c : Coro)
  | joinResumed (c : Coro)
  | completed (e : Option Exc)
  | observed
  | routed
  | frameDestroyed
deriving DecidableEq

structure Life where
  root : Root := {}
  /-- activations of `spawn` that hold the token -/
  spawning : Nat := 0
  /-- handles that hold the token -/
  handles : Nat := 0
  /-- activations of `release()` that hold the token -/
  releasing : Nat := 0
  /-- activations of the root itself -/
  active : Nat := 0
  /-- activations of `deliver_completion`, with the joiners they have not resumed yet -/
  deliveries : List (List Coro) := []
  /-- activations of the baton after `deliver_completion` -/
  ending : Nat := 0
  log : List Mark := []

inductive Move where
  | spawn
  /-- `spawn` returns the handle -/
  | handOut
  | release
  | dropToken
  /-- the reference of a handle is dropped without `release()` -/
  | overwrite
  | suspend
  | finish (e : Option Exc)
  | resume
  | observe
  | join
  | await (c : Coro)
  | dropAwaiter
  | resumeJoiner
  | endDelivery
  | dropBaton
deriving DecidableEq

/-- the moves that give up a reference -/
def Move.drops : Move → Bool
  | .dropToken | .overwrite | .dropAwaiter | .dropBaton => true
  | _ => false

namespace Life

def emit (l : Life) (e : Mark) : Life := { l with log := l.log ++ [e] }

def collect (l : Life) : Life :=
  if l.root.refs = 0 ∧ l.root.frame = .final then
    { l with root := { l.root with frame := .destroyed, alive := false } }.emit .frameDestroyed
  else l

def report (l : Life) : Life :=
  if l.root.needsReport then
    { l with root := { l.root with failureReported := true } }.emit .routed
  else l

/-- the token leaves a handle for the local of `release()` -/
def release (l : Life) : Life :=
  if l.root.completed then
    { l with handles := l.handles - 1, releasing := l.releasing + 1 }.report
  else { l with
    root := { l.root with publicHandleAbandoned := true }
    handles := l.handles - 1
    releasing := l.releasing + 1 }

def dropToken (l : Life) : Life := { l with root := { l.root with token := false } }.collect

def dropBaton (l : Life) : Life := { l with root := { l.root with batonRef := false } }.collect

def dropAwaiter (l : Life) : Life :=
  { l with root := { l.root with awaiters := l.root.awaiters - 1 } }.collect

def observe (l : Life) : Life :=
  if l.root.failure.isSome then
    { l with root := { l.root with failureObserved := true } }.emit .observed
  else l

def finish (l : Life) (e : Option Exc) : Life :=
  { l with
    root := { l.root with frame := .final, failure := e, completed := true, joiners := [] }
    active := l.active - 1
    deliveries := l.root.joiners :: l.deliveries
    log := l.log ++ [.completed e] }

def await (l : Life) (c : Coro) : Life :=
  { l with root := { l.root with
      joiners := l.root.joiners ++ [c], awaiters := l.root.awaiters - 1 } }.emit (.joinSuspended c)

def resumeJoiner (l : Life) (c : Coro) (rest : List Coro) (ds : List (List Coro)) : Life :=
  { l with
    root := { l.root with awaiters := l.root.awaiters + 1 }
    deliveries := rest :: ds
    log := l.log ++ [.joinResumed c] }

def endDelivery (l : Life) (ds : List (List Coro)) : Life :=
  if l.root.publicHandleAbandoned then
    { l with deliveries := ds, ending := l.ending + 1 }.report
  else { l with deliveries := ds, ending := l.ending + 1 }

def step (l : Life) : Move → Option Life
  | .spawn =>
    if l.root.frame = .unborn then
      some { l with
        root := { frame := .running, token := true, batonRef := true, alive := true }
        spawning := l.spawning + 1
        active := l.active + 1 }
    else none
  | .handOut =>
    if 0 < l.spawning then
      some { l with spawning := l.spawning - 1, handles := l.handles + 1 }
    else none
  | .release => if 0 < l.handles then some l.release else none
  | .dropToken =>
    if 0 < l.releasing then some { l with releasing := l.releasing - 1 }.dropToken else none
  | .overwrite =>
    if 0 < l.handles then some { l with handles := l.handles - 1 }.dropToken else none
  | .suspend =>
    if 0 < l.active then
      some { l with root := { l.root with frame := .suspended }, active := l.active - 1 }
    else none
  | .finish e => if 0 < l.active then some (l.finish e) else none
  | .resume =>
    if l.root.frame = .suspended then
      some { l with root := { l.root with frame := .running }, active := l.active + 1 }
    else none
  | .observe => if 0 < l.handles ∧ l.root.completed = true then some l.observe else none
  | .join =>
    if 0 < l.handles then
      some { l with root := { l.root with awaiters := l.root.awaiters + 1 } }
    else none
  | .await c =>
    if 0 < l.root.awaiters ∧ l.root.completed = false then some (l.await c) else none
  | .dropAwaiter => if 0 < l.root.awaiters then some l.dropAwaiter else none
  | .resumeJoiner =>
    match l.deliveries with
    | (c :: rest) :: ds => some (l.resumeJoiner c rest ds)
    | _ => none
  | .endDelivery =>
    match l.deliveries with
    | [] :: ds => some (l.endDelivery ds)
    | _ => none
  | .dropBaton =>
    if 0 < l.ending then some { l with ending := l.ending - 1 }.dropBaton else none

end Life

/-- the machine of one root -/
def lifeSys : Sys Life Move := ⟨{}, Life.step⟩

/-- the moves of a root, with what is known when they are made -/
inductive Moved (l : Life) : Move → Life → Prop
  | spawn (hf : l.root.frame = .unborn) : Moved l .spawn { l with
      root := { frame := .running, token := true, batonRef := true, alive := true }
      spawning := l.spawning + 1
      active := l.active + 1 }
  | handOut (hs : 0 < l.spawning) :
      Moved l .handOut { l with spawning := l.spawning - 1, handles := l.handles + 1 }
  | release (hh : 0 < l.handles) : Moved l .release l.release
  | dropToken (hr : 0 < l.releasing) :
      Moved l .dropToken { l with releasing := l.releasing - 1 }.dropToken
  | overwrite (hh : 0 < l.handles) :
      Moved l .overwrite { l with handles := l.handles - 1 }.dropToken
  | suspend (ha : 0 < l.active) :
      Moved l .suspend { l with root := { l.root with frame := .suspended }, active := l.active - 1 }
  | finish (ha : 0 < l.active) (e : Option Exc) : Moved l (.finish e) (l.finish e)
  | resume (hf : l.root.frame = .suspended) :
      Moved l .resume { l with root := { l.root with frame := .running }, active := l.active + 1 }
  | observe (hh : 0 < l.handles) (hc : l.root.completed = true) : Moved l .observe l.observe
  | join (hh : 0 < l.handles) :
      Moved l .join { l with root := { l.root with awaiters := l.root.awaiters + 1 } }
  | await (ha : 0 < l.root.awaiters) (hc : l.root.completed = false) (c : Coro) :
      Moved l (.await c) (l.await c)
  | dropAwaiter (ha : 0 < l.root.awaiters) : Moved l .dropAwaiter l.dropAwaiter
  | resumeJoiner {c : Coro} {rest : List Coro} {ds : List (List Coro)}
      (hd : l.deliveries = (c :: rest) :: ds) : Moved l .resumeJoiner (l.resumeJoiner c rest ds)
  | endDelivery {ds : List (List Coro)} (hd : l.deliveries = [] :: ds) :
      Moved l .endDelivery (l.endDelivery ds)
  | dropBaton (he : 0 < l.ending) :
      Moved l .dropBaton { l with ending := l.ending - 1 }.dropBaton

theorem moved {l l' : Life} {m : Move} (hs : lifeSys.step l m = some l') : Moved l m l' := by
  have hguard {c : Prop} [Decidable c] {x : Life} (h : (if c then some x else none) = some l') :
      c ∧ x = l' := by simpa using h
  cases m with
  | spawn => obtain ⟨hf, rfl⟩ := hguard hs; exact .spawn hf
  | handOut => obtain ⟨hp, rfl⟩ := hguard hs; exact .handOut hp
  | release => obtain ⟨hh, rfl⟩ := hguard hs; exact .release hh
  | dropToken => obtain ⟨hr, rfl⟩ := hguard hs; exact .dropToken hr
  | overwrite => obtain ⟨hh, rfl⟩ := hguard hs; exact .overwrite hh
  | suspend => obtain ⟨ha, rfl⟩ := hguard hs; exact .suspend ha
  | finish e => obtain ⟨ha, rfl⟩ := hguard hs; exact .finish ha e
  | resume => obtain ⟨hf, rfl⟩ := hguard hs; exact .resume hf
  | observe => obtain ⟨⟨hh, hc⟩, rfl⟩ := hguard hs; exact .observe hh hc
  | join => obtain ⟨hh, rfl⟩ := hguard hs; exact .join hh
  | await c => obtain ⟨⟨ha, hc⟩, rfl⟩ := hguard hs; exact .await ha hc c
  | dropAwaiter => obtain ⟨ha, rfl⟩ := hguard hs; exact .dropAwaiter ha
  | resumeJoiner =>
    simp only [lifeSys, Life.step] at hs
    split at hs <;> cases hs
    exact .resumeJoiner ‹_›
  | endDelivery =>
    simp only [lifeSys, Life.step] at hs
    split at hs <;> cases hs
    exact .endDelivery ‹_›
  | dropBaton => obtain ⟨he, rfl⟩ := hguard hs; exact .dropBaton he

/-! ## references -/

/-- who holds which reference; also between the drop of a reference and `collect` -/
structure Counted (l : Life) : Prop where
  token : l.spawning + l.handles + l.releasing = l.root.token.toNat
  active : l.active = if l.root.frame = .running then 1 else 0
  delivery : l.deliveries.length + l.ending = (l.root.batonRef && l.root.completed).toNat
  before : l.root.frame = .running ∨ l.root.frame = .suspended →
    l.root.completed = false ∧ l.root.batonRef = true
  after : l.root.frame = .final ∨ l.root.frame = .destroyed →
    l.root.completed = true ∧ l.root.joiners = []

structure Refs (l : Life) : Prop extends Counted l where
  unborn : l.root.frame = .unborn → l = {}
  alive : l.root.alive = true ↔ 0 < l.root.refs
  destroyed : l.root.frame = .destroyed ↔ l.root.frame ≠ .unborn ∧ l.root.refs = 0

section
variable {l l' : Life}

/-- a root with a reference is born and not destroyed -/
theorem Refs.live (h : Refs l) (hr : 0 < l.root.refs) :
    l.root.alive = true ∧ l.root.frame ≠ .unborn ∧ l.root.frame ≠ .destroyed := by
  refine ⟨h.alive.mpr hr, fun hu => ?_, fun hd => ?_⟩
  · rw [h.unborn hu] at hr
    exact absurd hr (by decide)
  · have := (h.destroyed.mp hd).2
    omega

theorem Refs.held (h : Refs l) (hh : 0 < l.spawning + l.handles + l.releasing) :
    l.root.token = true := by
  cases ht : l.root.token with
  | true => rfl
  | false =>
    have := h.token
    rw [ht, Bool.toNat_false] at this
    omega

theorem Refs.born (h : Refs l) (hh : 0 < l.spawning + l.handles + l.releasing) :
    l.root.frame ≠ .unborn :=
  (h.live (Root.refs_pos_of_token (h.held hh))).2.1

theorem Refs.running (h : Refs l) (ha : 0 < l.active) : l.root.frame = .running := by
  by_contra hf
  have := h.active
  rw [if_neg hf] at this
  omega

theorem Refs.delivering (h : Refs l) (hd : 0 < l.deliveries.length + l.ending) :
    l.root.batonRef = true ∧ l.root.completed = true := by
  cases hb : l.root.batonRef && l.root.completed with
  | true => simpa using hb
  | false =>
    have := h.delivery
    rw [hb, Bool.toNat_false] at this
    omega

theorem Refs.incomplete (h : Refs l) (hc : l.root.completed = false) :
    l.deliveries = [] ∧ l.ending = 0 := by
  have := h.delivery
  rw [hc, Bool.and_false, Bool.toNat_false] at this
  exact ⟨List.length_eq_zero_iff.mp (by omega), by omega⟩

/-- the frame of a root is destroyed when the last reference goes, at the final suspend point -/
theorem refs_collect (h : Counted l) (ha : l.root.alive = true) (hu : l.root.frame ≠ .unborn)
    (hd : l.root.frame ≠ .destroyed) : Refs l.collect := by
  unfold Life.collect
  split
  · rename_i hc
    obtain ⟨hr, hf⟩ := hc
    have hafter := h.after (Or.inl hf)
    refine ⟨⟨h.token, ?_, h.delivery, ?_, fun _ => hafter⟩, nofun, ?_, ?_⟩
    · simpa [Life.emit, hf] using h.active
    · simp [Life.emit]
    · simpa [Life.emit, Root.refs] using hr
    · simpa [Life.emit, Root.refs] using hr
  · rename_i hc
    have hpos : 0 < l.root.refs := by
      by_contra h0
      have hb : l.root.batonRef = false := by
        cases hb : l.root.batonRef with
        | false => rfl
        | true => simp [Root.refs, hb] at h0
      -- without the baton the root is not on its way any more
      cases hf : l.root.frame with
      | unborn => exact hu hf
      | running => simp [h.before (Or.inl hf)] at hb
      | suspended => simp [h.before (Or.inr hf)] at hb
      | final => exact hc ⟨by omega, hf⟩
      | destroyed => exact hd hf
    refine ⟨h, fun hf => absurd hf hu, ?_, ?_⟩
    · simp [ha, hpos]
    · simp [hd, show l.root.refs ≠ 0 by omega]

theorem refs_report (h : Refs l) (hu : l.root.frame ≠ .unborn) : Refs l.report := by
  unfold Life.report
  split
  · exact ⟨⟨h.token, h.active, h.delivery, h.before, h.after⟩, fun hf => absurd hf hu, h.alive,
      h.destroyed⟩
  · exact h

/-- a change that touches neither the frame nor a reference -/
theorem Refs.keep (h : Refs l) (hu : l.root.frame ≠ .unborn) {x : Root} {s n k : Nat}
    {ms : List Mark} (hx : x.frame = l.root.frame ∧ x.token = l.root.token ∧
      x.batonRef = l.root.batonRef ∧ x.completed = l.root.completed ∧ x.alive = l.root.alive)
    (hj : l.root.completed = true → x.joiners = l.root.joiners)
    (hr : 0 < x.refs ↔ 0 < l.root.refs)
    (hs : s + n + k = l.spawning + l.handles + l.releasing) :
    Refs { l with root := x, spawning := s, handles := n, releasing := k, log := ms } := by
  obtain ⟨hf, ht, hb, hc, ha⟩ := hx
  refine ⟨⟨?_, ?_, ?_, ?_, ?_⟩, fun hf' => absurd (hf ▸ hf') hu, ?_, ?_⟩
  · show s + n + k = x.token.toNat
    rw [hs, h.token, ht]
  · simpa [hf] using h.active
  · simpa [hb, hc] using h.delivery
  · simpa [hf, hb, hc] using h.before
  · intro hfin
    rw [show x.frame = _ from hf] at hfin
    obtain ⟨h1, h2⟩ := h.after hfin
    exact ⟨hc.trans h1, (hj h1).trans h2⟩
  · show x.alive = true ↔ 0 < x.refs
    rw [ha, hr, h.alive]
  · show x.frame = .destroyed ↔ x.frame ≠ .unborn ∧ x.refs = 0
    rw [hf, h.destroyed]
    have : x.refs = 0 ↔ l.root.refs = 0 := by omega
    rw [this]

/-- the state after a reference was dropped, before `collect` -/
theorem Refs.dropped (h : Refs l) (hr : 0 < l.root.refs) {x : Root}
    (hx : Counted { l' with root := x }) (hf : x.frame = l.root.frame) (ha : x.alive = l.root.alive) :
    Refs { l' with root := x }.collect := by
  obtain ⟨h1, h2, h3⟩ := h.live hr
  exact refs_collect hx (ha.trans h1) (hf ▸ h2) (hf ▸ h3)

theorem refs_spawn (h : Refs l) (hf : l.root.frame = .unborn) : Refs { l with
    root := { frame := .running, token := true, batonRef := true, alive := true }
    spawning := l.spawning + 1
    active := l.active + 1 } := by
  rw [h.unborn hf]
  refine ⟨⟨rfl, rfl, rfl, fun _ => ⟨rfl, rfl⟩, by simp⟩, nofun, ?_, ?_⟩ <;> simp [Root.refs]

theorem refs_suspend (h : Refs l) (ha : 0 < l.active) :
    Refs { l with root := { l.root with frame := .suspended }, active := l.active - 1 } := by
  have hf := h.running ha
  have hb := h.before (Or.inl hf)
  have hone := h.active
  rw [if_pos hf] at hone
  have hdes := h.destroyed
  refine ⟨⟨h.token, ?_, h.delivery, fun _ => hb, by simp⟩, nofun, h.alive, ?_⟩
  · simp [hone]
  · simpa [hf, Root.refs] using hdes

theorem refs_resume (h : Refs l) (hf : l.root.frame = .suspended) :
    Refs { l with root := { l.root with frame := .running }, active := l.active + 1 } := by
  have hb := h.before (Or.inr hf)
  have hdes := h.destroyed
  refine ⟨⟨h.token, ?_, h.delivery, fun _ => hb, by simp⟩, nofun, h.alive, ?_⟩
  · simpa [hf] using h.active
  · simpa [hf, Root.refs] using hdes

theorem refs_finish (h : Refs l) (ha : 0 < l.active) (e : Option Exc) : Refs (l.finish e) := by
  have hf := h.running ha
  obtain ⟨hc, hb⟩ := h.before (Or.inl hf)
  obtain ⟨hd, he⟩ := h.incomplete hc
  have hone := h.active
  rw [if_pos hf] at hone
  have hdes := h.destroyed
  refine ⟨⟨h.token, ?_, ?_, by simp [Life.finish], fun _ => ⟨rfl, rfl⟩⟩, nofun, h.alive, ?_⟩
  · simp [Life.finish, hone]
  · simp [Life.finish, hd, he, hb]
  · simpa [Life.finish, hf, Root.refs] using hdes

theorem refs_release (h : Refs l) (hh : 0 < l.handles) : Refs l.release := by
  have hu := h.born (by omega)
  have hmoved : Refs { l with handles := l.handles - 1, releasing := l.releasing + 1 } :=
    h.keep hu ⟨rfl, rfl, rfl, rfl, rfl⟩ (fun _ => rfl) Iff.rfl (by omega)
  unfold Life.release
  split
  · exact refs_report hmoved hu
  · exact h.keep hu ⟨rfl, rfl, rfl, rfl, rfl⟩ (fun _ => rfl) Iff.rfl (by omega)

theorem refs_dropToken (h : Refs l) (hh : 0 < l.releasing) :
    Refs { l with releasing := l.releasing - 1 }.dropToken := by
  have ht := h.held (by omega)
  have hone := h.token
  rw [ht, Bool.toNat_true] at hone
  refine h.dropped (Root.refs_pos_of_token ht) ⟨?_, h.active, h.delivery, h.before, h.after⟩ rfl rfl
  show l.spawning + l.handles + (l.releasing - 1) = 0
  omega

theorem refs_overwrite (h : Refs l) (hh : 0 < l.handles) :
    Refs { l with handles := l.handles - 1 }.dropToken := by
  have ht := h.held (by omega)
  have hone := h.token
  rw [ht, Bool.toNat_true] at hone
  refine h.dropped (Root.refs_pos_of_token ht) ⟨?_, h.active, h.delivery, h.before, h.after⟩ rfl rfl
  show l.spawning + (l.handles - 1) + l.releasing = 0
  omega

theorem refs_dropBaton (h : Refs l) (he : 0 < l.ending) :
    Refs { l with ending := l.ending - 1 }.dropBaton := by
  obtain ⟨hb, hc⟩ := h.delivering (by omega)
  have hone := h.delivery
  rw [hb, hc, Bool.and_true, Bool.toNat_true] at hone
  refine h.dropped (Root.refs_pos_of_baton hb) ⟨h.token, h.active, ?_, ?_, h.after⟩ rfl rfl
  · show l.deliveries.length + (l.ending - 1) = 0
    omega
  · intro hf
    have := (h.before hf).1
    simp [hc] at this

theorem refs_dropAwaiter (h : Refs l) (ha : 0 < l.root.awaiters) : Refs l.dropAwaiter :=
  h.dropped (Root.refs_pos_of_awaiter ha) ⟨h.token, h.active, h.delivery, h.before, h.after⟩ rfl rfl

theorem refs_await (h : Refs l) (ha : 0 < l.root.awaiters) (hc : l.root.completed = false)
    (c : Coro) : Refs (l.await c) := by
  have hpos : 0 < l.root.refs := Root.refs_pos_of_awaiter ha
  obtain ⟨-, hu, hd⟩ := h.live hpos
  have hb : l.root.batonRef = true := by
    cases hf : l.root.frame with
    | unborn => exact absurd hf hu
    | running => exact (h.before (Or.inl hf)).2
    | suspended => exact (h.before (Or.inr hf)).2
    | final => simp [h.after (Or.inl hf)] at hc
    | destroyed => exact absurd hf hd
  refine h.keep hu ⟨rfl, rfl, rfl, rfl, rfl⟩ (fun hc' => by simp [hc] at hc') ?_ rfl
  exact ⟨fun _ => hpos, fun _ => Root.refs_pos_of_baton hb⟩

theorem refs_resumeJoiner (h : Refs l) {c : Coro} {rest : List Coro} {ds : List (List Coro)}
    (hd : l.deliveries = (c :: rest) :: ds) : Refs (l.resumeJoiner c rest ds) := by
  obtain ⟨hb, -⟩ := h.delivering (by rw [hd, List.length_cons]; omega)
  have hpos := Root.refs_pos_of_baton hb
  obtain ⟨hal, hu, hdes⟩ := h.live hpos
  have hdel := h.delivery
  rw [hd] at hdel
  have hpos' : 0 < (l.resumeJoiner c rest ds).root.refs := Root.refs_pos_of_baton hb
  refine ⟨⟨h.token, h.active, hdel, h.before, h.after⟩, fun hf => absurd hf hu, ?_, ?_⟩
  · exact ⟨fun _ => hpos', fun _ => hal⟩
  · exact ⟨fun hf => absurd hf hdes, fun ⟨_, h0⟩ => by omega⟩

theorem refs_endDelivery (h : Refs l) {ds : List (List Coro)} (hd : l.deliveries = [] :: ds) :
    Refs (l.endDelivery ds) := by
  obtain ⟨hb, -⟩ := h.delivering (by rw [hd, List.length_cons]; omega)
  have hpos := Root.refs_pos_of_baton hb
  obtain ⟨hal, hu, hdes⟩ := h.live hpos
  have hdel := h.delivery
  rw [hd, List.length_cons] at hdel
  have hmoved : Refs { l with deliveries := ds, ending := l.ending + 1 } :=
    ⟨⟨h.token, h.active, by rw [← hdel]; show ds.length + (l.ending + 1) = _; omega, h.before,
      h.after⟩, fun hf => absurd hf hu, h.alive, h.destroyed⟩
  unfold Life.endDelivery
  split
  · exact refs_report hmoved hu
  · exact hmoved

theorem refs_observe (h : Refs l) (hh : 0 < l.handles) : Refs l.observe := by
  have hu := h.born (by omega)
  unfold Life.observe
  split
  · exact h.keep hu ⟨rfl, rfl, rfl, rfl, rfl⟩ (fun _ => rfl) Iff.rfl rfl
  · exact h

theorem refs_step {m : Move} (h : Refs l) (hs : lifeSys.step l m = some l') : Refs l' := by
  cases moved hs with
  | spawn hf => exact refs_spawn h hf
  | handOut hp =>
    exact h.keep (h.born (by omega)) ⟨rfl, rfl, rfl, rfl, rfl⟩ (fun _ => rfl) Iff.rfl (by omega)
  | release hh => exact refs_release h hh
  | dropToken hr => exact refs_dropToken h hr
  | overwrite hh => exact refs_overwrite h hh
  | suspend ha => exact refs_suspend h ha
  | finish ha e => exact refs_finish h ha e
  | resume hf => exact refs_resume h hf
  | observe hh hc => exact refs_observe h hh
  | join hh =>
    have ht := h.held (by omega)
    refine h.keep (h.born (by omega)) ⟨rfl, rfl, rfl, rfl, rfl⟩ (fun _ => rfl) ?_ rfl
    exact ⟨fun _ => Root.refs_pos_of_token ht, fun _ => Root.refs_pos_of_token ht⟩
  | await ha hc c => exact refs_await h ha hc c
  | dropAwaiter ha => exact refs_dropAwaiter h ha
  | resumeJoiner hd => exact refs_resumeJoiner h hd
  | endDelivery hd => exact refs_endDelivery h hd
  | dropBaton he => exact refs_dropBaton h he

theorem refs_init : Refs {} :=
  ⟨⟨rfl, rfl, rfl, by simp, by simp⟩, fun _ => rfl, by decide, by decide⟩

theorem report_alive (l : Life) : l.report.root.alive = l.root.alive ∧
    l.report.root.frame = l.root.frame := by
  unfold Life.report
  split <;> exact ⟨rfl, rfl⟩

/-- only a move that drops a reference destroys the state and the frame -/
theorem alive_step {m : Move} (hm : m.drops = false) (hs : lifeSys.step l m = some l') :
    (l.root.alive = true → l'.root.alive = true) ∧
      (l'.root.frame = .destroyed → l.root.frame = .destroyed) := by
  cases moved hs with
  | dropToken _ | overwrite _ | dropAwaiter _ | dropBaton _ => cases hm
  | spawn hf => exact ⟨fun _ => rfl, nofun⟩
  | suspend ha | resume ha => exact ⟨id, nofun⟩
  | finish ha e => exact ⟨id, nofun⟩
  | handOut _ | join _ | await _ _ _ | resumeJoiner _ => exact ⟨id, id⟩
  | release hh =>
    unfold Life.release
    split
    · rw [(report_alive _).1, (report_alive _).2]
      exact ⟨id, id⟩
    · exact ⟨id, id⟩
  | observe hh hc =>
    unfold Life.observe
    split <;> exact ⟨id, id⟩
  | endDelivery hd =>
    unfold Life.endDelivery
    split
    · rw [(report_alive _).1, (report_alive _).2]
      exact ⟨id, id⟩
    · exact ⟨id, id⟩

end

end Spawn
