import Uvpp.Raw.Watcher

/-!
# The callback of a raw watcher

What a watcher is for, without slots, trampolines and generations: the last accepted selection is in
force until it is stopped, closed or used up, and a start that is refused leaves it in force as long
as the source is active or due.  `inForce` reads this off the history; every family refines it.

* `inForce`            the selection that a notification has to go to;
* `World.view`         the selection that the state of the code stands for;
* `Inv`                they agree, also while the callable is out of its slot;
* `selection_refined`  the contract, as long as the generation does not wrap;
* `selection_assumed`  what happens when it does, when the last native stop fails, and what becomes
                       of a timer that is due and inactive.
-/

namespace RawWatcher
open Errno Callback

/-! ## the purpose -/

def Event.apply (o : Option Choice) : Event → Option Choice
  | .started ch active => if active then some ch else none
  | .refused _ active => if active then o else none
  | .stopped | .closed => none
  | .notified _ terminal => if terminal then none else o
  | .returned _ => o

/-- the selection in force -/
def inForce (log : List Event) : Option Choice := log.foldl Event.apply none

theorem inForce_snoc (log : List Event) (e : Event) :
    inForce (log ++ [e]) = e.apply (inForce log) := by
  simp [inForce]

/-- the events with which a selection ends or another one begins, other than its own last use -/
def Event.reselects : Event → Bool
  | .started .. | .stopped | .closed => true
  | .refused _ active => !active
  | _ => false

/-! ## the state of the code -/

namespace World
variable (fam : Family) (w : World)

/-- the static callback that a notification goes to, and whether it is a one-shot -/
def selected : Option (Nat × Bool) :=
  if fam.dispatches then w.staticCallback.map (·, false)
  else
    match w.registered with
    | .lambda c oneshot => some (c, oneshot)
    | .trampoline => none

/-- the runtime callable: in the slot, or out of it while it runs and nothing was replaced -/
def stored : Option Nat :=
  match w.frame with
  | some (.persistent c g _) => if w.slot.generation = g then some c else w.slot.callback
  | _ => w.slot.callback

/-- the selection of the state with the runtime callable `c` -/
def viewWith (c : Option Nat) : Option Choice :=
  if w.live then
    match w.selected fam with
    | some (s, oneshot) => some ⟨some (.static s), oneshot⟩
    | none => some ⟨c.map .runtime, w.oneshot⟩
  else none

def view : Option Choice := w.viewWith fam w.stored

/-- a timer that is due is active again when it repeats -/
def rearm : World := { w with active := true, due := false }

end World

/-- when a source can be active or due, and what only signals have -/
structure Life (fam : Family) (w : World) : Prop where
  live : w.live = true → w.initialized = true ∧ w.closing = false
  closing : w.closing = true → w.initialized = true
  /-- async cannot be stopped -/
  awake : fam = .async → w.initialized = true → w.closing = false → w.live = true
  due : w.due = true → fam = .timer ∧ w.active = false
  plain : fam ≠ .signal → w.oneshot = false ∧ ∀ c, w.registered ≠ .lambda c true

structure Inv (fam : Family) (w : World) : Prop where
  force : w.view fam = inForce w.log
  single : ∀ c, w.stored = some c → w.live = true ∧ w.selected fam = none
  lent : ∀ c g n, w.frame = some (.persistent c g n) → g ≤ w.slot.generation ∧ n ≤ w.log.length ∧
    (w.slot.generation = g → w.slot.callback = none) ∧
    (w.slot.generation = g ↔ ∀ e ∈ w.log.drop n, e.reselects = false)
  life : Life fam w

/-- the generation does not wrap -/
def Fresh (w : World) (_ : Act) : Prop := w.slot.generation + 1 < 2 ^ 64

instance (w : World) (a : Act) : Decidable (Fresh w a) := inferInstanceAs (Decidable (_ < _))

section
variable {fam : Family} {w w' v : World}

theorem inv_init : Inv fam {} where
  force := rfl
  single := nofun
  lent := nofun
  life := ⟨nofun, nofun, nofun, nofun, fun _ => ⟨rfl, nofun⟩⟩

theorem Life.of_ready (hr : w.ready = true) (hf : fam = .async → v.live = true)
    (hd : v.due = true → fam = .timer ∧ v.active = false) (hi : v.initialized = w.initialized)
    (hc : v.closing = w.closing)
    (hp : fam ≠ .signal → v.oneshot = false ∧ ∀ c, v.registered ≠ .lambda c true) : Life fam v := by
  obtain ⟨hinit, hclosing⟩ : w.initialized = true ∧ w.closing = false := by
    simpa [World.ready] using hr
  rw [hinit] at hi
  rw [hclosing] at hc
  exact ⟨fun _ => ⟨hi, hc⟩, fun _ => hi, fun ha _ _ => hf ha, hd, hp⟩

theorem view_inactive (h : w.live = false) (c : Option Nat) : w.viewWith fam c = none := by
  simp [World.viewWith, h]

theorem Inv.none_of_inactive (h : Inv fam w) (ha : w.live = false) : inForce w.log = none := by
  rw [← h.force]
  exact view_inactive ha _

/-- a callable that runs, and is in force, keeps its source active or due -/
theorem Inv.live_of_lent (h : Inv fam w) {c g n : Nat} (hf : w.frame = some (.persistent c g n))
    (hg : w.slot.generation = g) : w.live = true := by
  refine (h.single c ?_).1
  simp [World.stored, hf, hg]

theorem drop_snoc {log : List Event} {n : Nat} (hn : n ≤ log.length) (e : Event) :
    (∀ x ∈ (log ++ [e]).drop n, x.reselects = false) ↔
      (∀ x ∈ log.drop n, x.reselects = false) ∧ e.reselects = false := by
  rw [List.drop_append_of_le_length hn]
  simp [or_imp, forall_and]

/-- an event that changes nothing in force -/
theorem Inv.quiet (h : Inv fam w) {e : Event} (ha : e.apply (inForce w.log) = inForce w.log)
    (hr : e.reselects = true → w.live = false) : Inv fam (w.emit e) where
  force := by
    show w.view fam = inForce (w.log ++ [e])
    rw [inForce_snoc, ha]
    exact h.force
  single := h.single
  lent := by
    intro c g n hf
    obtain ⟨hle, hn, hempty, hiff⟩ := h.lent c g n hf
    refine ⟨hle, ?_, hempty, ?_⟩
    · show n ≤ (w.log ++ [e]).length
      rw [List.length_append]
      omega
    · show w.slot.generation = g ↔ ∀ x ∈ (w.log ++ [e]).drop n, x.reselects = false
      rw [drop_snoc hn, ← hiff]
      refine ⟨fun hg => ⟨hg, ?_⟩, And.left⟩
      by_contra hne
      have hact := h.live_of_lent hf hg
      rw [hr (by simpa using hne)] at hact
      cases hact
  life := { h.life with }

theorem Inv.refuse (h : Inv fam w) (e : Int) : Inv fam (w.refuse e) := by
  refine h.quiet ?_ (by simp [Event.reselects])
  cases ha : w.live with
  | true => rfl
  | false => exact (h.none_of_inactive ha).symm

theorem Inv.not_due (h : Inv fam w) (hf : fam ≠ .timer) : w.due = false := by
  by_contra hd
  exact hf (h.life.due (by simpa using hd)).1

/-- a source that only becomes due, or active again -/
theorem Inv.retimed (h : Inv fam w) {a d : Bool} (hl : (a || d) = w.live)
    (hd : d = true → fam = .timer ∧ a = false) : Inv fam { w with active := a, due := d } := by
  have hlive : World.live { w with active := a, due := d } = w.live := hl
  refine ⟨?_, ?_, h.lent, ?_, h.life.closing, ?_, hd, h.life.plain⟩
  · rw [← h.force]
    unfold World.view World.viewWith
    rw [hlive]
    rfl
  · rw [hlive]
    exact h.single
  · rw [hlive]
    exact h.life.live
  · rw [hlive]
    exact h.life.awake

theorem Inv.rearm (h : Inv fam w) (ha : w.live = true) : Inv fam w.rearm :=
  h.retimed ha.symm nofun

theorem Inv.returned (h : Inv fam w) (e : Int) : Inv fam (w.emit (.returned e)) :=
  h.quiet rfl nofun

theorem replace_generation {s : Slot Nat} (hw : s.generation + 1 < 2 ^ 64) (x : Option Nat) :
    (s.replace x).generation = s.generation + 1 := Nat.mod_eq_of_lt hw

/-- the state stands for the choice that was accepted -/
theorem view_choice {ch : Choice} {b : Bool} (ha : v.live = b)
    (hs : v.selected fam = ch.static.map (·, ch.oneshot))
    (ho : ch.static = none → v.oneshot = ch.oneshot) :
    v.viewWith fam (if b then ch.stored else none) = if b then some ch else none := by
  obtain ⟨callable, oneshot⟩ := ch
  cases b with
  | false => exact view_inactive ha _
  | true =>
    unfold World.viewWith
    rw [if_pos ha, hs]
    cases callable with
    | none => simp [Choice.static, Choice.stored, ho rfl]
    | some c =>
      cases c with
      | runtime c => simp [Choice.static, Choice.stored, ho rfl]
      | static c => simp [Choice.static]

theorem native_selected {ch : Choice} (hd : fam.dispatches = false)
    (hr : v.registered = ch.native) : v.selected fam = ch.static.map (·, ch.oneshot) := by
  unfold World.selected
  rw [if_neg (by simp [hd]), hr]
  obtain ⟨callable, oneshot⟩ := ch
  cases callable with
  | none => rfl
  | some c => cases c <;> rfl

theorem native_plain {ch : Choice} (ho : ch.oneshot = false) (c : Nat) :
    ch.native ≠ .lambda c true := by
  obtain ⟨callable, oneshot⟩ := ch
  obtain rfl : oneshot = false := ho
  cases callable with
  | none => exact nofun
  | some x => cases x <;> simp [Choice.native]

theorem static_selected {ch : Choice} (hd : fam.dispatches = true) (ho : ch.oneshot = false)
    (hs : v.staticCallback = ch.static) : v.selected fam = ch.static.map (·, ch.oneshot) := by
  unfold World.selected
  rw [if_pos hd, hs, ho]

theorem commitStart_oneshot (r : Native) (c : Option Nat) (s : Answer) :
    (w.commitStart r c s).oneshot = w.oneshot := by
  unfold World.commitStart World.nativeStart World.replaceCallback
  split <;> dsimp only <;> split <;> rfl

section
variable (h : Inv fam w) (hw : w.slot.generation + 1 < 2 ^ 64)

include h hw

/-- after a replacement a running callable is an old one -/
theorem stored_replaced {x : Option Nat} (hslot : v.slot = w.slot.replace x)
    (hframe : v.frame = w.frame) : v.stored = x := by
  unfold World.stored
  rw [hframe]
  split
  · rename_i c g n hf
    have hle := (h.lent c g n hf).1
    rw [if_neg (by rw [hslot, replace_generation hw]; omega), hslot]
    rfl
  · rw [hslot]
    rfl

/-- the selection changes together with the slot -/
theorem Inv.reselect {x : Option Nat} {e : Event} (hslot : v.slot = w.slot.replace x)
    (hframe : v.frame = w.frame)
    (hlog : v.log = w.log ++ [e]) (he : e.reselects = true)
    (hforce : v.viewWith fam x = e.apply (inForce w.log))
    (hsingle : ∀ c, x = some c → v.live = true ∧ v.selected fam = none)
    (hlife : Life fam v) : Inv fam v := by
  have hst := stored_replaced h hw hslot hframe
  refine ⟨?_, ?_, ?_, hlife⟩
  · unfold World.view
    rw [hst, hlog, inForce_snoc]
    exact hforce
  · rw [hst]
    exact hsingle
  · intro c g n hf
    obtain ⟨hle, hn, -, -⟩ := h.lent c g n (hframe ▸ hf)
    have hgen : v.slot.generation = w.slot.generation + 1 := by
      rw [hslot]
      exact replace_generation hw x
    refine ⟨by omega, ?_, fun hg => absurd hg (by omega), ?_⟩
    · rw [hlog, List.length_append]
      omega
    · rw [hlog, drop_snoc hn, he]
      exact ⟨fun hg => absurd hg (by omega), fun hc => by cases hc.2⟩

/-! ## the calls -/

/-- an accepted selection -/
theorem Inv.accept {ch : Choice} {b : Bool}
    (hslot : v.slot = w.slot.replace (if b then ch.stored else none)) (hframe : v.frame = w.frame)
    (hlog : v.log = w.log ++ [.started ch b]) (ha : v.live = b)
    (hs : v.selected fam = ch.static.map (·, ch.oneshot))
    (ho : ch.static = none → v.oneshot = ch.oneshot)
    (hlife : Life fam v) : Inv fam v := by
  refine h.reselect hw hslot hframe hlog rfl (view_choice ha hs ho) ?_ hlife
  intro c hc
  cases b with
  | false => cases hc
  | true =>
    refine ⟨ha, ?_⟩
    rw [hs]
    obtain ⟨callable, oneshot⟩ := ch
    cases callable with
    | none => rfl
    | some x =>
      cases x with
      | runtime _ => rfl
      | static _ => cases hc

/-- the selection ends and the source is neither active nor due -/
theorem Inv.finish {e : Event} (hslot : v.slot = w.slot.replace none) (hframe : v.frame = w.frame)
    (hlog : v.log = w.log ++ [e]) (he : e.reselects = true)
    (hnone : e.apply (inForce w.log) = none) (ha : v.live = false) (hlife : Life fam v) :
    Inv fam v := by
  refine h.reselect hw hslot hframe hlog he ?_ nofun hlife
  rw [hnone]
  exact view_inactive ha _

/-- the start of a family whose static callbacks are native ones; `w` may have been stopped first -/
theorem commitStart_inv (hd : fam.dispatches = false) (hr : w.ready = true) {ch : Choice}
    {s : Answer} (hdue : w.due = true → 0 ≤ s.status) {b : Bool} (hb : b = true → w.active = true)
    {o : Bool} (ho : o = if 0 ≤ s.status then ch.oneshot else w.oneshot)
    (hone : fam ≠ .signal → ch.oneshot = false) :
    Inv fam (World.report { ({ w with active := b }.commitStart ch.native ch.stored s) with
      oneshot := o } ch s) := by
  have hasync : fam ≠ .async := by
    rintro rfl
    cases hd
  by_cases hst : 0 ≤ s.status
  · rw [if_pos hst] at ho
    subst ho
    unfold World.report World.commitStart World.nativeStart
    simp only [hst, if_true, true_or]
    refine h.accept hw (b := s.active || false) ?_ rfl rfl rfl (native_selected hd rfl)
      (fun _ => rfl) (.of_ready hr (fun hf => absurd hf hasync) nofun rfl rfl
        fun hf => ⟨hone hf, native_plain (hone hf)⟩)
    rw [Bool.or_false]
    rfl
  · rw [if_neg hst] at ho
    subst ho
    have hdue' : w.due = false := by
      by_contra hd'
      exact hst (hdue (by simpa using hd'))
    unfold World.report World.commitStart World.nativeStart
    simp only [hst, if_false, false_or]
    by_cases hact : (b && s.active) = true
    · -- the old selection stays
      obtain ⟨hb', hs⟩ := Bool.and_eq_true_iff.mp hact
      have hw' : { w with active := true } = w := by
        rw [← hb hb']
      simp only [hact, Bool.true_eq_false, if_false]
      show Inv fam (World.emit { w with active := true } (.refused s.status true))
      rw [hw']
      exact h.quiet rfl (by simp [Event.reselects])
    · have hact' : (b && s.active) = false := by simpa using hact
      simp only [hact', if_true]
      refine h.finish hw rfl rfl rfl ?_ ?_ ?_
        (.of_ready hr (fun hf => absurd hf hasync) (fun hd' => absurd hd' ?_) rfl rfl
          h.life.plain)
      · simp [Event.reselects, World.live, World.replaceCallback, hdue']
      · simp [Event.apply, World.live, World.replaceCallback, hdue']
      · simp [World.live, World.replaceCallback, World.emit, hdue']
      · simp [World.replaceCallback, World.emit, hdue']

section
variable (hd : fam.dispatches = false) (hf : fam ≠ .signal) {ch : Choice} (ho : ch.oneshot = false)
  {s : Answer} (hdue : w.due = true → 0 ≤ s.status)

include hd hf ho hdue

/-- the same without a one-shot flag -/
theorem commitStart_plain (hr : w.ready = true) {b : Bool} (hb : b = true → w.active = true) :
    Inv fam (({ w with active := b }.commitStart ch.native ch.stored s).report ch s) := by
  have hold := (h.life.plain hf).1
  exact commitStart_inv h hw hd hr hdue hb
    (o := (World.commitStart { w with active := b } ch.native ch.stored s).oneshot)
    (by rw [commitStart_oneshot, ho, hold, ite_self]) fun _ => ho

theorem plainStart_inv (args : Args) : Inv fam (w.plainStart ch args s) := by
  unfold World.plainStart
  split
  · exact h.refuse _
  rename_i hr
  split
  · exact h.refuse _
  · exact commitStart_plain h hw hd hf ho hdue (by simpa using hr) (b := w.active) id

theorem restart_inv (args : Args) : Inv fam (w.restart ch args s) := by
  unfold World.restart
  split
  · exact h.refuse _
  rename_i hr
  split
  · exact h.refuse _
  · exact commitStart_plain h hw hd hf ho hdue (by simpa using hr) nofun

end

theorem signalStart_inv (hf : fam = .signal) (ch : Choice) {s : Answer}
    (hdue : w.due = true → 0 ≤ s.status) : Inv fam (w.signalStart ch s) := by
  subst hf
  unfold World.signalStart
  split
  · exact h.refuse _
  rename_i hr
  dsimp only
  rw [commitStart_oneshot]
  exact commitStart_inv h hw rfl (by simpa using hr) hdue (b := w.active) id rfl
    fun hf => absurd rfl hf

theorem fsPollStart_inv (hf : fam = .fsPoll) {ch : Choice} (ho : ch.oneshot = false) (args : Args)
    (s : Answer) : Inv fam (w.fsPollStart ch args s) := by
  subst hf
  have hplain := h.life.plain nofun
  unfold World.fsPollStart
  split
  · exact h.refuse _
  rename_i hr
  have hready : w.ready = true := by simpa using hr
  split
  · exact h.refuse _
  have hdue := h.not_due nofun
  split
  · rename_i hact
    repeat' split
    · exact h.refuse _
    · exact h.refuse _
    · exact h.refuse _
    · refine h.accept hw (b := w.live) ?_ rfl rfl rfl (static_selected rfl ho rfl)
        (fun _ => hplain.1.trans ho.symm) (.of_ready hready nofun h.life.due rfl rfl
          h.life.plain)
      rw [World.live, hact]
      rfl
  · rename_i hact
    have hact' : w.active = false := by simpa using hact
    by_cases hst : 0 ≤ s.status
    · simp only [World.report, World.commitStart, World.nativeStart, hst, if_true, true_or]
      refine h.accept hw (b := s.active || false) ?_ rfl rfl rfl (static_selected rfl ho rfl)
        (fun _ => hplain.1.trans ho.symm) (.of_ready hready nofun nofun rfl rfl
          fun _ => ⟨hplain.1, nofun⟩)
      rw [Bool.or_false]
      rfl
    · simp only [World.report, World.commitStart, World.nativeStart, World.live,
        World.replaceCallback, hst, hact', hdue, if_false, if_true, false_or, Bool.false_and,
        Bool.or_false]
      exact h.finish hw rfl rfl rfl rfl rfl rfl (.of_ready hready nofun nofun rfl rfl h.life.plain)

theorem start_inv (hf : fam ≠ .async) {ch : Choice} (ho : ch.oneshot = true → fam = .signal)
    (args : Args) {s : Answer} (hdue : w.due = true → 0 ≤ s.status) :
    Inv fam (w.start fam ch args s) := by
  have ho' : fam ≠ .signal → ch.oneshot = false := by
    intro hne
    cases hone : ch.oneshot with
    | false => rfl
    | true => exact absurd (ho hone) hne
  cases fam with
  | timer | poll | fsEvent => exact plainStart_inv h hw rfl nofun (ho' nofun) hdue args
  | signal => exact signalStart_inv h hw rfl ch hdue
  | fsPoll => exact fsPollStart_inv h hw rfl (ho' nofun) args s
  | idle | prepare | check => exact restart_inv h hw rfl nofun (ho' nofun) hdue args
  | async => exact absurd rfl hf

theorem asyncInit_inv (hf : fam = .async) {ch : Choice} (ho : ch.oneshot = false) (e : Int) :
    Inv fam (w.asyncInit ch e) := by
  subst hf
  unfold World.asyncInit
  split
  · exact h.refuse _
  rename_i hi
  have hc : w.closing = false := by
    by_contra hc
    exact hi (h.life.closing (by simpa using hc))
  split
  · exact h.refuse _
  · exact h.accept hw (b := true) rfl rfl rfl rfl (static_selected rfl ho rfl)
      (fun _ => (h.life.plain nofun).1.trans ho.symm)
      ⟨fun _ => ⟨rfl, hc⟩, fun _ => rfl, fun _ _ _ => rfl,
        fun hd => absurd (h.life.due hd).1 nofun, h.life.plain⟩

theorem asyncSetCallback_inv (hf : fam = .async) {ch : Choice} (ho : ch.oneshot = false) :
    Inv fam (w.asyncSetCallback ch) := by
  subst hf
  unfold World.asyncSetCallback
  split
  · exact h.refuse _
  · rename_i hr
    have hready : w.ready = true := by simpa using hr
    obtain ⟨hi, hc⟩ : w.initialized = true ∧ w.closing = false := by
      simpa [World.ready] using hready
    have hact := h.life.awake rfl hi hc
    refine h.accept hw (b := w.live) ?_ rfl rfl rfl (static_selected rfl ho rfl)
      (fun _ => (h.life.plain nofun).1.trans ho.symm)
      (.of_ready hready (fun _ => hact) h.life.due rfl rfl h.life.plain)
    rw [hact]
    rfl

theorem stop_inv (hf : fam ≠ .async) (e : Int) : Inv fam (w.stop fam e) := by
  unfold World.stop
  split
  · exact h.returned _
  rename_i hr
  have hready : w.ready = true := by simpa using hr
  split
  · exact h.returned _
  · exact h.finish hw rfl rfl rfl rfl rfl rfl
      (.of_ready hready (fun ha => absurd ha hf) nofun rfl rfl h.life.plain)

theorem close_inv : Inv fam (w.close fam) := by
  unfold World.close
  split
  · exact h
  · rename_i hi
    have hinit : w.initialized = true := by simpa using hi
    exact h.finish hw rfl rfl rfl rfl rfl rfl
      ⟨nofun, fun _ => hinit, fun _ _ hc => (by cases hc), nofun, h.life.plain⟩

end

theorem init_inv (h : Inv fam w) (hf : fam ≠ .async) (e : Int) : Inv fam (w.init e) := by
  unfold World.init
  repeat' split
  · exact h.returned _
  · exact h.returned _
  · have hset : Inv fam { w with initialized := true } :=
      ⟨h.force, h.single, h.lent, ⟨fun ha => ⟨rfl, (h.life.live ha).2⟩, fun _ => rfl,
        fun ha => absurd ha hf, h.life.due, h.life.plain⟩⟩
    exact hset.returned e

theorem timerAgain_inv (h : Inv fam w) (e : Int) : Inv fam (w.timerAgain e) := by
  unfold World.timerAgain
  repeat' split
  all_goals exact h.returned _

/-! ## the native callbacks -/

/-- what a notification does -/
inductive Notified (fam : Family) (w : World) (n : Notice) : World → Prop
  | terminated (hs : n.stop < 0) : Notified fam w n w.terminate
  | static {c : Nat} (hs : w.selected fam = some (c, false)) : Notified fam w n (w.callStatic c false)
  /-- a static timer that does not repeat -/
  | spent {c : Nat} {o : Bool} (hf : fam ≠ .async) (hs : w.selected fam = some (c, o)) :
      Notified fam w n (World.callStatic { w with active := false } c true)
  | stopped {c : Nat} {o : Bool} (hf : fam ≠ .async) (hs : w.selected fam = some (c, o)) :
      Notified fam w n (w.commitStop.callStatic c true)
  | runtime (hs : w.selected fam = none) (ho : w.oneshot = false) : Notified fam w n w.deliver
  | terminal (hf : fam ≠ .async) (hs : w.selected fam = none) :
      Notified fam w n (World.deliverTerminal { w with active := false })

/-- other sources than timers are active when they notify -/
theorem rearm_self (h : Inv fam w) (hf : fam ≠ .timer) (ha : w.live = true) : w.rearm = w := by
  have hd := h.not_due hf
  have hact : w.active = true := by simpa [World.live, hd] using ha
  unfold World.rearm
  rw [← hact, ← hd]

theorem selected_lambda {c : Nat} {o : Bool} (hd : fam.dispatches = false)
    (hr : w.registered = .lambda c o) : w.selected fam = some (c, o) := by
  simp [World.selected, hd, hr]

theorem selected_trampoline (hd : fam.dispatches = false) (hr : w.registered = .trampoline) :
    w.selected fam = none := by
  simp [World.selected, hd, hr]

/-- only signals have one-shot callbacks -/
theorem Inv.lambda_plain (h : Inv fam w) (hf : fam ≠ .signal) {c : Nat} {o : Bool}
    (hr : w.registered = .lambda c o) : o = false := by
  cases o with
  | false => rfl
  | true => exact absurd hr ((h.life.plain hf).2 c)

theorem timerNotify_notified (h : Inv .timer w) (n : Notice) :
    Notified .timer w.rearm n (w.timerNotify n) := by
  unfold World.timerNotify
  cases n.rearmed with
  | true =>
    dsimp only
    split
    · rename_i c o hr
      obtain rfl := h.lambda_plain nofun hr
      exact .static (selected_lambda rfl hr)
    · rename_i hr
      exact .runtime (selected_trampoline rfl hr) (h.life.plain nofun).1
  | false =>
    dsimp only
    split
    · rename_i c o hr
      exact .spent nofun (selected_lambda rfl hr)
    · rename_i hr
      exact .terminal nofun (selected_trampoline rfl hr)

theorem signalNotify_notified (w : World) (n : Notice) :
    Notified .signal w n (w.signalNotify n) := by
  unfold World.signalNotify
  split
  · rename_i c o hr
    cases o with
    | true =>
      rw [if_pos rfl]
      split
      · exact .terminated ‹_›
      · exact .stopped nofun (selected_lambda rfl hr)
    | false => exact .static (selected_lambda rfl hr)
  · rename_i hr
    split
    · split
      · exact .terminated ‹_›
      · exact .terminal nofun (selected_trampoline rfl hr)
    · rename_i ho
      exact .runtime (selected_trampoline rfl hr) (by simpa using ho)

theorem eventNotify_notified (h : Inv fam w) (hd : fam.dispatches = false) (hf : fam ≠ .signal)
    (hasync : fam ≠ .async) (n : Notice) : Notified fam w n (w.eventNotify n) := by
  unfold World.eventNotify
  split
  · rename_i c o hr
    split
    · split
      · exact .terminated ‹_›
      · exact .stopped hasync (selected_lambda hd hr)
    · obtain rfl := h.lambda_plain hf hr
      exact .static (selected_lambda hd hr)
  · rename_i hr
    split
    · split
      · exact .terminated ‹_›
      · exact .terminal hasync (selected_trampoline hd hr)
    · exact .runtime (selected_trampoline hd hr) (h.life.plain hf).1

theorem phaseNotify_notified (h : Inv fam w) (hd : fam.dispatches = false) (hf : fam ≠ .signal)
    (n : Notice) : Notified fam w n w.phaseNotify := by
  unfold World.phaseNotify
  split
  · rename_i c o hr
    obtain rfl := h.lambda_plain hf hr
    exact .static (selected_lambda hd hr)
  · rename_i hr
    exact .runtime (selected_trampoline hd hr) (h.life.plain hf).1

theorem dispatchNotify_notified (h : Inv fam w) (hd : fam.dispatches = true) (hf : fam ≠ .signal)
    (n : Notice) : Notified fam w n w.dispatchNotify := by
  unfold World.dispatchNotify
  split
  · rename_i c hs
    exact .static (by simp [World.selected, hd, hs])
  · rename_i hs
    exact .runtime (by simp [World.selected, hd, hs]) (h.life.plain hf).1

theorem notify_notified (h : Inv fam w) (ha : w.live = true) (n : Notice) :
    Notified fam w.rearm n (w.notify fam n) := by
  by_cases hf : fam = .timer
  · subst hf
    exact timerNotify_notified h n
  rw [rearm_self h hf ha]
  cases fam with
  | timer => exact absurd rfl hf
  | signal => exact signalNotify_notified w n
  | poll | fsEvent => exact eventNotify_notified h rfl nofun nofun n
  | fsPoll | async => exact dispatchNotify_notified h rfl nofun n
  | idle | prepare | check => exact phaseNotify_notified h rfl nofun n

theorem stored_idle (hf : w.frame = none) : w.stored = w.slot.callback := by
  unfold World.stored
  rw [hf]

/-- the last notification: the source is inactive and the slot empty before the user is called -/
theorem last_inv (h : Inv fam w) (hasync : fam ≠ .async) (ha : v.live = false)
    (hslot : v.slot.callback = none) (hframe : v.frame = none ∨ ∃ c, v.frame = some (.called c))
    (hlog : ∃ c, v.log = w.log ++ [.notified c true]) (hc : v.closing = w.closing)
    (hi : v.initialized = w.initialized) (ho : v.oneshot = w.oneshot)
    (hr : v.registered = w.registered) : Inv fam v := by
  obtain ⟨c, hlog⟩ := hlog
  have hstored : v.stored = none := by
    unfold World.stored
    rcases hframe with hv | ⟨x, hv⟩ <;> rw [hv] <;> exact hslot
  refine ⟨?_, ?_, ?_, ?_, ?_, fun hx => absurd hx hasync, ?_, ?_⟩
  · rw [hlog, inForce_snoc]
    exact view_inactive ha _
  · rw [hstored]
    exact nofun
  · intro x g n hx
    rcases hframe with hv | ⟨y, hv⟩ <;> rw [hv] at hx <;> cases hx
  · rw [ha]
    exact nofun
  · rw [hc, hi]
    exact h.life.closing
  · intro hd
    simp [World.live, hd] at ha
  · rw [ho, hr]
    exact h.life.plain

section
variable (h : Inv fam w) (hf : w.frame = none)

include h hf

/-- a static callback is in force alone -/
theorem slot_none {c : Nat} {o : Bool} (hs : w.selected fam = some (c, o)) :
    w.slot.callback = none := by
  cases hcb : w.slot.callback with
  | none => rfl
  | some x =>
    have hnone := (h.single x ((stored_idle hf).trans hcb)).2
    rw [hs] at hnone
    cases hnone

theorem callStatic_inv (c : Nat) : Inv fam (w.callStatic c false) where
  force := by
    show w.viewWith fam w.slot.callback = inForce (w.log ++ [.notified (some (.static c)) false])
    rw [inForce_snoc, ← stored_idle hf]
    exact h.force
  single := fun x hx => h.single x ((stored_idle hf).trans hx)
  lent := nofun
  life := { h.life with }

theorem deliver_inv (hs : w.selected fam = none) (ha : w.live = true) : Inv fam w.deliver := by
  unfold World.deliver
  cases hcb : w.slot.callback with
  | none => exact h.quiet rfl nofun
  | some c =>
    have hst : w.stored = some c := (stored_idle hf).trans hcb
    have hst' : World.stored ({ w with
        slot := w.slot.beginInvoke.1
        frame := some (.persistent c w.slot.generation (w.log.length + 1)) }.emit
        (.notified (some (.runtime c)) false)) = some c := if_pos rfl
    refine ⟨?_, fun x _ => ⟨ha, hs⟩, ?_, { h.life with }⟩
    · unfold World.view
      rw [hst']
      show w.viewWith fam (some c) = inForce (w.log ++ [_])
      rw [inForce_snoc, ← hst]
      exact h.force
    · rintro x g n ⟨⟩
      refine ⟨Nat.le_refl _, ?_, fun _ => rfl, fun _ => ?_, fun _ => rfl⟩
      · show _ ≤ (w.log ++ [_]).length
        rw [List.length_append]
        exact Nat.le_refl _
      · intro e he
        have he' : e ∈ (w.log ++ [Event.notified (some (.runtime c)) false]).drop
            (w.log.length + 1) := he
        rw [List.drop_of_length_le (by simp)] at he'
        cases he'

theorem notified_inv (ha : w.active = true) (hd : w.due = false) {n : Notice}
    (hn : Notified fam w n w') : Inv fam w' := by
  have hlast : World.live { w with active := false } = false := hd
  cases hn with
  | terminated =>
    exact ⟨h.force, h.single, h.lent, { h.life with }⟩
  | static hs => exact callStatic_inv h hf _
  | spent hasync hs =>
    have hnone := slot_none h hf hs
    exact last_inv h hasync hlast hnone (.inr ⟨_, rfl⟩) ⟨_, rfl⟩ rfl rfl rfl rfl
  | stopped hasync hs =>
    exact last_inv h hasync rfl rfl (.inr ⟨_, rfl⟩) ⟨_, rfl⟩ rfl rfl rfl rfl
  | runtime hs ho => exact deliver_inv h hf hs (by simp [World.live, ha])
  | terminal hasync hs =>
    unfold World.deliverTerminal Slot.take
    dsimp only
    cases w.slot.callback with
    | some c => exact last_inv h hasync hlast rfl (.inr ⟨_, rfl⟩) ⟨_, rfl⟩ rfl rfl rfl rfl
    | none => exact last_inv h hasync hlast rfl (.inl hf) ⟨_, rfl⟩ rfl rfl rfl rfl

/-- the callback that was called is the one in force, and a one-shot is used up -/
theorem notified_called (ha : w.active = true) {n : Notice} (hstop : 0 ≤ n.stop)
    (hn : Notified fam w n w') : ∃ t,
      w'.log = w.log ++ [.notified ((inForce w.log).bind Choice.callable) t] ∧
        ∀ ch, inForce w.log = some ch → ch.oneshot = true → t = true := by
  have hview : inForce w.log = w.viewWith fam w.slot.callback := by
    rw [← stored_idle hf]
    exact h.force.symm
  rw [hview]
  unfold World.viewWith
  rw [if_pos (by simp [World.live, ha])]
  cases hn with
  | terminated hs => exact absurd hs (by omega)
  | static hs =>
    rw [hs]
    refine ⟨_, rfl, ?_⟩
    rintro ch ⟨⟩ ho
    exact ho
  | spent _ hs | stopped _ hs =>
    rw [hs]
    exact ⟨_, rfl, fun _ _ _ => rfl⟩
  | runtime hs ho =>
    rw [hs]
    refine ⟨false, ?_, ?_⟩
    · unfold World.deliver
      cases w.slot.callback <;> rfl
    · rintro ch ⟨⟩ hone
      rw [ho] at hone
      cases hone
  | terminal hasync hs =>
    rw [hs]
    refine ⟨true, ?_, fun _ _ _ => rfl⟩
    unfold World.deliverTerminal Slot.take
    dsimp only
    cases w.slot.callback <;> rfl

end

/-- a callback returns, and the callable in force stays the same -/
theorem Inv.idle (h : Inv fam w) {s : Slot Nat}
    (hst : World.stored { w with slot := s, frame := none } = w.stored) :
    Inv fam { w with slot := s, frame := none } := by
  refine ⟨?_, ?_, nofun, { h.life with }⟩
  · unfold World.view
    rw [hst]
    exact h.force
  · rw [hst]
    exact h.single

theorem ret_inv (h : Inv fam w) (hs : w.ret = some w') : Inv fam w' := by
  unfold World.ret at hs
  split at hs
  · rename_i c g n hf
    cases hs
    refine h.idle ?_
    unfold World.stored Slot.endInvoke
    rw [hf]
    dsimp only
    split <;> rfl
  · rename_i c hf
    cases hs
    refine h.idle ?_
    unfold World.stored
    rw [hf]
  · cases hs

theorem step_inv (h : Inv fam w) {a : Act} (hw : Fresh w a) (hs : step fam w a = some w') :
    Inv fam w' := by
  unfold step at hs
  split at hs
  · cases hs
  cases a with
  | init e =>
    obtain ⟨hf, rfl⟩ := by simpa using hs
    exact init_inv h hf e
  | asyncInit ch e =>
    obtain ⟨⟨hf, ho⟩, rfl⟩ := by simpa using hs
    exact asyncInit_inv h hw hf ho e
  | start ch args s =>
    obtain ⟨⟨hf, ho, hdue⟩, rfl⟩ := by simpa using hs
    exact start_inv h hw hf ho args hdue
  | setCallback ch =>
    obtain ⟨⟨hf, ho⟩, rfl⟩ := by simpa using hs
    exact asyncSetCallback_inv h hw hf ho
  | stop e =>
    obtain ⟨hf, rfl⟩ := by simpa using hs
    exact stop_inv h hw hf e
  | again e =>
    obtain ⟨-, rfl⟩ := by simpa using hs
    exact timerAgain_inv h e
  | close =>
    obtain ⟨-, rfl⟩ := by simpa using hs
    exact close_inv h hw
  | expire =>
    obtain ⟨⟨rfl, ha, -⟩, rfl⟩ := by simpa using hs
    exact h.retimed (by simp [World.live, ha]) fun _ => ⟨rfl, rfl⟩
  | notify n =>
    obtain ⟨⟨ha, hf⟩, rfl⟩ := by simpa using hs
    exact notified_inv (h.rearm ha) hf rfl rfl (notify_notified h ha n)
  | ret => exact ret_inv h hs

theorem run_inv {as : List Act} (hr : (sys fam).run (sys fam).init as = some w)
    (hf : (sys fam).Meets Fresh (sys fam).init as) : Inv fam w :=
  Sys.run_inv_meets (P := Inv fam) (fun _ _ _ hi hc hs => step_inv hi hc hs) inv_init hf hr

/-! ## the contract -/

theorem Inv.inForce_none (h : Inv fam w) : inForce w.log = none ↔ w.live = false := by
  rw [← h.force]
  unfold World.view World.viewWith
  cases w.live with
  | false => simp
  | true =>
    simp only [if_true, Bool.true_eq_false, iff_false]
    split <;> exact nofun

structure Refined (fam : Family) (w : World) : Prop where
  /-- the state stands for the selection in force -/
  force : w.view fam = inForce w.log
  /-- a notification goes to its callback, and uses a one-shot up -/
  delivers : ∀ n w', 0 ≤ n.stop → step fam w (.notify n) = some w' →
    ∃ t, w'.log = w.log ++ [.notified ((inForce w.log).bind Choice.callable) t] ∧
      ∀ ch, inForce w.log = some ch → ch.oneshot = true → t = true
  /-- with nothing in force there are no notifications -/
  silent : inForce w.log = none → ∀ n, step fam w (.notify n) = none
  /-- a callable is put back unless something was selected, stopped or closed while it ran -/
  putBack : ∀ c g n w', w.frame = some (.persistent c g n) → step fam w .ret = some w' →
    w'.slot.callback = if ∀ e ∈ w.log.drop n, e.reselects = false then some c else w.slot.callback
  stored : ∀ c, w.slot.callback = some c → w.live = true
  /-- only a timer is due, and then it is not active -/
  due : w.due = true → fam = .timer ∧ w.active = false
  /-- a refused start leaves the selection in force if the source is active or due, and only then -/
  refused : ∀ a w' e b, Fresh w a → step fam w a = some w' → w'.log = w.log ++ [.refused e b] →
    w'.view fam = if w'.live then w.view fam else none
  /-- a static callback is in force alone -/
  exclusive : ∀ c, w.stored = some c → w.selected fam = none

theorem Inv.slot_live (h : Inv fam w) {c : Nat} (hc : w.slot.callback = some c) :
    w.live = true := by
  cases hf : w.frame with
  | none => exact (h.single c (by simp [World.stored, hf, hc])).1
  | some f =>
    cases f with
    | called x => exact (h.single c (by simp [World.stored, hf, hc])).1
    | persistent x g n =>
      by_cases hg : w.slot.generation = g
      · exact h.live_of_lent hf hg
      · exact (h.single c (by simp [World.stored, hf, hg, hc])).1

theorem notify_called (h : Inv fam w) {n : Notice} (hstop : 0 ≤ n.stop)
    (hs : step fam w (.notify n) = some w') : ∃ t,
      w'.log = w.log ++ [.notified ((inForce w.log).bind Choice.callable) t] ∧
        ∀ ch, inForce w.log = some ch → ch.oneshot = true → t = true := by
  unfold step at hs
  split at hs
  · cases hs
  obtain ⟨⟨ha, hf⟩, rfl⟩ := by simpa using hs
  exact notified_called (w := w.rearm) (h.rearm ha) hf rfl hstop (notify_notified h ha n)

theorem notify_silent (h : Inv fam w) (hn : inForce w.log = none) (n : Notice) :
    step fam w (.notify n) = none := by
  have ha := h.inForce_none.mp hn
  simp [step, ha]

theorem ret_putBack (h : Inv fam w) {c g n : Nat} (hf : w.frame = some (.persistent c g n))
    (hs : step fam w .ret = some w') : w'.slot.callback =
      if ∀ e ∈ w.log.drop n, e.reselects = false then some c else w.slot.callback := by
  have hret : w.ret = some w' := by
    unfold step at hs
    split at hs
    · cases hs
    · exact hs
  unfold World.ret at hret
  rw [hf] at hret
  cases hret
  have hiff := (h.lent c g n hf).2.2.2
  by_cases hg : w.slot.generation = g
  · rw [if_pos (hiff.mp hg)]
    simp [Slot.endInvoke, hg]
  · rw [if_neg (fun hd => hg (hiff.mpr hd))]
    simp [Slot.endInvoke, hg]

theorem refused_view (h : Inv fam w) (h' : Inv fam w') {e : Int} {b : Bool}
    (hlog : w'.log = w.log ++ [.refused e b]) :
    w'.view fam = if w'.live then w.view fam else none := by
  cases ha : w'.live with
  | false => exact view_inactive ha _
  | true =>
    have hforce := h'.force
    have hsome : inForce w'.log ≠ none := fun hn => by
      rw [h'.inForce_none, ha] at hn
      cases hn
    rw [hlog, inForce_snoc] at hforce hsome
    cases b with
    | false => exact absurd rfl hsome
    | true => exact hforce.trans h.force.symm

/-- what a raw watcher of any family does, as long as the generation does not wrap -/
theorem selection_refined (fam : Family) (as : List Act) (w : World)
    (hr : (sys fam).run (sys fam).init as = some w)
    (hf : (sys fam).Meets Fresh (sys fam).init as) : Refined fam w := by
  have h := run_inv hr hf
  exact {
    force := h.force
    delivers := fun n w' hstop hs => notify_called h hstop hs
    silent := notify_silent h
    putBack := fun c g n w' hfr hs => ret_putBack h hfr hs
    stored := fun c hc => h.slot_live hc
    due := h.life.due
    refused := fun a w' e b hw hs hlog => refused_view h (step_inv h hw hs) hlog
    exclusive := fun c hc => (h.single c hc).2 }

end

/-- A runtime callable of a signal selects a one-shot from inside; the one-shot starts a static
callback, and a rejected start leaves that one. -/
def signalRun : List Act :=
  [.init 0, .start ⟨some (.runtime 1), false⟩ {} {}, .notify {}, .start ⟨some (.runtime 2), true⟩ {} {},
    .ret, .notify {}, .start ⟨some (.static 3), false⟩ {} {}, .ret,
    .start ⟨some (.runtime 4), false⟩ {} ⟨-22, true⟩, .notify {}]

theorem selection_refined_signalRun : ∃ w, (sys .signal).run (sys .signal).init signalRun = some w ∧
    w.log.filterMap (fun e => match e with
      | .notified c _ => c
      | _ => none) = [.runtime 1, .runtime 2, .static 3] ∧ Refined .signal w :=
  ⟨_, rfl, rfl, selection_refined .signal signalRun _ rfl (by decide)⟩

/-! ## a generation that wraps -/

/-- the callable of a repeating timer has stopped it once -/
def stoppedInside : List Act :=
  [.init 0, .start ⟨some (.runtime 1), false⟩ {} {}, .notify {}, .stop 0]

/-- after `k` more stops -/
structure Stopped (k : Nat) (w : World) : Prop where
  ready : w.ready = true
  running : w.terminated = false
  frame : w.frame = some (.persistent 1 1 3)
  live : w.live = false
  generation : w.slot.generation = (2 + k) % 2 ^ 64

theorem Stopped.stop {k : Nat} {w : World} (h : Stopped k w) :
    ∃ w', (sys .timer).step w (.stop 0) = some w' ∧ Stopped (k + 1) w' := by
  refine ⟨w.commitStop.emit .stopped, ?_, h.ready, h.running, h.frame, rfl, ?_⟩
  · show step .timer w (.stop 0) = _
    simp [step, h.running, World.stop, h.ready, World.emit]
  · show (w.slot.generation + 1) % 2 ^ 64 = _
    rw [h.generation, Nat.mod_add_mod, Nat.add_assoc]

/-- a callable that stops its timer `2 ^ 64` times is put back when it returns -/
theorem wrapped_timer : ∃ as w, (sys .timer).run (sys .timer).init as = some w ∧ w.frame = none ∧
    w.live = false ∧ w.slot.callback = some 1 := by
  obtain ⟨w0, hrun0, h0⟩ : ∃ w, (sys .timer).run (sys .timer).init stoppedInside = some w ∧
      Stopped 0 w := ⟨_, rfl, rfl, rfl, rfl, rfl, rfl⟩
  obtain ⟨w1, hrun1, h1⟩ := Sys.run_replicate (S := sys .timer) (P := Stopped)
    (fun k w h => h.stop) (2 ^ 64 - 1) h0
  have hone : w1.slot.generation = 1 := h1.generation
  have hret : (sys .timer).step w1 .ret =
      some { w1 with slot := w1.slot.endInvoke 1 1, frame := none } := by
    have hs : step .timer w1 .ret = w1.ret := if_neg (by simp [h1.running])
    show step .timer w1 .ret = _
    rw [hs]
    unfold World.ret
    rw [h1.frame]
  refine ⟨stoppedInside ++ (List.replicate (2 ^ 64 - 1) (.stop 0) ++ [.ret]),
    { w1 with slot := w1.slot.endInvoke 1 1, frame := none }, ?_, rfl, h1.live, ?_⟩
  · rw [Sys.run_append, hrun0]
    show (sys .timer).run w0 _ = _
    rw [Sys.run_append, hrun1]
    exact (sys .timer).run_of_step hret []
  · show (w1.slot.endInvoke 1 1).callback = some 1
    unfold Slot.endInvoke
    rw [if_pos hone]

/-! ## what else is assumed -/

/-- the native stop of a one-shot signal fails -/
def failedStop : List Act :=
  [.init 0, .start ⟨some (.runtime 1), true⟩ {} {}, .notify { stop := ebadf }]

/-- a timer that is due gets a start with a duration that does not fit -/
def dueRefused : List Act :=
  [.init 0, .start ⟨some (.runtime 1), false⟩ {} {}, .expire,
    .start ⟨some (.runtime 2), false⟩ { valid := false } {}]

/-- A generation that wraps leaves a callable in a timer that was stopped while it ran; a native stop
that fails ends the process without a delivery; and a timer that is due has its callable, and keeps
it over a rejected start, although it is not active. -/
theorem selection_assumed :
    (∃ as w, (sys .timer).run (sys .timer).init as = some w ∧ w.frame = none ∧ w.live = false ∧
      w.slot.callback = some 1) ∧
    (∃ w, (sys .signal).run (sys .signal).init failedStop = some w ∧ w.terminated = true ∧
      inForce w.log = some ⟨some (.runtime 1), true⟩ ∧
      w.log = [.returned 0, .started ⟨some (.runtime 1), true⟩ true]) ∧
    ∃ w w', (sys .timer).run (sys .timer).init dueRefused = some w ∧ w.frame = none ∧
      w.active = false ∧ w.slot.callback = some 1 ∧ w.log.getLast? = some (.refused einval true) ∧
      step .timer w (.notify { rearmed := false }) = some w' ∧
      w'.log = w.log ++ [.notified (some (.runtime 1)) true] :=
  ⟨wrapped_timer, ⟨_, rfl, rfl, rfl, rfl⟩, ⟨_, _, rfl, rfl, rfl, rfl, rfl, rfl, rfl⟩⟩

end RawWatcher
