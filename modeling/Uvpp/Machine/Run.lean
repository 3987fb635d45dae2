import Mathlib.Data.List.Basic
import Mathlib.Logic.Relation

/-!
# Machines: partial step functions, their runs, and properties of whole runs

A machine is a start state and a partial step `step : W → A → Option W`: `none` says that the
action is not possible in that state.  Everything a program does while foreign code may call
back into it is one machine: the state holds the call stack, an action is one move of the code
on top of that stack or of the environment.

* `Sys.run`          the state after a list of actions;
* `Sys.Reach`        the states of all runs;
* `Reach.inv`        what holds at the start and is kept by every step holds in every run;
* `run_replicate`    one action over and over;
* `run_lift`         steps of a component that are actions of the machine make a run;
* `Sys.Meets C`      every step of a run meets `C` (a condition on the state BEFORE the step
                     and on the action);
* `run_inv_meets`    the same induction for runs that meet a condition;
* `Sys.Always P`     every state of a run satisfies `P`;
* `always_iff_meets` the runs that stay within `P` are those whose steps meet `C`;
* `meets_iff`        two step conditions that agree as long as both held so far agree on runs;
* `Sys.Along Q`      a run all of whose actions satisfy `Q` leads from one state to another, as a
                     step of one machine may do in a second machine that it projects to;
* `Along.of_rank`    a run that gets smaller with every action arrives.
-/

universe u v

/-- a start state and a partial step -/
structure Sys (W : Type u) (A : Type v) where
  init : W
  step : W → A → Option W

namespace Sys
variable {W : Type u} {A : Type v} (S : Sys W A)

/-- the state after the actions of a list, `none` as soon as one of them is not possible -/
def run : W → List A → Option W
  | w, [] => some w
  | w, a :: as =>
    match S.step w a with
    | none => none
    | some w' => run w' as

theorem run_nil (w : W) : S.run w [] = some w := rfl

theorem run_cons (w : W) (a : A) (as : List A) :
    S.run w (a :: as) = (S.step w a).bind fun w' => S.run w' as := by
  show (match S.step w a with
    | none => none
    | some w' => S.run w' as) = _
  cases S.step w a <;> rfl

theorem run_of_step {w w' : W} {a : A} (h : S.step w a = some w') (as : List A) :
    S.run w (a :: as) = S.run w' as := by
  rw [run_cons, h]
  rfl

theorem run_cons_some {w v : W} {a : A} {as : List A} (h : S.run w (a :: as) = some v) :
    ∃ w', S.step w a = some w' ∧ S.run w' as = some v := by
  rw [run_cons] at h
  cases hs : S.step w a with
  | none => rw [hs] at h; cases h
  | some w' => rw [hs] at h; exact ⟨w', rfl, h⟩

theorem run_append (w : W) (as bs : List A) :
    S.run w (as ++ bs) = (S.run w as).bind fun w' => S.run w' bs := by
  induction as generalizing w with
  | nil => rfl
  | cons a as ih =>
    rw [List.cons_append, run_cons, run_cons]
    cases S.step w a with
    | none => rfl
    | some w' => exact ih w'

/-- the states of the runs from the start state -/
def Reach (w : W) : Prop := ∃ as, S.run S.init as = some w

theorem Reach.init : S.Reach S.init := ⟨[], rfl⟩

theorem Reach.step {w w' : W} {a : A} (h : S.Reach w) (hs : S.step w a = some w') :
    S.Reach w' := by
  obtain ⟨as, has⟩ := h
  refine ⟨as ++ [a], ?_⟩
  rw [run_append, has]
  exact S.run_of_step hs []

theorem Reach.run {w w' : W} {as : List A} (h : S.Reach w) (hr : S.run w as = some w') :
    S.Reach w' := by
  obtain ⟨bs, hbs⟩ := h
  refine ⟨bs ++ as, ?_⟩
  rw [run_append, hbs]
  exact hr

variable {S}

/-- what every step keeps, every run keeps -/
theorem run_inv {P : W → Prop} (hs : ∀ w a w', P w → S.step w a = some w' → P w')
    {w w' : W} {as : List A} (h0 : P w) (hr : S.run w as = some w') : P w' := by
  induction as generalizing w with
  | nil =>
    rw [run_nil] at hr
    exact Option.some.inj hr ▸ h0
  | cons a as ih =>
    obtain ⟨w1, h1, h2⟩ := S.run_cons_some hr
    exact ih (hs w a w1 h0 h1) h2

/-- the invariant rule -/
theorem Reach.inv {P : W → Prop} (h0 : P S.init)
    (hs : ∀ w a w', P w → S.step w a = some w' → P w') {w : W} (h : S.Reach w) : P w := by
  obtain ⟨as, has⟩ := h
  exact run_inv hs h0 has

/-- one action over and over -/
theorem run_replicate {P : Nat → W → Prop} {a : A}
    (hs : ∀ k w, P k w → ∃ w', S.step w a = some w' ∧ P (k + 1) w') (n : Nat) {w : W} (h : P 0 w) :
    ∃ w', S.run w (List.replicate n a) = some w' ∧ P n w' := by
  induction n with
  | zero => exact ⟨w, rfl, h⟩
  | succ n ih =>
    obtain ⟨w1, hrun, h1⟩ := ih
    obtain ⟨w2, hstep, h2⟩ := hs n w1 h1
    refine ⟨w2, ?_, h2⟩
    rw [List.replicate_succ', run_append, hrun]
    exact S.run_of_step hstep []

/-- Steps of a component that are actions of the machine, one after the other, are a run. -/
theorem run_lift {L : Type*} {R : L → L → Prop} {f : L → W} {Q : A → Prop}
    (hs : ∀ l l', R l l' → ∃ a, Q a ∧ S.step (f l) a = some (f l')) {l l' : L}
    (h : Relation.ReflTransGen R l l') : ∃ as, (∀ a ∈ as, Q a) ∧ S.run (f l) as = some (f l') := by
  induction h with
  | refl => exact ⟨[], nofun, rfl⟩
  | @tail l1 l2 _ hstep ih =>
    obtain ⟨as, has, hrun⟩ := ih
    obtain ⟨a, ha, hs'⟩ := hs l1 l2 hstep
    refine ⟨as ++ [a], ?_, ?_⟩
    · intro b hb
      rcases List.mem_append.mp hb with hb | hb
      · exact has b hb
      · rw [List.mem_singleton.mp hb]
        exact ha
    · rw [run_append, hrun]
      exact S.run_of_step hs' []

variable (S)

/-- every step of the run meets `C`, read at the state before the step -/
def Meets (C : W → A → Prop) : W → List A → Prop
  | _, [] => True
  | w, a :: as => C w a ∧ ∀ w', S.step w a = some w' → Meets C w' as

variable {S}

theorem meets_cons {C : W → A → Prop} {w w' : W} {a : A} {as : List A}
    (hs : S.step w a = some w') : S.Meets C w (a :: as) ↔ C w a ∧ S.Meets C w' as := by
  constructor
  · rintro ⟨h1, h2⟩
    exact ⟨h1, h2 w' hs⟩
  · rintro ⟨h1, h2⟩
    refine ⟨h1, fun v hv => ?_⟩
    rw [hs] at hv
    exact Option.some.inj hv ▸ h2

instance decidableMeets (C : W → A → Prop) [∀ w a, Decidable (C w a)] :
    ∀ w as, Decidable (S.Meets C w as)
  | _, [] => isTrue trivial
  | w, a :: as =>
    match hs : S.step w a with
    | none => decidable_of_iff (C w a) ⟨fun h => ⟨h, by rw [hs]; exact nofun⟩, fun h => h.1⟩
    | some w' =>
      have := decidableMeets C w' as
      decidable_of_iff (C w a ∧ S.Meets C w' as) (meets_cons hs).symm

/-- a condition on the actions alone -/
theorem meets_of_forall {C : A → Prop} {as : List A} (h : ∀ a ∈ as, C a) {w : W} :
    S.Meets (fun _ a => C a) w as := by
  induction as generalizing w with
  | nil => exact trivial
  | cons a as ih =>
    rw [List.forall_mem_cons] at h
    exact ⟨h.1, fun _ _ => ih h.2⟩

/-- what every step that meets `C` keeps, every run whose steps meet `C` keeps -/
theorem run_inv_meets {P : W → Prop} {C : W → A → Prop}
    (hs : ∀ w a w', P w → C w a → S.step w a = some w' → P w')
    {w w' : W} {as : List A} (h0 : P w) (hc : S.Meets C w as) (hr : S.run w as = some w') :
    P w' := by
  induction as generalizing w with
  | nil =>
    rw [run_nil] at hr
    exact Option.some.inj hr ▸ h0
  | cons a as ih =>
    obtain ⟨w1, h1, h2⟩ := S.run_cons_some hr
    obtain ⟨hca, hcs⟩ := (meets_cons h1).mp hc
    exact ih (hs w a w1 h0 hca h1) hcs h2

/-- If, in every state the invariant allows, one step meets `C` exactly when it meets `D`, and
steps that meet both keep the invariant, then a run meets `C` exactly when it meets `D`. -/
theorem meets_iff {I : W → Prop} {C D : W → A → Prop}
    (hs : ∀ w a w', I w → S.step w a = some w' → (C w a ↔ D w a) ∧ (C w a → I w'))
    {w v : W} {as : List A} (h0 : I w) (hr : S.run w as = some v) :
    S.Meets C w as ↔ S.Meets D w as := by
  induction as generalizing w with
  | nil => exact Iff.rfl
  | cons a as ih =>
    obtain ⟨w1, h1, h2⟩ := S.run_cons_some hr
    obtain ⟨hiff, hkeep⟩ := hs w a w1 h0 h1
    rw [meets_cons h1, meets_cons h1]
    constructor
    · rintro ⟨hc, hcs⟩
      exact ⟨hiff.mp hc, (ih (hkeep hc) h2).mp hcs⟩
    · rintro ⟨hd, hds⟩
      have hc := hiff.mpr hd
      exact ⟨hc, (ih (hkeep hc) h2).mpr hds⟩

variable (S)

/-- every state of the run satisfies `P`, the first and the last included -/
def Always (P : W → Prop) : W → List A → Prop
  | w, [] => P w
  | w, a :: as => P w ∧ ∀ w', S.step w a = some w' → Always P w' as

variable {S}

theorem always_cons {P : W → Prop} {w w' : W} {a : A} {as : List A}
    (hs : S.step w a = some w') : S.Always P w (a :: as) ↔ P w ∧ S.Always P w' as := by
  constructor
  · intro ⟨h1, h2⟩
    exact ⟨h1, h2 w' hs⟩
  · intro ⟨h1, h2⟩
    refine ⟨h1, fun v hv => ?_⟩
    rw [hs] at hv
    exact Option.some.inj hv ▸ h2

theorem Always.head {P : W → Prop} {w : W} {as : List A} (h : S.Always P w as) : P w := by
  cases as with
  | nil => exact h
  | cons a as => exact h.1

/-- Among the steps that meet `D`, let those that meet `C` keep an invariant that implies `P`, and
let the others leave `P`.  Then the runs of such steps that stay within `P` are exactly those
whose steps meet `C`. -/
theorem always_iff_meets_of {I P : W → Prop} {C D : W → A → Prop} (hP : ∀ w, I w → P w)
    (hs : ∀ w a w', I w → D w a → S.step w a = some w' → (C w a → I w') ∧ (P w' → C w a))
    {w v : W} {as : List A} (h0 : I w) (hd : S.Meets D w as) (hr : S.run w as = some v) :
    S.Always P w as ↔ S.Meets C w as := by
  induction as generalizing w with
  | nil => exact ⟨fun _ => trivial, fun _ => hP w h0⟩
  | cons a as ih =>
    obtain ⟨w1, h1, h2⟩ := S.run_cons_some hr
    obtain ⟨hda, hds⟩ := (meets_cons h1).mp hd
    obtain ⟨hkeep, hleave⟩ := hs w a w1 h0 hda h1
    rw [always_cons h1, meets_cons h1]
    constructor
    · intro ⟨_, hal⟩
      have hc := hleave hal.head
      exact ⟨hc, (ih (hkeep hc) hds h2).mp hal⟩
    · intro ⟨hc, hm⟩
      exact ⟨hP w h0, (ih (hkeep hc) hds h2).mpr hm⟩

theorem meets_true (w : W) (as : List A) : S.Meets (fun _ _ => True) w as := by
  induction as generalizing w with
  | nil => trivial
  | cons a as ih => exact ⟨trivial, fun w' _ => ih w'⟩

/-- the same for all steps -/
theorem always_iff_meets {I P : W → Prop} {C : W → A → Prop} (hP : ∀ w, I w → P w)
    (hs : ∀ w a w', I w → S.step w a = some w' → (C w a → I w') ∧ (P w' → C w a))
    {w v : W} {as : List A} (h0 : I w) (hr : S.run w as = some v) :
    S.Always P w as ↔ S.Meets C w as :=
  always_iff_meets_of hP (fun w a w' hi _ => hs w a w' hi) h0 (meets_true w as) hr

/-! ## one machine seen through another -/

variable (S)

/-- a run of actions that satisfy `Q` leads from `w` to `w'` -/
def Along (Q : A → Prop) (w w' : W) : Prop := ∃ as, (∀ a ∈ as, Q a) ∧ S.run w as = some w'

variable {S}

theorem Along.refl {Q : A → Prop} (w : W) : S.Along Q w w := ⟨[], nofun, rfl⟩

theorem Along.one {Q : A → Prop} {w w' : W} {a : A} (ha : Q a) (hs : S.step w a = some w') :
    S.Along Q w w' := by
  refine ⟨[a], fun b hb => ?_, S.run_of_step hs []⟩
  rw [List.mem_singleton.mp hb]
  exact ha

theorem Along.trans {Q : A → Prop} {u v w : W} (h1 : S.Along Q u v) (h2 : S.Along Q v w) :
    S.Along Q u w := by
  obtain ⟨as, hqa, ha⟩ := h1
  obtain ⟨bs, hqb, hb⟩ := h2
  refine ⟨as ++ bs, fun a hm => ?_, ?_⟩
  · rcases List.mem_append.mp hm with hm | hm
    · exact hqa a hm
    · exact hqb a hm
  · rw [run_append, ha]
    exact hb

/-- what every action that satisfies `Q` keeps -/
theorem Along.inv {Q : A → Prop} {P : W → Prop}
    (hs : ∀ w a w', P w → Q a → S.step w a = some w' → P w') {w w' : W} (h0 : P w)
    (h : S.Along Q w w') : P w' := by
  obtain ⟨as, has, hr⟩ := h
  induction as generalizing w with
  | nil => exact Option.some.inj hr ▸ h0
  | cons a as ih =>
    obtain ⟨w1, h1, h2⟩ := S.run_cons_some hr
    exact ih (hs w a w1 h0 (has a (List.mem_cons_self ..)) h1)
      (fun b hb => has b (List.mem_cons_of_mem a hb)) h2

/-- While the goal is not reached, some action is possible that keeps `P` and makes the rank
smaller: then a run arrives at the goal. -/
theorem Along.of_rank {Q : A → Prop} {P G : W → Prop} (rank : W → Nat)
    (hs : ∀ w, P w → ¬ G w → ∃ a w', Q a ∧ S.step w a = some w' ∧ P w' ∧ rank w' < rank w) {w : W}
    (h : P w) : ∃ w', S.Along Q w w' ∧ P w' ∧ G w' := by
  induction hn : rank w using Nat.strongRecOn generalizing w with
  | ind n ih =>
    by_cases hg : G w
    · exact ⟨w, .refl w, h, hg⟩
    · obtain ⟨a, w1, hq, h1, hp, hlt⟩ := hs w h hg
      obtain ⟨v, hv, hpv, hgv⟩ := ih _ (hn ▸ hlt) hp rfl
      exact ⟨v, (Along.one hq h1).trans hv, hpv, hgv⟩

end Sys
