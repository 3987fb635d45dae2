import Mathlib.Logic.Function.Basic
import Uvpp.Machine.Throwing

/-!
# Awaiting a task

`task<T>::awaiter::await_resume` moves the result of the child out of its promise and destroys the
frame (`co/task.hpp`).  Moves may throw, unless the language guarantees that there is none.

* `Body`                 what a task does: it awaits others, handles their results, and ends;
* `run`                  a task with the frames of all it awaits, as the code has it;
* `eval`                 the same as calls of functions that return or throw;
* `Quiet`                no move throws in `return value` of `await_resume`;
* `run_refines`          results are those of `eval`, and how often each frame is destroyed;
* `await_once_iff`       every frame is destroyed once if and only if the run is quiet.
-/

namespace TaskAwait
open Throwing

/-- an exception -/
inductive Failure (E : Type) where
  | thrown (e : E)
  /-- task completed without a value -/
  | noValue
deriving DecidableEq

/-- A task that awaits a task gets a value or an exception and goes on with it. -/
inductive Body (V E : Type) where
  | coReturn (v : V)
  | throws (e : Failure E)
  | await (child : Body V E) (next : Except (Failure E) V → Body V E)
  /-- the child is a `task<void>` -/
  | awaitVoid (child : Body V E) (next : Except (Failure E) Unit → Body V E)

structure Promise (V E : Type) where
  value : Option V := none
  exception : Option (Failure E) := none

/-- Frames are numbered in the order in which they are made. -/
structure World (V E : Type) where
  next : Nat := 0
  promise : Nat → Promise V E := fun _ => {}
  destroyed : Nat → Nat := fun _ => 0
  /-- what the next moves throw; a move that is elided throws nothing -/
  moves : List (Option E) := []

abbrev Run (V E α : Type) := Cmd (Failure E) (World V E) α

variable {V E : Type}

namespace World

def setPromise (s : World V E) (f : Nat) (g : Promise V E → Promise V E) : World V E :=
  { s with promise := Function.update s.promise f (g (s.promise f)) }

/-- `destroy` of a coroutine handle -/
def destroy (s : World V E) (f : Nat) : World V E :=
  { s with destroyed := Function.update s.destroyed f (s.destroyed f + 1) }

/-- the call of a coroutine -/
def create (s : World V E) : World V E :=
  { s with next := s.next + 1, promise := Function.update s.promise s.next {} }

end World

/-- the next of the moves -/
def pop : List (Option E) → Option E × List (Option E)
  | [] => (none, [])
  | m :: ms => (m, ms)

/-- a move of `T` -/
def move (v : V) : Run V E V := fun s =>
  match pop s.moves with
  | (none, ms) => (.ok v, { s with moves := ms })
  | (some e, ms) => (.error (.thrown e), { s with moves := ms })

def promiseOf (f : Nat) : Run V E (Promise V E) := do return (← get).promise f

/-- `value_.emplace` -/
def returnValue (f : Nat) (v : V) : Run V E Unit := do
  let v ← move v
  modify fun s => s.setPromise f ({ · with value := some v })

def returnVoid (_ : Nat) : Run V E Unit := pure ()

def rethrowIfFailed (f : Nat) : Run V E Unit := do
  match (← promiseOf f).exception with
  | some e => throw e
  | none => pure ()

def takeResult (f : Nat) : Run V E V := do
  rethrowIfFailed f
  match (← promiseOf f).value with
  | none => throw .noValue
  | some v =>
    let result ← move v
    modify fun s => s.setPromise f ({ · with value := none })
    -- `return result`
    move result

/-- `child_` is null from here on, the destructor of the awaiter finds no frame -/
def awaitResume (f : Nat) : Run V E V :=
  unwind
    (do
      let value ← takeResult f
      modify (·.destroy f)
      -- `return value`
      move value)
    (·.destroy f)

def awaitResumeVoid (f : Nat) : Run V E Unit :=
  unwind
    (do
      rethrowIfFailed f
      modify (·.destroy f))
    (·.destroy f)

/-- a body runs to its end; `unhandled_exception` keeps what leaves it -/
def complete (f : Nat) (body : Run V E Unit) : Run V E Unit := fun s =>
  match exec body s with
  | (.ok _, s) => (.ok (), s)
  | (.error e, s) => (.ok (), s.setPromise f ({ · with exception := some e }))

/-- what a `co_await` gives to the code around it -/
def observe {α : Type} (m : Run V E α) : Run V E (Except (Failure E) α) := fun s =>
  match exec m s with
  | (r, s) => (.ok r, s)

def create : Run V E Nat := fun s => (.ok s.next, s.create)

/-- The operand of `co_return`, or the exception that leaves the body. -/
def run : Body V E → Run V E V
  | .coReturn v => pure v
  | .throws e => throw e
  | .await child next => do
    let f ← create
    complete f (run child >>= returnValue f)
    let r ← observe (awaitResume f)
    run (next r)
  | .awaitVoid child next => do
    let f ← create
    complete f (run child >>= fun _ => returnVoid f)
    let r ← observe (awaitResumeVoid f)
    run (next r)

/-! ## The same as calls of functions -/

/-- `n` moves of a value, one after the other -/
def carry : Nat → V → List (Option E) → Except (Failure E) V × List (Option E)
  | 0, v, ms => (.ok v, ms)
  | n + 1, v, ms =>
    match pop ms with
    | (none, ms) => carry n v ms
    | (some e, ms) => (.error (.thrown e), ms)

theorem carry_cons (n : Nat) (v : V) (ms : List (Option E)) :
    carry (n + 1) v ms =
      match pop ms with
      | (none, ms) => carry n v ms
      | (some e, ms) => (.error (.thrown e), ms) := rfl

/-- one move more -/
theorem carry_succ (n : Nat) (v : V) (ms : List (Option E)) :
    carry (n + 1) v ms =
      match carry n v ms with
      | (.ok v, ms) => carry 1 v ms
      | (.error e, ms) => (.error e, ms) := by
  induction n generalizing ms with
  | zero => rfl
  | succ n ih =>
    rw [carry_cons, carry_cons]
    rcases pop ms with ⟨m, ms⟩
    cases m with
    | none => exact ih ms
    | some e => rfl

/-- into the promise, out of it, out of `take_result` and out of `await_resume` -/
def deliver : Except (Failure E) V → List (Option E) → Except (Failure E) V × List (Option E)
  | .ok v, ms => carry 4 v ms
  | .error e, ms => (.error e, ms)

def eval : Body V E → List (Option E) → Except (Failure E) V × List (Option E)
  | .coReturn v, ms => (.ok v, ms)
  | .throws e, ms => (.error e, ms)
  | .await child next, ms =>
    match eval child ms with
    | (r, ms) =>
      match deliver r ms with
      | (r, ms) => eval (next r) ms
  | .awaitVoid child next, ms =>
    match eval child ms with
    | (r, ms) => eval (next (r.map fun _ => ())) ms

/-- the value arrives after `n` moves, and one more does not throw -/
def QuietLast (n : Nat) (v : V) (ms : List (Option E)) : Prop :=
  match carry n v ms with
  | (.ok _, ms) => (pop ms).1 = none
  | (.error _, _) => True

/-- the last of the four moves does not throw -/
def QuietDelivery : Except (Failure E) V → List (Option E) → Prop
  | .ok v, ms => QuietLast 3 v ms
  | .error _, _ => True

/-- no move throws in `return value` -/
def Quiet : Body V E → List (Option E) → Prop
  | .coReturn _, _ => True
  | .throws _, _ => True
  | .await child next, ms =>
    Quiet child ms ∧ QuietDelivery (eval child ms).1 (eval child ms).2 ∧
      Quiet (next (deliver (eval child ms).1 (eval child ms).2).1)
        (deliver (eval child ms).1 (eval child ms).2).2
  | .awaitVoid child next, ms =>
    Quiet child ms ∧ Quiet (next ((eval child ms).1.map fun _ => ())) (eval child ms).2

/-! ## One `co_await` -/

section
variable {s s' : World V E} {f : Nat}

/-- The frame `f` was destroyed, and apart from it the moves went on. -/
structure Ended (s s' : World V E) (f : Nat) (ms : List (Option E)) (once : Prop) : Prop where
  next : s'.next = s.next
  moves : s'.moves = ms
  promise : ∀ g, g ≠ f → s'.promise g = s.promise g
  destroyed : ∀ g, g ≠ f → s'.destroyed g = s.destroyed g
  once : s'.destroyed f = s.destroyed f + 1 ↔ once

theorem exec_move (v : V) (s : World V E) :
    exec (move v) s =
      match pop s.moves with
      | (none, ms) => (.ok v, { s with moves := ms })
      | (some e, ms) => (.error (.thrown e), { s with moves := ms }) := rfl

theorem exec_returnValue (f : Nat) (v : V) (s : World V E) :
    exec (returnValue f v) s =
      match pop s.moves with
      | (none, ms) => (.ok (), { s with moves := ms }.setPromise f ({ · with value := some v }))
      | (some e, ms) => (.error (.thrown e), { s with moves := ms }) := by
  unfold returnValue
  rw [exec_bind, exec_move]
  rcases pop s.moves with ⟨m, ms⟩
  cases m <;> rfl

theorem exec_rethrowIfFailed (f : Nat) (s : World V E) :
    exec (rethrowIfFailed f) s =
      match (s.promise f).exception with
      | some e => (.error e, s)
      | none => (.ok (), s) := by
  unfold rethrowIfFailed
  rw [exec_bind]
  show exec (match (s.promise f).exception with
    | some e => throw e
    | none => pure () : Run V E Unit) s = _
  cases (s.promise f).exception <;> rfl

/-- the frame is destroyed -/
theorem Ended.destroy {ms : List (Option E)} (hnext : s'.next = s.next) (hmoves : s'.moves = ms)
    (hp : ∀ g, g ≠ f → s'.promise g = s.promise g) (hd : s'.destroyed = s.destroyed) :
    Ended s (s'.destroy f) f ms True where
  next := hnext
  moves := hmoves
  promise := hp
  destroyed g hg := by
    show Function.update s'.destroyed f _ g = _
    rw [Function.update_of_ne hg, hd]
  once := by
    show Function.update s'.destroyed f _ f = _ ↔ _
    rw [Function.update_self, hd, eq_self]

/-- a child that failed -/
theorem awaitResume_failed {e : Failure E} (he : (s.promise f).exception = some e) :
    exec (awaitResume f) s = (.error e, s.destroy f) ∧
      exec (awaitResumeVoid f) s = (.error e, s.destroy f) := by
  have hfail := exec_rethrowIfFailed f s
  rw [he] at hfail
  constructor
  · unfold awaitResume takeResult
    rw [exec_unwind, exec_bind, exec_bind, hfail]
  · unfold awaitResumeVoid
    rw [exec_unwind, exec_bind, hfail]

/-- the frame with nothing but its promise touched -/
structure Touched (s s' : World V E) (f : Nat) (ms : List (Option E)) : Prop where
  next : s'.next = s.next
  moves : s'.moves = ms
  promise : ∀ g, g ≠ f → s'.promise g = s.promise g
  destroyed : s'.destroyed = s.destroyed

theorem takeResult_value {v : V} (he : (s.promise f).exception = none)
    (hv : (s.promise f).value = some v) :
    ∃ s', exec (takeResult f) s = ((carry 2 v s.moves).1, s') ∧
      Touched s s' f (carry 2 v s.moves).2 := by
  have hok := exec_rethrowIfFailed f s
  rw [he] at hok
  unfold takeResult
  rw [exec_bind, hok]
  dsimp only
  rw [exec_bind]
  show ∃ s', exec (match (s.promise f).value with
    | none => throw .noValue
    | some v => do
      let result ← move v
      modify fun s => s.setPromise f ({ · with value := none })
      move result : Run V E V) s = _ ∧ _
  rw [hv]
  dsimp only
  rw [exec_bind, exec_move]
  -- out of the promise
  rcases hm : pop s.moves with ⟨m, ms⟩
  cases m with
  | some e =>
    simp only [carry, hm]
    exact ⟨_, rfl, rfl, rfl, fun _ _ => rfl, rfl⟩
  | none =>
    simp only [carry, hm]
    -- out of `take_result`
    rcases hm' : pop ms with ⟨m', ms'⟩
    rw [exec_bind, exec_modify]
    dsimp only
    rw [exec_move, show (World.setPromise _ _ _ : World V E).moves = ms from rfl, hm']
    cases m' with
    | some | none => exact ⟨_, rfl, rfl, rfl, fun g hg => Function.update_of_ne hg .., rfl⟩

theorem awaitResume_value {v : V} (he : (s.promise f).exception = none)
    (hv : (s.promise f).value = some v) :
    ∃ s', exec (awaitResume f) s = ((carry 3 v s.moves).1, s') ∧
      Ended s s' f (carry 3 v s.moves).2 (QuietLast 2 v s.moves) := by
  obtain ⟨t, ht, hn, hm, hp, hd⟩ := takeResult_value he hv
  unfold awaitResume QuietLast
  rw [exec_unwind, exec_bind, ht, show carry 3 v s.moves = _ from carry_succ 2 v s.moves]
  generalize carry 2 v s.moves = c at hm ⊢
  obtain ⟨r, ms⟩ := c
  cases r with
  | error e => exact ⟨_, rfl, Ended.destroy hn hm hp hd⟩
  | ok v =>
    dsimp only
    rw [exec_bind, exec_modify]
    dsimp only
    rw [exec_move, show (t.destroy f).moves = ms from hm]
    have hend := Ended.destroy hn hm hp hd
    -- `return value`, after the frame is gone
    rcases hm' : pop ms with ⟨m, ms'⟩
    simp only [carry, hm']
    cases m with
    | none => exact ⟨_, rfl, hend.next, rfl, hend.promise, hend.destroyed, hend.once.trans (by simp)⟩
    | some e =>
      refine ⟨_, rfl, hend.next, rfl, hend.promise, fun g hg => ?_, ?_⟩
      · show Function.update (t.destroy f).destroyed f _ g = _
        rw [Function.update_of_ne hg]
        exact hend.destroyed g hg
      · show Function.update (t.destroy f).destroyed f _ f = _ ↔ _
        rw [Function.update_self, hend.once.mpr trivial]
        simp

theorem exec_observe {α : Type} (m : Run V E α) (s : World V E) :
    exec (observe m) s = (.ok (exec m s).1, (exec m s).2) := rfl

theorem exec_complete (f : Nat) (body : Run V E Unit) (s : World V E) :
    exec (complete f body) s =
      match exec body s with
      | (.ok _, s) => (.ok (), s)
      | (.error e, s) => (.ok (), s.setPromise f ({ · with exception := some e })) := rfl

/-- a body that failed, wherever its exception comes from -/
theorem failed_delivery {body : Run V E Unit} {s₀ t : World V E} {e : Failure E}
    {ms : List (Option E)} (hbody : exec body s₀ = (.error e, t)) (ht : Touched s t f ms) :
    ∃ s', exec (complete f body >>= fun _ => observe (awaitResume f)) s₀ = (.ok (.error e), s') ∧
      exec (complete f body >>= fun _ => observe (awaitResumeVoid f)) s₀ = (.ok (.error e), s') ∧
      Ended s s' f ms True := by
  have hexc : ((t.setPromise f ({ · with exception := some e })).promise f).exception = some e := by
    simp [World.setPromise]
  obtain ⟨hvalue, hvoid⟩ := awaitResume_failed hexc
  refine ⟨(t.setPromise f ({ · with exception := some e })).destroy f, ?_, ?_, ?_⟩
  · rw [exec_bind, exec_complete, hbody]
    dsimp only
    rw [exec_observe, hvalue]
  · rw [exec_bind, exec_complete, hbody]
    dsimp only
    rw [exec_observe, hvoid]
  · refine Ended.destroy ht.next ht.moves (fun g hg => ?_) ht.destroyed
    show Function.update t.promise f _ g = _
    rw [Function.update_of_ne hg]
    exact ht.promise g hg

/-- A child with the body `m` is run and awaited. -/
theorem delivery {m : Run V E V} {s₀ : World V E} {r : Except (Failure E) V}
    (hm : exec m s₀ = (r, s)) (hp : s.promise f = {}) :
    ∃ s', exec (complete f (m >>= returnValue f) >>= fun _ => observe (awaitResume f)) s₀ =
        (.ok (deliver r s.moves).1, s') ∧
      Ended s s' f (deliver r s.moves).2 (QuietDelivery r s.moves) := by
  cases r with
  | error e =>
    have hbody : exec (m >>= returnValue f) s₀ = (.error e, s) := by rw [exec_bind, hm]
    obtain ⟨s', hex, -, hend⟩ := failed_delivery hbody ⟨rfl, rfl, fun _ _ => rfl, rfl⟩
    exact ⟨s', hex, hend⟩
  | ok v =>
    have hbody : exec (m >>= returnValue f) s₀ = exec (returnValue f v) s := by rw [exec_bind, hm]
    rw [exec_returnValue] at hbody
    unfold deliver QuietDelivery QuietLast
    dsimp only
    rw [show carry 4 v s.moves = _ from carry_cons 3 v s.moves,
      show carry 3 v s.moves = _ from carry_cons 2 v s.moves]
    -- into the promise
    rcases hpop : pop s.moves with ⟨p, ms⟩
    rw [hpop] at hbody
    cases p with
    | some e =>
      have htouched : Touched s { s with moves := ms } f ms := ⟨rfl, rfl, fun _ _ => rfl, rfl⟩
      obtain ⟨s', hex, -, hend⟩ := failed_delivery hbody htouched
      exact ⟨s', hex, hend⟩
    | none =>
      -- out of it, and to the parent
      have hpromise : ({ s with moves := ms }.setPromise f ({ · with value := some v })).promise f =
          { value := some v } := by
        simp [World.setPromise, hp]
      obtain ⟨s', hex, hend⟩ := awaitResume_value (congrArg Promise.exception hpromise)
        (congrArg Promise.value hpromise)
      refine ⟨s', ?_, hend.next, hend.moves, fun g hg => ?_, hend.destroyed, hend.once⟩
      · rw [exec_bind, exec_complete, hbody]
        dsimp only
        rw [exec_observe, hex]
        rfl
      · exact (hend.promise g hg).trans (Function.update_of_ne hg ..)

/-- the same for a `task<void>` -/
theorem deliveryVoid {m : Run V E V} {s₀ : World V E} {r : Except (Failure E) V}
    (hm : exec m s₀ = (r, s)) (hp : s.promise f = {}) :
    ∃ s', exec (complete f (m >>= fun _ => returnVoid f) >>= fun _ => observe (awaitResumeVoid f)) s₀ =
        (.ok (r.map fun _ => ()), s') ∧
      Ended s s' f s.moves True := by
  cases r with
  | error e =>
    have hbody : exec (m >>= fun _ => returnVoid f) s₀ = (.error e, s) := by rw [exec_bind, hm]
    obtain ⟨s', -, hex, hend⟩ := failed_delivery hbody ⟨rfl, rfl, fun _ _ => rfl, rfl⟩
    exact ⟨s', hex, hend⟩
  | ok v =>
    have hbody : exec (m >>= fun _ => returnVoid f) s₀ = (.ok (), s) := by
      rw [exec_bind, hm]
      rfl
    have hok := exec_rethrowIfFailed f s
    rw [hp] at hok
    refine ⟨s.destroy f, ?_, Ended.destroy rfl rfl (fun _ _ => rfl) rfl⟩
    rw [exec_bind, exec_complete, hbody]
    dsimp only
    unfold awaitResumeVoid
    rw [exec_observe, exec_unwind, exec_bind, hok]
    rfl

/-! ## Whole runs -/

/-- From `s` to `s'` frames were made, those before are as they were, and the new ones were destroyed
once if and only if `once`. -/
structure Runs (s s' : World V E) (ms : List (Option E)) (once : Prop) : Prop where
  next : s.next ≤ s'.next
  moves : s'.moves = ms
  promise : ∀ g, g < s.next → s'.promise g = s.promise g
  old : ∀ g, g < s.next → s'.destroyed g = s.destroyed g
  unborn : ∀ g, s'.next ≤ g → s'.destroyed g = 0
  once : (∀ g, s.next ≤ g → g < s'.next → s'.destroyed g = 1) ↔ once

theorem Runs.refl (h : ∀ g, s.next ≤ g → s.destroyed g = 0) : Runs s s s.moves True where
  next := Nat.le_refl _
  moves := rfl
  promise _ _ := rfl
  old _ _ := rfl
  unborn := h
  once := by
    refine iff_true_intro fun g h1 h2 => ?_
    omega

theorem Ended.unborn {t u : World V E} {ms ms' : List (Option E)} {p q : Prop}
    (hchild : Runs s.create t ms p) (hend : Ended t u s.next ms' q) :
    ∀ g, u.next ≤ g → u.destroyed g = 0 := by
  intro g hg
  have hnext : s.next + 1 ≤ t.next := hchild.next
  rw [hend.next] at hg
  rw [hend.destroyed g (by omega)]
  exact hchild.unborn g hg

/-- A child is made, runs, is awaited, and the parent goes on. -/
theorem Runs.await {t u : World V E} {ms ms' ms'' : List (Option E)} {p q r : Prop}
    (h : ∀ g, s.next ≤ g → s.destroyed g = 0) (hchild : Runs s.create t ms p)
    (hend : Ended t u s.next ms' q) (hrest : Runs u s' ms'' r) : Runs s s' ms'' (p ∧ q ∧ r) := by
  have hcreate : s.create.next = s.next + 1 := rfl
  have h1 := hchild.next
  have h2 := hend.next
  have h3 := hrest.next
  -- the frame of the child before and after it is awaited
  have hzero : t.destroyed s.next = 0 := (hchild.old s.next (by omega)).trans (h _ (Nat.le_refl _))
  have hself : s'.destroyed s.next = 1 ↔ q := by
    rw [hrest.old s.next (by omega), ← hend.once, hzero]
  have hold : ∀ g, g ≠ s.next → g < t.next → s'.destroyed g = t.destroyed g := fun g hne hlt =>
    (hrest.old g (by omega)).trans (hend.destroyed g hne)
  refine ⟨by omega, hrest.moves, fun g hg => ?_, fun g hg => ?_, hrest.unborn, ?_⟩
  · rw [hrest.promise g (by omega), hend.promise g (by omega), hchild.promise g (by omega)]
    exact Function.update_of_ne (by omega) ..
  · rw [hold g (by omega) (by omega), hchild.old g (by omega)]
    rfl
  · rw [← hchild.once, ← hself, ← hrest.once]
    constructor
    · intro hall
      refine ⟨fun g hg hlt => ?_, hall _ (Nat.le_refl _) (by omega), fun g hg hlt => ?_⟩
      · rw [← hold g (by omega) hlt]
        exact hall g (by omega) (by omega)
      · exact hall g (by omega) hlt
    · rintro ⟨hp, hq, hr⟩ g hg hlt
      rcases Nat.lt_or_ge g u.next with hgu | hgu
      · by_cases hgs : g = s.next
        · rw [hgs]
          exact hq
        · rw [hold g hgs (by omega)]
          exact hp g (by omega) (by omega)
      · exact hr g hgu hlt

end

/-- A run has the results of `eval`, by induction on the body: the child, its delivery, the rest. -/
theorem run_refines (body : Body V E) (s : World V E) (h : ∀ g, s.next ≤ g → s.destroyed g = 0) :
    ∃ s', exec (run body) s = ((eval body s.moves).1, s') ∧
      Runs s s' (eval body s.moves).2 (Quiet body s.moves) := by
  induction body generalizing s with
  | coReturn | throws => exact ⟨s, rfl, Runs.refl h⟩
  | await child next ihc ihn =>
    obtain ⟨t, ht, hchild⟩ := ihc s.create fun g hg => h g (Nat.le_of_succ_le hg)
    have hpromise : t.promise s.next = {} :=
      (hchild.promise s.next (Nat.lt_succ_self _)).trans (Function.update_self ..)
    obtain ⟨u, hu, hend⟩ := delivery ht hpromise
    rw [hchild.moves] at hu hend
    obtain ⟨s', hs', hrest⟩ := ihn (deliver (eval child s.moves).1 (eval child s.moves).2).1 u
      (hend.unborn hchild)
    rw [hend.moves] at hs' hrest
    refine ⟨s', ?_, Runs.await h hchild hend hrest⟩
    show exec (complete s.next (run child >>= returnValue s.next) >>= fun _ =>
      observe (awaitResume s.next) >>= fun r => run (next r)) s.create = _
    rw [← bind_assoc, exec_bind, hu]
    exact hs'
  | awaitVoid child next ihc ihn =>
    obtain ⟨t, ht, hchild⟩ := ihc s.create fun g hg => h g (Nat.le_of_succ_le hg)
    have hpromise : t.promise s.next = {} :=
      (hchild.promise s.next (Nat.lt_succ_self _)).trans (Function.update_self ..)
    obtain ⟨u, hu, hend⟩ := deliveryVoid ht hpromise
    rw [hchild.moves] at hend
    obtain ⟨s', hs', hrest⟩ := ihn ((eval child s.moves).1.map fun _ => ()) u (hend.unborn hchild)
    rw [hend.moves] at hs' hrest
    have hruns := Runs.await h hchild hend hrest
    rw [true_and] at hruns
    refine ⟨s', ?_, hruns⟩
    show exec (complete s.next (run child >>= fun _ => returnVoid s.next) >>= fun _ =>
      observe (awaitResumeVoid s.next) >>= fun r => run (next r)) s.create = _
    rw [← bind_assoc, exec_bind, hu]
    exact hs'

/-- For every task and whatever its moves throw: it sees the value or the exception of each child
it awaits, and every frame is destroyed exactly once if and only if no move throws in
`return value`. -/
theorem await_once_iff (body : Body V E) (moves : List (Option E)) :
    (exec (run body) { moves := moves }).1 = (eval body moves).1 ∧
      ((∀ f, f < (exec (run body) { moves := moves }).2.next →
        (exec (run body) { moves := moves }).2.destroyed f = 1) ↔ Quiet body moves) := by
  obtain ⟨s', hs', hruns⟩ := run_refines body { moves := moves } fun _ _ => rfl
  rw [hs']
  refine ⟨rfl, ?_⟩
  rw [← hruns.once]
  exact ⟨fun hall g _ hg => hall g hg, fun hall g hg => hall g (Nat.zero_le g) hg⟩

/-- a child that returns 7 -/
def awaitSeven : Body Nat Nat := .await (.coReturn 7) fun
  | .ok v => .coReturn v
  | .error e => .throws e

/-- a throw in `return result` -/
theorem await_once_iff_thirdMove :
    (exec (run awaitSeven) { moves := [none, none, some 5] }).1 = .error (.thrown 5) ∧
      ∀ f, f < 1 → (exec (run awaitSeven) { moves := [none, none, some 5] }).2.destroyed f = 1 :=
  ⟨rfl, (await_once_iff awaitSeven [none, none, some 5]).2.mpr ⟨trivial, trivial, trivial⟩⟩

/-- The fourth move throws: `child.destroy()` runs before `return value`, and again in the handler. -/
theorem destroyed_twice :
    (exec (run awaitSeven) { moves := [none, none, none, some 5] }).1 = .error (.thrown 5) ∧
      (exec (run awaitSeven) { moves := [none, none, none, some 5] }).2.next = 1 ∧
      (exec (run awaitSeven) { moves := [none, none, none, some 5] }).2.destroyed 0 = 2 :=
  ⟨rfl, rfl, rfl⟩

end TaskAwait
