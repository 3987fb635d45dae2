import Mathlib.Data.List.Basic
import Uvpp.Machine.Run
import Uvpp.Core.Errno

/-!
# Raw requests

The requests of `detail/stream_request.hpp` (connect, write, shutdown, UDP send),
`requests/dns.hpp`, `requests/random.hpp` and `requests/work.hpp`.  Callables and address lists are named by the number
of the submission they came with.  All but work requests store the callback once the native call has
accepted; a work request stores it before, since a worker may run before `uv_queue_work` returns.
Destroying a callable runs no code that uses the request.

* `submit`, `submitStatic`, `submitWork`, `submitWorkStatic`   the submissions;
* `trampoline`, `completeWork`, `completeWorkStatic`           what a completion takes out of the
                                                               request before it calls anyone;
* `cancel`, `runWork`                                          cancellation, the worker;
* `resetResult`, `keep`, `assign`, `drop`                      what foreign code does with a
                                                               `getaddrinfo_result`;
* `Ledger`                                                     submissions, completions and calls.
-/

namespace RawRequest
open Errno

inductive Family where
  | connect
  | write
  | shutdown
  | udpSend
  | getaddrinfo
  | getnameinfo
  | random
  | work
deriving DecidableEq

/-- the families with `cancel()` -/
def Family.cancels : Family → Bool
  | .getaddrinfo | .getnameinfo | .random | .work => true
  | _ => false

structure Request where
  pending : Bool := false
  /-- `callback_`, or `after_` of a work request -/
  callback : Option Nat := none
  staticCallback : Option Nat := none
  /-- `work_` -/
  work : Option Nat := none
deriving DecidableEq

/-- what libuv has of a submission it accepted -/
structure Native where
  submission : Nat
  /-- both callbacks are part of the native ones, as in `work_request::submit_static` -/
  static : Bool := false
  ran : Bool := false
  cancelled : Bool := false

/-- A completion callback that runs.  A `getaddrinfo_result` is its `addresses_`. -/
structure Call where
  submission : Nat
  /-- the result that the callback was given -/
  param : Option Nat
  /-- the `result` of `complete`, which was moved from -/
  result : Option Nat

inductive Event where
  /-- what the submission returned; `callback`: it came with a completion callback -/
  | submitted (s : Nat) (callback : Bool) (e : Int)
  /-- what `cancel` returned -/
  | answered (e : Int)
  /-- libuv completes -/
  | completed (s : Nat) (e : Int)
  | invoked (s : Nat) (e : Int)
  /-- libuv hands over an address list -/
  | listed (s : Nat)
  /-- `uv_freeaddrinfo` -/
  | freed (s : Nat)
deriving DecidableEq

inductive Act where
  /-- which callables are there, and what the native call answers, if it is made -/
  | submit (work callback : Bool) (e : Int)
  | submitStatic (e : Int)
  | cancel (e : Int)
  /-- the worker runs -/
  | runWork
  /-- `addresses`: libuv has a list of addresses -/
  | complete (e : Int) (addresses : Bool)
  /-- the completion callback returns -/
  | ret
  | resetResult
  | keep
  | assign (i : Nat)
  | drop (i : Nat)
  | destroy
  | construct
deriving DecidableEq

structure World where
  /-- `none` once it is destroyed -/
  request : Option Request := some {}
  native : Option Native := none
  running : Option Call := none
  /-- the results of the user -/
  kept : List (Option Nat) := []
  /-- the number of the next submission -/
  next : Nat := 0
  log : List Event := []
  /-- a destroyed request was used, or an empty callable called -/
  fault : Bool := false

/-- results that are reset or destroyed, one after the other -/
def free (rs : List (Option Nat)) : List Event := rs.filterMap (Option.map .freed)

namespace World

/-- the submission returns -/
def answer (w : World) (callback : Bool) (e : Int) : World :=
  { w with next := w.next + 1, log := w.log ++ [.submitted w.next callback e] }

def submit (w : World) (r : Request) (callback : Bool) (e : Int) : World :=
  if r.pending then w.answer callback ebusy
  else if !callback then w.answer callback einval
  else if 0 ≤ e then
    { w with
        request := some { r with callback := some w.next, staticCallback := none, pending := true }
        native := some { submission := w.next } }.answer callback e
  else w.answer callback e

def submitStatic (w : World) (r : Request) (e : Int) : World :=
  if r.pending then w.answer true ebusy
  else if 0 ≤ e then
    { w with
        request := some { r with callback := none, staticCallback := some w.next, pending := true }
        native := some { submission := w.next } }.answer true e
  else w.answer true e

/-- After an accepted `uv_queue_work` nothing is written, so it does not matter whether the worker
runs before or after it returns. -/
def submitWork (w : World) (r : Request) (work callback : Bool) (e : Int) : World :=
  if r.pending then w.answer callback ebusy
  else if !work then w.answer callback einval
  else
    let r := { r with
      work := some w.next
      callback := if callback then some w.next else none
      pending := true }
    if e < 0 then
      { w with request := some { r with pending := false, work := none, callback := none } }.answer
        callback e
    else
      { w with request := some r, native := some { submission := w.next } }.answer callback e

def submitWorkStatic (w : World) (r : Request) (e : Int) : World :=
  if r.pending then w.answer true ebusy
  else
    let r := { r with pending := true }
    if e < 0 then { w with request := some { r with pending := false } }.answer true e
    else
      { w with
          request := some r
          native := some { submission := w.next, static := true } }.answer true e

/-- `uv_cancel` fails once the worker runs -/
def cancel (w : World) (r : Request) (e : Int) : Option World :=
  if r.pending then
    match w.native with
    | none => some { w with fault := true }
    | some n =>
      if e < 0 then some { w with log := w.log ++ [.answered e] }
      else if n.ran then none
      else
        some { w with
          native := some { n with cancelled := true }
          log := w.log ++ [.answered e] }
  else some { w with log := w.log ++ [.answered einval] }

def runWork (w : World) (n : Native) : World :=
  let w := { w with native := some { n with ran := true } }
  if n.static then w
  else
    match w.request with
    | none => { w with fault := true }
    | some r =>
      match r.work with
      | none => { w with fault := true }
      | some _ => { w with request := some { r with work := none } }

end World

/-- The request when the callback is called, and the callback.  Also `complete` of the address, name
and random requests. -/
def trampoline (r : Request) : Request × Option Nat :=
  ({ r with callback := none, staticCallback := none, pending := false },
    r.staticCallback <|> r.callback)

def completeWork (r : Request) : Request × Option Nat :=
  ({ r with work := none, callback := none, pending := false }, r.callback)

def completeWorkStatic (n : Native) (r : Request) : Request × Option Nat :=
  ({ r with pending := false }, some n.submission)

def deliver (f : Family) (n : Native) (r : Request) : Request × Option Nat :=
  if f = .work then if n.static then completeWorkStatic n r else completeWork r else trampoline r

namespace World

/-- A completion up to the call of the callback, or to the end if there is none.  Only the
`getaddrinfo` completion is given addresses. -/
def complete (f : Family) (w : World) (n : Native) (e : Int) (addresses : Bool) : World :=
  match w.request with
  | none => { w with native := none, fault := true }
  | some r =>
    let list := if f = .getaddrinfo ∧ addresses then some n.submission else none
    let w : World := { w with
      request := some (deliver f n r).1
      native := none
      log := w.log ++ list.toList.map .listed ++ [.completed n.submission e] }
    match (deliver f n r).2 with
    | some s => { w with running := some ⟨s, list, none⟩, log := w.log ++ [.invoked s e] }
    | none => { w with log := w.log ++ free [list] }

/-- the parameter of the callback is destroyed, then the local variable of `complete` -/
def ret (w : World) (c : Call) : World :=
  { w with running := none, log := w.log ++ free [c.param, c.result] }

def resetResult (w : World) (c : Call) : World :=
  { w with running := some { c with param := none }, log := w.log ++ free [c.param] }

/-- a result of the user is constructed from the parameter -/
def keep (w : World) (c : Call) : World :=
  { w with running := some { c with param := none }, kept := w.kept ++ [c.param] }

/-- the parameter is assigned to the result `i` of the user -/
def assign (w : World) (c : Call) (i : Nat) : Option World :=
  match w.kept[i]? with
  | none => none
  | some r =>
    some { w with
      running := some { c with param := none }
      kept := w.kept.set i c.param
      log := w.log ++ free [r] }

/-- the result `i` of the user is reset or destroyed -/
def drop (w : World) (i : Nat) : Option World :=
  match w.kept[i]? with
  | none => none
  | some r => some { w with kept := w.kept.set i none, log := w.log ++ free [r] }

end World

/-- The loop completes when no callback runs, a work request after the worker is done with it.  A
pending request is not destroyed. -/
def step (f : Family) (w : World) : Act → Option World
  | .submit work callback e => w.request.map fun r =>
      if f = .work then w.submitWork r work callback e else w.submit r callback e
  | .submitStatic e => w.request.map fun r =>
      if f = .work then w.submitWorkStatic r e else w.submitStatic r e
  | .cancel e => if f.cancels then w.request.bind (w.cancel · e) else none
  | .runWork =>
    match w.native with
    | some n => if f = .work ∧ !n.ran ∧ !n.cancelled then some (w.runWork n) else none
    | none => none
  | .complete e addresses =>
    match w.native with
    | some n =>
      if w.running.isNone ∧ (f = .work → n.ran ∨ n.cancelled) then
        some (w.complete f n e addresses)
      else none
    | none => none
  | .ret => w.running.map w.ret
  | .resetResult => w.running.map w.resetResult
  | .keep => w.running.map w.keep
  | .assign i => w.running.bind (w.assign · i)
  | .drop i => w.drop i
  | .destroy =>
    match w.request with
    | some r => if r.pending then none else some { w with request := none }
    | none => none
  | .construct =>
    match w.request with
    | some _ => none
    | none => some { w with request := some {} }

def sys (f : Family) : Sys World Act := ⟨{}, step f⟩

/-! ## the history of a submission -/

/-- the statuses that libuv completed the submission with -/
def completions (log : List Event) (s : Nat) : List Int :=
  log.filterMap fun
    | .completed s' e => if s' = s then some e else none
    | _ => none

/-- the statuses that the callback of the submission was called with -/
def invocations (log : List Event) (s : Nat) : List Int :=
  log.filterMap fun
    | .invoked s' e => if s' = s then some e else none
    | _ => none

section
variable (log log' : List Event) (s t : Nat) (e : Int) (c : Bool)

@[simp] theorem completions_append :
    completions (log ++ log') s = completions log s ++ completions log' s :=
  List.filterMap_append

@[simp] theorem invocations_append :
    invocations (log ++ log') s = invocations log s ++ invocations log' s :=
  List.filterMap_append

@[simp] theorem completions_nil : completions [] s = [] := rfl
@[simp] theorem invocations_nil : invocations [] s = [] := rfl

@[simp] theorem completions_submitted :
    completions (.submitted t c e :: log) s = completions log s := rfl

@[simp] theorem invocations_submitted :
    invocations (.submitted t c e :: log) s = invocations log s := rfl

@[simp] theorem completions_completed :
    completions (.completed t e :: log) s = (if t = s then [e] else []) ++ completions log s := by
  by_cases h : t = s <;> simp [completions, h]

@[simp] theorem invocations_completed :
    invocations (.completed t e :: log) s = invocations log s := rfl

@[simp] theorem completions_invoked :
    completions (.invoked t e :: log) s = completions log s := rfl

@[simp] theorem invocations_invoked :
    invocations (.invoked t e :: log) s = (if t = s then [e] else []) ++ invocations log s := by
  by_cases h : t = s <;> simp [invocations, h]

end

/-- events that are about no submission -/
def Event.aside : Event → Prop
  | .answered _ | .listed _ | .freed _ => True
  | _ => False

theorem histories_aside {log : List Event} (h : ∀ e ∈ log, e.aside) (s : Nat) :
    completions log s = [] ∧ invocations log s = [] := by
  constructor
  all_goals
    refine List.filterMap_eq_nil_iff.mpr fun e he => ?_
    have ha := h e he
    cases e with
    | answered | listed | freed => rfl
    | submitted | completed | invoked => exact ha.elim

theorem free_aside {rs : List (Option Nat)} : ∀ e ∈ free rs, e.aside := by
  intro e he
  obtain ⟨r, -, hr⟩ := List.mem_filterMap.mp he
  obtain ⟨s, -, rfl⟩ := Option.map_eq_some_iff.mp hr
  trivial

theorem count_freed (rs : List (Option Nat)) (s : Nat) :
    (free rs).count (.freed s) = rs.count (some s) := by
  induction rs with
  | nil => rfl
  | cons r rs ih =>
    cases r with
    | none => simpa [free] using ih
    | some t =>
      have hcons : free (some t :: rs) = .freed t :: free rs := rfl
      rw [hcons, List.count_cons, List.count_cons, ih]
      simp

theorem count_listed (rs : List (Option Nat)) (s : Nat) : (free rs).count (.listed s) = 0 := by
  refine List.count_eq_zero.mpr fun hm => ?_
  obtain ⟨r, -, hr⟩ := List.mem_filterMap.mp hm
  obtain ⟨t, -, ht⟩ := Option.map_eq_some_iff.mp hr
  cases ht

/-- what has become of a submission that was accepted and is not outstanding -/
def Called (log : List Event) (s : Nat) (c : Bool) : Prop :=
  ∃ e, completions log s = [e] ∧ invocations log s = if c then [e] else []

/-- The submissions below `next`, of which `out` is outstanding. -/
structure Ledger (next : Nat) (out : Option Nat) (log : List Event) : Prop where
  numbered : ∀ s c e, .submitted s c e ∈ log → s < next
  outstanding : ∀ s, out = some s → s < next ∧ completions log s = [] ∧ invocations log s = []
  accepted : ∀ s c e, .submitted s c e ∈ log → out = some s → 0 ≤ e
  called : ∀ s c e, .submitted s c e ∈ log → 0 ≤ e → out ≠ some s → Called log s c
  rejected : ∀ s c e, .submitted s c e ∈ log → e < 0 →
    completions log s = [] ∧ invocations log s = []
  fresh : ∀ s, next ≤ s → completions log s = [] ∧ invocations log s = []
  once : ∀ s, (completions log s).length ≤ 1

namespace Ledger
variable {next : Nat} {out : Option Nat} {log : List Event}

theorem init : Ledger 0 none [] :=
  ⟨nofun, nofun, nofun, nofun, nofun, fun _ _ => ⟨rfl, rfl⟩, fun _ => Nat.zero_le 1⟩

/-- the membership of a submission in a history to which a new one was added -/
theorem mem_submitted {s t : Nat} {c d : Bool} {e i : Int}
    (h : Event.submitted s c e ∈ log ++ [.submitted t d i]) :
    .submitted s c e ∈ log ∨ s = t ∧ c = d ∧ e = i := by
  rcases List.mem_append.mp h with h | h
  · exact .inl h
  · exact .inr (by simpa using h)

theorem reject (h : Ledger next out log) (c : Bool) {e : Int} (he : e < 0) :
    Ledger (next + 1) out (log ++ [.submitted next c e]) where
  numbered := fun s d i hm => by
    rcases mem_submitted hm with hm | ⟨rfl, -, -⟩
    · exact Nat.lt_succ_of_lt (h.numbered s d i hm)
    · exact Nat.lt_succ_self s
  outstanding := fun s hs => by
    obtain ⟨hlt, hhist⟩ := h.outstanding s hs
    exact ⟨Nat.lt_succ_of_lt hlt, by simpa using hhist⟩
  accepted := fun s d i hm hs => by
    rcases mem_submitted hm with hm | ⟨rfl, -, -⟩
    · exact h.accepted s d i hm hs
    · exact absurd (h.outstanding s hs).1 (Nat.lt_irrefl s)
  called := fun s d i hm hi hs => by
    rcases mem_submitted hm with hm | ⟨-, -, rfl⟩
    · simpa [Called] using h.called s d i hm hi hs
    · omega
  rejected := fun s d i hm hi => by
    rcases mem_submitted hm with hm | ⟨rfl, -, -⟩
    · simpa using h.rejected s d i hm hi
    · simpa using h.fresh s (Nat.le_refl _)
  fresh := fun s hs => by simpa using h.fresh s (Nat.le_of_succ_le hs)
  once := fun s => by simpa using h.once s

theorem accept (h : Ledger next none log) (c : Bool) {e : Int} (he : 0 ≤ e) :
    Ledger (next + 1) (some next) (log ++ [.submitted next c e]) where
  numbered := fun s d i hm => by
    rcases mem_submitted hm with hm | ⟨rfl, -, -⟩
    · exact Nat.lt_succ_of_lt (h.numbered s d i hm)
    · exact Nat.lt_succ_self s
  outstanding := fun s hs => by
    obtain rfl := Option.some.inj hs
    exact ⟨Nat.lt_succ_self next, by simpa using h.fresh next (Nat.le_refl _)⟩
  accepted := fun s d i hm hs => by
    obtain rfl := Option.some.inj hs
    rcases mem_submitted hm with hm | ⟨-, -, rfl⟩
    · exact absurd (h.numbered next d i hm) (Nat.lt_irrefl next)
    · exact he
  called := fun s d i hm hi hs => by
    rcases mem_submitted hm with hm | ⟨rfl, -, -⟩
    · simpa [Called] using h.called s d i hm hi (by simp)
    · exact absurd rfl hs
  rejected := fun s d i hm hi => by
    rcases mem_submitted hm with hm | ⟨-, -, rfl⟩
    · simpa using h.rejected s d i hm hi
    · omega
  fresh := fun s hs => by simpa using h.fresh s (Nat.le_of_succ_le hs)
  once := fun s => by simpa using h.once s

theorem aside (h : Ledger next out log) {es : List Event} (hes : ∀ e ∈ es, e.aside) :
    Ledger next out (log ++ es) := by
  have hc : ∀ s, completions (log ++ es) s = completions log s := fun s => by
    rw [completions_append, (histories_aside hes s).1, List.append_nil]
  have hi : ∀ s, invocations (log ++ es) s = invocations log s := fun s => by
    rw [invocations_append, (histories_aside hes s).2, List.append_nil]
  have hm : ∀ s c e, .submitted s c e ∈ log ++ es → .submitted s c e ∈ log := by
    intro s c e hm
    rcases List.mem_append.mp hm with hm | hm
    · exact hm
    · exact (hes _ hm).elim
  constructor
  · exact fun s c e hs => h.numbered s c e (hm s c e hs)
  · intro s hs
    rw [hc, hi]
    exact h.outstanding s hs
  · exact fun s c e hs => h.accepted s c e (hm s c e hs)
  · intro s c e hs he hout
    unfold Called
    rw [hc, hi]
    exact h.called s c e (hm s c e hs) he hout
  · intro s c e hs he
    rw [hc, hi]
    exact h.rejected s c e (hm s c e hs) he
  · intro s hs
    rw [hc, hi]
    exact h.fresh s hs
  · intro s
    rw [hc]
    exact h.once s

/-- libuv completes and the callback is called, `o` is `none` where there is none -/
theorem complete {s : Nat} (h : Ledger next (some s) log) (e : Int) {o : Option Nat}
    (ho : ∀ c i, .submitted s c i ∈ log → o = if c then some s else none)
    (hs : ∀ t, o = some t → t = s) :
    Ledger next none (log ++ [.completed s e] ++ o.toList.map (.invoked · e)) := by
  obtain ⟨hlt, hcs, his⟩ := h.outstanding s rfl
  set es : List Event := o.toList.map (.invoked · e) with hes
  have hc : ∀ t, completions (log ++ [.completed s e] ++ es) t =
      completions log t ++ if s = t then [e] else [] := by
    intro t
    cases o <;> simp [hes]
  have hi : ∀ t, invocations (log ++ [.completed s e] ++ es) t =
      invocations log t ++ if s = t then o.toList.map fun _ => e else [] := by
    intro t
    cases o with
    | none => simp [hes]
    | some t' =>
      obtain rfl := hs t' rfl
      simp [hes]
  have hm : ∀ t c i, .submitted t c i ∈ log ++ [.completed s e] ++ es →
      .submitted t c i ∈ log := by
    intro t c i hm
    simpa [hes] using hm
  have hother : ∀ t, t ≠ s → completions (log ++ [.completed s e] ++ es) t = completions log t ∧
      invocations (log ++ [.completed s e] ++ es) t = invocations log t := by
    intro t hts
    rw [hc, hi, if_neg hts.symm, if_neg hts.symm, List.append_nil, List.append_nil]
    exact ⟨rfl, rfl⟩
  constructor
  · exact fun t c i ht => h.numbered t c i (hm t c i ht)
  · nofun
  · nofun
  · intro t c i ht hpos _
    by_cases hts : t = s
    · subst hts
      refine ⟨e, by rw [hc, hcs, if_pos rfl, List.nil_append], ?_⟩
      rw [hi, his, if_pos rfl, ho c i (hm t c i ht)]
      cases c <;> rfl
    · unfold Called
      rw [(hother t hts).1, (hother t hts).2]
      exact h.called t c i (hm t c i ht) hpos fun hst => hts (Option.some.inj hst).symm
  · intro t c i ht hneg
    have hts : t ≠ s := by
      rintro rfl
      exact absurd (h.accepted t c i (hm t c i ht) rfl) (by omega)
    rw [(hother t hts).1, (hother t hts).2]
    exact h.rejected t c i (hm t c i ht) hneg
  · intro t ht
    have hts : t ≠ s := by omega
    rw [(hother t hts).1, (hother t hts).2]
    exact h.fresh t ht
  · intro t
    by_cases hts : t = s
    · subst hts
      rw [hc, hcs, if_pos rfl]
      exact Nat.le_refl _
    · rw [(hother t hts).1]
      exact h.once t

end Ledger

end RawRequest
