import Uvpp.Wait.Contract
import Uvpp.Wait.Confined

/-!
# The native handle of a poll source

A `poll_source` polls only for a wait that holds its slot (`poll_source.hpp`).  The machine of the
waits is run together with the native handles, which know the wait that started them and its
mask, and with the objects that own the sources and may be moved and assigned to.

* `nativeCall`           the call that a step makes on a native handle;
* `State`, `sys`         waits, native handles and owners;
* `step_target`          the call of a step brings the handle to what the slot says.

`operator=` is `reset()` and then the move of `state_`; `reset()` may resume the coroutine that
waits on the old source (`Action.assign`, `Action.goOn`).
-/

namespace PollSource
open Wait (Source Op Request World Act Config Pending Released resumptions)

/-- a `poll_source` object -/
abbrev Owner := Nat

inductive Call where
  | start (o : Op) (events : BitVec 32) (result : Int)
  | stop
  | close
deriving DecidableEq

/-- the native handle after the call: the wait that it polls for, and the mask; a start that fails
leaves it stopped -/
def Call.apply : Call → Option (Op × BitVec 32)
  | .start o events result => if result < 0 then none else some (o, events)
  | .stop | .close => none

/-- the call that an action makes on the handle of a poll source -/
def nativeCall (cfg : Config) (w : World) : Act → Option (Source × Call)
  | .await q =>
    -- claim, mask and registration come before `uv_poll_start`
    if cfg.family q.source ≠ .poll ∨ w.refusal q ≠ none ∨ (w.src q.source).slot ≠ none ∨
        q.events = 0 ∨ q.events &&& ~~~cfg.allowed ≠ 0 ∨
        (((w.begin q).claim q.source q.op).register q.op q.task).2 = false then none
    else some (q.source, .start q.op q.events q.start)
  | .notify s (.poll _ _) => some (s, .stop)
  | .requestClose s _ | .destroy s _ =>
    if cfg.family s = .poll ∧ (w.src s).closing = false then some (s, .stop) else none
  | .tick =>
    match w.stack with
    | .stopping c :: _ =>
      match (w.stops c).pop with
      | some ((o, ()), _) =>
        if cfg.family (w.op o).source = .poll then some ((w.op o).source, .stop) else none
      | none => none
    | .closeTail s :: _ => if cfg.family s = .poll then some (s, .close) else none
    | _ => none
  | _ => none

structure State where
  world : World
  native : Source → Option (Op × BitVec 32) := fun _ => none
  /-- `requested_` of the awaiter -/
  asked : Op → BitVec 32 := fun _ => 0
  /-- `state_` of an owner -/
  holds : Owner → Option Source := fun _ => none
  /-- the sources constructed so far -/
  made : Source → Bool := fun _ => false
  /-- the record was deleted without being closed -/
  deleted : Source → Bool := fun _ => false
  /-- the assignments whose `reset()` is running: the depth of the stack, target and source -/
  assigning : List (Nat × Owner × Owner) := []

inductive Action where
  /-- a step of the waits that is not an operation of the owner of a poll source -/
  | run (a : Act)
  | next (x : Owner) (q : Request)
  | requestClose (x : Owner)
  | construct (x : Owner) (s : Source)
  /-- `x = std::move(y)`; with an empty `x` this is a move construction as well -/
  | assign (x y : Owner)
  /-- the innermost assignment goes on after its `reset()` -/
  | goOn
  | destroy (x : Owner)

/-- not an operation of the owner of a poll source -/
def direct (cfg : Config) : Act → Bool
  | .await q => cfg.family q.source ≠ .poll
  | .requestClose s _ | .destroy s _ => cfg.family s ≠ .poll
  | _ => true

namespace State

/-- a step of the waits with its native call -/
def perform (cfg : Config) (v : State) (a : Act) : Option State :=
  (Wait.step cfg v.world a).map fun w =>
    { v with
      world := w
      native :=
        match nativeCall cfg v.world a with
        | none => v.native
        | some (s, c) => Function.update v.native s c.apply }

/-- `reset()` of the innermost assignment has returned -/
def resting (v : State) : Bool :=
  match v.assigning with
  | (d, _, _) :: _ => d = v.world.stack.length
  | [] => false

/-- `state_ = std::move(other.state_)` of two objects -/
def moveState (v : State) (x y : Owner) : State :=
  { v with holds := Function.update (Function.update v.holds x (v.holds y)) y none }

/-- the `unique_ptr` deletes what it still holds -/
def deleteState (v : State) (x : Owner) : State :=
  match v.holds x with
  | none => v
  | some s =>
    { v with
      holds := Function.update v.holds x none
      deleted := Function.update v.deleted s true }

/-- `next(mask)` is awaited -/
def next (cfg : Config) (v : State) (x : Owner) (q : Request) : Option State :=
  match v.holds x with
  | none =>
    if v.world.terminated = false ∧ Wait.foreign v.world.stack ∧
        (v.world.op q.op).status = .fresh then
      some { v with world := (v.world.begin q).endInline q.op (.error .badf) }
    else none
  | some s =>
    { v with asked := Function.update v.asked q.op q.events }.perform cfg
      (.await { q with source := s })

def assign (cfg : Config) (v : State) (x y : Owner) : Option State :=
  if x = y then some v
  else
    match v.holds x with
    | none => some (v.moveState x y)
    | some s =>
      ({ v with
          holds := Function.update v.holds x none
          assigning := (v.world.stack.length, x, y) :: v.assigning }.perform cfg (.destroy s false))

def goOn (v : State) : Option State :=
  match v.assigning with
  | [] => none
  | (_, x, y) :: k =>
    if v.resting then some ({ v with assigning := k }.deleteState x |>.moveState x y) else none

def step (cfg : Config) (v : State) : Action → Option State
  | .goOn => v.goOn
  | a =>
    if v.resting then none
    else
      match a with
      | .run a => if direct cfg a then v.perform cfg a else none
      | .next x q => v.next cfg x q
      | .requestClose x =>
        match v.holds x with
        | none => some v
        | some s => v.perform cfg (.requestClose s false)
      | .construct x s =>
        if Wait.foreign v.world.stack ∧ v.holds x = none ∧ v.made s = false ∧
            cfg.family s = .poll then
          some { v with holds := Function.update v.holds x (some s)
                        made := Function.update v.made s true }
        else none
      | .assign x y => if Wait.foreign v.world.stack then v.assign cfg x y else none
      | .destroy x =>
        match v.holds x with
        | none => some v
        | some s =>
          { v with holds := Function.update v.holds x none }.perform cfg (.destroy s false)
      | .goOn => none

/-- the wait `o` holds the slot of `s` -/
def Claims (v : State) (s : Source) (o : Op) : Prop :=
  v.deleted s = false ∧ (v.world.src s).slot = some o

end State

def sys (cfg : Config) : Sys State Action := ⟨{ world := Wait.init cfg }, State.step cfg⟩

/-! ## One step of the waits on a poll source -/

section
variable {cfg : Config} {w w' : World}

theorem deliver_slot (w : World) (s : Source) (r : Wait.Outcome) :
    ((w.deliver s r).src s).slot = none := by
  cases hs : (w.src s).slot with
  | none => rw [Wait.deliver_none hs, hs]
  | some o =>
    rw [Wait.deliver_some hs]
    simp [World.handed]

theorem requestClose_slot {s : Source} (hf : cfg.family s = .poll)
    (hc : (w.src s).closing = false) : ((w.requestClose cfg s).src s).slot = none := by
  unfold World.requestClose
  simp only [hc, hf, World.cancelWaiter, Bool.false_eq_true, if_false]
  exact deliver_slot _ s _

theorem ownerRequestClose_poll {s : Source} (hf : cfg.family s = .poll) (other : Bool) :
    w.ownerRequestClose cfg s other = w.requestClose cfg s := by
  unfold World.ownerRequestClose
  exact if_neg (by simp [hf, Wait.Family.borrows])

theorem destroy_poll {s : Source} (hf : cfg.family s = .poll) (other : Bool) :
    w.destroy cfg s other = (w.setSrc s ({ · with ownerGone := true })).requestClose cfg s := by
  unfold World.destroy
  exact if_neg (by simp [hf, Wait.Family.borrows])

/-- the exits of `await_suspend`, with the native call of each -/
theorem await_cases (h : Wait.Inv cfg w) {q : Request} (hf : cfg.family q.source = .poll)
    (ho : (w.op q.op).status = .fresh) :
    (nativeCall cfg w (.await q) = none ∧ ∃ r, w.await cfg q = w.rejected q r w.src) ∨
      nativeCall cfg w (.await q) = some (q.source, .start q.op q.events q.start) ∧
        (w.src q.source).slot = none ∧
        (q.start < 0 ∧ (∃ r, w.await cfg q = w.rejected q r w.src) ∨
          ¬ q.start < 0 ∧ ((w.await cfg q).src q.source).slot = some q.op ∧
            (w.await cfg q).log = w.log ++ [.suspended q.op]) := by
  cases hr : w.refusal q with
  | some r =>
    refine .inl ⟨by simp [nativeCall, hr], r, ?_⟩
    rw [← Wait.begin_endInline]
    unfold World.await
    simp only [hr]
  | none =>
    obtain ⟨hc, hstop⟩ := Wait.refusal_none hr
    have hcall : nativeCall cfg w (.await q) =
        if (w.src q.source).slot ≠ none ∨ q.events = 0 ∨ q.events &&& ~~~cfg.allowed ≠ 0 then none
        else some (q.source, .start q.op q.events q.start) := by
      unfold nativeCall
      simp only [hf, hr, Wait.claim_register hstop, ne_eq, not_true_eq_false, false_or,
        Bool.true_eq_false, or_false]
    have hawait : w.await cfg q = (w.begin q).awaitPoll cfg q := by
      unfold World.await
      simp only [hr, hf]
    rw [hcall, hawait]
    unfold World.awaitPoll
    cases hs : (w.src q.source).slot with
    | some o =>
      refine .inl ⟨by simp, .error .busy, ?_⟩
      rw [← Wait.begin_endInline]
      simp [hs]
    | none =>
      have hfree : ¬ ((w.begin q).src q.source).slot.isSome := by simp [hs]
      rw [if_neg hfree]
      by_cases hmask : q.events = 0 ∨ q.events &&& ~~~cfg.allowed ≠ 0
      · refine .inl ⟨if_pos (.inr hmask), .error .inval, ?_⟩
        rw [if_pos hmask, Wait.claim_release (w := w.begin q) hs, Wait.begin_endInline]
      · have hgood : ¬ ((none : Option Op) ≠ none ∨ q.events = 0 ∨
            q.events &&& ~~~cfg.allowed ≠ 0) := by simpa using hmask
        refine .inr ⟨if_neg hgood, rfl, ?_⟩
        have heq := Wait.giveUp_rejected h ho hs hstop (.error (.native q.start))
        rw [Wait.claim_register hstop] at heq
        rw [if_neg hmask, Wait.claim_register hstop]
        dsimp only at heq ⊢
        by_cases hstart : q.start < 0
        · exact .inl ⟨hstart, _, by rw [if_pos hstart, Wait.unregister_release, heq]⟩
        · rw [if_neg hstart]
          refine .inr ⟨hstart, ?_, rfl⟩
          simp [World.suspend, World.setOp, World.emit, World.arm]

/-- every call is made on the source that the action is about -/
theorem nativeCall_target {a : Act} {s : Source} {c : Call}
    (h : nativeCall cfg w a = some (s, c)) : a.target w = some s := by
  cases a with
  | await q =>
    simp only [nativeCall] at h
    split at h
    · cases h
    · cases h
      rfl
  | notify s' n =>
    cases n <;> simp [nativeCall] at h
    rw [h.1]
    rfl
  | requestClose | destroy =>
    simp only [nativeCall] at h
    split at h
    · cases h
      rfl
    · cases h
  | tick =>
    simp only [nativeCall] at h
    split at h
    · rename_i c' k hk
      split at h
      · rename_i o t hp
        split at h
        · cases h
          simp [Act.target, hk, hp]
        · cases h
      · cases h
    · rename_i s' k hk
      split at h
      · cases h
        simp [Act.target, hk]
      · cases h
    · cases h
  | enter | ret | requestStop | alloc => cases h

/-- no other action starts a native handle -/
theorem nativeCall_apply {a : Act} (ha : ∀ q, a ≠ .await q) {s : Source} {c : Call}
    (h : nativeCall cfg w a = some (s, c)) : c.apply = none := by
  cases a with
  | await q => exact absurd rfl (ha q)
  | notify s' n =>
    cases n <;> simp [nativeCall] at h
    rw [← h.2]
    rfl
  | requestClose | destroy =>
    obtain ⟨-, h⟩ := Option.ite_none_right_eq_some.mp h
    cases h
    rfl
  | tick =>
    simp only [nativeCall] at h
    split at h
    · split at h
      · obtain ⟨-, h⟩ := Option.ite_none_right_eq_some.mp h
        cases h
        rfl
      · cases h
    · obtain ⟨-, h⟩ := Option.ite_none_right_eq_some.mp h
      cases h
      rfl
    · cases h
  | enter | ret | requestStop | alloc => cases h

/-- what the native handle of `s` polls for, when `slot` is the slot of its source -/
def expected (asked : Op → BitVec 32) (slot : Option Op) : Option (Op × BitVec 32) :=
  slot.map fun o => (o, asked o)

/-- the source that a step is about: its native call, if any, brings the handle to what its slot
says, and without a call the slot stays -/
theorem step_target (h : Wait.Inv cfg w) {a : Act} (hs : Wait.step cfg w a = some w')
    {s : Source} (ht : a.target w = some s) (hf : cfg.family s = .poll) {asked : Op → BitVec 32}
    (hasked : ∀ q, a = .await q → asked q.op = q.events) :
    match nativeCall cfg w a with
    | none => (w'.src s).slot = (w.src s).slot
    | some (_, c) => c.apply = expected asked (w'.src s).slot := by
  unfold Wait.step at hs
  split at hs
  · cases hs
  cases a with
  | enter => cases ht
  | ret => cases ht
  | requestStop c => cases ht
  | await q =>
    cases ht
    obtain ⟨⟨-, ho⟩, rfl⟩ := by simpa using hs
    rcases await_cases h hf ho with ⟨hcall, r, heq⟩ | ⟨hcall, hslot, hstart⟩
    · rw [hcall, heq]
      rfl
    · rw [hcall]
      rcases hstart with ⟨hneg, r, heq⟩ | ⟨hpos, hslot', -⟩
      · rw [heq]
        simp [Call.apply, hneg, World.rejected, hslot, expected]
      · rw [hslot']
        simp [Call.apply, hpos, expected, hasked q rfl]
  | alloc s' =>
    cases ht
    obtain ⟨-, rfl⟩ := by simpa using hs
    show ((w.onAlloc cfg s).src s).slot = _
    unfold World.onAlloc
    split <;> rfl
  | notify s' n =>
    cases ht
    obtain ⟨⟨-, -, hfits⟩, rfl⟩ := by simpa using hs
    rw [hf] at hfits
    cases n with
    | poll status events =>
      show (none : Option (Op × BitVec 32)) = _
      rw [show ((w.notify cfg s (.poll status events)).src s).slot = none from deliver_slot _ s _]
      rfl
    | _ => cases hfits
  | requestClose s' other =>
    cases ht
    obtain ⟨-, rfl⟩ := by simpa using hs
    rw [ownerRequestClose_poll hf]
    simp only [nativeCall, hf, true_and]
    cases hc : (w.src s).closing with
    | true => simp [World.requestClose, hc]
    | false =>
      simp only [if_true]
      rw [requestClose_slot hf hc]
      rfl
  | destroy s' other =>
    cases ht
    obtain ⟨-, rfl⟩ := by simpa using hs
    rw [destroy_poll hf]
    simp only [nativeCall, hf, true_and]
    cases hc : (w.src s).closing with
    | true => simp [World.requestClose, hc]
    | false =>
      simp only [if_true]
      rw [requestClose_slot hf (by simpa using hc)]
      rfl
  | tick =>
    dsimp only at hs
    unfold World.tick at hs
    split at hs
    · rename_i c k hk
      split at hs
      · rename_i hp
        simp [Act.target, hk, hp] at ht
      · rename_i o t hp
        cases hs
        obtain rfl : (w.op o).source = s := by simpa [Act.target, hk, hp] using ht
        have hcall : nativeCall cfg w .tick = some ((w.op o).source, .stop) := by
          simp [nativeCall, hk, hp, hf]
        simp only [hcall, hf, World.onStopRequested, World.cancelWaiter,
          show (w.setStops c t).op = w.op from rfl]
        rw [deliver_slot]
        rfl
    · rename_i s' k hk
      cases hs
      obtain rfl : s' = s := by simpa [Act.target, hk] using ht
      have hnone : (w.src s').slot = none := Option.not_isSome_iff_eq_none.mp fun hsome => by
        have hc := h.tails s' (hk ▸ List.mem_cons_self)
        rw [((h.src s').held hsome).1] at hc
        cases hc
      have hcall : nativeCall cfg w .tick = some (s', .close) := by
        simp [nativeCall, hk, hf]
      simp only [hcall, hf, World.closeTail, World.submit]
      simp [hnone, Call.apply, expected]
    · cases hs

/-- `closing` is never taken back -/
theorem step_closing (h : Wait.Inv cfg w) {a : Act} (hs : Wait.step cfg w a = some w')
    {s : Source} (hc : (w.src s).closing = true) : (w'.src s).closing = true := by
  cases Wait.step_moved h hs with
  | still _ _ _ _ hcl | rejected _ _ _ _ _ hcl | admitted _ _ _ _ _ _ hcl
  | handed _ _ _ _ _ _ _ hcl => exact hcl s hc
  | stop c => exact hc

/-- only a wait on `s` fills its slot -/
theorem step_slot_none (h : Wait.Inv cfg w) {a : Act} (hs : Wait.step cfg w a = some w')
    {s : Source} (hf : cfg.family s = .poll) (hnone : (w.src s).slot = none)
    (ha : ∀ q, a = .await q → q.source ≠ s) : (w'.src s).slot = none := by
  by_cases ht : a.target w = some s
  · have hawait : ∀ q, a ≠ .await q := by
      rintro q rfl
      exact ha q rfl (Option.some.inj ht)
    have hasked : ∀ q, a = .await q → Function.const Op (0 : BitVec 32) q.op = q.events :=
      fun q hq => absurd hq (hawait q)
    have htarget := step_target h hs ht hf hasked
    cases hcall : nativeCall cfg w a with
    | none =>
      rw [hcall] at htarget
      exact htarget.trans hnone
    | some p =>
      obtain ⟨s', c⟩ := p
      rw [hcall] at htarget
      dsimp only at htarget
      rw [nativeCall_apply hawait hcall] at htarget
      exact Option.map_eq_none_iff.mp htarget.symm
  · rw [Wait.step_confined hs ht]
    exact hnone

end

end PollSource
