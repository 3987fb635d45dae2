import Uvpp.Machine.Run
import Uvpp.Cancel.StopList
import Uvpp.Cancel.Memory

/-!
# Stop requests under re-entry

The stop callbacks of `cancellation_state::request_stop` are foreign code: they may register,
unregister and request further stops, on this state and on others, before they return.  The
world is the memory, the call stack of `request_stop` activations (`Frame.loop`) and running
callbacks (`Frame.callback`), and a history of what happened.

* `sys`            one action is one call made by foreign code, or one move of the activation
                   on top of the stack;
* `Inv`            the invariant: for every state the list in memory is the waiting part of its
                   history, the history is legal, and the activation of a state is on the stack
                   exactly between the beginning and the end of its stop;
* `stop_contract`  every state of every run keeps the contract of `cancellation_state`.

The guards of `register` and `unregister` are what all awaiters keep: they register only
registrations without an owner, unregister from the owner, and keep a registered object alive
(objects never disappear here; an unowned object is in its default state, as a new one is).
-/

namespace Cancel
open StopList (Event live Legal)

/-- an activation on the call stack -/
inductive Frame where
  /-- `request_stop` of `s`, inside its loop -/
  | loop (s : StateId)
  /-- the stop callback of `r` -/
  | callback (s : StateId) (r : Addr)
deriving DecidableEq

abbrev StopEvent := Event Addr (Callback × Context)

structure World where
  mem : Mem := {}
  stack : List Frame := []
  log : List (StateId × StopEvent) := []

inductive Act where
  | alloc
  | register (s : StateId) (r : Addr) (cb : Callback) (ctx : Context)
  | unregister (s : StateId) (r : Addr)
  | requestStop (s : StateId)
  /-- one round of the loop on top of the stack -/
  | tick
  /-- the callback on top of the stack returns -/
  | ret
deriving DecidableEq

namespace World

/-- foreign code runs: nothing is on the stack, or a callback is -/
def foreign (w : World) : Bool :=
  match w.stack with
  | .loop _ :: _ => false
  | _ => true

def emit (w : World) (s : StateId) (e : StopEvent) : World := { w with log := w.log ++ [(s, e)] }

/-- the history of one state -/
def history (w : World) (s : StateId) : List StopEvent :=
  w.log.filterMap fun x => if x.1 = s then some x.2 else none

def register (w : World) (s : StateId) (r : Addr) (cb : Callback) (ctx : Context) : World :=
  match w.mem.registerCallback s r cb ctx with
  | (m, true) => { w with mem := m }.emit s (.registered r (cb, ctx))
  | (m, false) => { w with mem := m }

def unregister (w : World) (s : StateId) (r : Addr) : Option World :=
  match w.mem.unregister s r with
  | none => none
  | some m =>
    if (w.mem.reg r).state = none then some { w with mem := m }
    else some ({ w with mem := m }.emit s (.unregistered r))

def requestStop (w : World) (s : StateId) : World :=
  match w.mem.exchangeStop s with
  | (m, true) => { w with mem := m, stack := .loop s :: w.stack }.emit s .began
  | (m, false) => { w with mem := m }

/-- one round of the loop of `s`, whose activation is on top of `rest` -/
def tick (w : World) (s : StateId) (rest : List Frame) : Option World :=
  match w.mem.popHead s with
  | none => some ({ w with stack := rest }.emit s .ended)
  | some (a, some cb, some ctx, m) =>
    some ({ w with mem := m, stack := .callback s a :: .loop s :: rest }.emit s
      (.invoked a (cb, ctx)))
  | some _ => none

end World

def step (w : World) : Act → Option World
  | .alloc => if w.foreign then some { w with mem := { w.mem with cells := w.mem.cells + 1 } } else none
  | .register s r cb ctx =>
    if w.foreign ∧ r < w.mem.cells ∧ (w.mem.reg r).state = none then some (w.register s r cb ctx)
    else none
  | .unregister s r =>
    if w.foreign ∧ ((w.mem.reg r).state = none ∨ (w.mem.reg r).state = some s) then w.unregister s r
    else none
  | .requestStop s => if w.foreign then some (w.requestStop s) else none
  | .tick =>
    match w.stack with
    | .loop s :: rest => w.tick s rest
    | _ => none
  | .ret =>
    match w.stack with
    | .callback _ _ :: rest => some { w with stack := rest }
    | _ => none

def sys : Sys World Act := ⟨{}, step⟩

/-! ## histories -/

section
variable (w : World) (s t : StateId) (e : StopEvent)

@[simp] theorem World.emit_mem : (w.emit s e).mem = w.mem := rfl
@[simp] theorem World.emit_stack : (w.emit s e).stack = w.stack := rfl

@[simp] theorem World.history_emit_self : (w.emit s e).history s = w.history s ++ [e] := by
  simp [World.history, World.emit]

theorem World.history_emit_ne (h : t ≠ s) : (w.emit s e).history t = w.history t := by
  simp [World.history, World.emit, h.symm]

@[simp] theorem World.history_stack (k : List Frame) : { w with stack := k }.history s = w.history s :=
  rfl
@[simp] theorem World.history_mem_stack (m : Mem) (k : List Frame) :
    { w with mem := m, stack := k }.history s = w.history s := rfl

end

/-- the activations of `request_stop` on a stack -/
def loops (k : List Frame) : List StateId :=
  k.filterMap fun
    | .loop s => some s
    | .callback _ _ => none

@[simp] theorem loops_loop (s : StateId) (k : List Frame) : loops (.loop s :: k) = s :: loops k := rfl
@[simp] theorem loops_callback (s : StateId) (r : Addr) (k : List Frame) :
    loops (.callback s r :: k) = loops k := rfl

/-! ## the invariant -/

/-- what holds of one state of the memory, given its history and the activations on the stack -/
structure StateInv (m : Mem) (ls : List StateId) (s : StateId) (log : List StopEvent) : Prop where
  legal : Legal log
  listed : Listed m s ((live log).map Prod.fst)
  entry : ∀ x ∈ live log, (m.reg x.1).callback = some x.2.1 ∧ (m.reg x.1).context = some x.2.2
  stopped : (m.st s).stopRequested = true ↔ .began ∈ log
  loop : s ∈ ls ↔ .began ∈ log ∧ .ended ∉ log

structure Inv (w : World) : Prop where
  state : ∀ s, StateInv w.mem (loops w.stack) s (w.history s)
  nodup : (loops w.stack).Nodup

theorem inv_init : Inv sys.init := by
  refine ⟨fun s => ⟨StopList.legal_nil, ⟨rfl, List.nodup_nil, fun r => ?_, fun r hr => ?_⟩,
    fun x hx => ?_, ?_, ?_⟩, List.nodup_nil⟩
  · simp [sys, live, World.history]
  · simp [sys, live, World.history] at hr
  · simp [sys, live, World.history] at hx
  · simp [sys, World.history]
  · simp [sys, World.history, loops]

/-- a state whose list and flag a change of the memory leaves alone -/
theorem StateInv.frame {m m' : Mem} {ls ls' : List StateId} {s : StateId} {log : List StopEvent}
    (h : StateInv m ls s log) (hl : Listed m' s ((live log).map Prod.fst))
    (hcb : ∀ x ∈ live log, m'.reg x.1 = m.reg x.1)
    (hst : (m'.st s).stopRequested = (m.st s).stopRequested) (hls : s ∈ ls' ↔ s ∈ ls) :
    StateInv m' ls' s log :=
  ⟨h.legal, hl, fun x hx => by rw [hcb x hx]; exact h.entry x hx, by rw [hst]; exact h.stopped,
    hls.trans h.loop⟩

theorem StateInv.waiting {m : Mem} {ls : List StateId} {s : StateId} {log : List StopEvent}
    (h : StateInv m ls s log) (r : Addr) :
    r ∈ (live log).map Prod.fst ↔ (m.reg r).state = some s := h.listed.owned r

theorem StateInv.register {m : Mem} {ls : List StateId} {s : StateId} {log : List StopEvent}
    {r : Addr} {cb : Callback} {ctx : Context} (h : StateInv m ls s log)
    (hr : r < m.cells) (hfree : (m.reg r).state = none)
    (hopen : (m.st s).stopRequested = false) :
    StateInv (m.registerCallback s r cb ctx).1 ls s (log ++ [.registered r (cb, ctx)]) := by
  have hbeg : Event.began ∉ log := fun hb => by
    rw [h.stopped.mpr hb] at hopen
    cases hopen
  have hrL : r ∉ (live log).map Prod.fst := fun hm => by
    rw [(h.waiting r).mp hm] at hfree
    cases hfree
  have hlist : Listed (m.registerCallback s r cb ctx).1 s (r :: (live log).map Prod.fst) :=
    listed_register h.listed hfree hr hopen
  refine ⟨StopList.legal_snoc h.legal ⟨hbeg, hrL⟩, ?_, fun x hx => ?_, ?_, ?_⟩
  · rw [StopList.live_snoc]
    exact hlist
  · rw [StopList.live_snoc] at hx
    rw [registerCallback_open hopen]
    rcases List.mem_cons.mp hx with rfl | hx'
    · simp
    · have hxr : x.1 ≠ r := fun e => hrL (e ▸ List.mem_map_of_mem hx')
      simpa [hxr] using h.entry x hx'
  · rw [registerCallback_open hopen]
    simp [hopen, hbeg]
  · simp [h.loop]

theorem StateInv.unregister {m m' : Mem} {ls : List StateId} {s : StateId} {log : List StopEvent}
    {r : Addr} (h : StateInv m ls s log) (hr : (m.reg r).state = some s)
    (hl : Listed m' s (((live log).map Prod.fst).erase r))
    (hcb : ∀ x, (m'.reg x).callback = if x = r then none else (m.reg x).callback)
    (hctx : ∀ x, (m'.reg x).context = if x = r then none else (m.reg x).context)
    (hst : (m'.st s).stopRequested = (m.st s).stopRequested) :
    StateInv m' ls s (log ++ [.unregistered r]) := by
  have hmem := (h.waiting r).mpr hr
  have hkeys : ((live log).filter fun x => x.1 ≠ r).map Prod.fst
      = ((live log).map Prod.fst).erase r := by
    rw [h.legal.keys_nodup.erase_eq_filter, List.filter_map]
    congr 1
    apply List.filter_congr
    intro x _
    by_cases hx : x.1 = r <;> simp [hx]
  refine ⟨StopList.legal_snoc h.legal hmem, ?_, fun x hx => ?_, ?_, ?_⟩
  · rw [StopList.live_snoc, StopList.apply, hkeys]
    exact hl
  · rw [StopList.live_snoc] at hx
    obtain ⟨hx', hxr⟩ := List.mem_filter.mp hx
    have hne : x.1 ≠ r := by simpa using hxr
    rw [hcb, hctx, if_neg hne, if_neg hne]
    exact h.entry x hx'
  · rw [hst]
    simp [h.stopped]
  · simp [h.loop]

theorem StateInv.began {m : Mem} {ls : List StateId} {s : StateId} {log : List StopEvent}
    (h : StateInv m ls s log) (hopen : (m.st s).stopRequested = false) :
    StateInv (m.setState s { m.st s with stopRequested := true }) (s :: ls) s (log ++ [.began]) := by
  have hbeg : Event.began ∉ log := fun hb => by
    rw [h.stopped.mpr hb] at hopen
    cases hopen
  have hend : Event.ended ∉ log := fun he => by
    obtain ⟨a, b, rfl⟩ := List.append_of_mem he
    exact hbeg (List.mem_append_left _ (h.legal a .ended b rfl).1)
  refine ⟨StopList.legal_snoc h.legal hbeg, ?_, fun x hx => ?_, by simp, by simp [hend]⟩
  · rw [StopList.live_snoc]
    exact h.listed.frame (by simp) (fun _ _ => rfl) (fun _ hx => hx) le_rfl
  · rw [StopList.live_snoc] at hx
    exact h.entry x hx

theorem StateInv.ended {m : Mem} {ls : List StateId} {s : StateId} {log : List StopEvent}
    (h : StateInv m (s :: ls) s log) (hs : s ∉ ls) (hhead : (m.st s).head = none) :
    StateInv m ls s (log ++ [.ended]) := by
  obtain ⟨hbeg, hend⟩ := h.loop.mp (by simp)
  have hempty : live log = [] := by
    have hc := h.listed.chain
    rw [hhead] at hc
    cases hl : live log with
    | nil => rfl
    | cons x L => rw [hl] at hc; cases hc.1
  refine ⟨StopList.legal_snoc h.legal ⟨hbeg, hend, hempty⟩, ?_, fun x hx => ?_, ?_, by simp [hs]⟩
  · rw [StopList.live_snoc]
    exact h.listed
  · rw [StopList.live_snoc] at hx
    exact h.entry x hx
  · simp [h.stopped]

/-- the newest waiting registration is the head of the list, with its callback -/
theorem StateInv.head {m : Mem} {ls : List StateId} {s : StateId} {log : List StopEvent}
    (h : StateInv m ls s log) {a : Addr} (hhead : (m.st s).head = some a) :
    ∃ cb ctx E, live log = (a, cb, ctx) :: E ∧ (m.reg a).callback = some cb ∧
      (m.reg a).context = some ctx := by
  have hc := h.listed.chain
  rw [hhead] at hc
  cases hl : live log with
  | nil =>
    rw [hl] at hc
    cases (show some a = none from hc)
  | cons x E =>
    rw [hl] at hc
    obtain ⟨b, cb, ctx⟩ := x
    obtain rfl : a = b := Option.some.inj hc.1
    obtain ⟨h1, h2⟩ := h.entry (a, cb, ctx) (by rw [hl]; simp)
    exact ⟨cb, ctx, E, rfl, h1, h2⟩

theorem StateInv.invoked {m : Mem} {ls : List StateId} {s : StateId} {log : List StopEvent}
    (h : StateInv m (s :: ls) s log) {a : Addr} {cb : Callback} {ctx : Context}
    {E : List (Addr × Callback × Context)} (hl : live log = (a, cb, ctx) :: E) :
    StateInv ((m.setState s { m.st s with head := (m.reg a).next }).clear a) (s :: ls) s
      (log ++ [.invoked a (cb, ctx)]) := by
  obtain ⟨hbeg, hend⟩ := h.loop.mp (by simp)
  have hnd := h.legal.keys_nodup
  have hlist := h.listed
  rw [hl] at hnd hlist
  have hdrop : live (log ++ [.invoked a (cb, ctx)]) = E := by
    rw [StopList.live_snoc, hl]
    exact StopList.filter_head hnd
  have haE : a ∉ E.map Prod.fst := (List.nodup_cons.mp hnd).1
  refine ⟨StopList.legal_snoc h.legal ⟨hbeg, hend, by rw [hl]; rfl⟩, ?_, fun x hx => ?_, ?_, ?_⟩
  · rw [hdrop]
    exact (listed_popHead hlist).2.1
  · rw [hdrop] at hx
    have hxa : x.1 ≠ a := fun e => haE (e ▸ List.mem_map_of_mem hx)
    have hent := h.entry x (by rw [hl]; simp [hx])
    simpa [hxa] using hent
  · simp [h.stopped]
  · simp [hbeg, hend]

/-! ## one step -/

theorem inv_register {w : World} (h : Inv w) {s : StateId} {r : Addr} {cb : Callback}
    {ctx : Context} (hr : r < w.mem.cells) (hfree : (w.mem.reg r).state = none) :
    Inv (w.register s r cb ctx) := by
  cases hst : (w.mem.st s).stopRequested with
  | true =>
    rw [World.register, registerCallback_stopped hst]
    exact h
  | false =>
    have heq : w.register s r cb ctx
        = ({ w with mem := (w.mem.registerCallback s r cb ctx).1 }).emit s
            (.registered r (cb, ctx)) := by
      rw [World.register, registerCallback_open hst]
    rw [heq]
    refine ⟨fun t => ?_, h.nodup⟩
    by_cases hts : t = s
    · subst hts
      rw [World.history_emit_self]
      exact (h.state t).register hr hfree hst
    · rw [World.history_emit_ne _ _ _ _ hts]
      have ht := h.state t
      refine ht.frame (listed_register_other ht.listed hts hfree) (fun x hx => ?_) ?_ Iff.rfl
      · have hxr : x.1 ≠ r := fun e => by
          have := (ht.waiting x.1).mp (List.mem_map_of_mem hx)
          rw [e, hfree] at this
          cases this
        simp [registerCallback_open hst, hxr]
      · simp [registerCallback_open hst, hts]

theorem inv_unregister {w : World} (h : Inv w) {s : StateId} {r : Addr}
    (hown : (w.mem.reg r).state = none ∨ (w.mem.reg r).state = some s) :
    ∃ w', w.unregister s r = some w' ∧ Inv w' := by
  rcases hown with hnone | hsome
  · refine ⟨w, ?_, h⟩
    rw [World.unregister, unregister_unowned hnone]
    simp [hnone]
  · obtain ⟨m', hm', hl, hother, hcb, hctx, hst, _⟩ := listed_unregister (h.state s).listed hsome
    refine ⟨{ w with mem := m' }.emit s (.unregistered r), ?_, ⟨fun t => ?_, h.nodup⟩⟩
    · rw [World.unregister, hm']
      simp [hsome]
    · by_cases hts : t = s
      · subst hts
        rw [World.history_emit_self]
        exact (h.state t).unregister hsome hl hcb hctx (hst t)
      · rw [World.history_emit_ne _ _ _ _ hts]
        have ht := h.state t
        refine ⟨ht.legal, hother t _ hts ht.listed, fun x hx => ?_, ?_, ht.loop⟩
        · have hxr : x.1 ≠ r := fun e => by
            have := (ht.waiting x.1).mp (List.mem_map_of_mem hx)
            rw [e, hsome] at this
            exact hts (Option.some.inj this).symm
          rw [World.emit_mem, hcb, hctx, if_neg hxr, if_neg hxr]
          exact ht.entry x hx
        · rw [World.emit_mem, hst]
          exact ht.stopped

theorem inv_requestStop {w : World} (h : Inv w) (s : StateId) : Inv (w.requestStop s) := by
  cases hst : (w.mem.st s).stopRequested with
  | true =>
    simp only [World.requestStop, Mem.exchangeStop, hst, ite_true]
    exact h
  | false =>
    have heq : w.requestStop s
        = ({ w with mem := w.mem.setState s { w.mem.st s with stopRequested := true },
                    stack := .loop s :: w.stack }).emit s .began := by
      simp [World.requestStop, Mem.exchangeStop, hst]
    have hs : s ∉ loops w.stack := fun hm => by
      have := (h.state s).stopped.mpr ((h.state s).loop.mp hm).1
      rw [hst] at this
      cases this
    rw [heq]
    refine ⟨fun t => ?_, List.nodup_cons.mpr ⟨hs, h.nodup⟩⟩
    by_cases hts : t = s
    · subst hts
      rw [World.history_emit_self]
      exact (h.state t).began hst
    · rw [World.history_emit_ne _ _ _ _ hts]
      have ht := h.state t
      refine ht.frame (ht.listed.frame (by simp [hts]) (fun _ _ => rfl) (fun _ hx => hx) le_rfl)
        (fun _ _ => rfl) (by simp [hts]) (by simp [hts])

theorem inv_tick {w : World} (h : Inv w) {s : StateId} {rest : List Frame}
    (hk : w.stack = .loop s :: rest) : ∃ w', w.tick s rest = some w' ∧ Inv w' := by
  have hnd := h.nodup
  rw [hk, loops_loop] at hnd
  have hrest : s ∉ loops rest := (List.nodup_cons.mp hnd).1
  have hs := h.state s
  rw [hk, loops_loop] at hs
  cases hhead : (w.mem.st s).head with
  | none =>
    refine ⟨{ w with stack := rest }.emit s .ended, ?_, ⟨fun t => ?_, (List.nodup_cons.mp hnd).2⟩⟩
    · simp [World.tick, Mem.popHead, hhead]
    · by_cases hts : t = s
      · subst hts
        rw [World.history_emit_self]
        exact hs.ended hrest hhead
      · rw [World.history_emit_ne _ _ _ _ hts]
        have ht := h.state t
        rw [hk, loops_loop] at ht
        exact ht.frame ht.listed (fun _ _ => rfl) rfl (by simp [hts])
  | some a =>
    obtain ⟨cb, ctx, E, hl, hcb, hctx⟩ := hs.head hhead
    have hlist := hs.listed
    rw [hl] at hlist
    obtain ⟨hpop, _, hother⟩ := listed_popHead hlist
    refine ⟨_, by rw [World.tick, hpop, hcb, hctx], ?_⟩
    refine ⟨fun t => ?_, by rw [World.emit_stack, loops_callback, loops_loop]; exact hnd⟩
    by_cases hts : t = s
    · subst hts
      rw [World.history_emit_self]
      exact hs.invoked hl
    · rw [World.history_emit_ne _ _ _ _ hts]
      have ht := h.state t
      rw [hk, loops_loop] at ht
      refine ht.frame (hother t _ hts ht.listed) (fun x hx => ?_) (by simp [hts]) Iff.rfl
      have hxa : x.1 ≠ a := fun e => by
        have h1 := (ht.waiting x.1).mp (List.mem_map_of_mem hx)
        have h2 := (hs.waiting a).mp (by rw [hl]; simp)
        rw [e, h2] at h1
        exact hts (Option.some.inj h1).symm
      simp [hxa]

theorem step_inv (w : World) (a : Act) (w' : World) (h : Inv w) (hs : step w a = some w') :
    Inv w' := by
  cases a with
  | alloc =>
    simp only [step] at hs
    split at hs
    · cases hs
      refine ⟨fun s => ?_, h.nodup⟩
      have ht := h.state s
      exact ht.frame (ht.listed.frame rfl (fun _ _ => rfl) (fun _ hx => hx) (Nat.le_succ _))
        (fun _ _ => rfl) rfl Iff.rfl
    · cases hs
  | register s r cb ctx =>
    simp only [step] at hs
    split at hs
    · rename_i hg
      cases hs
      exact inv_register h hg.2.1 hg.2.2
    · cases hs
  | unregister s r =>
    simp only [step] at hs
    split at hs
    · rename_i hg
      obtain ⟨v, hv, hinv⟩ := inv_unregister h hg.2
      rw [hv] at hs
      exact Option.some.inj hs ▸ hinv
    · cases hs
  | requestStop s =>
    simp only [step] at hs
    split at hs
    · cases hs
      exact inv_requestStop h s
    · cases hs
  | tick =>
    simp only [step] at hs
    split at hs
    · rename_i s rest hk
      obtain ⟨v, hv, hinv⟩ := inv_tick h hk
      rw [hv] at hs
      exact Option.some.inj hs ▸ hinv
    · cases hs
  | ret =>
    simp only [step] at hs
    split at hs
    · rename_i s r rest hk
      cases hs
      have hn := h.nodup
      have hst := h.state
      rw [hk, loops_callback] at hn hst
      exact ⟨hst, hn⟩
    · cases hs

theorem reach_inv {w : World} (h : sys.Reach w) : Inv w := h.inv inv_init step_inv

/-! ## termination of the loop -/

theorem step_log {w w' : World} {a : Act} (hs : step w a = some w') :
    w'.log = w.log ∨ ∃ s e, w'.log = w.log ++ [(s, e)] := by
  cases a with
  | alloc | ret => simp only [step] at hs; split at hs <;> cases hs; exact .inl rfl
  | register s r cb ctx =>
    simp only [step] at hs
    split at hs <;> cases hs
    unfold World.register
    split
    · exact .inr ⟨_, _, rfl⟩
    · exact .inl rfl
  | unregister s r =>
    simp only [step, World.unregister] at hs
    split at hs
    · split at hs
      · cases hs
      · split at hs <;> cases hs
        · exact .inl rfl
        · exact .inr ⟨_, _, rfl⟩
    · cases hs
  | requestStop s =>
    simp only [step] at hs
    split at hs <;> cases hs
    unfold World.requestStop
    split
    · exact .inr ⟨_, _, rfl⟩
    · exact .inl rfl
  | tick =>
    simp only [step] at hs
    split at hs
    · unfold World.tick at hs
      split at hs <;> cases hs
      · exact .inr ⟨_, _, rfl⟩
      · exact .inr ⟨_, _, rfl⟩
    · cases hs

/-- the rounds a stop has made and those it can still make, together -/
def rounds (log : List StopEvent) : Nat := (StopList.invocations log).length + (live log).length

theorem rounds_step {w w' : World} {a : Act} {s : StateId} (h : Inv w) (hs : step w a = some w')
    (hb : .began ∈ w.history s) :
    .began ∈ w'.history s ∧ rounds (w'.history s) ≤ rounds (w.history s) := by
  have h' := (step_inv w a w' h hs).state s
  have hcases : w'.history s = w.history s ∨ ∃ e, w'.history s = w.history s ++ [e] := by
    rcases step_log hs with hl | ⟨t, e, hl⟩
    · exact .inl (by rw [World.history, World.history, hl])
    · by_cases hts : t = s
      · exact .inr ⟨e, by simp [World.history, hl, hts]⟩
      · exact .inl (by simp [World.history, hl, hts])
  rcases hcases with heq | ⟨e, heq⟩
  · rw [heq]
    exact ⟨hb, le_rfl⟩
  · have hl := h'.legal
    rw [heq] at hl ⊢
    exact ⟨List.mem_append_left _ hb, hl.rounds_snoc hb⟩

/-- a loop whose callbacks return without doing anything else arrives at its end -/
theorem loop_returns {w : World} (h : Inv w) {s : StateId} {rest : List Frame}
    (hk : w.stack = .loop s :: rest) : ∃ as w', sys.run w as = some w' ∧ w'.stack = rest := by
  induction hn : (live (w.history s)).length generalizing w with
  | zero =>
    have hempty : live (w.history s) = [] := List.length_eq_zero_iff.mp hn
    have hhead : (w.mem.st s).head = none := by
      have hc := (h.state s).listed.chain
      rw [hempty] at hc
      exact hc
    refine ⟨[.tick], { w with stack := rest }.emit s .ended, ?_, rfl⟩
    simp [Sys.run, sys, step, hk, World.tick, Mem.popHead, hhead]
  | succ n ih =>
    obtain ⟨a, hhead⟩ : ∃ a, (w.mem.st s).head = some a := by
      have hc := (h.state s).listed.chain
      cases hl : live (w.history s) with
      | nil => rw [hl] at hn; cases hn
      | cons x E => rw [hl] at hc; exact ⟨x.1, hc.1⟩
    obtain ⟨cb, ctx, E, hl, hcb, hctx⟩ := (h.state s).head hhead
    obtain ⟨w1, hw1, hi1⟩ := inv_tick h hk
    have hlist := (h.state s).listed
    rw [hl] at hlist
    rw [World.tick, (listed_popHead hlist).1, hcb, hctx] at hw1
    have hstep1 : sys.step w .tick = some w1 := by
      show step w .tick = some w1
      rw [step, hk]
      show w.tick s rest = some w1
      rw [World.tick, (listed_popHead hlist).1, hcb, hctx]
      exact hw1
    have hw1' := (Option.some.inj hw1).symm
    -- the callback returns: the loop is on top again, with one registration less
    have hk1 : w1.stack = .callback s a :: .loop s :: rest := by rw [hw1']; rfl
    have hstep2 : sys.step w1 .ret = some { w1 with stack := .loop s :: rest } := by
      show step w1 .ret = _
      rw [step, hk1]
    have hi2 := step_inv w1 .ret _ hi1 hstep2
    have hlen : (live (({ w1 with stack := .loop s :: rest } : World).history s)).length = n := by
      have hlive : live (w1.history s) = E := by
        rw [hw1', World.history_emit_self, World.history_mem_stack, StopList.live_snoc, hl]
        have hnd := (h.state s).legal.keys_nodup
        rw [hl] at hnd
        exact StopList.filter_head hnd
      rw [World.history_stack, hlive]
      rw [hl] at hn
      exact Nat.succ.inj hn
    obtain ⟨as, v, hrun, hv⟩ := ih hi2 rfl hlen
    refine ⟨.tick :: .ret :: as, v, ?_, hv⟩
    rw [Sys.run_cons, hstep1]
    show sys.run w1 (.ret :: as) = some v
    rw [Sys.run_cons, hstep2]
    exact hrun

/-! ## the contract -/

/-- what `cancellation_state` promises about one state, at one moment of a run -/
structure StopContract (w : World) (s : StateId) : Prop where
  /-- the linked list is exactly the owned registrations, once each; newest first -/
  list : ∃ L, Chain w.mem.reg (w.mem.st s).head L ∧ L.Nodup ∧
    (∀ r, r ∈ L ↔ (w.mem.reg r).state = some s) ∧ L = (live (w.history s)).map Prod.fst
  /-- the walk of `unregister` stops at the slot that points to its node -/
  found : ∀ r, (w.mem.reg r).state = some s →
    ∃ cur, w.mem.search s r w.mem.cells .head = some cur ∧ w.mem.load s cur = some r
  /-- a completed stop invoked, newest first and once each, what it found registered and
  nobody unregistered in time -/
  invoked : ∀ pre mid post, w.history s = pre ++ .began :: (mid ++ .ended :: post) →
    StopList.invocations mid = ((live pre).filter fun x => Event.unregistered x.1 ∉ mid) ∧
    ((live pre).map Prod.fst).Nodup
  /-- an invocation takes the newest waiting registration, after the stop began -/
  newest : ∀ pre r c post, w.history s = pre ++ .invoked r c :: post →
    .began ∈ pre ∧ .ended ∉ pre ∧ (live pre).head? = some (r, c)
  /-- a registration is out of the list when its callback starts -/
  removed : ∀ pre r c, w.history s = pre ++ [.invoked r c] → (w.mem.reg r).state ≠ some s
  /-- no callback runs after its unregistration -/
  silent : ∀ pre mid post r c,
    w.history s = pre ++ .unregistered r :: (mid ++ .invoked r c :: post) →
    ∃ c', Event.registered r c' ∈ mid
  /-- no registration succeeds after the first `request_stop`, and there is no second loop -/
  closed : ∀ pre post, w.history s = pre ++ .began :: post →
    .began ∉ post ∧ ∀ r c, Event.registered r c ∉ post
  /-- the loop is never stuck -/
  progress : ∀ rest, w.stack = .loop s :: rest → ∃ w', sys.step w .tick = some w'
  /-- once a stop began, no run makes more rounds than registrations were waiting -/
  bounded : .began ∈ w.history s → ∀ as w', sys.run w as = some w' →
    rounds (w'.history s) ≤ rounds (w.history s)
  /-- and when its callbacks return, the loop returns -/
  returns : ∀ rest, w.stack = .loop s :: rest → ∃ as w', sys.run w as = some w' ∧ w'.stack = rest

theorem stop_contract {w : World} (h : sys.Reach w) (s : StateId) : StopContract w s := by
  have hinv := reach_inv h
  have hs := hinv.state s
  refine ⟨⟨_, hs.listed.chain, hs.listed.nodup, hs.listed.owned, rfl⟩, fun r hr => ?_,
    fun pre mid post heq => ?_, fun pre r c post heq => ?_, fun pre r c heq => ?_,
    fun pre mid post r c heq => ?_, fun pre post heq => ?_, fun rest hk => ?_,
    fun hb as w' hrun => ?_, fun rest hk => loop_returns hinv hk⟩
  · obtain ⟨P, R, hL, hrP, hfind⟩ := search_finds hs.listed hr
    exact ⟨_, hfind, search_slot hs.listed hL⟩
  · have hl := hs.legal
    rw [heq] at hl
    exact ⟨hl.completed, (hl.left (a := pre)).keys_nodup⟩
  · exact hs.legal pre _ post heq
  · intro hown
    have hmem := (hs.waiting r).mpr hown
    rw [heq, StopList.live_snoc] at hmem
    obtain ⟨x, hx, hxr⟩ := List.mem_map.mp hmem
    have := (List.mem_filter.mp hx).2
    simp [hxr] at this
  · have hl := hs.legal
    rw [heq] at hl
    exact hl.not_after_unregister
  · have hl := hs.legal
    rw [heq] at hl
    exact ⟨hl.began_once, fun r c => hl.no_register_after_began⟩
  · obtain ⟨w', hw', _⟩ := inv_tick hinv hk
    refine ⟨w', ?_⟩
    show step w .tick = some w'
    rw [step, hk]
    exact hw'
  · have hP : Inv w' ∧ .began ∈ w'.history s ∧ rounds (w'.history s) ≤ rounds (w.history s) := by
      refine Sys.run_inv (P := fun v => Inv v ∧ .began ∈ v.history s ∧
        rounds (v.history s) ≤ rounds (w.history s)) ?_ ⟨hinv, hb, le_rfl⟩ hrun
      rintro v a v' ⟨hi, hvb, hvr⟩ hstep
      obtain ⟨hb', hr'⟩ := rounds_step hi hstep hvb
      exact ⟨step_inv v a v' hi hstep, hb', hr'.trans hvr⟩
    exact hP.2.2

/-- two registrations on one state; the callback of the newer one unregisters the older one and
asks for the stop again -/
def crossUnregister : List Act :=
  [.alloc, .alloc, .register 0 0 7 70, .register 0 1 8 80, .requestStop 0, .tick, .unregister 0 0,
   .requestStop 0, .ret, .tick]

theorem stop_contract_crossUnregister :
    ∃ w, sys.run sys.init crossUnregister = some w ∧
      w.history 0 = [.registered 0 (7, 70), .registered 1 (8, 80), .began, .invoked 1 (8, 80),
        .unregistered 0, .ended] ∧
      StopContract w 0 :=
  ⟨_, rfl, rfl, stop_contract ⟨crossUnregister, rfl⟩ 0⟩

end Cancel
