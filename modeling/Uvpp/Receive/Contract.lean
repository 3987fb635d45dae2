import Uvpp.Receive.Ends

/-!
# Received handles are returned or closed

* `step_inv`           every step keeps `Inv`;
* `receive_contract`   what holds in all runs.
-/

namespace Receive
open Errno History

section
variable {cfg : Config} {w v : World}

/-! ## The steps -/

theorem Base.inv (h : Base cfg w) (hl : Lawful (Law cfg.size) w.log)
    (hroom : w.bytesTransferred < cfg.size)
    (hoffer : ∀ l, w.offer = some l → w.bytesTransferred + l ≤ cfg.size) : Inv cfg w :=
  ⟨.reads h hroom hoffer, h.untouched.books, hl, h.bytes ▸ h.fits, h.safe⟩

/-- `await_suspend` ends the operation -/
theorem Inv.inline (hst : v.status = .over) (hend : Ended v) (hconn : ∀ g, v.conn g = {})
    (hsafe : v.fault = false) {e : Event} (he : e = .threw ∨ ∃ code, e = .ended code)
    (hlog : v.log = [e]) : Inv cfg v := by
  have hsilent : ∀ g, Silent (v.conn g) := by
    intro g
    rw [hconn g]
    exact silent_empty
  have hquiet : Untouched v.log ∧ .suspended ∉ v.log ∧ total v.log = 0 ∧
      Follows (Law cfg.size) [] v.log := by
    rw [hlog]
    rcases he with rfl | ⟨code, rfl⟩
    · exact ⟨⟨rfl, rfl, rfl, rfl, rfl, rfl⟩, by simp, rfl, trivial, trivial⟩
    · exact ⟨⟨rfl, rfl, rfl, rfl, rfl, rfl⟩, by simp, rfl, trivial, trivial⟩
  obtain ⟨hu, hs, ht, hf⟩ := hquiet
  exact ⟨.settled hst hend hsilent fun h => absurd h hs, hu.books, lawful_nil.append hf,
    ht ▸ Nat.zero_le _, hsafe⟩

theorem awaitSuspend_inv (q : Request) : Inv cfg ((sys cfg).init.awaitSuspend q) := by
  have hthrew : Inv cfg ({ (sys cfg).init with status := .over }.emit .threw) :=
    Inv.inline rfl ⟨rfl, rfl⟩ (fun _ => rfl) rfl (.inl rfl) rfl
  have hended : ∀ code, Inv cfg ((sys cfg).init.endInline code) := fun code =>
    Inv.inline rfl ⟨rfl, rfl⟩ (fun _ => rfl) rfl (.inr ⟨code, rfl⟩) rfl
  unfold World.awaitSuspend
  split
  · exact hended _
  split
  · exact hthrew
  split
  · exact hended _
  split
  · exact hended _
  split
  · exact hended _
  split
  · exact hended _
  rename_i hsize
  split
  · exact hthrew
  dsimp only
  split
  · exact Inv.inline rfl ⟨rfl, rfl⟩ (fun _ => rfl) rfl (.inr ⟨_, rfl⟩) rfl
  · refine Base.inv ⟨rfl, rfl, rfl, rfl, rfl, id, rfl, rfl, rfl, rfl, rfl, ⟨rfl, fun _ => rfl, ?_⟩,
      ⟨rfl, rfl, rfl, rfl, rfl, rfl⟩, (List.append_nil _).symm, rfl, Nat.zero_le _, rfl⟩ ?_
      (Nat.pos_of_ne_zero hsize) nofun
    · intro g hg
      exact Option.some.inj hg ▸ Nat.lt_succ_self _
    · have hf : Follows (Law cfg.size) [] [.suspended] := ⟨trivial, trivial⟩
      exact lawful_nil.append hf

/-- the length fits its type, so all of the rest is offered -/
theorem Base.onAlloc (hfits : cfg.size < 2 ^ cfg.lengthBits) (h : Base cfg w)
    (hl : Lawful (Law cfg.size) w.log) (hroom : w.bytesTransferred < cfg.size) :
    Inv cfg w.onAlloc := by
  have hlen : (w.size - w.bytesTransferred) % 2 ^ w.lengthBits = cfg.size - w.bytesTransferred := by
    rw [h.size, h.lengthBits]
    exact Nat.mod_eq_of_lt (by omega)
  have hlog : w.onAlloc.log =
      w.log ++ [.offered w.bytesTransferred (cfg.size - w.bytesTransferred)] := by
    show w.log ++ [Event.offered w.bytesTransferred _] = _
    rw [hlen]
  refine Base.inv ⟨h.size, h.lengthBits, h.status, h.reading, h.activeRead, h.registered, h.pipe,
    h.continuation, h.closePipe, h.required, h.completed,
    ⟨h.clean.received, h.clean.conn, h.clean.incoming⟩, ?_, ?_, ?_, h.fits, h.safe⟩ ?_ hroom ?_
  · rw [hlog]
    exact h.untouched.append ⟨rfl, rfl, rfl, rfl, rfl, rfl⟩
  · rw [hlog, arrived_append, ← List.append_assoc, ← h.queue]
    exact (List.append_nil _).symm
  · rw [hlog, total_append]
    exact h.bytes
  · rw [hlog]
    exact hl.append ⟨⟨h.bytes, by omega, by omega⟩, trivial⟩
  · intro l hoffer
    have hl' : (w.size - w.bytesTransferred) % 2 ^ w.lengthBits = l := Option.some.inj hoffer
    show w.bytesTransferred + l ≤ cfg.size
    omega

/-- the part of `on_read` before the loop -/
theorem Base.read (h : Base cfg w) {n : Int} {l : List Pending} {b : Nat}
    (hb : b = w.bytesTransferred + n.toNat) (hle : b ≤ cfg.size) :
    Base cfg { w with
      pending := w.pending ++ l, offer := none, code := n, bytesTransferred := b
      log := w.log ++ [.read n l] } := by
  refine ⟨h.size, h.lengthBits, h.status, h.reading, h.activeRead, h.registered, h.pipe,
    h.continuation, h.closePipe, h.required, h.completed,
    ⟨h.clean.received, h.clean.conn, h.clean.incoming⟩, ?_, ?_, ?_, hle, h.safe⟩
  · exact h.untouched.append ⟨rfl, rfl, rfl, rfl, rfl, rfl⟩
  · dsimp only
    rw [arrived_append, ← List.append_assoc, ← h.queue]
    exact congrArg _ (List.append_nil l).symm
  · dsimp only
    rw [hb, total_append, h.bytes]
    rfl

/-- a read error, or a full buffer -/
theorem Base.finish_failed (h : Base cfg w) (hl : Lawful (Law cfg.size) w.log) {code : Int}
    (hcode : code < 0) : Inv cfg (World.finish { w with code := code }) := by
  have hnil : w.received = [] := h.clean.received
  have hend : Ending { w with code := code } :=
    ⟨h.registered, h.pipe, h.continuation, h.required, by rw [hnil]; exact List.nodup_nil,
      fun g _ => by rw [h.clean.conn g]⟩
  have hun : World.untransferred { w with code := code } = none := by
    unfold World.untransferred
    cases w.incoming with
    | none => rfl
    | some g => simp [h.clean.conn g]
  obtain ⟨hended, hst, hfault, hconn, hlog⟩ := finish_fails hend hcode hun
  refine h.fails hl code hended hst hfault (fun g => ?_) hcode ?_
  · rw [hconn g]
    dsimp only
    rw [h.clean.conn g]
    exact silent_empty.ite_released
  · rw [hlog]
    dsimp only
    rw [h.closePipe, hnil]
    simp

theorem Base.onRead (h : Base cfg w) (hl : Lawful (Law cfg.size) w.log)
    (hroom : w.bytesTransferred < cfg.size) {n : Int} {l : List Pending} {rounds : Nat → Round}
    (hn : 0 < n → w.bytesTransferred + n.toNat ≤ cfg.size) (hs : w.onRead n l rounds = some v) :
    Inv cfg v := by
  have hlaws : Lawful (Law cfg.size) (w.log ++ [.read n l]) := hl.append ⟨trivial, trivial⟩
  unfold World.onRead at hs
  dsimp only [World.emit] at hs
  split at hs
  · rename_i hpos
    have hbase := h.read (l := l) rfl (hn hpos)
    split at hs
    · cases hs
    · rename_i v' ha
      cases hs
      exact hbase.ends hlaws ha
    · rename_i v' ha
      obtain ⟨hv, hlog, hbytes, hoffer⟩ := hbase.goes_on ha
      have hv' : Lawful (Law cfg.size) v'.log := hlog ▸ hlaws
      split at hs
      · cases hs
        exact hv.finish_failed hv' (by decide)
      · rename_i hfull
        cases hs
        rw [hv.size] at hfull
        refine hv.inv hv' (Nat.lt_of_le_of_ne hv.fits hfull) fun k hk => ?_
        rw [hoffer] at hk
        cases hk
  · rename_i hpos
    have hzero : n.toNat = 0 := Int.toNat_of_nonpos (Int.not_lt.mp hpos)
    have hbase := h.read (l := l) (n := n) (b := w.bytesTransferred) (by rw [hzero]; rfl) h.fits
    split at hs
    · split at hs
      · cases hs
      · rename_i v' ha
        cases hs
        exact hbase.ends hlaws ha
      · rename_i v' ha
        cases hs
        obtain ⟨hv, hlog, hbytes, hoffer⟩ := hbase.goes_on ha
        refine hv.inv (hlog ▸ hlaws) (by rw [hbytes]; exact hroom) fun k hk => ?_
        rw [hoffer] at hk
        cases hk
    · rename_i hne
      cases hs
      exact hbase.finish_failed hlaws (by omega)

theorem Base.onStopRequested (h : Base cfg w) (hl : Lawful (Law cfg.size) w.log) :
    Inv cfg (World.onStopRequested { w with registered := false }) := by
  have heq : World.onStopRequested { w with registered := false } =
      World.resume (World.detach { w with registered := false, code := ecanceled }) (some 0) := by
    unfold World.onStopRequested
    rw [if_neg (by simp [h.activeRead])]
    exact congrArg _ h.continuation
  rw [heq]
  refine h.fails hl ecanceled ⟨rfl, ?_⟩ rfl ?_ (fun g => ?_) (by decide) rfl
  · show (if w.cancellation then false else false) = false
    split <;> rfl
  · simp [World.resume, World.emit, World.detach, World.stopNative, World.releaseSlots, h.required,
      ecanceled]
  · show Silent (w.conn g)
    rw [h.clean.conn g]
    exact silent_empty

theorem silent_update {h g : Handle} {x : Connection} (hx : Silent x) (hg : Silent (w.conn g)) :
    Silent (Function.update w.conn h x g) := by
  by_cases hgh : g = h
  · rw [hgh, Function.update_self]
    exact hx
  · rw [Function.update_of_ne hgh]
    exact hg

/-- a close callback that nobody waits for -/
theorem Inv.onClose_silent (hi : Inv cfg w) {h : Handle} (hs : Silent (w.conn h))
    (hst : (∃ g, g ≠ h ∧ Ended w ∧ Waits w g) ∨
      (w.status = .over ∧ Ended w ∧ (∀ g, Silent (w.conn g)) ∧
        (.suspended ∈ w.log → (outcomes w.log).length = 1))) : Inv cfg (w.onClose h) := by
  obtain ⟨x, hx, heq⟩ := Receive.onClose_silent hs
  have hlog : (w.onClose h).log = w.log ++ [.closed h] := by rw [heq]
  have hout : outcomes (w.onClose h).log = outcomes w.log := by
    rw [hlog, outcomes_append]
    exact List.append_nil _
  have hmem : ∀ e, e ≠ .closed h → (e ∈ (w.onClose h).log ↔ e ∈ w.log) := by
    intro e he
    rw [hlog]
    simp [he]
  refine ⟨?_, ?_, ?_, ?_, ?_⟩
  · rcases hst with ⟨g, hgh, hend, hw⟩ | ⟨hover, hend, hall, hone⟩
    · have hself : (w.onClose h).conn g = w.conn g := by
        rw [heq]
        exact Function.update_of_ne hgh ..
      refine .waits g ?_ ⟨?_, ?_, ?_, ?_, ?_, ?_, ?_, ?_, ?_, ?_, ?_, ?_⟩
      · rw [heq]
        exact ⟨hend.reading, hend.registered⟩
      · rw [heq]
        exact hw.status
      · rw [heq]
        exact hw.code
      · rw [heq]
        exact hw.completed
      · rw [heq]
        exact hw.received
      · rw [hself]
        exact hw.waiters
      · rw [hself]
        exact hw.callback
      · rw [hself]
        exact hw.destination
      · rw [hself]
        exact hw.closing
      · intro k hk
        rw [heq]
        exact silent_update hx (hw.others k hk)
      · intro k
        rw [hmem (.failed (.accept k)) nofun]
        exact hw.failed k
      · rw [hout]
        exact hw.outcomes
      · rw [hlog, closes_append, inits_append, hw.closes]
        rfl
    · refine .settled ?_ ?_ ?_ ?_
      · rw [heq]
        exact hover
      · rw [heq]
        exact ⟨hend.reading, hend.registered⟩
      · intro k
        rw [heq]
        exact silent_update hx (hall k)
      · rw [hmem .suspended nofun, hout]
        exact hone
  · rw [hlog]
    exact hi.books.callback h
  · rw [hlog]
    exact hi.laws.append ⟨trivial, trivial⟩
  · rw [hlog, total_append]
    exact hi.bytes
  · rw [heq]
    exact hi.safe

/-- the one that the coroutine waits for -/
theorem Inv.onClose_waiting (hi : Inv cfg w) {h : Handle} (hend : Ended w) (hw : Waits w h) :
    Inv cfg (w.onClose h) := by
  obtain ⟨x, hx, heq⟩ := Receive.onClose_waiting hw.waiters hw.callback hw.destination hw.code
  have hlog : (w.onClose h).log = w.log ++ [.closed h] ++ [.resumed w.code []] := by
    rw [heq]
    simp
  have hout : outcomes (w.log ++ [.closed h]) = [] := by
    rw [outcomes_append, hw.outcomes]
    rfl
  have hclosed : closes (w.log ++ [.closed h]) = inits (w.log ++ [.closed h]) := by
    rw [closes_append, inits_append, hw.closes]
    rfl
  refine ⟨.settled ?_ ?_ ?_ ?_, ?_, ?_, ?_, ?_⟩
  · rw [heq]
  · rw [heq]
    exact ⟨hend.reading, hend.registered⟩
  · intro g
    rw [heq]
    by_cases hgh : g = h
    · rw [hgh]
      dsimp only
      rw [Function.update_self]
      exact hx
    · exact silent_update hx (hw.others g hgh)
  · rw [hlog, outcomes_append, hout]
    exact fun _ => rfl
  · rw [hlog]
    exact (hi.books.callback h).fails hout hclosed hw.code
  · rw [hlog]
    have hlaws : Lawful (Law cfg.size) (w.log ++ [.closed h]) := hi.laws.append ⟨trivial, trivial⟩
    refine hlaws.append ⟨fun g hg => ?_, trivial⟩
    have hg : .failed (.accept g) ∈ w.log := by simpa using hg
    rw [(hw.failed g).mp hg]
    simp
  · rw [hlog, total_append, total_append]
    exact hi.bytes
  · rw [heq]
    exact hi.safe

theorem step_inv (hfits : cfg.size < 2 ^ cfg.lengthBits) (hi : Inv cfg w) {a : Act}
    (hs : step w a = some v) : Inv cfg v := by
  have hreads : w.reading = true → ∃ (_ : Base cfg w) (_ : w.bytesTransferred < cfg.size),
      ∀ l, w.offer = some l → w.bytesTransferred + l ≤ cfg.size := by
    intro hr
    cases hi.stage with
    | fresh h =>
      rw [h] at hr
      cases hr
    | reads h hroom hoffer => exact ⟨h, hroom, hoffer⟩
    | waits _ hend | settled _ hend => cases hr.symm.trans hend.reading
  cases a with
  | await q =>
    obtain ⟨hfresh, heq⟩ := Option.ite_none_right_eq_some.mp hs
    cases heq
    cases hi.stage with
    | fresh h =>
      rw [h]
      exact awaitSuspend_inv q
    | reads h hroom hoffer => cases hfresh.symm.trans h.status
    | waits g hend hw => cases hfresh.symm.trans hw.status
    | settled hst hend hsil hone => cases hfresh.symm.trans hst
  | alloc =>
    obtain ⟨hr, heq⟩ := Option.ite_none_right_eq_some.mp hs
    cases heq
    obtain ⟨h, hroom, -⟩ := hreads hr
    exact h.onAlloc hfits hi.laws hroom
  | read n l rounds =>
    obtain ⟨⟨hr, hn⟩, heq⟩ := Option.ite_none_right_eq_some.mp hs
    obtain ⟨h, hroom, hoffer⟩ := hreads hr
    refine h.onRead hi.laws hroom (fun hpos => ?_) heq
    obtain ⟨k, hk, hle⟩ := hn hpos
    have hroom' := hoffer k hk
    omega
  | stop =>
    obtain ⟨hreg, heq⟩ := Option.ite_none_right_eq_some.mp hs
    cases heq
    cases hi.stage with
    | fresh h =>
      rw [h] at hreg
      cases hreg
    | reads h hroom hoffer => exact h.onStopRequested hi.laws
    | waits _ hend | settled _ hend => cases hreg.symm.trans hend.registered
  | closeCallback g =>
    obtain ⟨hc, heq⟩ := Option.ite_none_right_eq_some.mp hs
    cases heq
    cases hi.stage with
    | fresh h =>
      rw [h] at hc
      cases hc
    | reads h hroom hoffer =>
      rw [h.clean.conn g] at hc
      cases hc
    | waits k hend hw =>
      by_cases hgk : g = k
      · subst hgk
        exact hi.onClose_waiting hend hw
      · exact hi.onClose_silent (hw.others g hgk) (.inl ⟨k, Ne.symm hgk, hend, hw⟩)
    | settled hst hend hsil hone => exact hi.onClose_silent (hsil g) (.inr ⟨hst, hend, hsil, hone⟩)

theorem run_inv (hfits : cfg.size < 2 ^ cfg.lengthBits) {as : List Act}
    (hr : (sys cfg).run (sys cfg).init as = some w) : Inv cfg w :=
  Sys.run_inv (S := sys cfg) (fun _ _ _ h hs => step_inv hfits h hs) (Inv.init cfg) hr

end

/-! ## The contract -/

structure ReceiveContract (cfg : Config) (w : World) : Prop where
  /-- the loop ends: from any state and whatever the calls return, one result for all bounds above
  the number of pending handles -/
  drains : ∀ (v : World) (rounds : Nat → Round), ∃ x, ∀ fuel, v.pending.length < fuel →
    World.adoptLoop fuel rounds v false = some x
  /-- what is offered to libuv, and when the coroutine goes on -/
  laws : Lawful (Law cfg.size) w.log
  bytes : total w.log ≤ cfg.size
  /-- all that was taken over is returned, or all that was initialised is closed; the pipe is closed
  for a failure of the loop only -/
  books : Books cfg w.log
  /-- an operation that was suspended and is over has gone on once -/
  resumed : w.status = .over → .suspended ∈ w.log → (outcomes w.log).length = 1
  /-- and one that is not over waits for libuv: for a read, or for a close callback -/
  waits : w.status = .suspended →
    (w.reading = true ∧ w.activeRead = true ∧ w.continuation = some 0) ∨
      ∃ h, (w.conn h).close.phase = .closing ∧ (w.conn h).close.callbackWaiter = some 0 ∧
        .failed (.accept h) ∈ w.log
  safe : w.fault = false

theorem adoptLoop_result (v : World) (rounds : Nat → Round) :
    ∃ x, ∀ fuel, v.pending.length < fuel → World.adoptLoop fuel rounds v false = some x := by
  obtain ⟨x, hx⟩ : ∃ x, World.adoptLoop (v.pending.length + 1) rounds v false = some x :=
    World.adoptLoop_some (Nat.lt_succ_self v.pending.length)
  refine ⟨x, fun fuel hfuel => ?_⟩
  have hmono := World.adoptLoop_mono hx (fuel - (v.pending.length + 1))
  rwa [show v.pending.length + 1 + (fuel - (v.pending.length + 1)) = fuel by omega] at hmono

/-- Two reads bring three handles; the third cannot be accepted. -/
def thirdRefused : List Act :=
  [.await {}, .alloc, .read 3 [] fun _ => {}, .alloc,
    .read 2 [⟨7, true⟩, ⟨8, true⟩, ⟨9, true⟩] fun i => if i = 2 then { accept := -24 } else {},
    .closeCallback 0, .closeCallback 2]

end Receive
