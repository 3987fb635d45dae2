import Mathlib.Data.List.Count
import Mathlib.Data.List.Nodup
import Uvpp.Machine.Count
import Uvpp.Stream.Moves

/-!
# What the two flags of a stream say

The invariant counts: the writes libuv holds on a record are as many as its write flag says, those
that pass a record's handle on as many as its export flag says.

* `Inv.submits`, `Inv.completes`, `Inv.frame`   what the moves do to the counts;
* `step_inv`       the invariant;
* `flags_exact`    the contract of the two flags, for every run.
-/

namespace StreamWrite
open Errno

open World

variable {cfg : Config} {w w' : World} {x : Awaiter} {i j : Nat}

/-- write `k` on record `i` is submitted and not yet completed -/
def InFlight (log : List Event) (k i : Nat) (pin : Option Nat) : Prop :=
  .submitted k i pin ∈ log ∧ ∀ s, .completed k s ∉ log

/-! ## The invariant -/

/-- the write that an entry of the history is about -/
def Event.writeId : Event → Option Nat
  | .submitted k _ _ | .completed k _ => some k
  | _ => none

/-- a writer resumed with its flags cleared, a handle closed while it was not passed on -/
def Clean (cfg : Config) (log : List Event) : Event → Prop
  | .resumed k b e => ∃ i pin, .submitted k i pin ∈ log ∧ b = false ∧ e = pin.map fun _ => false
  | .uvClose i b => cfg.kind i = .tcp → b = false
  | _ => True

structure Inv (cfg : Config) (w : World) : Prop where
  writes : ∀ i, w.pending.countP (fun x => decide (x.state = some i))
    = (w.streams i).writeActive.toNat
  exports : ∀ j, w.pending.countP (fun x => decide (x.pin = some j))
    = (w.streams j).handleExportActive.toNat
  formed : ∀ x ∈ w.pending, x.pinAcquired = x.pin.isSome ∧ x.state.isSome = true
  ids : (w.pending.map Awaiter.id).Nodup
  flight : ∀ k i pin, InFlight w.log k i pin ↔
    ∃ x ∈ w.pending, x.id = k ∧ x.state = some i ∧ x.pin = pin
  fresh : ∀ e ∈ w.log, ∀ k, e.writeId = some k → k < w.next
  exportable : ∀ j, (w.streams j).handleExportActive = true → Exportable cfg w j
  receives : ∀ i, Receives cfg (w.streams i) i
  clean : ∀ e ∈ w.log, Clean cfg w.log e
  sound : w.fault = false

theorem inv_init : Inv cfg (sys cfg).init where
  writes := fun _ => rfl
  exports := fun _ => rfl
  formed := nofun
  ids := List.nodup_nil
  flight := fun _ _ _ => ⟨fun h => (List.not_mem_nil h.1).elim, nofun⟩
  fresh := nofun
  exportable := nofun
  receives := fun _ => nofun
  clean := nofun
  sound := rfl

theorem Clean.mono {log log' : List Event} {e : Event} (hsub : log ⊆ log') (h : Clean cfg log e) :
    Clean cfg log' e := by
  cases e with
  | resumed k b ex =>
    obtain ⟨i, pin, hmem, hrest⟩ := h
    exact ⟨i, pin, hsub hmem, hrest⟩
  | submitted k i pin => trivial
  | rejected k o => trivial
  | completed k s => trivial
  | uvClose i b => exact h

/-- entries about no write leave the writes in flight as they are -/
theorem inFlight_append {log es : List Event} (hes : ∀ e ∈ es, e.writeId = none) (k i : Nat)
    (pin : Option Nat) : InFlight (log ++ es) k i pin ↔ InFlight log k i pin := by
  have hnew : ∀ e, e.writeId = some k → (e ∈ log ++ es ↔ e ∈ log) := fun e he => by
    refine ⟨fun hmem => ?_, List.mem_append_left _⟩
    refine (List.mem_append.mp hmem).resolve_right fun hmem' => ?_
    rw [hes e hmem'] at he
    cases he
  unfold InFlight
  rw [hnew _ rfl]
  exact and_congr_right fun _ => forall_congr' fun s => not_congr (hnew _ rfl)

theorem Inv.pending_lt (h : Inv cfg w) (hx : x ∈ w.pending) : x.id < w.next := by
  obtain ⟨i, hi⟩ := Option.isSome_iff_exists.mp (h.formed x hx).2
  exact h.fresh _ ((h.flight x.id i x.pin).mpr ⟨x, hx, rfl, hi, rfl⟩).1 _ rfl

/-- a step that neither changes a flag nor submits or completes a write -/
theorem Inv.frame (h : Inv cfg w) (hs : Still cfg w w') (hnext : w.next ≤ w'.next)
    {es : List Event} (hlog : w'.log = w.log ++ es) (hid : ∀ e ∈ es, e.writeId = none)
    (hclean : ∀ e ∈ es, Clean cfg w'.log e) : Inv cfg w' where
  writes := fun i => by rw [hs.pending, hs.write, h.writes]
  exports := fun j => by rw [hs.pending, hs.exported, h.exports]
  formed := fun x hx => h.formed x (hs.pending ▸ hx)
  ids := by rw [hs.pending]; exact h.ids
  flight := fun k i pin => by rw [hlog, hs.pending, inFlight_append hid, h.flight]
  fresh := fun e he k hk => by
    rw [hlog] at he
    rcases List.mem_append.mp he with he | he
    · exact (h.fresh e he k hk).trans_le hnext
    · rw [hid e he] at hk
      cases hk
  exportable := fun j hj => by
    rw [hs.exported] at hj
    exact ⟨hs.held j hj (h.exportable j hj).owner, (h.exportable j hj).kind⟩
  receives := fun i => hs.reads i (h.receives i)
  clean := fun e he => by
    rcases List.mem_append.mp (hlog ▸ he) with he | he
    · exact (h.clean e he).mono (hlog ▸ List.subset_append_left _ _)
    · exact hclean e he
  sound := hs.fault.trans h.sound

theorem Inv.quiet (h : Inv cfg w) (hq : Quiet cfg w w') : Inv cfg w' := by
  obtain ⟨es, hlog, hok⟩ := hq.log
  refine h.frame hq.toStill hq.next.ge hlog (fun e he => ?_) (fun e he => ?_)
  · obtain ⟨i, b, rfl, -⟩ := hok e he
    rfl
  · obtain ⟨i, b, rfl, hb⟩ := hok e he
    exact hb

theorem Inv.reject (h : Inv cfg w) (o : Outcome) : Inv cfg (w.reject o) := by
  refine h.frame (.of_streams rfl rfl rfl) (Nat.le_succ _) rfl (fun e he => ?_) (fun e he => ?_)
  · rw [List.mem_singleton.mp he]
    rfl
  · rw [List.mem_singleton.mp he]
    trivial

theorem Inv.submits (h : Inv cfg w) (hs : Submits cfg w x i w') : Inv cfg w' where
  writes := fun m => by
    rw [hs.pending, List.countP_append, List.countP_singleton, h.writes, hs.write]
    by_cases hm : x.state = some m
    · have hmi : m = i := Option.some.inj (hm.symm.trans hs.state)
      rw [hmi, hs.free, ← hmi]
      simp [hm]
    · simp [hm]
  exports := fun m => by
    rw [hs.pending, List.countP_append, List.countP_singleton, h.exports, hs.exported]
    by_cases hm : x.pin = some m
    · simp [hm, (hs.source m hm).1]
    · simp [hm]
  formed := fun y hy => by
    rcases List.mem_append.mp (hs.pending ▸ hy) with hy | hy
    · exact h.formed y hy
    · rw [List.mem_singleton.mp hy, hs.state]
      exact ⟨hs.acquired, rfl⟩
  ids := by
    rw [hs.pending, List.map_append, List.nodup_append]
    refine ⟨h.ids, List.nodup_singleton _, fun a ha b hb hab => ?_⟩
    obtain ⟨y, hy, rfl⟩ := List.mem_map.mp ha
    have hlt := h.pending_lt hy
    rw [hab, List.mem_singleton.mp hb] at hlt
    exact (hs.id ▸ hlt).false
  flight := fun k m pin => by
    rw [hs.log, hs.pending]
    -- call numbers are new: the history has no other entry about this write
    have hnew : ∀ e ∈ w.log, e.writeId ≠ some w.next := fun e he hk =>
      (h.fresh e he _ hk).false
    constructor
    · rintro ⟨hsub, hcompl⟩
      rcases List.mem_append.mp hsub with hold | hnow
      · obtain ⟨y, hy, hrest⟩ := (h.flight k m pin).mp
          ⟨hold, fun s hmem => hcompl s (List.mem_append_left _ hmem)⟩
        exact ⟨y, List.mem_append_left _ hy, hrest⟩
      · cases List.mem_singleton.mp hnow
        exact ⟨x, List.mem_append_right _ (List.mem_singleton_self x), rfl, hs.state, rfl⟩
    · rintro ⟨y, hy, rfl, hstate, rfl⟩
      rcases List.mem_append.mp hy with hy | hy
      · obtain ⟨hsub, hcompl⟩ := (h.flight y.id m y.pin).mpr ⟨y, hy, rfl, hstate, rfl⟩
        refine ⟨List.mem_append_left _ hsub, fun s hmem => ?_⟩
        rcases List.mem_append.mp hmem with hmem | hmem
        · exact hcompl s hmem
        · cases List.mem_singleton.mp hmem
      · rw [List.mem_singleton.mp hy] at hstate ⊢
        cases hs.state.symm.trans hstate
        refine ⟨List.mem_append_right _ (List.mem_singleton_self _), fun s hmem => ?_⟩
        rcases List.mem_append.mp hmem with hmem | hmem
        · exact hnew _ hmem (congrArg some hs.id)
        · cases List.mem_singleton.mp hmem
  fresh := fun e he k hk => by
    rw [hs.next]
    rcases List.mem_append.mp (hs.log ▸ he) with he | he
    · exact (h.fresh e he k hk).trans (Nat.lt_succ_self _)
    · rw [List.mem_singleton.mp he] at hk
      cases hk
      exact hs.id ▸ Nat.lt_succ_self _
  exportable := fun m hm => by
    rw [hs.exported, Bool.or_eq_true, decide_eq_true_eq] at hm
    have hold : Exportable cfg w m := hm.elim (fun hpin => (hs.source m hpin).2) (h.exportable m)
    exact ⟨(hs.owner m).trans hold.owner, hold.kind⟩
  receives := fun m r hr => h.receives m r (hs.activeRead m ▸ hr)
  clean := fun e he => by
    rcases List.mem_append.mp (hs.log ▸ he) with he | he
    · exact (h.clean e he).mono (hs.log ▸ List.subset_append_left _ _)
    · rw [List.mem_singleton.mp he]
      trivial
  sound := hs.fault.trans h.sound

theorem Inv.pending_nodup (h : Inv cfg w) : w.pending.Nodup := h.ids.of_map _

/-- the records that a write in libuv's hands names -/
theorem Inv.exported_of_pending (h : Inv cfg w) (hx : x ∈ w.pending) (hpin : x.pin = some j) :
    (w.streams j).handleExportActive = true := by
  have hcount : 0 < w.pending.countP fun y => decide (y.pin = some j) :=
    List.countP_pos_iff.mpr ⟨x, hx, decide_eq_true hpin⟩
  rw [h.exports] at hcount
  exact eq_true_of_toNat_pos hcount

theorem Inv.writing_of_pending (h : Inv cfg w) (hx : x ∈ w.pending) (hstate : x.state = some i) :
    (w.streams i).writeActive = true := by
  have hcount : 0 < w.pending.countP fun y => decide (y.state = some i) :=
    List.countP_pos_iff.mpr ⟨x, hx, decide_eq_true hstate⟩
  rw [h.writes] at hcount
  exact eq_true_of_toNat_pos hcount

theorem Inv.eq_of_id (h : Inv cfg w) {y : Awaiter} (hx : x ∈ w.pending) (hy : y ∈ w.pending)
    (hid : y.id = x.id) : y = x := List.inj_on_of_nodup_map h.ids hy hx hid

/-- a completion takes its write out of flight and no other -/
theorem inFlight_completed {log : List Event} {status : Int} {b : Bool} {e : Option Bool}
    (c k m : Nat) (pin : Option Nat) :
    InFlight (log ++ [.completed c status, .resumed c b e]) k m pin ↔
      InFlight log k m pin ∧ k ≠ c := by
  constructor
  · rintro ⟨hsub, hcompl⟩
    refine ⟨⟨?_, fun s hmem => hcompl s (List.mem_append_left _ hmem)⟩, ?_⟩
    · simpa using hsub
    · rintro rfl
      exact hcompl status (by simp)
  · rintro ⟨⟨hsub, hcompl⟩, hne⟩
    refine ⟨List.mem_append_left _ hsub, fun s hmem => ?_⟩
    rcases List.mem_append.mp hmem with hmem | hmem
    · exact hcompl s hmem
    · simp only [List.mem_cons, Event.completed.injEq, reduceCtorEq, List.not_mem_nil,
        or_false] at hmem
      exact hne hmem.1

theorem Inv.completes (h : Inv cfg w) (hx : x ∈ w.pending) {status : Int}
    (hc : Completes w x status w') : Inv cfg w' where
  writes := fun m => by
    rw [hc.pending, List.countP_erase, h.writes, hc.write]
    by_cases hm : x.state = some m
    · simp [hm, hx, h.writing_of_pending hx hm]
    · simp [hm]
  exports := fun m => by
    rw [hc.pending, List.countP_erase, h.exports, hc.exported]
    by_cases hm : x.pin = some m
    · simp [hm, hx, h.exported_of_pending hx hm]
    · simp [hm]
  formed := fun y hy => h.formed y (List.mem_of_mem_erase (hc.pending ▸ hy))
  ids := by
    rw [hc.pending]
    exact h.ids.sublist (List.erase_sublist.map _)
  flight := fun k m pin => by
    rw [hc.log, hc.pending, inFlight_completed, h.flight]
    constructor
    · rintro ⟨⟨y, hy, rfl, hrest⟩, hne⟩
      have hyx : y ≠ x := fun hyx => hne (congrArg Awaiter.id hyx)
      exact ⟨y, (h.pending_nodup.mem_erase_iff).mpr ⟨hyx, hy⟩, rfl, hrest⟩
    · rintro ⟨y, hy, rfl, hrest⟩
      obtain ⟨hyx, hy⟩ := (h.pending_nodup.mem_erase_iff).mp hy
      exact ⟨⟨y, hy, rfl, hrest⟩, fun hid => hyx (h.eq_of_id hx hy hid)⟩
  fresh := fun e he k hk => by
    rw [hc.next]
    rcases List.mem_append.mp (hc.log ▸ he) with he | he
    · exact h.fresh e he k hk
    · simp only [List.mem_cons, List.not_mem_nil, or_false] at he
      rcases he with rfl | rfl
      · cases hk
        exact h.pending_lt hx
      · cases hk
  exportable := fun m hm => by
    rw [hc.exported, Bool.and_eq_true] at hm
    have hold := h.exportable m hm.2
    exact ⟨(hc.owner m).trans hold.owner, hold.kind⟩
  receives := fun m r hr => h.receives m r (hc.activeRead m ▸ hr)
  clean := fun e he => by
    rcases List.mem_append.mp (hc.log ▸ he) with he | he
    · exact (h.clean e he).mono (hc.log ▸ List.subset_append_left _ _)
    · simp only [List.mem_cons, List.not_mem_nil, or_false] at he
      rcases he with rfl | rfl
      · trivial
      · obtain ⟨i, hi⟩ := Option.isSome_iff_exists.mp (h.formed x hx).2
        have hsub := ((h.flight x.id i x.pin).mpr ⟨x, hx, rfl, hi, rfl⟩).1
        exact ⟨i, x.pin, hc.log ▸ List.mem_append_left _ hsub, rfl, rfl⟩
  sound := hc.fault.trans h.sound

/-! ## Every step -/

theorem destroy_move (h : Inv cfg w) (i : Nat) : Move cfg w (w.destroy cfg i) := by
  unfold World.destroy
  split_ifs with hactive
  · exact .quiet ⟨.of_streams rfl rfl rfl, rfl, [], (List.append_nil _).symm, nofun⟩
  · have hidle : w.hasActiveOperation cfg i = false := by simpa using hactive
    refine .quiet (Quiet.releaseOwner ?_)
    by_contra hexported
    rw [Bool.not_eq_false] at hexported
    rw [not_exported_of_idle hidle (h.exportable i hexported).kind] at hexported
    cases hexported

/-- a record that no owner has yet is not passed on -/
theorem Inv.not_exported_of_provisional (h : Inv cfg w) (hi : (w.streams i).owner = .provisional) :
    (w.streams i).handleExportActive = false := by
  by_contra hexported
  rw [Bool.not_eq_false] at hexported
  cases hi.symm.trans (h.exportable i hexported).owner

/-- a receive that fails closes a pipe -/
theorem Inv.pipe_of_receives (h : Inv cfg w)
    (hi : (w.streams i).activeRead.any (·.receives) = true) : cfg.kind i ≠ .tcp := by
  cases hr : (w.streams i).activeRead with
  | none =>
    rw [hr] at hi
    cases hi
  | some r =>
    rw [hr] at hi
    rw [of_decide_eq_true (h.receives i r hr hi)]
    exact nofun

theorem step_move (h : Inv cfg w) (a : Act) (hs : step cfg w a = some w') : Move cfg w w' := by
  unfold step at hs
  replace hs := (Option.ite_none_left_eq_some.mp hs).2
  cases a with
  | adopt i =>
    obtain ⟨hi, hw⟩ := Option.ite_none_right_eq_some.mp hs
    cases hw
    exact .quiet (Quiet.alter rfl rfl (fun _ _ => rfl) id)
  | initFailed i c =>
    obtain ⟨hi, hw⟩ := Option.ite_none_right_eq_some.mp hs
    cases hw
    exact .quiet (Quiet.initFailed (h.not_exported_of_provisional hi) c)
  | write t s len native =>
    obtain ⟨hi, hw⟩ := Option.ite_none_right_eq_some.mp hs
    cases hw
    exact write_move t s len native
  | writeWithHandle t s source len native =>
    obtain ⟨⟨-, hheld, -, htcp⟩, hw⟩ := Option.ite_none_right_eq_some.mp hs
    cases hw
    exact writeWithHandle_move t s hheld htcp len native
  | complete k status =>
    obtain ⟨x, hx, hw⟩ := Option.map_eq_some_iff.mp hs
    exact .completed x status (List.mem_of_find?_eq_some hx) hw.symm
  | readSome t s empty native =>
    obtain ⟨hi, hw⟩ := Option.ite_none_right_eq_some.mp hs
    cases hw
    exact startRead_move t false empty native s
  | receiveHandle t s empty native =>
    obtain ⟨hi, hw⟩ := Option.ite_none_right_eq_some.mp hs
    cases hw
    exact startRead_move t true empty native s
  | onRead i =>
    obtain ⟨hi, hw⟩ := Option.ite_none_right_eq_some.mp hs
    cases hw
    exact .quiet (Quiet.clearRead cfg w i)
  | protocolFailure i =>
    obtain ⟨hi, hw⟩ := Option.ite_none_right_eq_some.mp hs
    cases hw
    exact .quiet (Quiet.closePipeAfterProtocolFailure (h.pipe_of_receives hi))
  | stop t =>
    cases hs
    exact .quiet (Quiet.stop cfg w t)
  | requestClose s =>
    obtain ⟨hi, hw⟩ := Option.ite_none_right_eq_some.mp hs
    cases hw
    exact ownerRequestClose_move s
  | close t s =>
    obtain ⟨hi, hw⟩ := Option.ite_none_right_eq_some.mp hs
    cases hw
    exact awaitClose_move t nofun
  | finish t i =>
    obtain ⟨hi, hw⟩ := Option.ite_none_right_eq_some.mp hs
    cases hw
    exact finishResource_move t i
  | destroy i =>
    obtain ⟨hi, hw⟩ := Option.ite_none_right_eq_some.mp hs
    cases hw
    exact destroy_move h i
  | closeCallback i | closeDelivered i =>
    obtain ⟨hi, hw⟩ := Option.ite_none_right_eq_some.mp hs
    cases hw
    exact .quiet (Quiet.setClose cfg w i _)

/-- what libuv completes is a write in flight -/
theorem Inv.complete_spec (h : Inv cfg w) (hx : x ∈ w.pending) (status : Int) :
    Completes w x status (w.complete x status) := by
  obtain ⟨hacq, hstate⟩ := h.formed x hx
  obtain ⟨i, hi⟩ := Option.isSome_iff_exists.mp hstate
  exact complete_completes hi hacq (fun j hj => h.exported_of_pending hx hj) status

theorem step_inv (w : World) (a : Act) (w' : World) (h : Inv cfg w)
    (hs : step cfg w a = some w') : Inv cfg w' := by
  rcases step_move h a hs with hq | ⟨o, rfl⟩ | ⟨x, i, hsub⟩ | ⟨x, status, hx, rfl⟩
  · exact h.quiet hq
  · exact h.reject o
  · exact h.submits hsub
  · exact h.completes hx (h.complete_spec hx status)

/-! ## The contract -/

/-- a flag that is set exactly while one number has the property, and no more than one ever has -/
structure Marks (flag : Bool) (P : Nat → Prop) : Prop where
  exactly_one : flag = true ↔ ∃! k, P k
  none : flag = false → ∀ k, ¬ P k

/-- a write on record `i` that passes on the handle of `pin`, as a call -/
def writing (t : Task) (i : Nat) (pin : Option Nat) (length : Nat) (native : Int) : Act :=
  match pin with
  | none => .write t (some i) length native
  | some j => .writeWithHandle t (some i) (some j) length native

/-- why a write is turned down -/
inductive Refused (cfg : Config) (w : World) (t : Task) (i : Nat) (pin : Option Nat)
    (native : Int) : Prop where
  | closing (h : (w.streams i).closing = true)
  | busy (h : (w.streams i).writeActive = true)
  | wrongLoop (h : cfg.taskLoop t ≠ cfg.loop i)
  | sourceClosing (j : Nat) (hj : pin = some j) (h : (w.streams j).closing = true)
  | sourceBusy (j : Nat) (hj : pin = some j) (h : (w.streams j).handleExportActive = true)
  | sourceWrongLoop (j : Nat) (hj : pin = some j) (h : cfg.taskLoop t ≠ cfg.loop j)
  | notIpc (hj : pin.isSome = true) (h : cfg.kind i ≠ .pipe true)
  | stopped (h : w.stopped t = true)
  | notSubmitted (h : native < 0)

/-- the two flags in a state of the machine -/
structure FlagContract (cfg : Config) (w : World) : Prop where
  exported : ∀ j, Marks (w.streams j).handleExportActive fun k => ∃ i, InFlight w.log k i (some j)
  written : ∀ i, Marks (w.streams i).writeActive fun k => ∃ pin, InFlight w.log k i pin
  rejected : ∀ a w' k o, step cfg w a = some w' → w'.log = w.log ++ [.rejected k o] →
    w'.streams = w.streams
  refused : ∀ t i pin length native w', step cfg w (writing t i pin length native) = some w' →
    Refused cfg w t i pin native →
      w'.streams = w.streams ∧ ∃ o, w'.log = w.log ++ [.rejected w.next o]
  resumed : ∀ k b e, .resumed k b e ∈ w.log →
    ∃ i pin, .submitted k i pin ∈ w.log ∧ b = false ∧ e = pin.map fun _ => false
  closed : ∀ j b, .uvClose j b ∈ w.log → cfg.kind j = .tcp → b = false
  sound : w.fault = false

theorem marks {p : Awaiter → Bool} {flag : Bool} {P : Nat → Prop}
    (hcount : w.pending.countP p = flag.toNat)
    (hP : ∀ k, P k ↔ ∃ x ∈ w.pending, x.id = k ∧ p x = true) : Marks flag P := by
  have hone : w.pending.countP p ≤ 1 := hcount ▸ Bool.toNat_le flag
  have hset : ∀ k, P k → flag = true := fun k hk => by
    obtain ⟨x, hx, -, hpx⟩ := (hP k).mp hk
    exact eq_true_of_toNat_pos (hcount ▸ List.countP_pos_iff.mpr ⟨x, hx, hpx⟩)
  refine ⟨⟨fun hflag => ?_, fun ⟨k, hk, _⟩ => hset k hk⟩, fun hflag k hk => ?_⟩
  · have hpos : 0 < w.pending.countP p := by
      rw [hcount, hflag]
      exact Nat.one_pos
    obtain ⟨x, hx, hpx⟩ := List.countP_pos_iff.mp hpos
    refine ⟨x.id, (hP _).mpr ⟨x, hx, rfl, hpx⟩, fun k hk => ?_⟩
    obtain ⟨y, hy, rfl, hpy⟩ := (hP k).mp hk
    rw [eq_of_countP_le_one hone hy hx hpy hpx]
  · rw [hset k hk] at hflag
    cases hflag

theorem Inv.marks_exported (h : Inv cfg w) (j : Nat) :
    Marks (w.streams j).handleExportActive fun k => ∃ i, InFlight w.log k i (some j) := by
  refine marks (h.exports j) fun k => ⟨?_, ?_⟩
  · rintro ⟨i, hi⟩
    obtain ⟨x, hx, hid, -, hpin⟩ := (h.flight k i (some j)).mp hi
    exact ⟨x, hx, hid, decide_eq_true hpin⟩
  · rintro ⟨x, hx, hid, hpin⟩
    obtain ⟨i, hi⟩ := Option.isSome_iff_exists.mp (h.formed x hx).2
    exact ⟨i, (h.flight k i (some j)).mpr ⟨x, hx, hid, hi, of_decide_eq_true hpin⟩⟩

theorem Inv.marks_written (h : Inv cfg w) (i : Nat) :
    Marks (w.streams i).writeActive fun k => ∃ pin, InFlight w.log k i pin := by
  refine marks (h.writes i) fun k => ⟨?_, ?_⟩
  · rintro ⟨pin, hpin⟩
    obtain ⟨x, hx, hid, hi, -⟩ := (h.flight k i pin).mp hpin
    exact ⟨x, hx, hid, decide_eq_true hi⟩
  · rintro ⟨x, hx, hid, hi⟩
    exact ⟨x.pin, (h.flight k i x.pin).mpr ⟨x, hx, hid, of_decide_eq_true hi, rfl⟩⟩

/-- a step that turns a call down does nothing else -/
theorem Inv.streams_of_rejected (h : Inv cfg w) {a : Act} {k : Nat} {o : Outcome}
    (hs : step cfg w a = some w') (hlog : w'.log = w.log ++ [.rejected k o]) :
    w'.streams = w.streams := by
  rcases step_move h a hs with hq | ⟨o', rfl⟩ | ⟨x, i, hsub⟩ | ⟨x, status, hx, rfl⟩
  · obtain ⟨es, hes, hok⟩ := hq.log
    have hmem : Event.rejected k o ∈ es := by
      rw [List.append_cancel_left (hes.symm.trans hlog)]
      exact List.mem_singleton_self _
    obtain ⟨i, b, hne, -⟩ := hok _ hmem
    cases hne
  · rfl
  · cases List.append_cancel_left (hsub.log.symm.trans hlog)
  · cases List.append_cancel_left ((h.complete_spec hx status).log.symm.trans hlog)

/-- no reason to turn a write down is left once it has passed the checks -/
theorem Accepts.not_refused {t : Task} {native : Int} (h : Accepts cfg t native w x i)
    (hstatus : x.pin.isSome = true → cfg.ipc i = false → x.handleSubmissionStatus < 0) :
    ¬ Refused cfg w t i x.pin native := by
  rintro (hr | hr | hr | ⟨j, hj, hr⟩ | ⟨j, hj, hr⟩ | ⟨j, hj, hr⟩ | ⟨hj, hr⟩ | hr | hr)
  · exact Bool.false_ne_true (h.opened.symm.trans hr)
  · exact Bool.false_ne_true (h.free.symm.trans hr)
  · exact hr h.loop
  · exact Bool.false_ne_true ((h.pin j hj).opened.symm.trans hr)
  · exact Bool.false_ne_true ((h.pin j hj).free.symm.trans hr)
  · exact hr (h.pin j hj).loop
  · exact h.status (hstatus hj (decide_eq_false hr))
  · exact Bool.false_ne_true (h.running.symm.trans hr)
  · exact h.native hr

theorem await_refused {t : Task} {native : Int} (hx : x.pinAcquired = false)
    (hi : x.state = some i)
    (hstatus : x.pin.isSome = true → cfg.ipc i = false → x.handleSubmissionStatus < 0)
    (hr : Refused cfg w t i x.pin native) : ∃ o, w.await cfg t native x = w.reject o := by
  obtain ⟨o, hs, ho⟩ | ⟨i', hi', hs⟩ := awaitSuspend_spec cfg t native w x hx
  · exact ⟨o, await_of_rejected hs ho⟩
  · cases hi.symm.trans hi'.state
    exact absurd hr (hi'.not_refused hstatus)

/-- each of the reasons turns the write down -/
theorem writing_refused {t : Task} {pin : Option Nat} {length : Nat} {native : Int}
    (hs : step cfg w (writing t i pin length native) = some w')
    (hr : Refused cfg w t i pin native) : ∃ o, w' = w.reject o := by
  unfold step at hs
  replace hs := (Option.ite_none_left_eq_some.mp hs).2
  cases pin with
  | none =>
    obtain ⟨-, hw⟩ := Option.ite_none_right_eq_some.mp hs
    cases hw
    unfold World.write
    split_ifs
    · exact ⟨_, rfl⟩
    · exact await_refused rfl rfl nofun hr
  | some j =>
    obtain ⟨-, hw⟩ := Option.ite_none_right_eq_some.mp hs
    cases hw
    unfold World.writeWithHandle
    split_ifs
    · exact ⟨_, rfl⟩
    · refine await_refused rfl rfl (fun _ hipc => ?_) hr
      simp only [hipc, Bool.false_eq_true, if_false]
      decide

theorem Inv.contract (h : Inv cfg w) : FlagContract cfg w where
  exported := h.marks_exported
  written := h.marks_written
  rejected := fun a w' k o hs hlog => h.streams_of_rejected hs hlog
  refused := fun t i pin length native w' hs hr => by
    obtain ⟨o, rfl⟩ := writing_refused hs hr
    exact ⟨rfl, o, rfl⟩
  resumed := fun k b e he => h.clean _ he
  closed := fun j b he => h.clean _ he
  sound := h.sound

/-- In every run the export flag of a TCP connection says that exactly one write in flight passes
its handle on, the write flag of a connection that exactly one write on it is in flight.  Calls
that are turned down leave the flags alone, writers are resumed after both were cleared, and no
TCP connection is closed while its export flag is set. -/
theorem flags_exact (cfg : Config) (as : List Act) (w : World)
    (hrun : (sys cfg).run (sys cfg).init as = some w) : FlagContract cfg w :=
  (Sys.run_inv (S := sys cfg) step_inv inv_init hrun).contract

/-- a TCP connection 0, IPC pipes 1 and 2, a plain pipe 3; task 7 is on another loop -/
def oneSource : Config where
  kind := fun i => if i = 0 then .tcp else .pipe (decide (i < 3))
  loop := fun _ => 0
  taskLoop := fun t => if t = 7 then 1 else 0
  maxLength := 100

/-- the connection is passed on over pipe 1, cannot be passed on again, written over or closed
until that write is completed, and is closed then -/
def passOnRun : List Act :=
  [.adopt 0, .adopt 1, .adopt 2, .adopt 3,
   .writeWithHandle 4 (some 1) (some 0) 5 0,
   .writeWithHandle 5 (some 2) (some 0) 5 0, .writeWithHandle 5 (some 3) (some 0) 5 0,
   .write 5 (some 1) 5 0, .write 7 (some 2) 5 0, .stop 4, .requestClose (some 0),
   .complete 0 0, .write 4 (some 1) 5 0, .writeWithHandle 5 (some 2) (some 0) 5 (-32),
   .close 5 (some 0), .closeCallback 0, .write 5 (some 0) 5 0, .destroy 0]

theorem flags_exact_passOnRun :
    ∃ w, (sys oneSource).run (sys oneSource).init passOnRun = some w ∧
      w.log = [.submitted 0 1 (some 0), .rejected 1 (.status ebusy), .rejected 2 (.status einval),
        .rejected 3 (.status ebusy), .rejected 4 .logicError, .rejected 5 (.status ebusy),
        .completed 0 0, .resumed 0 false (some false), .rejected 6 (.status ecanceled),
        .rejected 7 (.status (-32)), .uvClose 0 false, .rejected 8 (.status ebadf)] ∧
      FlagContract oneSource w :=
  ⟨_, rfl, rfl, flags_exact oneSource passOnRun _ rfl⟩

end StreamWrite
