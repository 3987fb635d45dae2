import Uvpp.Poll.Source

/-!
# A poll source polls exactly for its wait

* `Inv`, `step_inv`      native handles, slots and owners in all states;
* `Safe`                 no assignment goes on over a source that polls;
* `Contract`             when the handle polls, whom a notification reaches, what a rejected wait
                         leaves behind;
* `polling_iff`          which runs keep the contract in all their states.
-/

namespace PollSource
open Wait (Source Op Request World Act Config Pending Released resumptions)

/-! ## The invariant -/

structure Inv (cfg : Config) (v : State) : Prop where
  waits : Wait.Inv cfg v.world
  native : ∀ s, cfg.family s = .poll → v.native s = expected v.asked (v.world.src s).slot
  held : ∀ x s, v.holds x = some s → cfg.family s = .poll ∧ v.made s = true
  owned : ∀ x y s, v.holds x = some s → v.holds y = some s → x = y
  gone : ∀ s, v.deleted s = true → cfg.family s = .poll ∧ v.made s = true ∧
    (v.world.src s).slot = none ∧ ∀ x, v.holds x ≠ some s

/-- the owner that is assigned to is empty, or its source does not poll -/
def Safe (v : State) : Action → Prop
  | .goOn =>
    match v.assigning with
    | (_, x, _) :: _ => ∀ s ∈ v.holds x, v.native s = none
    | [] => True
  | _ => True

instance (v : State) (a : Action) : Decidable (Safe v a) := by
  unfold Safe
  split
  · split <;> infer_instance
  · infer_instance

section
variable {cfg : Config} {v v' : State}

theorem inv_init (cfg : Config) : Inv cfg (sys cfg).init :=
  ⟨Wait.inv_init cfg, fun _ _ => rfl, nofun, nofun, nofun⟩

theorem perform_inv (h : Inv cfg v) {a : Act} (hs : v.perform cfg a = some v')
    (ha : ∀ q, a = .await q → cfg.family q.source = .poll →
      v.asked q.op = q.events ∧ v.deleted q.source = false) : Inv cfg v' := by
  obtain ⟨w, hw, rfl⟩ := Option.map_eq_some_iff.mp hs
  have hwaits : Wait.Inv cfg w := Wait.moved_inv h.waits (Wait.step_moved h.waits hw)
  refine ⟨hwaits, fun s hf => ?_, h.held, h.owned, fun s hd => ?_⟩
  · by_cases ht : a.target v.world = some s
    · have hasked : ∀ q, a = .await q → v.asked q.op = q.events := by
        rintro q rfl
        cases ht
        exact (ha q rfl hf).1
      have htarget := step_target h.waits hw ht hf hasked
      cases hcall : nativeCall cfg v.world a with
      | none =>
        rw [hcall] at htarget
        dsimp only at htarget ⊢
        rw [h.native s hf, htarget]
      | some p =>
        obtain ⟨s', c⟩ := p
        have hs' : s' = s := Option.some.inj ((nativeCall_target hcall).symm.trans ht)
        subst hs'
        rw [hcall] at htarget
        dsimp only at htarget ⊢
        rw [Function.update_self, htarget]
    · have hsrc := Wait.step_confined hw ht
      cases hcall : nativeCall cfg v.world a with
      | none =>
        dsimp only
        rw [h.native s hf, hsrc]
      | some p =>
        obtain ⟨s', c⟩ := p
        have hne : s ≠ s' := by
          rintro rfl
          exact ht (nativeCall_target hcall)
        dsimp only
        rw [Function.update_of_ne hne, h.native s hf, hsrc]
  · obtain ⟨hf, hm, hslot, hx⟩ := h.gone s hd
    refine ⟨hf, hm, step_slot_none h.waits hw hf hslot fun q hq hqs => ?_, hx⟩
    have hdel := (ha q hq (hqs ▸ hf)).2
    rw [hqs, hd] at hdel
    cases hdel

/-- an owner gives its source away -/
theorem Inv.clear (h : Inv cfg v) (x : Owner) (k : List (Nat × Owner × Owner)) :
    Inv cfg { v with holds := Function.update v.holds x none, assigning := k } := by
  have hsub : ∀ y s, Function.update v.holds x none y = some s → v.holds y = some s := by
    intro y s hy
    by_cases hyx : y = x
    · rw [hyx, Function.update_self] at hy
      cases hy
    · rwa [Function.update_of_ne hyx] at hy
  refine ⟨h.waits, h.native, fun y s hy => h.held y s (hsub y s hy), fun y z s hy hz => ?_,
    fun s hd => ?_⟩
  · exact h.owned y z s (hsub y s hy) (hsub z s hz)
  · obtain ⟨hf, hm, hslot, hx⟩ := h.gone s hd
    exact ⟨hf, hm, hslot, fun y hy => hx y (hsub y s hy)⟩

/-- the source of `y` goes to `x` -/
theorem moveState_inv (h : Inv cfg v) (x y : Owner) : Inv cfg (v.moveState x y) := by
  -- every source is held as before, only `x` stands for `y`
  have hsub : ∀ z s, (v.moveState x y).holds z = some s →
      z ≠ y ∧ v.holds (if z = x then y else z) = some s := by
    intro z s hz
    replace hz : Function.update (Function.update v.holds x (v.holds y)) y none z = some s := hz
    by_cases hzy : z = y
    · rw [hzy, Function.update_self] at hz
      cases hz
    · refine ⟨hzy, ?_⟩
      rw [Function.update_of_ne hzy] at hz
      by_cases hzx : z = x
      · rw [if_pos hzx]
        rwa [hzx, Function.update_self] at hz
      · rw [if_neg hzx]
        rwa [Function.update_of_ne hzx] at hz
  refine ⟨h.waits, h.native, fun z s hz => h.held _ s (hsub z s hz).2, fun z z' s hz hz' => ?_,
    fun s hd => ?_⟩
  · obtain ⟨hzy, hz⟩ := hsub z s hz
    obtain ⟨hzy', hz'⟩ := hsub z' s hz'
    have heq := h.owned _ _ s hz hz'
    by_cases hzx : z = x <;> by_cases hzx' : z' = x
    · rw [hzx, hzx']
    · rw [if_pos hzx, if_neg hzx'] at heq
      exact absurd heq.symm hzy'
    · rw [if_neg hzx, if_pos hzx'] at heq
      exact absurd heq hzy
    · rwa [if_neg hzx, if_neg hzx'] at heq
  · obtain ⟨hf, hm, hslot, hx'⟩ := h.gone s hd
    exact ⟨hf, hm, hslot, fun z hz => hx' _ (hsub z s hz).2⟩

theorem deleteState_inv (h : Inv cfg v) {x : Owner} (hx : ∀ s ∈ v.holds x, v.native s = none) :
    Inv cfg (v.deleteState x) := by
  unfold State.deleteState
  cases hs : v.holds x with
  | none => exact h
  | some s =>
    dsimp only
    have hc := h.clear x v.assigning
    refine ⟨hc.waits, hc.native, hc.held, hc.owned, fun s' hd => ?_⟩
    by_cases hss : s' = s
    · subst hss
      obtain ⟨hf, hm⟩ := h.held x s' hs
      have hslot : (v.world.src s').slot = none :=
        Option.map_eq_none_iff.mp ((h.native s' hf).symm.trans (hx s' hs))
      refine ⟨hf, hm, hslot, fun y hy => ?_⟩
      dsimp only at hy
      by_cases hyx : y = x
      · rw [hyx, Function.update_self] at hy
        cases hy
      · rw [Function.update_of_ne hyx] at hy
        exact hyx (h.owned y x s' hy hs)
    · dsimp only at hd
      rw [Function.update_of_ne hss] at hd
      exact hc.gone s' hd

theorem goOn_cases (hs : v.goOn = some v') : ∃ d x y k, v.assigning = (d, x, y) :: k ∧
    v' = ({ v with assigning := k }.deleteState x).moveState x y := by
  unfold State.goOn at hs
  split at hs
  · cases hs
  rename_i d x y k hk
  obtain ⟨-, hs⟩ := Option.ite_none_right_eq_some.mp hs
  exact ⟨d, x, y, k, hk, (Option.some.inj hs).symm⟩

theorem goOn_world (hs : v.goOn = some v') : v'.world = v.world := by
  obtain ⟨d, x, y, k, -, rfl⟩ := goOn_cases hs
  unfold State.moveState State.deleteState
  dsimp only
  split <;> rfl

theorem goOn_inv (h : Inv cfg v) (hc : Safe v .goOn) (hs : v.goOn = some v') : Inv cfg v' := by
  obtain ⟨d, x, y, k, hk, rfl⟩ := goOn_cases hs
  rw [Safe, hk] at hc
  have h0 : Inv cfg { v with assigning := k } := ⟨h.waits, h.native, h.held, h.owned, h.gone⟩
  exact moveState_inv (deleteState_inv h0 hc) x y

/-- the wait of `q` asks for its mask -/
theorem Inv.ask (h : Inv cfg v) {q : Request} (ho : (v.world.op q.op).status = .fresh) :
    Inv cfg { v with asked := Function.update v.asked q.op q.events } := by
  refine ⟨h.waits, fun s hf => ?_, h.held, h.owned, h.gone⟩
  rw [h.native s hf]
  show expected v.asked _ = expected (Function.update v.asked q.op q.events) _
  cases hs : (v.world.src s).slot with
  | none => rfl
  | some o =>
    have hne : o ≠ q.op := by
      rintro rfl
      rw [h.waits.slot_status hs] at ho
      cases ho
    simp [expected, hne]

/-- `next()` of a moved-from owner -/
theorem Inv.empty (h : Inv cfg v) {q : Request} (ho : (v.world.op q.op).status = .fresh) :
    Inv cfg { v with world := (v.world.begin q).endInline q.op (.error .badf) } := by
  have hm : Wait.Moved cfg v.world ((v.world.begin q).endInline q.op (.error .badf)) :=
    .ofRejected h.waits ho _
  exact ⟨Wait.moved_inv h.waits hm, h.native, h.held, h.owned, h.gone⟩

theorem step_await_fresh {w w' : World} {q : Request}
    (hs : Wait.step cfg w (.await q) = some w') : (w.op q.op).status = .fresh := by
  unfold Wait.step at hs
  split at hs
  · cases hs
  · exact (Option.ite_none_right_eq_some.mp hs).1.2

theorem next_inv (h : Inv cfg v) {x : Owner} {q : Request} (hs : v.next cfg x q = some v') :
    Inv cfg v' := by
  unfold State.next at hs
  split at hs
  · obtain ⟨⟨-, -, ho⟩, hs⟩ := Option.ite_none_right_eq_some.mp hs
    cases hs
    exact h.empty ho
  · rename_i s hx
    obtain ⟨w, hw, -⟩ := Option.map_eq_some_iff.mp hs
    have ho := step_await_fresh (q := { q with source := s }) hw
    refine perform_inv (h.ask ho) hs fun q' hq _ => ?_
    cases hq
    refine ⟨Function.update_self .., ?_⟩
    cases hd : v.deleted s with
    | false => rfl
    | true => exact absurd hx ((h.gone s hd).2.2.2 x)

theorem assign_inv (h : Inv cfg v) {x y : Owner} (hs : v.assign cfg x y = some v') :
    Inv cfg v' := by
  unfold State.assign at hs
  split at hs
  · cases hs
    exact h
  split at hs
  · cases hs
    exact moveState_inv h x y
  · exact perform_inv (h.clear x _) hs nofun

theorem construct_inv (h : Inv cfg v) {x : Owner} {s : Source} (hm : v.made s = false)
    (hf : cfg.family s = .poll) :
    Inv cfg { v with holds := Function.update v.holds x (some s)
                     made := Function.update v.made s true } := by
  have hmade : ∀ s', v.made s' = true → Function.update v.made s true s' = true := by
    intro s' hs'
    by_cases hss : s' = s
    · rw [hss, Function.update_self]
    · rwa [Function.update_of_ne hss]
  -- nobody holds a source that was not made
  have hnew : ∀ y, v.holds y ≠ some s := by
    intro y hy
    rw [(h.held y s hy).2] at hm
    cases hm
  have hsplit : ∀ y s', Function.update v.holds x (some s) y = some s' →
      (y = x ∧ s' = s) ∨ (y ≠ x ∧ v.holds y = some s') := by
    intro y s' hy
    by_cases hyx : y = x
    · rw [hyx, Function.update_self] at hy
      exact .inl ⟨hyx, (Option.some.inj hy).symm⟩
    · rw [Function.update_of_ne hyx] at hy
      exact .inr ⟨hyx, hy⟩
  refine ⟨h.waits, h.native, fun y s' hy => ?_, fun y z s' hy hz => ?_, fun s' hd => ?_⟩
  · rcases hsplit y s' hy with ⟨-, rfl⟩ | ⟨-, hy⟩
    · exact ⟨hf, Function.update_self ..⟩
    · exact ⟨(h.held y s' hy).1, hmade s' (h.held y s' hy).2⟩
  · rcases hsplit y s' hy with ⟨rfl, rfl⟩ | ⟨-, hy'⟩
    · rcases hsplit z s' hz with ⟨rfl, -⟩ | ⟨-, hz'⟩
      · rfl
      · exact absurd hz' (hnew z)
    · rcases hsplit z s' hz with ⟨-, rfl⟩ | ⟨-, hz'⟩
      · exact absurd hy' (hnew y)
      · exact h.owned y z s' hy' hz'
  · obtain ⟨hf', hm', hslot, hx⟩ := h.gone s' hd
    refine ⟨hf', hmade s' hm', hslot, fun y hy => ?_⟩
    rcases hsplit y s' hy with ⟨-, rfl⟩ | ⟨-, hy'⟩
    · rw [hm'] at hm
      cases hm
    · exact hx y hy'

theorem step_inv (h : Inv cfg v) {a : Action} (hc : Safe v a) (hs : v.step cfg a = some v') :
    Inv cfg v' := by
  cases a with
  | goOn => exact goOn_inv h hc hs
  | run a =>
    obtain ⟨-, hs⟩ := Option.ite_none_left_eq_some.mp hs
    obtain ⟨hd, hs⟩ := Option.ite_none_right_eq_some.mp hs
    refine perform_inv h hs fun q hq hf => ?_
    subst hq
    simp [direct, hf] at hd
  | next x q =>
    obtain ⟨-, hs⟩ := Option.ite_none_left_eq_some.mp hs
    exact next_inv h hs
  | requestClose x =>
    obtain ⟨-, hs⟩ := Option.ite_none_left_eq_some.mp hs
    split at hs
    · cases hs
      exact h
    · exact perform_inv h hs nofun
  | construct x s =>
    obtain ⟨-, hs⟩ := Option.ite_none_left_eq_some.mp hs
    obtain ⟨⟨-, -, hm, hf⟩, hs⟩ := Option.ite_none_right_eq_some.mp hs
    cases hs
    exact construct_inv h hm hf
  | assign x y =>
    obtain ⟨-, hs⟩ := Option.ite_none_left_eq_some.mp hs
    obtain ⟨-, hs⟩ := Option.ite_none_right_eq_some.mp hs
    exact assign_inv h hs
  | destroy x =>
    obtain ⟨-, hs⟩ := Option.ite_none_left_eq_some.mp hs
    split at hs
    · cases hs
      exact h
    · exact perform_inv (h.clear x v.assigning) hs nofun

/-- what a step does to the waits -/
theorem step_world {a : Action} (hs : v.step cfg a = some v') :
    v'.world = v.world ∨ (∃ b, Wait.step cfg v.world b = some v'.world) ∨
      ∃ q, v'.world = v.world.rejected q (.error .badf) v.world.src := by
  have hperform : ∀ (u : State) b, u.perform cfg b = some v' → u.world = v.world →
      ∃ b, Wait.step cfg v.world b = some v'.world := by
    intro u b hb hu
    obtain ⟨w, hw, rfl⟩ := Option.map_eq_some_iff.mp hb
    exact ⟨b, hu ▸ hw⟩
  cases a with
  | goOn => exact .inl (goOn_world hs)
  | run a =>
    obtain ⟨-, hs⟩ := Option.ite_none_left_eq_some.mp hs
    obtain ⟨-, hs⟩ := Option.ite_none_right_eq_some.mp hs
    exact .inr (.inl (hperform _ _ hs rfl))
  | next x q =>
    obtain ⟨-, hs⟩ := Option.ite_none_left_eq_some.mp hs
    change v.next cfg x q = some v' at hs
    unfold State.next at hs
    split at hs
    · obtain ⟨-, hs⟩ := Option.ite_none_right_eq_some.mp hs
      cases hs
      exact .inr (.inr ⟨q, Wait.begin_endInline ..⟩)
    · exact .inr (.inl (hperform _ _ hs rfl))
  | requestClose | destroy =>
    obtain ⟨-, hs⟩ := Option.ite_none_left_eq_some.mp hs
    split at hs
    · cases hs
      exact .inl rfl
    · exact .inr (.inl (hperform _ _ hs rfl))
  | construct x s =>
    obtain ⟨-, hs⟩ := Option.ite_none_left_eq_some.mp hs
    obtain ⟨-, hs⟩ := Option.ite_none_right_eq_some.mp hs
    cases hs
    exact .inl rfl
  | assign x y =>
    obtain ⟨-, hs⟩ := Option.ite_none_left_eq_some.mp hs
    obtain ⟨-, hs⟩ := Option.ite_none_right_eq_some.mp hs
    unfold State.assign at hs
    split at hs
    · cases hs
      exact .inl rfl
    split at hs
    · cases hs
      exact .inl rfl
    · exact .inr (.inl (hperform _ _ hs rfl))

end

/-! ## The contract -/

structure Contract (cfg : Config) (v : State) : Prop where
  /-- the handle polls exactly for the wait that holds the slot, with its mask -/
  polling : ∀ s o m, cfg.family s = .poll → (v.native s = some (o, m) ↔ v.Claims s o ∧ v.asked o = m)
  claimed : ∀ s o, v.Claims s o → Pending v.world o ∧ (v.world.op o).source = s
  /-- when a wait is resumed, the handle is stopped and nothing of the wait is left -/
  resumed : ∀ a v' o, v.step cfg a = some v' →
    resumptions v'.world.log o ≠ resumptions v.world.log o →
    cfg.family (v.world.op o).source = .poll →
    v'.native (v.world.op o).source = none ∧ Released v'.world o
  /-- a notification goes to the wait that started the handle -/
  noticed : ∀ s status events v', v.step cfg (.run (.notify s (.poll status events))) = some v' →
    ∃ o m, v.native s = some (o, m) ∧
      v'.world.log = v.world.log ++ [.resumed o (.value (.ready status events))]
  /-- a wait that ends at once leaves slots, registrations and native handles as they were -/
  rejected : ∀ x q v' r, v.step cfg (.next x q) = some v' →
    v'.world.log = v.world.log ++ [.ended q.op r] →
    v'.world.src = v.world.src ∧ v'.world.stops = v.world.stops ∧ v'.native = v.native
  /-- a source that is closing does not poll, and stays so -/
  closed : ∀ s, cfg.family s = .poll → (v.world.src s).closing = true →
    v.native s = none ∧ ∀ a v', v.step cfg a = some v' → (v'.world.src s).closing = true

section
variable {cfg : Config} {v v' : State}

theorem Inv.next_rejected (h : Inv cfg v) {x : Owner} {q : Request} {r : Wait.Outcome}
    (hs : v.next cfg x q = some v') (hlog : v'.world.log = v.world.log ++ [.ended q.op r]) :
    v'.world.src = v.world.src ∧ v'.world.stops = v.world.stops ∧ v'.native = v.native := by
  unfold State.next at hs
  split at hs
  · obtain ⟨-, hs⟩ := Option.ite_none_right_eq_some.mp hs
    cases hs
    exact ⟨rfl, rfl, rfl⟩
  · rename_i s hx
    obtain ⟨w, hw, rfl⟩ := Option.map_eq_some_iff.mp hs
    have ho := step_await_fresh hw
    have hf := (h.held x s hx).1
    obtain rfl := Wait.step_await hw
    dsimp only at *
    rcases await_cases h.waits (q := { q with source := s }) hf ho with
      ⟨hcall, r', heq⟩ | ⟨hcall, hslot, ⟨hneg, r', heq⟩ | ⟨-, -, hsusp⟩⟩
    · rw [hcall, heq]
      exact ⟨rfl, rfl, rfl⟩
    · rw [hcall, heq]
      refine ⟨rfl, rfl, ?_⟩
      dsimp only at *
      rw [Function.update_eq_self_iff, h.native s hf, hslot]
      simp [Call.apply, hneg, expected]
    · rw [hsusp] at hlog
      simp at hlog

theorem Inv.contract (h : Inv cfg v) : Contract cfg v where
  polling := by
    intro s o m hf
    rw [h.native s hf, expected, Option.map_eq_some_iff]
    constructor
    · rintro ⟨o', hs, heq⟩
      cases heq
      refine ⟨⟨?_, hs⟩, rfl⟩
      cases hd : v.deleted s with
      | false => rfl
      | true =>
        rw [(h.gone s hd).2.2.1] at hs
        cases hs
    · rintro ⟨⟨-, hs⟩, rfl⟩
      exact ⟨o, hs, rfl⟩
  claimed := by
    rintro s o ⟨-, hs⟩
    obtain ⟨hsusp, hsrc⟩ := (h.waits.slot s o).mp hs
    exact ⟨(Wait.pending_iff h.waits).mpr hsusp, hsrc⟩
  resumed := by
    intro a v' o hs hr hf
    rcases step_world hs with heq | ⟨b, hb⟩ | ⟨q, heq⟩
    · rw [heq] at hr
      exact absurd rfl hr
    · have hm := Wait.step_moved h.waits hb
      obtain ⟨-, hp', -, harm⟩ := Wait.resumed_step h.waits hm hr
      have hsafe : Safe v a := by
        cases a with
        | goOn =>
          rw [goOn_world hs] at hr
          exact absurd rfl hr
        | _ => trivial
      have h' := step_inv h hsafe hs
      refine ⟨?_, (Wait.released_iff h'.waits).mpr hp'⟩
      have hslot : (v'.world.src (v.world.op o).source).slot.isSome = false :=
        ((h'.waits.src (v.world.op o).source).armed (by rw [hf]; rfl)).symm.trans
          (harm (by rw [hf]; rfl))
      have hnone : (v'.world.src (v.world.op o).source).slot = none := by simpa using hslot
      rw [h'.native _ hf, hnone]
      rfl
    · rw [heq] at hr
      simp [World.rejected, Wait.Event.resumes] at hr
  noticed := by
    intro s status events v' hs
    obtain ⟨-, hs⟩ := Option.ite_none_left_eq_some.mp hs
    obtain ⟨-, hs⟩ := Option.ite_none_right_eq_some.mp hs
    obtain ⟨w, hw, rfl⟩ := Option.map_eq_some_iff.mp hs
    unfold Wait.step at hw
    split at hw
    · cases hw
    obtain ⟨⟨-, harm, hfits⟩, rfl⟩ := by simpa using hw
    have hf : cfg.family s = .poll := by
      revert hfits
      cases cfg.family s <;> simp [Wait.Notice.fits]
    obtain ⟨o, ho⟩ := h.waits.armed_slot (s := s) (by rw [hf]; rfl) harm
    refine ⟨o, v.asked o, by rw [h.native s hf, ho]; rfl, ?_⟩
    exact Wait.deliver_log (w := v.world.disarm s) (by simpa [World.disarm] using ho) _
  rejected := by
    intro x q v' r hs hlog
    obtain ⟨-, hs⟩ := Option.ite_none_left_eq_some.mp hs
    exact h.next_rejected hs hlog
  closed := by
    intro s hf hc
    refine ⟨?_, fun a v' hs => ?_⟩
    · have hnone : (v.world.src s).slot = none := Option.not_isSome_iff_eq_none.mp fun hsome => by
        rw [((h.waits.src s).held hsome).1] at hc
        cases hc
      rw [h.native s hf, hnone]
      rfl
    · rcases step_world hs with heq | ⟨b, hb⟩ | ⟨q, heq⟩
      · rw [heq]
        exact hc
      · exact step_closing h.waits hb hc
      · rw [heq]
        exact hc

/-- an assignment that goes on over a polling source leaves the contract -/
theorem safe_of_contract (h : Inv cfg v) {a : Action} (hs : v.step cfg a = some v')
    (hc : Contract cfg v') : Safe v a := by
  cases a with
  | goOn =>
    obtain ⟨d, x, y, k, hk, rfl⟩ := goOn_cases hs
    rw [Safe, hk]
    intro s hx
    replace hx : v.holds x = some s := hx
    cases hn : v.native s with
    | none => rfl
    | some p =>
      obtain ⟨o, m⟩ := p
      have hpoll := (hc.polling s o m (h.held x s hx).1).mp (by
        simpa [State.moveState, State.deleteState, hx] using hn)
      have hdel := hpoll.1.1
      simp [State.moveState, State.deleteState, hx] at hdel
  | _ => trivial

end

def pollOnly : Config where
  family _ := .poll
  allowed := 15

/-- The source of owner 0 has a wait when owner 1 is assigned to it; the coroutine that is resumed
waits on the source of owner 1, and on that of owner 0 when the assignment is done. -/
def assignedOver : List Action :=
  [.run .enter, .construct 0 0, .construct 1 1, .next 0 { op := 0, source := 0, task := none },
    .assign 0 1, .next 1 { op := 1, source := 0, task := some 0, events := 2 },
    .next 0 { op := 2, source := 0, task := none }, .run .ret, .run .tick, .goOn,
    .next 1 { op := 3, source := 0, task := none }, .next 0 { op := 4, source := 0, task := none },
    .run .ret, .run (.notify 1 (.poll 0 2))]

/-- The coroutine that is resumed by `reset()` assigns a new source to the same owner and waits on
it; then the assignment goes on. -/
def filledAgain : List Action :=
  [.run .enter, .construct 0 0, .construct 1 1, .next 0 { op := 0, source := 0, task := none },
    .assign 0 1, .construct 2 2, .assign 0 2, .next 0 { op := 1, source := 0, task := none },
    .run .ret, .run .tick, .goOn]

end PollSource
