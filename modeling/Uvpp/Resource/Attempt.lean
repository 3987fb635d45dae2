import Uvpp.Resource.Books

/-!
# The attempts to finish a scope

* `AttemptPos`, `Pos`     where the coroutine of the attempt is, in terms of the records;
* `World.left`            the state after the owner of a record was destroyed;
* `step_inv`              every step keeps the books and the position, as long as libuv accepts each
                          submitted file close;
* `run_inv`               so does every run.
-/

namespace Resource

structure AttemptPos (cfg : Config) (w : World) (a : Attempt) : Prop where
  /-- connections, sockets and files come after the last listener -/
  admission : a.phase = .closeResources → ∀ x, some x ∈ w.resources →
    (cfg.kind x.id).phase = .closeResources
  past : ∀ i < a.index, ∀ x, w.resources[i]? = some (some x) → (cfg.kind x.id).phase ≠ a.phase
  current : a.stage ≠ .next → ∃ x, w.resources[a.index]? = some (some x) ∧ x.released = false ∧
    (w.res x.id).native = if a.stage = .awaiting then .closing else .closed

structure Pos (cfg : Config) (w : World) : Prop where
  terminated : w.terminated = false
  state : w.attempt.isSome = true ↔ w.state = .active
  finished : w.state = .finished → w.resources = []
  files : ∀ x, some x ∈ w.resources → x.released = true → cfg.kind x.id = .file
  attempt : ∀ a, w.attempt = some a → AttemptPos cfg w a

structure Inv (cfg : Config) (w : World) : Prop where
  books : Books w
  pos : Pos cfg w
  /-- a listener has no borrowed I/O -/
  idle : ∀ r, (cfg.kind r).borrows = false → (w.res r).active = false

/-- libuv accepts the file close that the step submits -/
def Accepts (_ : World) : Act → Prop
  | .tick env => 0 ≤ env.submit
  | _ => True

instance (w : World) (a : Act) : Decidable (Accepts w a) := by
  cases a <;> unfold Accepts <;> infer_instance

namespace World

/-- the owner of the record `x` at `i` is destroyed, and the record marked so -/
def left (w : World) (i : Nat) (x : Rec) : World :=
  { w with
      res := Function.update w.res x.id { w.res x.id with holder := .gone, view := false }
      resources := w.resources.set i (some ⟨x.id, true⟩)
      log := (w.log ++ [.invalidated x.id]) ++ [.destroyed x.id] }

end World

section
variable {cfg : Config} {w w' : World} {a : Attempt} {x : Rec}

theorem inv_init : Inv cfg {} where
  books := .init
  pos := ⟨rfl, by simp, nofun, nofun, nofun⟩
  idle := fun _ _ => rfl

theorem Pos.quiet (h : Pos cfg w) (es : List Event) : Pos cfg (w.emit es) :=
  ⟨h.terminated, h.state, h.finished, h.files, fun a ha =>
    ⟨(h.attempt a ha).admission, (h.attempt a ha).past, (h.attempt a ha).current⟩⟩

theorem Inv.quiet (h : Inv cfg w) {e : Event} (he : e.quiet) : Inv cfg (w.emit [e]) :=
  ⟨h.books.quiet he, h.pos.quiet [e], h.idle⟩

/-- an owner changes, but not its borrowed I/O -/
theorem idle_update (h : ∀ r, (cfg.kind r).borrows = false → (w.res r).active = false) {r : Id}
    {y : Res} (hy : y.active = (w.res r).active) :
    ∀ r', (cfg.kind r').borrows = false → (Function.update w.res r y r').active = false :=
  (Function.forall_update_iff w.res fun r' z => (cfg.kind r').borrows = false → z.active = false).mpr
    ⟨fun hb => hy.trans (h r hb), fun r' _ => h r'⟩

/-- a record that is not released holds its owner -/
theorem Books.recorded (h : Books w) (hx : some x ∈ w.resources) (hr : x.released = false) :
    (w.res x.id).holder = .scope := by
  have hm : x.id ∈ ids w.resources := mem_ids.mpr ⟨x, hx, rfl⟩
  rw [h.records] at hm
  have hrel := h.released x hx
  cases hh : (w.res x.id).holder with
  | caller => exact absurd (List.mem_of_mem_filter hm) ((h.res x.id).caller.mp hh)
  | scope => rfl
  | gone =>
    rw [hr] at hrel
    exact absurd (hrel.mpr hh) nofun

/-! ## the owner is destroyed -/

/-- what is left of a record whose close is complete -/
theorem endFinish_closed (hb : Books w) (ht : w.terminated = false)
    (hn : (w.res x.id).native = .closed) (s : Int) :
    w.endFinish cfg a x.id s =
      if cfg.kind x.id = .file ∧ s < 0 then (w.left a.index x).fail (.status s)
      else (w.left a.index x).retire a x.id := by
  have hact : (w.res x.id).active = false := by
    cases hact : (w.res x.id).active with
    | false => rfl
    | true =>
      have ho := (hb.res x.id).active hact
      rw [hn] at ho
      cases ho
  have hrel : w.releaseOwner cfg x.id = { w.left a.index x with resources := w.resources } := by
    simp [World.releaseOwner, World.destroyOwner, World.setRes, World.emit, World.left, hact, hn]
  unfold World.endFinish
  rw [hrel]
  have hterm : (w.left a.index x).terminated = false := ht
  dsimp only
  rw [if_neg (by simp [hterm])]
  split
  · rfl
  · simp [World.retire, World.emit, World.left]

theorem Pos.active (h : Pos cfg w) (ha : w.attempt = some a) : w.state = .active :=
  h.state.mp (by rw [ha]; rfl)

theorem Pos.fail (h : Pos cfg w) (e : Exc) : Pos cfg (w.fail e) :=
  ⟨h.terminated, ⟨nofun, nofun⟩, nofun, h.files, nofun⟩

/-- the attempt goes on elsewhere in the same records -/
theorem Pos.move (h : Pos cfg w) (ha : w.attempt = some a) {b : Attempt}
    (hb : AttemptPos cfg w b) : Pos cfg { w with attempt := some b } where
  terminated := h.terminated
  state := ⟨fun _ => h.active ha, fun _ => rfl⟩
  finished := h.finished
  files := h.files
  attempt := fun c hc => by
    cases hc
    exact ⟨hb.admission, hb.past, hb.current⟩

/-- the record is given up, and the attempt looks at the next one -/
theorem retire_pos (h : Pos cfg w) (ha : w.attempt = some a) {v : World}
    (ht : v.terminated = w.terminated) (hs : v.state = w.state)
    (hr : v.resources.set a.index none = w.resources.set a.index none) (r : Id) :
    Pos cfg (v.retire a r) := by
  have hp := h.attempt a ha
  have hset : (v.retire a r).resources = w.resources.set a.index none := hr
  have hmem : ∀ y, some y ∈ (v.retire a r).resources → some y ∈ w.resources := by
    intro y hy
    rw [hset] at hy
    rcases List.mem_or_eq_of_mem_set hy with hy | hy
    · exact hy
    · cases hy
  have hactive : (v.retire a r).state = .active := hs.trans (h.active ha)
  refine ⟨ht.trans h.terminated, ⟨fun _ => hactive, fun _ => rfl⟩, fun hf => ?_,
    fun y hy => h.files y (hmem y hy), fun b hb => ?_⟩
  · rw [hactive] at hf
    cases hf
  · cases hb
    refine ⟨fun hc y hy => hp.admission hc y (hmem y hy), fun i hi y hy => ?_, fun hn => absurd rfl hn⟩
    rw [hset] at hy
    by_cases hia : a.index = i
    · rw [hia, List.getElem?_set] at hy
      split at hy
      · split at hy <;> cases hy
      · rename_i hne
        exact absurd rfl hne
    · rw [List.getElem?_set_ne hia] at hy
      have hlt : i < a.index + 1 := hi
      exact hp.past i (by omega) y hy

theorem fail_inv (h : Inv cfg w) (e : Exc) : Inv cfg (w.fail e) :=
  ⟨(h.books.setAttempt .interrupted none).quiet rfl, h.pos.fail e, h.idle⟩

/-! ## the attempt goes on -/

/-- the native close of `r` moves on, and with it an attempt that waits for it -/
theorem AttemptPos.setNative {n : Native} {r : Id} {f : Res → Res} {b : Attempt}
    (hf : (f (w.res r)).native = n) (h : AttemptPos cfg w b)
    (hb : b.stage ≠ .next → ∀ x, w.resources[b.index]? = some (some x) → x.id = r →
      n = if b.stage = .awaiting then .closing else .closed) : AttemptPos cfg (w.setRes r f) b where
  admission := h.admission
  past := h.past
  current := by
    intro hs
    obtain ⟨x, hx, hrel, hn⟩ := h.current hs
    refine ⟨x, hx, hrel, ?_⟩
    by_cases hr : x.id = r
    · rw [← hb hs x hx hr, ← hf, ← hr]
      simp [World.setRes]
    · simpa [World.setRes, hr] using hn

section
variable (h : Inv cfg w) (ha : w.attempt = some a) (hi : w.resources[a.index]? = some (some x))
  (hr : x.released = false)

include h ha hi hr

/-- the end of a record whose close is complete -/
theorem endFinish_inv (hn : (w.res x.id).native = .closed) (s : Int) :
    Inv cfg (w.endFinish cfg a x.id s) := by
  have hb := h.books.leave hi (h.books.recorded (List.mem_of_getElem? hi) hr) hn
  rw [endFinish_closed h.books h.pos.terminated hn]
  split
  · rename_i hf
    refine ⟨(hb.setAttempt .interrupted none).quiet rfl, ?_, idle_update h.idle rfl⟩
    refine ⟨h.pos.terminated, ⟨nofun, nofun⟩, nofun, fun y hy hrel => ?_, nofun⟩
    rcases List.mem_or_eq_of_mem_set hy with hy | hy
    · exact h.pos.files y hy hrel
    · cases hy
      exact hf.1
  · have hlt := (List.getElem?_eq_some_iff.mp hi).1
    have hget : (w.left a.index x).resources[a.index]? = some (some ⟨x.id, true⟩) := by
      simp [World.left, hlt]
    have hgone : ((w.left a.index x).res x.id).holder = .gone := by simp [World.left]
    refine ⟨?_, retire_pos (v := w.left a.index x) h.pos ha rfl rfl (by simp [World.left]) x.id,
      idle_update h.idle rfl⟩
    exact (hb.retire (x := ⟨x.id, true⟩) hget hgone).setAttempt _ _

theorem submitAndWait_inv (hact : (w.res x.id).active = false)
    (hn : (w.res x.id).native ≠ .closed) : Inv cfg (w.submitAndWait a x.id) := by
  have hp := h.pos.attempt a ha
  unfold World.submitAndWait
  split
  · rename_i ho
    refine ⟨?_, Pos.quiet ?_ _, idle_update h.idle rfl⟩
    · have hb : Books ((w.setRes x.id ({ · with native := .closing })).emit [.submitted x.id]) :=
        h.books.touch rfl rfl rfl ((h.books.res x.id).submit ho hact) rfl nofun
      exact hb.setAttempt _ _
    · refine ⟨h.pos.terminated, ⟨fun _ => h.pos.active ha, fun _ => rfl⟩, h.pos.finished,
        h.pos.files, fun b hb => ?_⟩
      cases hb
      exact ⟨hp.admission, hp.past, fun _ => ⟨x, hi, hr, by simp [World.setRes]⟩⟩
  · rename_i ho
    refine ⟨h.books.setAttempt _ _,
      h.pos.move ha ⟨hp.admission, hp.past, fun _ => ⟨x, hi, hr, ?_⟩⟩, h.idle⟩
    cases hcl : (w.res x.id).native with
    | opened => exact absurd hcl ho
    | closing => rfl
    | closed => exact absurd hcl hn

theorem finishFile_inv {env : Env} (henv : 0 ≤ env.submit) :
    Inv cfg (w.finishFile cfg a x.id env) := by
  unfold World.finishFile
  split
  · exact fail_inv h _
  rename_i hidle
  split
  · rename_i hn
    exact endFinish_inv h ha hi hr hn _
  rename_i hn
  split
  · rename_i hsub
    omega
  · refine submitAndWait_inv h ha hi hr ?_ hn
    simpa using fun hact => hidle (.inl hact)

theorem finishHandle_inv (env : Env) : Inv cfg (w.finishHandle cfg a x.id env) := by
  unfold World.finishHandle
  split
  · exact fail_inv h _
  rename_i hidle
  split
  · rename_i hn
    exact endFinish_inv h ha hi hr hn _
  rename_i hn
  split
  · exact fail_inv h _
  · refine submitAndWait_inv h ha hi hr ?_ hn
    cases hb : (cfg.kind x.id).borrows with
    | false => exact h.idle x.id hb
    | true => simpa using fun hact => hidle ⟨hb, hact⟩

end

theorem beginFinish_inv (h : Inv cfg w) (ha : w.attempt = some a)
    (hi : w.resources[a.index]? = some (some x)) {env : Env} (henv : 0 ≤ env.submit) :
    Inv cfg (w.beginFinish cfg a x env) := by
  have hx := List.mem_of_getElem? hi
  unfold World.beginFinish
  split
  · exact fail_inv h _
  have hc := h.quiet (e := .cleanup x.id) rfl
  dsimp only
  split
  · split
    · rename_i hrel
      exact ⟨(hc.books.retire hi ((h.books.released x hx).mp hrel)).setAttempt _ _,
        retire_pos hc.pos ha rfl rfl rfl x.id, hc.idle⟩
    · rename_i hrel
      exact finishFile_inv hc ha hi (by simpa using hrel) henv
  · rename_i hf
    refine finishHandle_inv hc ha hi ?_ env
    simpa using fun hrel => hf (h.pos.files x hx hrel)

/-- the index behind a record that needs nothing -/
theorem AttemptPos.skip (h : AttemptPos cfg w a)
    (hi : ∀ x, w.resources[a.index]? = some (some x) → (cfg.kind x.id).phase ≠ a.phase)
    (hs : a.stage = .next) : AttemptPos cfg w { a with index := a.index + 1 } where
  admission := h.admission
  past := by
    intro i hlt x hx
    have hlt' : i < a.index + 1 := hlt
    rcases Nat.lt_succ_iff_lt_or_eq.mp hlt' with hlt | rfl
    · exact h.past i hlt x hx
    · exact hi x hx
  current := fun hn => absurd hs hn

/-- behind the last record every record of the phase is given up -/
theorem AttemptPos.behind (h : AttemptPos cfg w a) (hi : w.resources[a.index]? = none) :
    ∀ x, some x ∈ w.resources → (cfg.kind x.id).phase ≠ a.phase := by
  intro x hx
  obtain ⟨i, hlt, hget⟩ := List.mem_iff_getElem.mp hx
  have hle := List.getElem?_eq_none_iff.mp hi
  exact h.past i (by omega) x (by rw [List.getElem?_eq_getElem hlt, hget])

theorem endPhase_inv (h : Inv cfg w) (ha : w.attempt = some a)
    (hi : w.resources[a.index]? = none) : Inv cfg (w.endPhase a) := by
  have hp := h.pos.attempt a ha
  have hbehind := hp.behind hi
  unfold World.endPhase
  split
  · rename_i hph
    refine ⟨h.books.setAttempt _ _, h.pos.move ha ⟨fun _ x hx => ?_, nofun, fun hn => absurd rfl hn⟩,
      h.idle⟩
    have hne := hbehind x hx
    rw [hph] at hne
    cases hk : (cfg.kind x.id).phase with
    | stopAdmission => exact absurd hk hne
    | closeResources => rfl
  · rename_i hph
    -- no record is left, so that clearing the list changes nothing in the books
    have hnil : ids w.resources = [] := List.eq_nil_iff_forall_not_mem.mpr fun r hr => by
      obtain ⟨x, hx, -⟩ := mem_ids.mp hr
      have hne := hbehind x hx
      rw [hph] at hne
      exact hne (hp.admission hph x hx)
    have hb := h.books
    have hbooks : Books { w with resources := [], state := .finished, attempt := none } :=
      ⟨hb.ordered, hb.res, hnil.symm.trans hb.records, hb.nodup, hb.retiredOnce, hb.retired, nofun⟩
    refine ⟨hbooks.quiet rfl, Pos.quiet ?_ _, h.idle⟩
    exact ⟨h.pos.terminated, ⟨nofun, nofun⟩, fun _ => rfl, nofun, nofun⟩

theorem round_inv (h : Inv cfg w) (ha : w.attempt = some a) (hs : a.stage = .next) {env : Env}
    (henv : 0 ≤ env.submit) : Inv cfg (w.round cfg a env) := by
  have hp := h.pos.attempt a ha
  have hskip : (∀ x, w.resources[a.index]? = some (some x) → (cfg.kind x.id).phase ≠ a.phase) →
      Inv cfg { w with attempt := some { a with index := a.index + 1 } } := fun hi =>
    ⟨h.books.setAttempt _ _, h.pos.move ha (hp.skip hi hs), h.idle⟩
  unfold World.round
  split
  · rename_i hi
    exact endPhase_inv h ha hi
  · rename_i hi
    exact hskip fun x hx => by rw [hi] at hx; cases hx
  · rename_i x hi
    split
    · exact beginFinish_inv h ha hi henv
    · rename_i hne
      exact hskip fun y hy => by
        rw [hi] at hy
        cases hy
        exact hne

theorem tick_inv (h : Inv cfg w) {env : Env} (henv : 0 ≤ env.submit)
    (ht : w.tick cfg env = some w') : Inv cfg w' := by
  unfold World.tick at ht
  split at ht
  · cases ht
  rename_i a ha
  split at ht
  · rename_i hs
    cases ht
    exact round_inv h ha hs henv
  · cases ht
  · rename_i hs
    obtain ⟨x, hx, hrel, hn⟩ := (h.pos.attempt a ha).current (by rw [hs]; exact nofun)
    rw [hx] at ht
    cases ht
    rw [hs] at hn
    exact endFinish_inv h ha hx hrel hn _

/-! ## everything else -/

theorem own_inv (h : Inv cfg w) (r : Id) (b : Bool) : Inv cfg (w.own cfg r b) := by
  unfold World.own
  split
  · exact h.quiet rfl
  rename_i hs
  split
  · exact h.quiet rfl
  rename_i hc
  split
  · exact h.quiet rfl
  have hopen : w.state = .opened := by simpa using hs
  have hnone : w.attempt = none := by
    have hst := h.pos.state
    rw [hopen] at hst
    simpa using hst
  have hcaller : (w.res r).holder = .caller := (not_not.mp hc).1
  refine ⟨h.books.adopt hcaller, Pos.quiet ?_ _, idle_update h.idle rfl⟩
  refine ⟨h.pos.terminated, h.pos.state, ?_, ?_, ?_⟩
  · intro hf
    rw [show w.state = _ from hf] at hopen
    cases hopen
  · intro x hx hrel
    rcases List.mem_append.mp hx with hx | hx
    · exact h.pos.files x hx hrel
    · obtain rfl : x = Rec.mk r false := by simpa using hx
      cases hrel
  · intro a ha
    rw [show w.attempt = _ from ha] at hnone
    cases hnone

theorem finish_inv (h : Inv cfg w) (sameLoop allocFails : Bool) :
    Inv cfg (w.finish sameLoop allocFails) := by
  unfold World.finish
  split
  · exact h.quiet rfl
  split
  · exact h.quiet rfl
  split
  · exact h.quiet rfl
  · exact h.quiet rfl
  · refine ⟨(h.books.setAttempt _ _).quiet rfl, Pos.quiet ?_ _, h.idle⟩
    refine ⟨h.pos.terminated, ⟨fun _ => rfl, fun _ => rfl⟩, nofun, h.pos.files, fun a ha => ?_⟩
    cases ha
    exact ⟨nofun, nofun, fun hn => absurd rfl hn⟩

/-- a change of an owner that no attempt is waiting for -/
theorem Pos.setRes (h : Pos cfg w) {r : Id} {f : Res → Res}
    (hn : ∀ a, w.attempt = some a → a.stage ≠ .next → ∀ x, w.resources[a.index]? = some (some x) →
      x.id = r → (f (w.res r)).native = (w.res r).native) : Pos cfg (w.setRes r f) := by
  refine ⟨h.terminated, h.state, h.finished, h.files, fun a ha => ?_⟩
  refine (h.attempt a ha).setNative rfl fun hs x hx hr => ?_
  obtain ⟨y, hy, -, hnat⟩ := (h.attempt a ha).current hs
  rw [hx] at hy
  cases hy
  rw [hn a ha hs x hx hr, ← hr]
  exact hnat

theorem startIo_inv (h : Inv cfg w) (r : Id) : Inv cfg (w.startIo cfg r) := by
  unfold World.startIo
  split
  · rename_i hio
    refine ⟨h.books.setRes ((h.books.res r).setActive fun _ => hio.2.1) rfl,
      h.pos.setRes fun _ _ _ _ _ _ => rfl, ?_⟩
    refine (Function.forall_update_iff w.res fun r' z =>
      (cfg.kind r').borrows = false → z.active = false).mpr ⟨fun hb => ?_, fun r' _ => h.idle r'⟩
    rw [hio.1] at hb
    cases hb
  · exact h

theorem endIo_inv (h : Inv cfg w) (r : Id) :
    Inv cfg (w.setRes r ({ · with active := false })) := by
  refine ⟨h.books.setRes ((h.books.res r).setActive nofun) rfl,
    h.pos.setRes fun _ _ _ _ _ _ => rfl, ?_⟩
  exact (Function.forall_update_iff w.res fun r' z =>
    (cfg.kind r').borrows = false → z.active = false).mpr ⟨fun _ => rfl, fun r' _ => h.idle r'⟩

theorem userClose_inv (h : Inv cfg w) {r : Id} (hc : (w.res r).holder = .caller) (s : Int) :
    Inv cfg (w.userClose cfg r s) := by
  unfold World.userClose
  split
  · exact h
  rename_i hidle
  push Not at hidle
  refine ⟨h.books.touch rfl rfl rfl ((h.books.res r).submit hidle.2.1 (by simpa using hidle.1)) rfl
      nofun,
    Pos.quiet (h.pos.setRes fun a ha hs x hx hr => ?_) _, idle_update h.idle rfl⟩
  -- the attempt waits for an owner that the scope holds
  obtain ⟨y, hy, hrel, -⟩ := (h.pos.attempt a ha).current hs
  rw [hx] at hy
  cases hy
  have hscope := h.books.recorded (List.mem_of_getElem? hx) hrel
  rw [hr, hc] at hscope
  cases hscope

theorem awaits_some {r : Id} (h : w.awaits r = some a) : w.attempt = some a ∧
    a.stage = .awaiting ∧ ∃ x, w.resources[a.index]? = some (some x) ∧ x.id = r := by
  unfold World.awaits at h
  split at h
  · rename_i b hb
    split at h
    · rename_i x hs hx
      split at h
      · rename_i hr
        cases h
        exact ⟨hb, hs, x, hx, hr⟩
      · cases h
    · cases h
  · cases h

theorem awaits_none {r : Id} (h : w.awaits r = none) (ha : w.attempt = some a)
    (hs : a.stage = .awaiting) (hx : w.resources[a.index]? = some (some x)) : x.id ≠ r := by
  intro hr
  simp [World.awaits, ha, hs, hx, hr] at h

theorem closeDone_inv (h : Inv cfg w) {r : Id} (hn : (w.res r).native = .closing) (s : Int) :
    Inv cfg (w.closeDone cfg r s) := by
  have hbooks : Books ((w.setRes r fun x => { x with
      native := .closed
      closeStatus := if cfg.kind r = .file then s else 0 }).emit [.completed r]) :=
    h.books.touch rfl rfl rfl ((h.books.res r).complete hn _) rfl nofun
  unfold World.closeDone
  dsimp only
  cases haw : w.awaits r with
  | some a =>
    obtain ⟨ha, hs, x, hx, hr⟩ := awaits_some haw
    have hp := h.pos.attempt a ha
    obtain ⟨y, hy, hrel, -⟩ := hp.current (by rw [hs]; exact nofun)
    rw [hx] at hy
    cases hy
    refine ⟨hbooks.setAttempt _ _, ⟨h.pos.terminated, ?_, h.pos.finished, h.pos.files, fun b hb => ?_⟩,
      idle_update h.idle rfl⟩
    · exact ⟨fun _ => h.pos.active ha, fun _ => rfl⟩
    · cases hb
      refine ⟨hp.admission, hp.past, fun _ => ⟨x, hx, hrel, ?_⟩⟩
      simp [World.setRes, World.emit, hr]
  | none =>
    refine ⟨hbooks, Pos.quiet (h.pos.setRes fun a ha hs x hx hr => ?_) _, idle_update h.idle rfl⟩
    -- an attempt that was resumed already found its owner closed
    obtain ⟨y, hy, -, hnat⟩ := (h.pos.attempt a ha).current hs
    rw [hx] at hy
    cases hy
    by_cases hst : a.stage = .awaiting
    · exact absurd hr (awaits_none haw ha hst hx)
    · rw [if_neg hst, hr, hn] at hnat
      cases hnat

theorem step_inv (h : Inv cfg w) {a : Act} (hacc : Accepts w a) (hs : step cfg w a = some w') :
    Inv cfg w' := by
  unfold step at hs
  rw [if_neg (by simp [h.pos.terminated])] at hs
  cases a with
  | own r b =>
    cases hs
    exact own_inv h r b
  | finish sameLoop b =>
    cases hs
    exact finish_inv h sameLoop b
  | tick env => exact tick_inv h hacc hs
  | closeDone r s =>
    obtain ⟨hn, rfl⟩ := by simpa using hs
    exact closeDone_inv h hn s
  | startIo r =>
    cases hs
    exact startIo_inv h r
  | endIo r =>
    obtain ⟨-, rfl⟩ := by simpa using hs
    exact endIo_inv h r
  | userClose r s =>
    obtain ⟨hc, rfl⟩ := by simpa using hs
    exact userClose_inv h hc s

theorem run_inv {as : List Act} (hr : (sys cfg).run (sys cfg).init as = some w)
    (hacc : (sys cfg).Meets Accepts (sys cfg).init as) : Inv cfg w :=
  Sys.run_inv_meets (P := Inv cfg)
    (fun v a v' hi hc hs => step_inv hi hc (show step cfg v a = some v' from hs)) inv_init hacc hr

end

end Resource
