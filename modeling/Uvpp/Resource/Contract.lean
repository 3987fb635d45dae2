import Uvpp.Resource.Attempt

/-!
# The contract of `resource_scope`

* `Outcome`                     what `finish()` of a record can do up to its suspension;
* `scope_finishes`              what holds in all runs in which libuv accepts each submitted file
                                close;
* `rejected_close_terminates`   what happens when it does not: the record of the file invalidates
                                its views and destroys a file that is open.
-/

namespace Resource

section
variable {cfg : Config} {w w' : World}

/-! ## what `finish()` of a record does up to its suspension -/

inductive Outcome (cfg : Config) (w : World) (a : Attempt) (r : Id) : World → Prop
  | fails (e : Exc) : Outcome cfg w a r (w.fail e)
  | retires : Outcome cfg w a r (w.retire a r)
  | ends (s : Int) : Outcome cfg w a r (w.endFinish cfg a r s)
  | waits : Outcome cfg w a r (w.submitAndWait a r)

theorem finishFile_outcome (a : Attempt) (r : Id) (env : Env) :
    Outcome cfg w a r (w.finishFile cfg a r env) := by
  unfold World.finishFile
  repeat' split
  · exact .fails _
  · exact .ends _
  · exact .ends _
  · exact .waits

theorem finishHandle_outcome (a : Attempt) (r : Id) (env : Env) :
    Outcome cfg w a r (w.finishHandle cfg a r env) := by
  unfold World.finishHandle
  repeat' split
  · exact .fails _
  · exact .ends _
  · exact .fails _
  · exact .waits

theorem beginFinish_outcome (cfg : Config) (w : World) (a : Attempt) (x : Rec) (env : Env) :
    w.beginFinish cfg a x env = w.fail .badAlloc ∨
      Outcome cfg (w.emit [.cleanup x.id]) a x.id (w.beginFinish cfg a x env) := by
  unfold World.beginFinish
  split
  · exact .inl rfl
  refine .inr ?_
  dsimp only
  split
  · split
    · exact .retires
    · exact finishFile_outcome a x.id env
  · exact finishHandle_outcome a x.id env

section
variable (a : Attempt) (r : Id)

@[simp] theorem releaseOwner_state : (w.releaseOwner cfg r).state = w.state := by
  unfold World.releaseOwner World.destroyOwner
  split <;> rfl

@[simp] theorem releaseOwner_resources : (w.releaseOwner cfg r).resources = w.resources := by
  unfold World.releaseOwner World.destroyOwner
  split <;> rfl

@[simp] theorem submitAndWait_state : (w.submitAndWait a r).state = w.state := by
  unfold World.submitAndWait
  split <;> rfl

@[simp] theorem submitAndWait_resources : (w.submitAndWait a r).resources = w.resources := by
  unfold World.submitAndWait
  split <;> rfl

/-- the end of a record: the run is over, or the attempt fails, or it goes on -/
theorem endFinish_cases (cfg : Config) (w : World) (a : Attempt) (r : Id) (s : Int) :
    w.endFinish cfg a r s = w.releaseOwner cfg r ∨
      w.endFinish cfg a r s = { w.releaseOwner cfg r with
        resources := w.resources.set a.index (some ⟨r, true⟩) }.fail (.status s) ∨
      w.endFinish cfg a r s = (w.releaseOwner cfg r).retire a r := by
  unfold World.endFinish
  dsimp only
  split
  · exact .inl rfl
  · split
    · exact .inr (.inl (by rw [releaseOwner_resources]))
    · exact .inr (.inr rfl)

end

/-! ## which steps start to clean a record -/

theorem Outcome.cleanup {a : Attempt} {r : Id} (h : Outcome cfg w a r w') (r' : Id) :
    w'.log.count (.cleanup r') = w.log.count (.cleanup r') := by
  have hrel : (w.releaseOwner cfg r).log.count (.cleanup r') = w.log.count (.cleanup r') := by
    unfold World.releaseOwner World.destroyOwner
    split <;> simp [World.emit, World.setRes]
  cases h with
  | fails e => simp [World.fail, World.emit]
  | retires => simp [World.retire, World.emit]
  | ends s =>
    rw [← hrel]
    obtain h | h | h := endFinish_cases cfg w a r s <;> rw [h]
    · simp [World.fail, World.emit]
    · simp [World.retire, World.emit]
  | waits =>
    unfold World.submitAndWait
    split <;> simp [World.emit, World.setRes]

theorem beginFinish_cleanup {a : Attempt} {x : Rec} {env : Env} {r : Id}
    (h : (w.beginFinish cfg a x env).log.count (.cleanup r) ≠ w.log.count (.cleanup r)) :
    x.id = r := by
  by_contra hne
  refine h ?_
  obtain he | ho := beginFinish_outcome cfg w a x env
  · rw [he]
    simp [World.fail, World.emit]
  · rw [ho.cleanup r]
    simp [World.emit, hne]

/-- only the attempt starts to clean a record, and only the record at its index -/
theorem cleanup_step {a : Act} (hs : step cfg w a = some w') {r : Id}
    (h : w'.log.count (.cleanup r) ≠ w.log.count (.cleanup r)) :
    ∃ b x, w.attempt = some b ∧ w.resources[b.index]? = some (some x) ∧ x.id = r ∧
      (cfg.kind r).phase = b.phase := by
  unfold step at hs
  split at hs
  · cases hs
  cases a with
  | own r' b =>
    cases hs
    refine absurd ?_ h
    unfold World.own
    repeat' split
    all_goals simp [World.emit, World.setRes]
  | finish sameLoop b =>
    cases hs
    refine absurd ?_ h
    unfold World.finish
    repeat' split
    all_goals simp [World.emit]
  | closeDone r' s =>
    obtain ⟨-, rfl⟩ := by simpa using hs
    refine absurd ?_ h
    unfold World.closeDone
    dsimp only
    split <;> simp [World.emit, World.setRes]
  | startIo r' =>
    cases hs
    refine absurd ?_ h
    unfold World.startIo
    split <;> rfl
  | endIo r' =>
    obtain ⟨-, rfl⟩ := by simpa using hs
    exact absurd rfl h
  | userClose r' s =>
    obtain ⟨-, rfl⟩ := by simpa using hs
    refine absurd ?_ h
    unfold World.userClose
    split <;> simp [World.emit, World.setRes]
  | tick env =>
    have hs' : w.tick cfg env = some w' := hs
    unfold World.tick at hs'
    split at hs'
    · cases hs'
    rename_i b hb
    split at hs'
    · cases hs'
      unfold World.round at h
      split at h
      · refine absurd ?_ h
        unfold World.endPhase
        split <;> simp [World.emit]
      · exact absurd rfl h
      · rename_i x hx
        split at h
        · rename_i hph
          have hr := beginFinish_cleanup h
          exact ⟨b, x, hb, hx, hr, hr ▸ hph⟩
        · exact absurd rfl h
    · cases hs'
    · split at hs'
      · cases hs'
        exact absurd ((Outcome.ends _).cleanup r) h
      · cases hs'

/-! ## adoption ends with the first attempt -/

theorem Outcome.sealed {a : Attempt} {r : Id} (h : Outcome cfg w a r w')
    (hw : w.state ≠ .opened) : w'.state ≠ .opened := by
  cases h with
  | fails e => exact nofun
  | retires => exact hw
  | ends s =>
    obtain h | h | h := endFinish_cases cfg w a r s <;> rw [h]
    · rwa [releaseOwner_state]
    · exact nofun
    · show (w.releaseOwner cfg r).state ≠ .opened
      rwa [releaseOwner_state]
  | waits => rwa [submitAndWait_state]

theorem beginFinish_sealed (h : w.state ≠ .opened) (a : Attempt) (x : Rec) (env : Env) :
    (w.beginFinish cfg a x env).state ≠ .opened := by
  obtain he | ho := beginFinish_outcome cfg w a x env
  · rw [he]
    exact nofun
  · exact ho.sealed h

theorem tick_sealed (h : w.state ≠ .opened) {env : Env} (hs : w.tick cfg env = some w') :
    w'.state ≠ .opened := by
  unfold World.tick at hs
  split at hs
  · cases hs
  split at hs
  · cases hs
    unfold World.round
    split
    · unfold World.endPhase
      split
      · exact h
      · exact nofun
    · exact h
    · split
      · exact beginFinish_sealed h _ _ env
      · exact h
  · cases hs
  · split at hs
    · cases hs
      exact (Outcome.ends _).sealed h
    · cases hs

/-- the scope takes owners as long as no attempt began -/
def Sealed (w : World) : Prop := .began ∈ w.log → w.state ≠ .opened

/-- a step that leaves the state and begins nothing -/
theorem Sealed.keep (h : Sealed w) (hs : w'.state = w.state) {es : List Event}
    (hl : w'.log = w.log ++ es) (hes : .began ∉ es) : Sealed w' := by
  intro hm
  rw [hl, List.mem_append] at hm
  exact hs ▸ h (hm.resolve_right hes)

theorem sealed_step (hi : Inv cfg w) (h : Sealed w) {a : Act} (hs : step cfg w a = some w') :
    Sealed w' := by
  unfold step at hs
  rw [if_neg (by simp [hi.pos.terminated])] at hs
  cases a with
  | own r b =>
    cases hs
    unfold World.own
    repeat' split
    all_goals exact h.keep rfl rfl (by simp)
  | finish sameLoop b =>
    cases hs
    unfold World.finish
    repeat' split
    · exact h.keep rfl rfl (by simp)
    · exact h.keep rfl rfl (by simp)
    · exact h.keep rfl rfl (by simp)
    · exact h.keep rfl rfl (by simp)
    · exact fun _ => nofun
  | tick env =>
    have hs' : w.tick cfg env = some w' := hs
    refine fun _ => tick_sealed ?_ hs'
    -- an attempt goes on only while the scope is active
    cases ha : w.attempt with
    | none => simp [World.tick, ha] at hs'
    | some b =>
      rw [hi.pos.active ha]
      exact nofun
  | closeDone r s =>
    obtain ⟨-, rfl⟩ := by simpa using hs
    unfold World.closeDone
    dsimp only
    split <;> exact h.keep rfl rfl (by simp)
  | startIo r =>
    cases hs
    unfold World.startIo
    split <;> exact h
  | endIo r =>
    obtain ⟨-, rfl⟩ := by simpa using hs
    exact h
  | userClose r s =>
    obtain ⟨-, rfl⟩ := by simpa using hs
    unfold World.userClose
    split
    · exact h
    · exact h.keep rfl rfl (by simp)

/-! ## what a failed attempt keeps -/

theorem Outcome.ids_of_failed {a : Attempt} {x : Rec} (h : Outcome cfg w a x.id w')
    (hw : w.state = .active) (hi : w.resources[a.index]? = some (some x))
    (hf : w'.state = .interrupted) : ids w'.resources = ids w.resources := by
  have hne : w'.state ≠ w.state := by
    rw [hf, hw]
    exact nofun
  cases h with
  | fails e => rfl
  | retires => exact absurd rfl hne
  | ends s =>
    obtain h | h | h := endFinish_cases cfg w a x.id s <;> rw [h] at hne ⊢
    · exact absurd (releaseOwner_state x.id) hne
    · exact ids_set_same hi rfl
    · exact absurd (releaseOwner_state x.id) hne
  | waits => rw [submitAndWait_resources]

theorem tick_ids_of_failed {env : Env} (hw : w.state = .active) (hs : w.tick cfg env = some w')
    (hf : w'.state = .interrupted) : ids w'.resources = ids w.resources := by
  unfold World.tick at hs
  split at hs
  · cases hs
  rename_i b hb
  split at hs
  · cases hs
    unfold World.round at hf ⊢
    split at hf
    · unfold World.endPhase at hf ⊢
      split at hf
      · rfl
      · cases hf
    · rfl
    · rename_i x hx
      split
      · rename_i hph
        rw [if_pos hph] at hf
        obtain he | ho := beginFinish_outcome cfg w b x env
        · rw [he]
          rfl
        · exact ho.ids_of_failed hw hx hf
      · rfl
  · cases hs
  · split at hs
    · rename_i x hx
      cases hs
      exact (Outcome.ends _).ids_of_failed hw hx hf
    · cases hs

/-! ## the contract -/

/-- `own()` threw: the owner is still the caller's and the scope is as it was -/
def NotAdopted (w w' : World) (r : Id) : Prop := ∃ e, w' = w.emit [.notAdopted r e]

/-- what holds in a state and of every step from it -/
structure Tidy (cfg : Config) (w : World) : Prop where
  running : w.terminated = false
  /-- `own()` takes the owner over, or throws and changes nothing -/
  owns : ∀ r b w', step cfg w (.own r b) = some w' → NotAdopted w w' r ∨
    (w.res r).holder = .caller ∧ (w'.res r).holder = .scope ∧
      w'.resources = w.resources ++ [some ⟨r, false⟩]
  /-- after the first attempt began, it throws -/
  closed : .began ∈ w.log → ∀ r b w', step cfg w (.own r b) = some w' → NotAdopted w w' r
  /-- an attempt that overlaps another is rejected -/
  overlaps : w.state = .active → ∀ b c w', step cfg w (.finish b c) = some w' →
    ∃ e, w' = w.emit [.rejected e]
  /-- one native close and one destruction per owner at most -/
  once : ∀ r, w.log.count (.submitted r) ≤ 1 ∧ w.log.count (.destroyed r) ≤ 1
  ordered : Ordered w.log
  /-- the cleanup of a record starts from the records that are left, and that of a connection,
  socket or file after the last listener -/
  cleans : ∀ a w' r, step cfg w a = some w' →
    w'.log.count (.cleanup r) ≠ w.log.count (.cleanup r) → r ∈ ids w.resources ∧
      ((cfg.kind r).phase = .closeResources →
        ∀ r' ∈ ids w.resources, (cfg.kind r').phase = .closeResources)
  /-- the records that are left are those not given up, in the order of their adoption -/
  keeps : ids w.resources = (adopted w.log).filter (· ∉ retired w.log)
  /-- a record is given up once, after its owner was destroyed -/
  retires : (retired w.log).Nodup ∧ ∀ r ∈ retired w.log, w.log.count (.destroyed r) = 1
  /-- an attempt that fails keeps the records that it has not given up -/
  fails : ∀ a w', step cfg w a = some w' → w.state = .active → w'.state = .interrupted →
    ids w'.resources = ids w.resources
  /-- a record without an owner is that of a file -/
  released : ∀ x, some x ∈ w.resources →
    (w.log.count (.destroyed x.id) = 1 ↔ x.released = true) ∧
      (x.released = true → cfg.kind x.id = .file)
  /-- and it is given up without another close -/
  retries : ∀ b x env w', w.attempt = some b → b.stage = .next →
    w.resources[b.index]? = some (some x) → x.released = true → (cfg.kind x.id).phase = b.phase →
    env.frameFails = false → step cfg w (.tick env) = some w' →
    w' = (w.emit [.cleanup x.id]).retire b x.id
  /-- an attempt that succeeded has closed and destroyed every owner, and others do nothing -/
  finished : w.state = .finished → w.resources = [] ∧ w.attempt = none ∧
    (∀ r ∈ adopted w.log, w.log.count (.submitted r) = 1 ∧ w.log.count (.destroyed r) = 1) ∧
    ∀ b c w', step cfg w (.finish b c) = some w' →
      ∃ e, w' = w.emit [e] ∧ (e = .nothingToDo ∨ ∃ x, e = .rejected x)

section
variable (h : Inv cfg w)

include h

theorem step_own {r : Id} {b : Bool} (hs : step cfg w (.own r b) = some w') :
    w' = w.own cfg r b := by
  unfold step at hs
  rw [if_neg (by simp [h.pos.terminated])] at hs
  cases hs
  rfl

theorem step_finish {b c : Bool} (hs : step cfg w (.finish b c) = some w') : w' = w.finish b c := by
  unfold step at hs
  rw [if_neg (by simp [h.pos.terminated])] at hs
  cases hs
  rfl

theorem step_tick {env : Env} (hs : step cfg w (.tick env) = some w') :
    w.tick cfg env = some w' := by
  unfold step at hs
  rwa [if_neg (by simp [h.pos.terminated])] at hs

theorem own_adopts {r : Id} {b : Bool} (hs : step cfg w (.own r b) = some w') :
    NotAdopted w w' r ∨ w.state = .opened ∧ (w.res r).holder = .caller ∧
      (w'.res r).holder = .scope ∧ w'.resources = w.resources ++ [some ⟨r, false⟩] := by
  rw [step_own h hs]
  unfold World.own
  split
  · exact .inl ⟨_, rfl⟩
  rename_i hopen
  split
  · exact .inl ⟨_, rfl⟩
  rename_i hcaller
  split
  · exact .inl ⟨_, rfl⟩
  · refine .inr ⟨not_not.mp hopen, (not_not.mp hcaller).1, ?_, rfl⟩
    simp [World.emit, World.setRes]

theorem finish_active (ha : w.state = .active) {b c : Bool}
    (hs : step cfg w (.finish b c) = some w') : ∃ e, w' = w.emit [.rejected e] := by
  rw [step_finish h hs]
  unfold World.finish
  rw [ha]
  split
  · exact ⟨_, rfl⟩
  · split <;> exact ⟨_, rfl⟩

theorem finish_finished (hf : w.state = .finished) {b c : Bool}
    (hs : step cfg w (.finish b c) = some w') :
    ∃ e, w' = w.emit [e] ∧ (e = .nothingToDo ∨ ∃ x, e = .rejected x) := by
  rw [step_finish h hs]
  unfold World.finish
  rw [hf]
  split
  · exact ⟨_, rfl, .inr ⟨_, rfl⟩⟩
  · split
    · exact ⟨_, rfl, .inr ⟨_, rfl⟩⟩
    · exact ⟨_, rfl, .inl rfl⟩

theorem destroyed_iff (r : Id) : w.log.count (.destroyed r) = 1 ↔ (w.res r).holder = .gone := by
  rw [(h.books.res r).destroyed]
  split <;> simp_all

/-- without records, every adopted owner is gone -/
theorem all_gone (hr : w.resources = []) {r : Id} (hm : r ∈ adopted w.log) :
    (w.res r).holder = .gone := by
  have hrec := h.books.records
  rw [hr] at hrec
  have hret := List.filter_eq_nil_iff.mp hrec.symm r hm
  exact h.books.retired r (by simpa using hret)

theorem submitted_of_gone {r : Id} (hg : (w.res r).holder = .gone) :
    w.log.count (.submitted r) = 1 := by
  rw [(h.books.res r).submitted, (h.books.res r).gone hg]
  rfl

theorem cleanup_admission {a : Act} (hs : step cfg w a = some w') {r : Id}
    (hne : w'.log.count (.cleanup r) ≠ w.log.count (.cleanup r)) : r ∈ ids w.resources ∧
      ((cfg.kind r).phase = .closeResources →
        ∀ r' ∈ ids w.resources, (cfg.kind r').phase = .closeResources) := by
  obtain ⟨b, x, hb, hx, rfl, hph⟩ := cleanup_step hs hne
  refine ⟨mem_ids.mpr ⟨x, List.mem_of_getElem? hx, rfl⟩, fun hc r' hr' => ?_⟩
  obtain ⟨y, hy, rfl⟩ := mem_ids.mp hr'
  exact (h.pos.attempt b hb).admission (hph.symm.trans hc) y hy

theorem tick_released {b : Attempt} {x : Rec} {env : Env} (hb : w.attempt = some b)
    (hst : b.stage = .next) (hx : w.resources[b.index]? = some (some x)) (hrel : x.released = true)
    (hph : (cfg.kind x.id).phase = b.phase) (hf : env.frameFails = false)
    (hs : step cfg w (.tick env) = some w') : w' = (w.emit [.cleanup x.id]).retire b x.id := by
  have hfile := h.pos.files x (List.mem_of_getElem? hx) hrel
  have htick := step_tick h hs
  rw [hfile] at hph
  simp only [World.tick, hb, hst, World.round, hx, hfile, if_pos hph, World.beginFinish, hf, hrel,
    Bool.false_eq_true, if_false, if_true, Option.some.injEq] at htick
  exact htick.symm

/-- only the attempt itself fails -/
theorem ids_of_failed {a : Act} (hs : step cfg w a = some w') (hw : w.state = .active)
    (hf : w'.state = .interrupted) : ids w'.resources = ids w.resources := by
  have hne : w'.state ≠ w.state := by
    rw [hf, hw]
    exact nofun
  have hstep := hs
  unfold step at hstep
  rw [if_neg (by simp [h.pos.terminated])] at hstep
  cases a with
  | own r b =>
    rw [step_own h hs] at hne
    refine absurd ?_ hne
    unfold World.own
    repeat' split
    all_goals rfl
  | finish b c =>
    obtain ⟨e, rfl⟩ := finish_active h hw hs
    exact absurd rfl hne
  | tick env => exact tick_ids_of_failed hw hstep hf
  | closeDone r s =>
    obtain ⟨-, rfl⟩ := by simpa using hstep
    unfold World.closeDone
    dsimp only
    split <;> rfl
  | startIo r =>
    cases hstep
    unfold World.startIo
    split <;> rfl
  | endIo r =>
    obtain ⟨-, rfl⟩ := by simpa using hstep
    rfl
  | userClose r s =>
    obtain ⟨-, rfl⟩ := by simpa using hstep
    unfold World.userClose
    split <;> rfl

theorem inv_tidy (hsealed : Sealed w) : Tidy cfg w where
  running := h.pos.terminated
  owns := fun r b w' hs => (own_adopts h hs).imp_right And.right
  closed := fun hb r b w' hs => (own_adopts h hs).resolve_right fun ho => hsealed hb ho.1
  overlaps := fun ha b c w' hs => finish_active h ha hs
  once := by
    intro r
    constructor
    · rw [(h.books.res r).submitted]
      split <;> omega
    · rw [(h.books.res r).destroyed]
      split <;> omega
  ordered := h.books.ordered
  cleans := fun a w' r hs hne => cleanup_admission h hs hne
  keeps := h.books.records
  retires := ⟨h.books.retiredOnce, fun r hr => (destroyed_iff h r).mpr (h.books.retired r hr)⟩
  fails := fun a w' hs hw hf => ids_of_failed h hs hw hf
  released := fun x hx =>
    ⟨(destroyed_iff h x.id).trans (h.books.released x hx).symm, h.pos.files x hx⟩
  retries := fun b x env w' hb hst hx hrel hph hf hs => tick_released h hb hst hx hrel hph hf hs
  finished := by
    intro hfin
    have hr := h.pos.finished hfin
    refine ⟨hr, ?_, fun r hm => ?_, fun b c w' hs => finish_finished h hfin hs⟩
    · cases ha : w.attempt with
      | none => rfl
      | some b =>
        have hactive := h.pos.active ha
        rw [hfin] at hactive
        cases hactive
    · have hg := all_gone h hr hm
      exact ⟨submitted_of_gone h hg, (destroyed_iff h r).mpr hg⟩

end

theorem run_sealed {as : List Act} (hr : (sys cfg).run (sys cfg).init as = some w)
    (hacc : (sys cfg).Meets Accepts (sys cfg).init as) : Sealed w :=
  (Sys.run_inv_meets (P := fun v => Inv cfg v ∧ Sealed v)
    (fun _ _ _ hi hc hs => ⟨step_inv hi.1 hc hs, sealed_step hi.1 hi.2 hs⟩)
    ⟨inv_init, nofun⟩ hacc hr).2

/-- `resource_scope`, as long as libuv accepts each file close that is submitted -/
theorem scope_finishes (cfg : Config) (as : List Act) (w : World)
    (hr : (sys cfg).run (sys cfg).init as = some w)
    (hacc : (sys cfg).Meets Accepts (sys cfg).init as) : Tidy cfg w :=
  inv_tidy (run_inv hr hacc) (run_sealed hr hacc)

end

/-- a connection, a listener and files -/
def exampleConfig : Config :=
  ⟨fun r => match r with
    | 0 => .tcpConnection
    | 1 => .tcpListener
    | _ => .file, fun _ => true⟩

/-- the listener goes first although the connection came first; the close of the file fails, and
the second attempt only gives its record up -/
def retryRun : List Act :=
  [.own 0 false, .own 1 false, .own 2 false, .finish true false, .tick {}, .tick {},
    .closeDone 1 0, .tick {}, .tick {}, .tick {}, .tick {}, .closeDone 0 0, .tick {}, .tick {},
    .tick {}, .closeDone 2 (-5), .tick {}, .own 3 false, .finish true false, .tick {}, .tick {},
    .tick {}, .tick {}, .tick {}, .tick {}, .tick {}, .tick {}]

theorem scope_finishes_retryRun : ∃ w, (sys exampleConfig).run (sys exampleConfig).init retryRun
    = some w ∧ w.state = .finished ∧ Tidy exampleConfig w :=
  ⟨_, rfl, rfl, scope_finishes exampleConfig retryRun _ rfl (by decide)⟩

/-! ## libuv rejects the close of a file -/

/-- the step submits the close of the file `r`, and libuv rejects it -/
structure Rejects (cfg : Config) (w : World) (env : Env) (r : Id) : Prop where
  file : cfg.kind r = .file
  record : ∃ a, w.attempt = some a ∧ a.phase = .closeResources ∧ a.stage = .next ∧
    w.resources[a.index]? = some (some ⟨r, false⟩)
  opened : (w.res r).native = .opened
  idle : (w.res r).active = false
  frame : env.frameFails = false
  rejected : env.submit < 0

/-- what the step should lead to: the attempt fails with the error, and the scope keeps an open
file with its views for another attempt -/
structure KeepsFile (w' : World) (r : Id) (error : Int) : Prop where
  running : w'.terminated = false
  failed : w'.state = .interrupted ∧ w'.log.getLast? = some (.failed (.status error))
  opened : (w'.res r).native = .opened
  owned : (w'.res r).holder = .scope ∧ some ⟨r, false⟩ ∈ w'.resources
  view : (w'.res r).view = true

/-- The record does not tell a rejected submission from a completed close: it invalidates the
views and destroys the file, which is open, and the process ends. -/
theorem rejected_close_terminates (cfg : Config) (w w' : World) (env : Env) (r : Id)
    (hrej : Rejects cfg w env r) (hs : step cfg w (.tick env) = some w') :
    ¬ KeepsFile w' r env.submit ∧ w'.terminated = true ∧ (w'.res r).view = false ∧
      ∀ a, step cfg w' a = none := by
  obtain ⟨a, ha, hph, hst, hi⟩ := hrej.record
  have htick : w.tick cfg env = some w' := by
    unfold step at hs
    split at hs
    · cases hs
    · exact hs
  have hkind : Kind.file.phase = a.phase := hph.symm
  have hround : w' = (w.emit [.cleanup r]).finishFile cfg a r env := by
    simp only [World.tick, ha, hst, World.round, hi, if_pos hkind, World.beginFinish, hrej.frame,
      hrej.file, Bool.false_eq_true, if_false, Option.some.injEq] at htick
    exact htick.symm
  have hend : w' = (w.emit [.cleanup r]).endFinish cfg a r env.submit := by
    rw [hround]
    simp [World.finishFile, World.emit, hrej.opened, hrej.idle, hrej.rejected]
  have hterm : w'.terminated = true ∧ (w'.res r).view = false := by
    rw [hend]
    simp [World.endFinish, World.releaseOwner, World.destroyOwner, World.emit, World.setRes,
      hrej.file, hrej.opened]
  refine ⟨fun hk => ?_, hterm.1, hterm.2, fun b => if_pos hterm.1⟩
  have hrun := hk.running
  rw [hterm.1] at hrun
  cases hrun

/-- one file, and libuv has no memory for the close -/
def rejectedRun : List Act :=
  [.own 2 false, .finish true false, .tick {}, .tick {}]

theorem rejected_close_terminates_rejectedRun : ∃ w w',
    (sys exampleConfig).run (sys exampleConfig).init rejectedRun = some w ∧
    Rejects exampleConfig w ⟨false, false, -12⟩ 2 ∧
    step exampleConfig w (.tick ⟨false, false, -12⟩) = some w' ∧
    ¬ KeepsFile w' 2 (-12) :=
  have hrej : Rejects exampleConfig _ ⟨false, false, -12⟩ 2 :=
    ⟨rfl, ⟨_, rfl, rfl, rfl, rfl⟩, rfl, rfl, rfl, by decide⟩
  ⟨_, _, rfl, hrej, rfl, (rejected_close_terminates exampleConfig _ _ _ 2 hrej rfl).1⟩

/-- a file whose close is rejected ends the process -/
theorem rejected_close_unsafe : ∃ w w',
    (sys exampleConfig).run (sys exampleConfig).init rejectedRun = some w ∧
    Rejects exampleConfig w ⟨false, false, -12⟩ 2 ∧
    step exampleConfig w (.tick ⟨false, false, -12⟩) = some w' ∧
    w'.terminated = true ∧ (w'.res 2).view = false ∧ (w'.res 2).native = .opened :=
  ⟨_, _, rfl, ⟨rfl, ⟨_, rfl, rfl, rfl, rfl⟩, rfl, rfl, rfl, by decide⟩, rfl, rfl, rfl, rfl⟩

end Resource
