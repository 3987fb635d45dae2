import Uvpp.Wait.Model

/-!
# A step changes the record of one source

* `Confined t w w'`      no record but that of `t` changes;
* `Quiet t w w'`         and nothing that `t` retains, unless it is closing;
* `Act.target`           the source that an action is about;
* `step_confined`        every step is confined to its target.
-/

namespace Wait

def Confined (t : Source) (w w' : World) : Prop := ∀ s, s ≠ t → w'.src s = w.src s

namespace Confined
variable {cfg : Config} {t : Source} {w v u : World}

theorem trans (h : Confined t w v) (h' : Confined t v u) : Confined t w u := fun s hs =>
  (h' s hs).trans (h s hs)

theorem of_same (h : v.src = w.src) : Confined t w v := fun s _ => congrFun h s

theorem setSrc (w : World) (t : Source) (f : Src → Src) : Confined t w (w.setSrc t f) := by
  intro s hs
  rw [World.setSrc_src, if_neg hs]

end Confined

/-- the operation that gets an fs event -/
def Event.fetches : Event → Option Op
  | .resumed o (.value (.fs _)) | .ended o (.value (.fs _)) => some o
  | _ => none

/-! ## Steps that leave the retained outcomes alone -/

/-- no record but that of `t` changes, what is retained changes only on sources that are closing, and
nothing is handed out -/
structure Quiet (t : Source) (w w' : World) : Prop where
  confined : Confined t w w'
  closing : ∀ s, (w.src s).closing = true → (w'.src s).closing = true
  pending : ∀ s, (w'.src s).pendingEvent = (w.src s).pendingEvent ∨ (w'.src s).closing = true
  log : ∃ l, w'.log = w.log ++ l ∧ l.filterMap Event.fetches = []

namespace Quiet
variable {cfg : Config} {t : Source} {w v u : World}

theorem refl (w : World) : Quiet t w w :=
  ⟨fun _ _ => rfl, fun _ => id, fun _ => .inl rfl, [], by simp, rfl⟩

theorem trans (h : Quiet t w v) (h' : Quiet t v u) : Quiet t w u := by
  obtain ⟨l, hl, hf⟩ := h.log
  obtain ⟨l', hl', hf'⟩ := h'.log
  refine ⟨h.confined.trans h'.confined, fun s hs => h'.closing s (h.closing s hs), fun s => ?_,
    l ++ l', ?_, ?_⟩
  · rcases h'.pending s with hp | hc
    · rcases h.pending s with hp' | hc
      · exact .inl (hp.trans hp')
      · exact .inr (h'.closing s hc)
    · exact .inr hc
  · rw [hl', hl, List.append_assoc]
  · rw [List.filterMap_append, hf, hf', List.append_nil]

/-- the log and the sources are the same -/
theorem of_same (hsrc : v.src = w.src) (hlog : v.log = w.log) : Quiet t w v :=
  ⟨.of_same hsrc, fun s => by rw [hsrc]; exact id, fun s => .inl (by rw [hsrc]), [], by simp [hlog], rfl⟩

theorem setSrc (w : World) (s : Source) {f : Src → Src}
    (hc : (w.src s).closing = true → (f (w.src s)).closing = true)
    (hp : (f (w.src s)).pendingEvent = (w.src s).pendingEvent ∨ (f (w.src s)).closing = true) :
    Quiet s w (w.setSrc s f) := by
  refine ⟨.setSrc w s f, fun s' => ?_, fun s' => ?_, [], (List.append_nil _).symm, rfl⟩
  · by_cases hs : s' = s
    · subst hs
      simpa using hc
    · simp [hs]
  · by_cases hs : s' = s
    · subst hs
      simpa using hp
    · simp [hs]

theorem emit (w : World) {e : Event} (he : e.fetches = none) : Quiet t w (w.emit e) :=
  ⟨fun _ _ => rfl, fun _ => id, fun _ => .inl rfl, [e], rfl, by simp [he]⟩

theorem claim (w : World) (s : Source) (o : Op) : Quiet s w (w.claim s o) := setSrc w s id (.inl rfl)

theorem arm (w : World) (s : Source) : Quiet s w (w.arm s) := setSrc w s id (.inl rfl)

theorem disarm (w : World) (s : Source) : Quiet s w (w.disarm s) := setSrc w s id (.inl rfl)

theorem release (w : World) (s : Source) (o : Op) : Quiet s w (w.release s o) := by
  unfold World.release
  split
  · exact setSrc w s id (.inl rfl)
  · exact refl w

theorem register (w : World) (o : Op) (c : Option CancelId) : Quiet t w (w.register o c).1 := by
  cases c with
  | none => exact refl w
  | some => exact of_same rfl rfl

theorem unregister (w : World) (o : Op) : Quiet t w (w.unregister o) := by
  unfold World.unregister
  split
  · exact refl w
  · exact of_same rfl rfl

theorem suspend (w : World) (o : Op) : Quiet t w (w.suspend o) :=
  (of_same rfl rfl : Quiet t w (w.setOp o _)).trans (emit _ rfl)

theorem resume (w : World) (o : Op) {r : Outcome} (hr : (Event.resumed o r).fetches = none) :
    Quiet t w (w.resume o r) :=
  ((of_same rfl rfl : Quiet t w (w.setOp o _)).trans (emit _ hr)).trans (of_same rfl rfl)

theorem endInline (w : World) (o : Op) {r : Outcome} (hr : (Event.ended o r).fetches = none) :
    Quiet t w (w.endInline o r) :=
  (of_same rfl rfl : Quiet t w (w.setOp o _)).trans (emit _ hr)

theorem releaseAndResume (w : World) (s : Source) (o : Op) {r : Outcome}
    (hr : (Event.resumed o r).fetches = none) : Quiet s w (w.releaseAndResume s o r) :=
  ((release w s o).trans (unregister _ o)).trans (resume _ o hr)

theorem deliver (w : World) (s : Source) {r : Outcome}
    (hr : ∀ o, (Event.resumed o r).fetches = none) : Quiet s w (w.deliver s r) := by
  unfold World.deliver
  split
  · exact refl w
  · rename_i o _
    exact ((setSrc w s id (.inl rfl)).trans (unregister _ o)).trans (resume _ o (hr o))

/-! ### `await_suspend` -/

theorem awaitRead (w : World) (q : Request) : Quiet q.source w (w.awaitRead q) := by
  unfold World.awaitRead
  split
  · exact endInline w q.op rfl
  split
  · exact endInline w q.op rfl
  split
  · exact ((claim w q.source q.op).trans (release _ _ _)).trans (endInline _ _ rfl)
  have hreg := ((claim w q.source q.op).trans (arm _ q.source)).trans (register _ q.op q.task)
  split
  · rename_i v heq
    rw [heq] at hreg
    exact hreg.trans (suspend v q.op)
  · rename_i v heq
    rw [heq] at hreg
    exact (((hreg.trans (disarm v q.source)).trans (release _ _ _)).trans (unregister _ _)).trans
      (endInline _ _ rfl)

theorem claimed {w v : World} {q : Request} {b : Bool}
    (h : (w.claim q.source q.op).register q.op q.task = (v, b)) : Quiet q.source w v := by
  have hreg := (claim w q.source q.op).trans (register _ q.op q.task)
  rw [h] at hreg
  exact hreg

theorem awaitReceive (w : World) (q : Request) : Quiet q.source w (w.awaitReceive q) := by
  unfold World.awaitReceive
  split
  · exact endInline w q.op rfl
  split
  · rename_i v heq
    exact ((claimed heq).trans (release v _ _)).trans (endInline _ _ rfl)
  · rename_i v heq
    have hreg := claimed heq
    split
    · exact ((hreg.trans (release v _ _)).trans (unregister _ _)).trans (endInline _ _ rfl)
    · exact (hreg.trans (arm v _)).trans (suspend _ _)

theorem claimAndRegister (w : World) (q : Request) : Quiet q.source w (w.claimAndRegister q) := by
  unfold World.claimAndRegister
  split
  · exact endInline w q.op rfl
  split
  · rename_i v heq
    exact ((claimed heq).trans (release v _ _)).trans (endInline _ _ rfl)
  · rename_i v heq
    exact (claimed heq).trans (suspend v _)

theorem awaitPoll (cfg : Config) (w : World) (q : Request) : Quiet q.source w (w.awaitPoll cfg q) := by
  unfold World.awaitPoll
  split
  · exact endInline w q.op rfl
  split
  · exact ((claim w q.source q.op).trans (release _ _ _)).trans (endInline _ _ rfl)
  split
  · rename_i v heq
    exact ((claimed heq).trans (release v _ _)).trans (endInline _ _ rfl)
  · rename_i v heq
    have hreg := claimed heq
    split
    · exact ((hreg.trans (unregister v _)).trans (release _ _ _)).trans (endInline _ _ rfl)
    · exact (hreg.trans (arm v _)).trans (suspend _ _)

theorem awaitSignal (w : World) (q : Request) : Quiet q.source w (w.awaitSignal q) := by
  unfold World.awaitSignal
  split
  · exact (setSrc w q.source id (.inl rfl)).trans (endInline _ _ rfl)
  · exact claimAndRegister w q

theorem awaitExit (w : World) (q : Request) : Quiet q.source w (w.awaitExit q) := by
  unfold World.awaitExit
  split
  · exact endInline w _ rfl
  · exact claimAndRegister w q

/-- every `co_await` but that of an fs-event source which retains something -/
theorem await {q : Request} (hq : w.refusal q = none → cfg.family q.source = .fsEvent →
    (w.src q.source).pendingEvent = none) : Quiet q.source w (w.await cfg q) := by
  have hb : Quiet q.source w (w.begin q) := of_same rfl rfl
  unfold World.await
  split
  · rename_i r hr
    refine hb.trans (endInline _ _ ?_)
    unfold World.refusal at hr
    split_ifs at hr <;> cases hr <;> rfl
  rename_i hnone
  cases hf : cfg.family q.source with
  | read => exact hb.trans (awaitRead _ q)
  | receive => exact hb.trans (awaitReceive _ q)
  | signal => exact hb.trans (awaitSignal _ q)
  | poll => exact hb.trans (awaitPoll cfg _ q)
  | process => exact hb.trans (awaitExit _ q)
  | fsEvent =>
    have hp : ((w.begin q).src q.source).pendingEvent = none := hq hnone hf
    simp only [World.awaitFsEvent, hp]
    exact hb.trans (claimAndRegister _ q)

/-! ### stop, close and the other callbacks -/

theorem cancelWaiter (cfg : Config) (w : World) (s : Source) : Quiet s w (w.cancelWaiter cfg s) := by
  unfold World.cancelWaiter
  split
  · exact (disarm w s).trans (deliver _ s fun _ => rfl)
  · exact deliver w s fun _ => rfl

theorem onStopRequested (cfg : Config) (w : World) (o : Op) :
    Quiet (w.op o).source w (w.onStopRequested cfg o) := by
  have hown : Quiet (w.op o).source w (if (w.src (w.op o).source).slot = some o then
      (w.disarm (w.op o).source).releaseAndResume (w.op o).source o (.error .canceled) else w) := by
    split
    · exact (disarm w _).trans (releaseAndResume _ _ _ rfl)
    · exact refl w
  unfold World.onStopRequested
  cases cfg.family (w.op o).source with
  | read => exact hown
  | receive => exact hown
  | signal | fsEvent | poll | process => exact cancelWaiter cfg w _

theorem requestStop (w : World) (c : CancelId) : Quiet t w (w.requestStop c) := by
  unfold World.requestStop
  split
  · exact refl w
  · exact of_same rfl rfl

theorem submit (w : World) (s : Source) : Quiet s w (w.submit s) := setSrc w s id (.inl rfl)

theorem requestClose (cfg : Config) (w : World) (s : Source) :
    Quiet s w (w.requestClose cfg s) := by
  have hbegin : Quiet s w (w.setSrc s ({ · with closing := true })) :=
    setSrc w s (fun _ => rfl) (.inl rfl)
  have hpush : ∀ v f, Quiet s v (World.push v f) := fun v f => of_same rfl rfl
  unfold World.requestClose
  split
  · exact refl w
  cases cfg.family s with
  | read | receive => exact hbegin.trans (submit _ s)
  | process =>
    dsimp only
    split
    · exact refl w
    · exact hbegin.trans (submit _ s)
  | poll => exact (hbegin.trans (hpush _ _)).trans (cancelWaiter cfg _ s)
  | signal | fsEvent =>
    exact ((hbegin.trans (disarm _ s)).trans (hpush _ _)).trans (cancelWaiter cfg _ s)

/-- the retained outcome goes when the source is closing already -/
theorem closeTail (cfg : Config) (w : World) (s : Source) (hc : (w.src s).closing = true) :
    Quiet s w (w.closeTail cfg s) := by
  unfold World.closeTail
  split
  · exact (setSrc w s id (.inr hc)).trans (submit _ s)
  · exact submit w s

theorem ownerRequestClose (cfg : Config) (w : World) (s : Source) (other : Bool) :
    Quiet s w (w.ownerRequestClose cfg s other) := by
  unfold World.ownerRequestClose
  split
  · exact refl w
  · exact requestClose cfg w s

theorem destroy (cfg : Config) (w : World) (s : Source) (other : Bool) :
    Quiet s w (w.destroy cfg s other) := by
  unfold World.destroy
  split
  · exact of_same rfl rfl
  · exact (setSrc w s id (.inl rfl)).trans (requestClose cfg _ s)

theorem onAlloc (cfg : Config) (w : World) (s : Source) : Quiet s w (w.onAlloc cfg s) := by
  unfold World.onAlloc
  split
  · exact of_same rfl rfl
  · exact refl w

theorem onRead (w : World) (s : Source) (nread : Int) : Quiet s w (w.onRead s nread) := by
  unfold World.onRead
  split
  · exact of_same rfl rfl
  split
  · exact refl w
  · exact (disarm w s).trans (releaseAndResume _ _ _ rfl)

theorem onReceive (w : World) (s : Source) (nread : Int) (peer : Bool) (flags : BitVec 32) :
    Quiet s w (w.onReceive s nread peer flags) := by
  unfold World.onReceive
  split
  · exact refl w
  split
  · exact refl w
  · exact (disarm w s).trans (releaseAndResume _ _ _ rfl)

theorem onSignal (w : World) (s : Source) (signum : Nat) : Quiet s w (w.onSignal s signum) := by
  unfold World.onSignal
  split
  · exact refl w
  split
  · exact deliver w s fun _ => rfl
  · exact setSrc w s id (.inl rfl)

theorem onExit (cfg : Config) (w : World) (s : Source) (x : ProcessExit) :
    Quiet s w (w.onExit cfg s x) := by
  have hexit : Quiet s w (w.setSrc s ({ · with exit := some x, armed := false })) :=
    setSrc w s id (.inl rfl)
  unfold World.onExit
  dsimp only
  split
  · exact (hexit.trans (requestClose cfg _ s)).trans (deliver _ s fun _ => rfl)
  · exact hexit.trans (deliver _ s fun _ => rfl)

/-- every native callback but that of fs-event sources -/
theorem notify (cfg : Config) (w : World) (s : Source) {n : Notice}
    (hn : ∀ filename events status throws, n ≠ .fsEvent filename events status throws) :
    Quiet s w (w.notify cfg s n) := by
  cases n with
  | read nread => exact onRead w s nread
  | datagram nread peer flags => exact onReceive w s nread peer flags
  | signal signum => exact onSignal w s signum
  | fsEvent filename events status throws => exact absurd rfl (hn filename events status throws)
  | poll status events => exact (disarm w s).trans (deliver _ s fun _ => rfl)
  | exit status signal => exact onExit cfg w s _

end Quiet

namespace Confined
variable {t : Source} {w v : World}

theorem deliver (w : World) (t : Source) (r : Outcome) : Confined t w (w.deliver t r) := by
  unfold World.deliver
  split
  · exact of_same rfl
  · exact ((setSrc w t _).trans (Quiet.unregister _ _).confined).trans (of_same rfl)

theorem endInline (w : World) (o : Op) (r : Outcome) : Confined t w (w.endInline o r) := of_same rfl

/-- also of what is retained -/
theorem await (cfg : Config) (w : World) (q : Request) : Confined q.source w (w.await cfg q) := by
  by_cases hq : w.refusal q = none → cfg.family q.source = .fsEvent →
      (w.src q.source).pendingEvent = none
  · exact (Quiet.await hq).confined
  obtain ⟨hr, hq⟩ := Classical.not_imp.mp hq
  obtain ⟨hf, hq⟩ := Classical.not_imp.mp hq
  have hb : Confined q.source w (w.begin q) := of_same rfl
  unfold World.await
  rw [hr]
  dsimp only
  rw [hf]
  dsimp only
  unfold World.awaitFsEvent
  split
  · exact (hb.trans (setSrc _ _ _)).trans (endInline _ _ _)
  · exact hb.trans (Quiet.claimAndRegister _ q).confined

theorem closeTail (cfg : Config) (w : World) (t : Source) : Confined t w (w.closeTail cfg t) := by
  unfold World.closeTail
  split
  · exact (setSrc w t _).trans (setSrc _ t _)
  · exact setSrc w t _

theorem notify (cfg : Config) (w : World) (t : Source) (n : Notice) :
    Confined t w (w.notify cfg t n) := by
  cases n with
  | fsEvent filename events status throws =>
    show Confined t w (w.onFsEvent t (.make filename events status throws))
    unfold World.onFsEvent
    split
    · exact of_same rfl
    split
    · split
      · exact deliver w t _
      · exact setSrc w t _
    · split
      · exact of_same rfl
      split
      · exact deliver w t _
      split
      · exact setSrc w t _
      · exact setSrc w t _
  | read | datagram | signal | poll | exit => exact (Quiet.notify cfg w t (by simp)).confined

end Confined

/-- the source that an action is about -/
def Act.target (w : World) : Act → Option Source
  | .await q => some q.source
  | .requestClose s _ | .destroy s _ | .alloc s | .notify s _ => some s
  | .tick =>
    match w.stack with
    | .stopping c :: _ => (w.stops c).pop.map fun p => (w.op p.1.1).source
    | .closeTail s :: _ => some s
    | _ => none
  | .enter | .ret | .requestStop _ => none

theorem step_confined {cfg : Config} {w w' : World} {a : Act} (hs : step cfg w a = some w')
    {s : Source} (ht : a.target w ≠ some s) : w'.src s = w.src s := by
  have hne : ∀ t, a.target w = some t → s ≠ t := fun t h hst => ht (hst ▸ h)
  unfold step at hs
  split at hs
  · cases hs
  cases a with
  | enter | ret =>
    dsimp only at hs
    split at hs <;> cases hs
    rfl
  | tick =>
    dsimp only at hs
    unfold World.tick at hs
    split at hs
    · rename_i c k hk
      split at hs
      · cases hs
        rfl
      · rename_i o t hp
        cases hs
        exact (Quiet.onStopRequested cfg _ _).confined s (hne _ (by simp [Act.target, hk, hp]; rfl))
    · rename_i s' k hk
      cases hs
      exact Confined.closeTail cfg _ _ s (hne _ (by simp [Act.target, hk]))
    · cases hs
  | await q =>
    obtain ⟨-, rfl⟩ := by simpa using hs
    exact Confined.await cfg w q s (hne _ rfl)
  | requestStop c =>
    obtain ⟨-, rfl⟩ := by simpa using hs
    unfold World.requestStop
    split <;> rfl
  | requestClose s' other =>
    obtain ⟨-, rfl⟩ := by simpa using hs
    exact (Quiet.ownerRequestClose cfg w s' other).confined s (hne _ rfl)
  | destroy s' other =>
    obtain ⟨-, rfl⟩ := by simpa using hs
    exact (Quiet.destroy cfg w s' other).confined s (hne _ rfl)
  | alloc s' =>
    obtain ⟨-, rfl⟩ := by simpa using hs
    unfold World.onAlloc
    split <;> rfl
  | notify s' n =>
    obtain ⟨-, rfl⟩ := by simpa using hs
    exact Confined.notify cfg w s' n s (hne _ rfl)

end Wait
