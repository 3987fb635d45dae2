import Uvpp.Pool.Model

/-!
# What one step does

`Form w w'` lists the steps of the machine by what they change; `step_form` says that there are no
others.  The two things a step takes for granted, `Sound`, are part of what all runs keep.
-/

namespace Pool
open Cancel (enlist delist)

/-- the deliveries under way: the file, the next awaiter and the status -/
def deliveries : List Frame → List (File × Option Op × Int)
  | [] => []
  | .delivering f waiter status :: k => (f, waiter, status) :: deliveries k
  | _ :: k => deliveries k

/-- the claim of an operation of the kind `k` on its file -/
def claimed (file : File → FileState) (k : Kind) (b : Bool) : Option File → File → FileState
  | none => file
  | some f => Function.update file f ((file f).setActive b k)

/-- the cleanup of a file request -/
def cleaned (o : Op) : Kind → List Event
  | .resolve => []
  | _ => [.cleanup o]

/-- what happens before an operation ends without suspending: nothing, or a rejection -/
inductive Prelude (o : Op) (k : Kind) (f : Option File) : List Event → Prop
  | none : Prelude o k f []
  | rejected (hk : k ≠ .close) : Prelude o k f (.rejected o k f :: cleaned o k)

inductive Form (w : World) : World → Prop
  | runs (s : List Frame) (t : CancelId → Cancel.Stops Op Unit)
      (hs : deliveries s = deliveries w.stack) (ht : ∀ c, (t c).regs = (w.stops c).regs) :
      Form w { w with stack := s, stops := t }
  | owners (h : Owner → Option File) (b : Bool)
      (hkept : ∀ f, (w.file f).isOpen = true → (∃ x, w.holds x = some f) → ∃ x, h x = some f)
      (hfrom : ∀ x f, h x = some f → ∃ y, w.holds y = some f)
      (hresult : ∀ o, w.alive (.result o) = false → h (.result o) = w.holds (.result o)) :
      Form w { w with holds := h, terminated := b }
  | made (m : Making) (hst : (w.op m.op).status = .fresh)
      (hnew : m.kind = .openFile → w.made m.newFile = false) : Form w (w.make m)
  | ended (o : Op) (code : Int) (i : Bool) (es : List Event) (hst : (w.op o).status = .made)
      (hes : Prelude o (w.op o).kind (w.op o).file es)
      (hcode : (w.op o).kind = .close → ∀ f, (w.op o).file = some f →
        (w.file f).closeComplete = true → code = (w.file f).closeStatus) :
      Form w { w with
        op := Function.update w.op o
          { w.op o with status := .finished, code := code, inputs := i }
        log := w.log ++ (es ++ [.ended o (w.op o).kind (w.op o).file code]) }
  | threw (o : Op) (hst : (w.op o).status = .made) :
      Form w { w with
        op := Function.update w.op o { w.op o with status := .finished }
        log := w.log ++ [.threw o] }
  | refused (o : Op) (f : File) (code : Int) (hst : (w.op o).status = .made)
      (hk : (w.op o).kind = .close) (hf : (w.op o).file = some f)
      (hopen : (w.file f).isOpen = true) :
      Form w { w with
        op := Function.update w.op o
          { w.op o with status := .finished, code := code, next := (w.file f).closeWaiters }
        file := Function.update w.file f { w.file f with closeWaiters := none }
        log := w.log ++ [.rejected o .close (some f), .cleanup o, .ended o .close (some f) code] }
  | submitted (o : Op) (code : Int) (task : Option CancelId) (hst : (w.op o).status = .made)
      (hk : (w.op o).kind ≠ .close)
      (hclaim : (w.op o).kind.transfers = true → ∃ f, (w.op o).file = some f ∧
        (w.file f).isOpen = true ∧ (w.file f).active (w.op o).kind = false) :
      Form w { w with
        op := Function.update w.op o
          { w.op o with
            status := .suspended, submitted := true, code := code
            cancellation := task.or (w.op o).cancellation }
        file := claimed w.file (w.op o).kind true (w.op o).file
        native := Function.update w.native o true
        stops := enlist w.stops o task
        log := w.log ++ [.submitted o (w.op o).kind (w.op o).file, .suspended o] }
  | closing (o : Op) (f : File) (code : Int) (hst : (w.op o).status = .made)
      (hk : (w.op o).kind = .close) (hf : (w.op o).file = some f)
      (hopen : (w.file f).isOpen = true) (hread : (w.file f).readActive = false)
      (hwrite : (w.file f).writeActive = false) :
      Form w { w with
        op := Function.update w.op o
          { w.op o with status := .suspended, code := code, next := (w.file f).closeWaiters }
        file := Function.update w.file f
          { w.file f with closeActive := true, closeWaiters := some o }
        native := Function.update w.native o true
        log := w.log ++ [.submitted o .close (some f), .suspended o] }
  | joined (o : Op) (f : File) (hst : (w.op o).status = .made) (hk : (w.op o).kind = .close)
      (hf : (w.op o).file = some f) (hactive : (w.file f).closeActive = true) :
      Form w { w with
        op := Function.update w.op o
          { w.op o with status := .suspended, next := (w.file f).closeWaiters }
        file := Function.update w.file f { w.file f with closeWaiters := some o }
        log := w.log ++ [.suspended o] }
  | asked (c : CancelId) (o : Op) (l : List (Op × Unit)) (hl : (w.stops c).regs = (o, ()) :: l) :
      Form w { w with
        stops := Function.update w.stops c { w.stops c with regs := l }
        log := w.log ++ [.cancelAsked o] }
  | opened (o : Op) (f : File) (status : Int) (hstack : w.stack = []) (hn : w.native o = true)
      (hk : (w.op o).kind = .openFile) (hf : (w.op o).file = some f) (hs : 0 ≤ status) :
      Form w { w with
        op := Function.update w.op o
          { w.op o with
            status := .finished, submitted := false, cancellation := none, code := status
            inputs := false, file := none }
        file := Function.update w.file f { w.file f with descriptor := status }
        native := Function.update w.native o false
        holds := Function.update w.holds (.result o) (some f)
        stops := delist w.stops o (w.op o).cancellation
        stack := [.user]
        log := w.log ++ [.completed o status none, .cleanup o,
          .resumed o .openFile (some f) status, .handed o (some f)] }
  | answered (o : Op) (status : Int) (addresses : Option Nat) (hstack : w.stack = [])
      (hn : w.native o = true) (hk : (w.op o).kind ≠ .close)
      (hfail : (w.op o).kind = .openFile → status < 0)
      (hnone : (w.op o).kind ≠ .resolve → addresses = none) :
      Form w { w with
        op := Function.update w.op o
          { w.op o with
            status := .finished, submitted := false, cancellation := none, code := status
            inputs := if (w.op o).kind.copies then false else (w.op o).inputs
            addresses := if (w.op o).kind = .resolve then addresses else (w.op o).addresses }
        file := claimed w.file (w.op o).kind false (w.op o).file
        native := Function.update w.native o false
        stops := delist w.stops o (w.op o).cancellation
        stack := [.user]
        log := w.log ++ (.completed o status addresses :: cleaned o (w.op o).kind ++
          [.resumed o (w.op o).kind (w.op o).file status]) }
  | closed (o : Op) (f : File) (status : Int) (hstack : w.stack = []) (hn : w.native o = true)
      (hk : (w.op o).kind = .close) (hf : (w.op o).file = some f) :
      Form w { w with
        file := Function.update w.file f
          { w.file f with
            descriptor := -1, closeActive := false, closeComplete := true, closeStatus := status
            closeWaiters := none }
        native := Function.update w.native o false
        stack := [.delivering f (w.file f).closeWaiters status]
        log := w.log ++ [.completed o status none, .cleanup o] }
  | delivered (f : File) (o : Op) (status : Int) (k : List Frame)
      (hstack : w.stack = .delivering f (some o) status :: k)
      (hst : (w.op o).status = .suspended) (hk : (w.op o).kind = .close)
      (hf : (w.op o).file = some f) (hn : w.native o = false) :
      Form w { w with
        op := Function.update w.op o { w.op o with status := .finished, code := status }
        stack := .user :: .delivering f (w.op o).next status :: k
        log := w.log ++ [.resumed o .close (some f) status] }
  | rested (f : File) (status : Int) (k : List Frame)
      (hstack : w.stack = .delivering f none status :: k) : Form w { w with stack := k }
  | dropped (o : Op) (hst : (w.op o).status = .made ∨ (w.op o).status = .finished) :
      Form w { w with
        op := Function.update w.op o { w.op o with status := .gone }
        log := w.log ++ ((w.op o).addresses.map (.freed o)).toList }

/-- what a step takes for granted -/
structure Sound (w : World) : Prop where
  /-- a registered operation is submitted -/
  asks : ∀ c o, (o, ()) ∈ (w.stops c).regs → (w.op o).submitted = true
  /-- an open and a close that libuv has know their file -/
  known : ∀ o, w.native o = true → (w.op o).kind = .openFile ∨ (w.op o).kind = .close →
    ∃ f, (w.op o).file = some f
  /-- the next awaiter of a delivery is there -/
  listed : ∀ f o status, (f, some o, status) ∈ deliveries w.stack →
    (w.op o).status = .suspended ∧ (w.op o).kind = .close ∧ (w.op o).file = some f ∧
      w.native o = false

section
variable {w w' : World}

theorem FileState.setActive_setActive (x : FileState) (b c : Bool) (k : Kind) :
    (x.setActive b k).setActive c k = x.setActive c k := by
  cases k <;> rfl

theorem FileState.setActive_self (x : FileState) (k : Kind) : x.setActive (x.active k) k = x := by
  cases k <;> rfl

theorem claimed_eq {file : File → FileState} {k : Kind} {f : Option File} {b : Bool}
    (hk : k.transfers = false) : claimed file k b f = file := by
  cases f with
  | none => rfl
  | some f =>
    have hself : (file f).setActive b k = file f := by
      cases k with
      | read => cases hk
      | write => cases hk
      | openFile => rfl
      | close => rfl
      | resolve => rfl
    show Function.update file f ((file f).setActive b k) = file
    rw [hself]
    exact Function.update_eq_self f file

/-- no stop was requested a moment ago, so the registration succeeds -/
theorem accepted_eq {q : Request} (hstop : w.stopRequested q.task = false) :
    w.accepted q = { w with
      op := Function.update w.op q.op
        { w.op q.op with
          status := .suspended, submitted := true, code := q.submit
          cancellation := q.task.or (w.op q.op).cancellation }
      native := Function.update w.native q.op true
      stops := enlist w.stops q.op q.task
      log := w.log ++ [.submitted q.op (w.op q.op).kind (w.op q.op).file, .suspended q.op] } := by
  cases htask : q.task with
  | none =>
    simp [World.accepted, htask, World.register, World.suspend, World.setOp, World.setNative,
      World.emit, enlist]
  | some c =>
    rw [htask] at hstop
    have hreg : (w.stops c).requested = false := hstop
    simp [World.accepted, htask, World.register, World.suspend, World.setOp, World.setNative,
      World.emit, enlist, World.setStops, Cancel.Stops.register, hreg]

theorem form_endInline {o : Op} {code : Int} (hst : (w.op o).status = .made)
    (hcode : (w.op o).kind = .close → ∀ f, (w.op o).file = some f →
      (w.file f).closeComplete = true → code = (w.file f).closeStatus) :
    Form w (w.endInline o code) :=
  .ended o code (w.op o).inputs [] hst .none hcode

theorem form_submitted {q : Request} (hst : (w.op q.op).status = .made)
    (hk : (w.op q.op).kind ≠ .close) (ht : (w.op q.op).kind.transfers = false)
    (hstop : w.stopRequested q.task = false) : Form w (w.accepted q) := by
  have hform := Form.submitted (w := w) q.op q.submit q.task hst hk (fun h => by rw [ht] at h; cases h)
  rw [claimed_eq ht] at hform
  rw [accepted_eq hstop]
  exact hform

theorem form_awaitOpen {q : Request} (hst : (w.op q.op).status = .made)
    (hk : (w.op q.op).kind = .openFile) : Form w (w.awaitOpen q) := by
  have hne : (w.op q.op).kind ≠ .close := by rw [hk]; decide
  unfold World.awaitOpen
  split
  · exact form_endInline hst fun h => absurd h hne
  rename_i hstop
  split
  · have hform := Form.ended q.op q.submit (w.op q.op).inputs _ hst (.rejected hne)
      (fun h => absurd h hne)
    simpa [World.reject, World.endInline, World.emit, World.setOp, cleaned, hk] using hform
  · exact form_submitted hst hne (by rw [hk]; rfl) (by simpa using hstop)

theorem form_awaitResolve {q : Request} (hst : (w.op q.op).status = .made)
    (hk : (w.op q.op).kind = .resolve) : Form w (w.awaitResolve q) := by
  have hne : (w.op q.op).kind ≠ .close := by rw [hk]; decide
  unfold World.awaitResolve
  split
  · exact form_endInline hst fun h => absurd h hne
  rename_i hstop
  split
  · have hform := Form.ended q.op q.submit false _ hst (.rejected hne) (fun h => absurd h hne)
    simpa [World.reject, World.endInline, World.emit, World.setOp, cleaned, hk] using hform
  · exact form_submitted hst hne (by rw [hk]; rfl) (by simpa using hstop)

theorem form_awaitTransfer {q : Request} (hst : (w.op q.op).status = .made)
    (ht : (w.op q.op).kind.transfers = true) : Form w (w.awaitTransfer q) := by
  have hne : (w.op q.op).kind ≠ .close := fun h => by rw [h] at ht; cases ht
  have hclean : cleaned q.op (w.op q.op).kind = [.cleanup q.op] := by
    cases hk : (w.op q.op).kind <;> first | rfl | (rw [hk] at ht; cases ht)
  have hinline : ∀ code, Form w (w.endInline q.op code) := fun code =>
    form_endInline hst fun h => absurd h hne
  unfold World.awaitTransfer
  split
  · exact hinline _
  rename_i f hf
  split
  · exact hinline _
  rename_i hopen
  split
  · exact .threw q.op hst
  split
  · exact hinline _
  rename_i hstop
  split
  · exact hinline _
  split
  · exact hinline _
  rename_i hactive
  have hactive : (w.file f).active (w.op q.op).kind = false := by simpa using hactive
  dsimp only
  split
  · -- the claim that was taken is given back
    have hback : ((w.file f).setActive true (w.op q.op).kind).setActive false (w.op q.op).kind =
        w.file f := by
      have hself := (w.file f).setActive_self (w.op q.op).kind
      rw [hactive] at hself
      rw [FileState.setActive_setActive, hself]
    have hform := Form.ended q.op q.submit (w.op q.op).inputs _ hst (.rejected hne)
      (fun h => absurd h hne)
    simpa [World.reject, World.endInline, World.emit, World.setOp, World.setFile, hclean, hback]
      using hform
  · have hform := Form.submitted (w := w) q.op q.submit q.task hst hne
      (fun _ => ⟨f, hf, by simpa using hopen, hactive⟩)
    rw [accepted_eq (by simpa [World.setFile, World.stopRequested] using hstop)]
    simpa [World.setFile, claimed, hf, enlist] using hform

theorem form_awaitClose {q : Request} (hst : (w.op q.op).status = .made)
    (hk : (w.op q.op).kind = .close) : Form w (w.awaitClose q) := by
  unfold World.awaitClose
  split
  · rename_i hf
    exact form_endInline hst fun _ g hg => by rw [hf] at hg; cases hg
  rename_i f hf
  have hinline : ∀ code, ((w.file f).closeComplete = true → code = (w.file f).closeStatus) →
      Form w (w.endInline q.op code) := fun code hcode =>
    form_endInline hst fun _ g hg => by
      rw [hf] at hg
      cases hg
      exact hcode
  split
  · exact .threw q.op hst
  split
  · exact hinline _ fun _ => rfl
  rename_i hcomplete
  split
  · rename_i hactive
    have hform := Form.joined q.op f hst hk hf hactive
    simpa [World.addWaiter, World.suspend, World.setOp, World.setFile, World.emit] using hform
  split
  · exact hinline _ fun h => absurd h hcomplete
  rename_i hopen
  have hopen : (w.file f).isOpen = true := by simpa using hopen
  split
  · exact hinline _ fun h => absurd h hcomplete
  rename_i hbusy
  obtain ⟨hread, hwrite⟩ : (w.file f).readActive = false ∧ (w.file f).writeActive = false := by
    simpa using hbusy
  have hinactive : (w.file f).closeActive = false := by
    simp only [FileState.isOpen, Bool.and_eq_true, Bool.not_eq_true'] at hopen
    exact hopen.1.2
  dsimp only
  split
  · have hform := Form.refused q.op f q.submit hst hk hf hopen
    have hback : { w.file f with closeWaiters := none, closeActive := false } =
        { w.file f with closeWaiters := none } := by rw [← hinactive]
    simpa [World.addWaiter, World.reject, World.endInline, World.setOp, World.setFile, World.emit,
      hk, hf, hback] using hform
  · have hform := Form.closing q.op f q.submit hst hk hf hopen hread hwrite
    simpa [World.addWaiter, World.suspend, World.setOp, World.setFile, World.setNative,
      World.emit] using hform

theorem form_await {q : Request} (hst : (w.op q.op).status = .made) : Form w (w.await q) := by
  unfold World.await
  split
  · rename_i hk
    exact form_awaitOpen hst hk
  · rename_i hk
    exact form_awaitResolve hst hk
  · rename_i hk
    exact form_awaitTransfer hst (by rw [hk]; rfl)
  · rename_i hk
    exact form_awaitTransfer hst (by rw [hk]; rfl)
  · rename_i hk
    exact form_awaitClose hst hk

theorem settle_eq {o : Op} {status : Int} :
    w.settle o status = { w with
      op := Function.update w.op o
        { w.op o with submitted := false, cancellation := none, code := status }
      stops := delist w.stops o (w.op o).cancellation } := by
  cases hc : (w.op o).cancellation with
  | none =>
    have hrec : { w.op o with submitted := false, cancellation := none, code := status } =
        { w.op o with submitted := false, code := status } := by rw [← hc]
    rw [hrec]
    simp [World.settle, World.unregister, delist, World.setOp, hc]
  | some c =>
    simp [World.settle, World.unregister, delist, World.setOp, World.setStops, hc]

theorem form_transferred {o : Op} {status : Int} {addresses : Option Nat} (hstack : w.stack = [])
    (hn : w.native o = true) (ht : (w.op o).kind.transfers = true) (ha : addresses = none) :
    Form w (World.completeTransfer { w with
      native := Function.update w.native o false
      log := w.log ++ [.completed o status addresses] } o status) := by
  have hne : ∀ k, k.transfers = false → (w.op o).kind ≠ k := by
    rintro k hk rfl
    rw [hk] at ht
    cases ht
  have hform := Form.answered o status addresses hstack hn (hne _ rfl)
    (fun h => absurd h (hne _ rfl)) fun _ => ha
  have hcopies : (w.op o).kind.copies = false := by
    cases hk : (w.op o).kind <;> first | rfl | (rw [hk] at ht; cases ht)
  have hclean : cleaned o (w.op o).kind = [.cleanup o] := by
    cases hk : (w.op o).kind <;> first | rfl | (rw [hk] at ht; cases ht)
  have hopen : (w.op o).kind ≠ .openFile := hne _ rfl
  have hresolve : (w.op o).kind ≠ .resolve := hne _ rfl
  cases hf : (w.op o).file with
  | none =>
    simpa [World.completeTransfer, settle_eq, World.onFile, World.resume, World.handOver,
      World.setOp, World.emit, World.push, delist, claimed, hf, hopen, hresolve, hstack,
      hcopies, hclean] using hform
  | some f =>
    simpa [World.completeTransfer, settle_eq, World.onFile, World.setFile, World.resume,
      World.handOver, World.setOp, World.emit, World.push, delist, claimed, hf, hopen,
      hresolve, hstack, hcopies, hclean] using hform

theorem form_complete {o : Op} {status : Int} {addresses : Option Nat} (hw : Sound w)
    (hstack : w.stack = []) (hn : w.native o = true)
    (hnone : (w.op o).kind ≠ .resolve → addresses = none) :
    Form w (w.complete o status addresses) := by
  unfold World.complete
  dsimp only [World.setNative, World.emit]
  split
  · rename_i hk
    obtain ⟨f, hf⟩ := hw.known o hn (.inl hk)
    have ha : addresses = none := hnone (by rw [hk]; decide)
    by_cases hs : 0 ≤ status
    · have hform := Form.opened o f status hstack hn hk hf hs
      simpa [World.completeOpen, settle_eq, World.onFile, World.setFile, World.resume,
        World.handOver, World.setOp, World.emit, World.push, delist, hs, hf, hk, ha,
        hstack] using hform
    · have hform := Form.answered o status addresses hstack hn (by rw [hk]; decide)
        (fun _ => not_le.mp hs) hnone
      rw [claimed_eq (by rw [hk]; rfl)] at hform
      simpa [World.completeOpen, settle_eq, World.resume, World.handOver, World.setOp, World.emit,
        World.push, delist, hs, hf, hk, ha, hstack, Kind.copies, cleaned] using hform
  · rename_i hk
    exact form_transferred hstack hn (by rw [hk]; rfl) (hnone (by rw [hk]; decide))
  · rename_i hk
    exact form_transferred hstack hn (by rw [hk]; rfl) (hnone (by rw [hk]; decide))
  · rename_i hk
    have hform := Form.answered o status addresses hstack hn (by rw [hk]; decide)
      (fun h => by rw [hk] at h; cases h) hnone
    rw [claimed_eq (by rw [hk]; rfl)] at hform
    simpa [World.completeResolve, settle_eq, World.resume, World.handOver, World.setOp, World.emit,
      World.push, delist, hk, hstack, Kind.copies, cleaned] using hform
  · rename_i hk
    obtain ⟨f, hf⟩ := hw.known o hn (.inr hk)
    have ha : addresses = none := hnone (by rw [hk]; decide)
    have hform := Form.closed o f status hstack hn hk hf
    simpa [World.completeClose, World.setFile, World.emit, World.push, hf, ha, hstack] using hform

theorem deliver_eq {f : File} {o : Op} {status : Int} {k : List Frame}
    (hst : (w.op o).status = .suspended) (hk : (w.op o).kind = .close) :
    w.deliver f o status k = { w with
      op := Function.update w.op o { w.op o with status := .finished, code := status }
      stack := .user :: .delivering f (w.op o).next status :: k
      log := w.log ++ [.resumed o .close (w.op o).file status] } := by
  simp [World.deliver, World.resume, World.handOver, World.setOp, World.emit, World.push, hst, hk]

theorem form_tick (hw : Sound w) (hs : w.tick = some w') : Form w w' := by
  unfold World.tick at hs
  split at hs
  · rename_i c k hstack
    have hd : deliveries k = deliveries w.stack := by rw [hstack]; rfl
    split at hs
    · cases hs
      exact .runs k w.stops hd fun _ => rfl
    · rename_i o t hpop
      unfold Cancel.Stops.pop at hpop
      split at hpop
      · cases hpop
      · rename_i p l hl
        cases hpop
        cases hs
        have hsub : (w.op o).submitted = true := hw.asks c o (by rw [hl]; exact List.mem_cons_self)
        have hform := Form.asked c o l hl
        simpa [World.requestNativeCancellation, World.setStops, World.emit, hsub] using hform
  · rename_i f waiter status k hstack
    cases waiter with
    | none =>
      cases hs
      exact .rested f status k hstack
    | some o =>
      cases hs
      obtain ⟨hst, hk, hf, hn⟩ :=
        hw.listed f o status (by rw [hstack]; exact List.mem_cons_self)
      rw [deliver_eq hst hk, hf]
      exact .delivered f o status k hstack hst hk hf hn
  · cases hs

theorem form_requestStop {c : CancelId} : Form w (w.requestStop c) := by
  unfold World.requestStop Cancel.Stops.exchange
  split
  · exact .runs w.stack w.stops rfl fun _ => rfl
  · rename_i t heq
    split at heq
    · cases heq
    · cases heq
      refine .runs (.stopping c :: w.stack)
        (Function.update w.stops c { w.stops c with requested := true }) rfl fun c' => ?_
      by_cases hc : c' = c
      · subst hc
        simp
      · simp [hc]

/-- what is left of the owner `x` after a reset that did not terminate -/
theorem reset_eq {x : Owner} :
    (∃ f, w.holds x = some f ∧ w.reset x = { w with terminated := true }) ∨
      ((∀ f, w.holds x = some f → (w.file f).isOpen = false) ∧
        w.reset x = { w with holds := Function.update w.holds x none }) := by
  unfold World.reset
  split
  · rename_i hx
    refine .inr ⟨fun f hf => (by rw [hx] at hf; cases hf), ?_⟩
    rw [← hx, Function.update_eq_self]
  · rename_i f hx
    split
    · exact .inl ⟨f, hx, rfl⟩
    · rename_i hidle
      refine .inr ⟨fun g hg => ?_, rfl⟩
      rw [hx] at hg
      cases hg
      simp only [Bool.or_eq_true, not_or, Bool.not_eq_true] at hidle
      exact hidle.2

theorem form_terminated : Form w { w with terminated := true } :=
  .owners w.holds true (fun _ _ h => h) (fun x _ h => ⟨x, h⟩) fun _ _ => rfl

theorem form_reset {x : Owner} (hx : w.alive x = true) : Form w (w.reset x) := by
  rcases reset_eq (w := w) (x := x) with ⟨f, -, heq⟩ | ⟨hclosed, heq⟩
  · rw [heq]
    exact form_terminated
  · rw [heq]
    refine .owners _ w.terminated ?_ ?_ ?_
    · rintro f hopen ⟨y, hy⟩
      refine ⟨y, ?_⟩
      rw [Function.update_of_ne ?_]
      · exact hy
      · rintro rfl
        rw [hclosed f hy] at hopen
        cases hopen
    · intro y f hy
      by_cases hxy : y = x
      · subst hxy
        rw [Function.update_self] at hy
        cases hy
      · rw [Function.update_of_ne hxy] at hy
        exact ⟨y, hy⟩
    · intro o ho
      refine Function.update_of_ne ?_ ..
      rintro rfl
      rw [hx] at ho
      cases ho

theorem form_assign {x y : Owner} (ht : w.terminated = false) (hx : w.alive x = true)
    (hy : w.alive y = true) : Form w (w.assign x y) := by
  unfold World.assign
  split
  · exact .owners w.holds w.terminated (fun _ _ h => h) (fun z _ h => ⟨z, h⟩) fun _ _ => rfl
  rename_i hxy
  rcases reset_eq (w := w) (x := x) with ⟨f, -, heq⟩ | ⟨hclosed, heq⟩
  · rw [heq]
    exact form_terminated
  · have hyx : y ≠ x := fun h => hxy h.symm
    rw [heq]
    dsimp only
    rw [if_neg (by rw [ht]; decide), Function.update_of_ne hyx, Function.update_idem]
    refine .owners _ w.terminated ?_ ?_ ?_
    · rintro f hopen ⟨z, hz⟩
      -- the file that `y` held is at `x` now
      by_cases hzy : z = y
      · subst hzy
        refine ⟨x, ?_⟩
        rw [Function.update_of_ne hxy, Function.update_self]
        exact hz
      · have hzx : z ≠ x := by
          rintro rfl
          rw [hclosed f hz] at hopen
          cases hopen
        refine ⟨z, ?_⟩
        rw [Function.update_of_ne hzy, Function.update_of_ne hzx]
        exact hz
    · intro z f hz
      by_cases hzy : z = y
      · subst hzy
        rw [Function.update_self] at hz
        cases hz
      · rw [Function.update_of_ne hzy] at hz
        by_cases hzx : z = x
        · subst hzx
          rw [Function.update_self] at hz
          exact ⟨y, hz⟩
        · rw [Function.update_of_ne hzx] at hz
          exact ⟨z, hz⟩
    · intro o ho
      have hne : ∀ z, w.alive z = true → Owner.result o ≠ z := by
        rintro z hz rfl
        rw [hz] at ho
        cases ho
      rw [Function.update_of_ne (hne y hy), Function.update_of_ne (hne x hx)]

theorem form_drop {o : Op} (hst : (w.op o).status = .made ∨ (w.op o).status = .finished) :
    Form w (w.drop o) := by
  have hform := Form.dropped o hst
  unfold World.drop
  dsimp only
  split
  · rename_i ha
    rw [ha] at hform
    simpa [World.setOp] using hform
  · rename_i a ha
    rw [ha] at hform
    exact hform

theorem step_form {a : Act} (hw : Sound w) (hs : step w a = some w') : Form w w' := by
  obtain ⟨ht, hs⟩ := Option.ite_none_left_eq_some.mp hs
  cases a with
  | enter =>
    obtain ⟨hc, hs⟩ := Option.ite_none_right_eq_some.mp hs
    cases hs
    exact .runs (.user :: w.stack) w.stops rfl fun _ => rfl
  | ret =>
    dsimp only at hs
    split at hs
    · rename_i k hk
      cases hs
      exact .runs k w.stops (by rw [hk]; rfl) fun _ => rfl
    · cases hs
  | tick => exact form_tick hw hs
  | make m =>
    obtain ⟨⟨-, hst, hnew⟩, hs⟩ := Option.ite_none_right_eq_some.mp hs
    cases hs
    exact .made m hst hnew
  | await q =>
    obtain ⟨⟨-, hst⟩, hs⟩ := Option.ite_none_right_eq_some.mp hs
    cases hs
    exact form_await hst
  | requestStop c =>
    obtain ⟨-, hs⟩ := Option.ite_none_right_eq_some.mp hs
    cases hs
    exact form_requestStop
  | assign x y =>
    obtain ⟨⟨-, hx, hy⟩, hs⟩ := Option.ite_none_right_eq_some.mp hs
    cases hs
    exact form_assign (by simpa using ht) hx hy
  | destroy x =>
    obtain ⟨⟨-, hx⟩, hs⟩ := Option.ite_none_right_eq_some.mp hs
    cases hs
    exact form_reset hx
  | drop o =>
    obtain ⟨⟨-, hst⟩, hs⟩ := Option.ite_none_right_eq_some.mp hs
    cases hs
    exact form_drop hst
  | complete o status addresses =>
    obtain ⟨⟨hstack, hn, hnone⟩, hs⟩ := Option.ite_none_right_eq_some.mp hs
    cases hs
    exact form_complete hw hstack hn hnone

end

end Pool
