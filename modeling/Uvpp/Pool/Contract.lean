import Uvpp.Machine.History
import Uvpp.Pool.Records

/-!
# A descriptor is closed once and alone

* `FileLaw f`         when a request for `f` may be submitted, and how its awaiters end;
* `Form.file_law`     no step breaks it;
* `walk`              a completed close resumes all its awaiters;
* `file_contract`     what holds in all runs.
-/

namespace Pool
open History
open Errno History

/-- libuv accepted the request `o` for `f` and has not called back -/
def InFlight (past : List Event) (o : Op) (k : Kind) (f : File) : Prop :=
  .submitted o k (some f) ∈ past ∧ ∀ status a, .completed o status a ∉ past

/-- What may happen to the file `f` after `past`:

* nothing is submitted once a close was accepted, a close only while no transfer is in flight, and
  a transfer only while none of its kind is;
* a suspended operation is resumed once, a transfer with the status of its own completion and a
  close with that of the one accepted close;
* after the completion a close ends with its status. -/
def FileLaw (f : File) (past : List Event) : Event → Prop
  | .submitted _ k g => g = some f → k = .close ∨ k.transfers = true →
      (∀ p, .submitted p .close (some f) ∉ past) ∧
        ∀ p k', k'.transfers = true → k = .close ∨ k' = k → ¬ InFlight past p k' f
  | .resumed o k g code => g = some f → k = .close ∨ k.transfers = true →
      .suspended o ∈ past ∧ (∀ k' g' c, .resumed o k' g' c ∉ past) ∧
        ∃ p, (k = .close ∨ p = o) ∧ .submitted p k (some f) ∈ past ∧ .completed p code none ∈ past
  | .ended _ k g code => g = some f → k = .close →
      ∀ p status a, .submitted p .close (some f) ∈ past → .completed p status a ∈ past →
        code = status
  | _ => True

/-- What all runs keep. -/
structure Inv (w : World) : Prop where
  ops : Ops w
  files : Files w
  records : Records w
  safe : w.fault = false

section
variable {w w' : World} {f : File}

theorem Inv.init : Inv {} := ⟨.init, .init, .init, rfl⟩

theorem Form.fault (hf : Form w w') : w'.fault = w.fault := by
  cases hf <;> rfl

theorem step_inv {a : Act} (h : Inv w) (hs : step w a = some w') : Inv w' := by
  have hf := step_form (sound h.ops h.files) hs
  exact ⟨hf.ops h.ops, hf.files h.ops h.files, hf.records h.ops h.files h.records,
    hf.fault.trans h.safe⟩

theorem run_inv {as : List Act} (hr : sys.run sys.init as = some w) : Inv w :=
  Sys.run_inv (S := sys) (fun _ _ _ h hs => step_inv h hs) Inv.init hr

/-- no close of an open file was accepted -/
theorem Inv.not_accepted (h : Inv w) (hopen : (w.file f).isOpen = true) (p : Op) :
    .submitted p .close (some f) ∉ w.log := by
  intro hs
  obtain ⟨-, ha, hc⟩ := FileState.isOpen_iff.mp hopen
  have hold := h.records.accepted p f hs
  rw [ha, hc] at hold
  simp at hold

/-- a transfer in flight has the claim -/
theorem Inv.claimed (h : Inv w) {p : Op} {k : Kind} (hk : k.transfers = true)
    (hp : InFlight w.log p k f) : (w.file f).active k = true := by
  obtain ⟨hn, hkind, hfile⟩ := h.ops.flying hp.1 hp.2
  exact (h.files.claims.active f k hk).mpr ⟨p, hn, hkind, hfile⟩

theorem Form.file_law (hform : Form w w') (h : Inv w) (hl : Lawful (FileLaw f) w.log) :
    Lawful (FileLaw f) w'.log := by
  cases hform with
  | runs | owners | made | rested => exact hl
  | ended o code i es hst hes hcode =>
    have hended : FileLaw f (w.log ++ es) (.ended o (w.op o).kind (w.op o).file code) := by
      intro hf hk p status a hp hc
      have hp := (List.mem_append.mp hp).resolve_right hes.not_submitted
      have hc := (List.mem_append.mp hc).resolve_right hes.not_completed
      obtain ⟨hcomplete, rfl⟩ := h.records.status p f status a hp hc
      exact hcode hk f hf hcomplete
    cases hes with
    | none =>
      rw [List.append_nil] at hended
      exact hl.append ⟨hended, trivial⟩
    | rejected hk =>
      dsimp only
      cases hkind : (w.op o).kind <;> rw [hkind] at hended <;>
        first
        | exact hl.append ⟨trivial, trivial, by simpa [cleaned] using hended, trivial⟩
        | exact hl.append ⟨trivial, by simpa [cleaned] using hended, trivial⟩
  | threw | joined | asked => exact hl.append ⟨trivial, trivial⟩
  | refused o g code hst hk hf hopen =>
    refine hl.append ⟨trivial, trivial, ?_, trivial⟩
    intro heq _ p status a hp
    cases heq
    refine absurd ?_ (h.not_accepted hopen p)
    simpa using hp
  | submitted o code task hst hk hclaim =>
    refine hl.append ⟨?_, trivial, trivial⟩
    intro hf hkind
    have ht : (w.op o).kind.transfers = true := hkind.resolve_left hk
    obtain ⟨g, hg, hopen, hidle⟩ := hclaim ht
    obtain rfl : f = g := Option.some.inj (hf.symm.trans hg)
    refine ⟨h.not_accepted hopen, fun p k' hk' hor hp => ?_⟩
    obtain rfl := hor.resolve_left hk
    exact absurd (hidle.symm.trans (h.claimed hk' hp)) (by decide)
  | closing o g code hst hk hf hopen hread hwrite =>
    refine hl.append ⟨?_, trivial, trivial⟩
    intro heq _
    cases heq
    refine ⟨h.not_accepted hopen, fun p k hkt _ hp => ?_⟩
    have hactive := h.claimed hkt hp
    cases k with
    | read => exact absurd (hread.symm.trans hactive) (by decide)
    | write => exact absurd (hwrite.symm.trans hactive) (by decide)
    | openFile | close | resolve => cases hkt
  | opened o g status hstack hn hk hf hs =>
    exact hl.append ⟨trivial, trivial, fun _ hkind => by simp [Kind.transfers] at hkind,
      trivial, trivial⟩
  | answered o status addresses hstack hn hk hfail hnone =>
    have hresumed : FileLaw f (w.log ++ (.completed o status addresses :: cleaned o (w.op o).kind))
        (.resumed o (w.op o).kind (w.op o).file status) := by
      intro hf hkind
      have hkept := (h.ops.story o).of_suspended ((h.ops.story o).native hn)
      obtain ⟨-, m, ht⟩ := hkept.waiting.native hk
      have hnr : (w.op o).kind ≠ .resolve := by
        intro hr
        rw [hr] at hkind
        simp [Kind.transfers] at hkind
      refine ⟨List.mem_append_left _ (mem_trace_op.mp hkept.waiting.suspended_mem),
        fun k' g' c hmem => ?_, o, .inr rfl, List.mem_append_left _ (mem_trace_op.mp ?_),
        List.mem_append_right _ ?_⟩
      · rcases List.mem_append.mp hmem with hmem | hmem
        · exact hkept.waiting.not_resumed (mem_trace_op.mpr hmem)
        · cases hc : (w.op o).kind <;> rw [hc] at hmem <;> simp [cleaned] at hmem
      · show _ ∈ trace Event.about w.log o
        rw [ht, ← hf]
        exact List.mem_cons_self
      · rw [hnone hnr]
        exact List.mem_cons_self
    dsimp only
    cases hkind : (w.op o).kind <;> rw [hkind] at hresumed <;>
      first
      | exact hl.append ⟨trivial, trivial, by simpa [cleaned] using hresumed, trivial⟩
      | exact hl.append ⟨trivial, by simpa [cleaned] using hresumed, trivial⟩
  | closed o g status hstack hn hk hf => exact hl.append ⟨trivial, trivial, trivial⟩
  | delivered g o status k hstack hst hk hf hn =>
    refine hl.append ⟨?_, trivial⟩
    intro heq _
    cases heq
    have hkept := (h.ops.story o).of_suspended hst
    have hd : (f, some o, status) ∈ deliveries w.stack := by
      rw [hstack]
      exact List.mem_cons_self
    obtain ⟨hcomplete, rfl⟩ := h.files.closes.delivering f _ status hd
    obtain ⟨p, hp, hc⟩ := h.records.complete f hcomplete
    exact ⟨mem_trace_op.mp hkept.waiting.suspended_mem,
      fun k' g' c hmem => hkept.waiting.not_resumed (mem_trace_op.mpr hmem), p, .inl rfl, hp, hc⟩
  | dropped o hst =>
    dsimp only
    cases (w.op o).addresses with
    | none =>
      rw [Option.map_none, Option.toList_none, List.append_nil]
      exact hl
    | some a => exact hl.append ⟨trivial, trivial⟩

/-! ## The walk over the list -/

/-- One round: the awaiter at the front is resumed, and its code returns. -/
theorem walk_round {o : Op} {status : Int} {k : List Frame} (h : Inv w) (ht : w.terminated = false)
    (hstack : w.stack = .delivering f (some o) status :: k) :
    ∃ w', sys.Along (fun a => a = .tick ∨ a = .ret) w w' ∧ Inv w' ∧ w'.terminated = false ∧
      w'.stack = .delivering f (w.op o).next status :: k ∧ w'.file = w.file ∧
      ∀ p, (w'.op p).next = (w.op p).next := by
  obtain ⟨hst, hk, -, -⟩ := (sound h.ops h.files).listed f o status
    (by rw [hstack]; exact List.mem_cons_self)
  have htick : step w .tick = some (w.deliver f o status k) := by
    unfold step World.tick
    rw [ht, hstack]
    rfl
  rw [deliver_eq hst hk] at htick
  have hinv := step_inv h htick
  have hret : step { w with
      op := Function.update w.op o { w.op o with status := .finished, code := status }
      stack := .user :: .delivering f (w.op o).next status :: k
      log := w.log ++ [.resumed o .close (w.op o).file status] } .ret = some { w with
        op := Function.update w.op o { w.op o with status := .finished, code := status }
        stack := .delivering f (w.op o).next status :: k
        log := w.log ++ [.resumed o .close (w.op o).file status] } := by
    unfold step
    dsimp only
    rw [ht]
    rfl
  refine ⟨_, (Sys.Along.one (.inl rfl) htick).trans (Sys.Along.one (.inr rfl) hret),
    step_inv hinv hret, ht, rfl, rfl, fun p => ?_⟩
  dsimp only
  by_cases hp : p = o
  · subst hp
    rw [Function.update_self]
  · rw [Function.update_of_ne hp]

/-- The walk ends: the induction goes along the list that is left. -/
theorem walk {l : List Op} {waiter : Option Op} {status : Int} {k : List Frame} (h : Inv w)
    (ht : w.terminated = false) (hstack : w.stack = .delivering f waiter status :: k)
    (hl : Linked (fun o => (w.op o).next) waiter l) :
    ∃ w', sys.Along (fun a => a = .tick ∨ a = .ret) w w' ∧ Inv w' ∧ w'.stack = k ∧
      w'.file = w.file := by
  induction l generalizing w waiter with
  | nil =>
    obtain rfl : waiter = none := hl
    have htick : step w .tick = some { w with stack := k } := by
      unfold step World.tick
      rw [ht, hstack]
      rfl
    exact ⟨_, .one (.inl rfl) htick, step_inv h htick, rfl, rfl⟩
  | cons o l ih =>
    obtain ⟨rfl, hl⟩ := hl
    obtain ⟨v, hv, hinv, htv, hsv, hfv, hnext⟩ := walk_round h ht hstack
    obtain ⟨w', hw', hinv', hs', hf'⟩ := ih hinv htv hsv (hl.frame fun p _ => hnext p)
    exact ⟨w', hv.trans hw', hinv', hs', hf'.trans hfv⟩

/-- nobody waits for a close that is complete, unless a walk is on its way -/
theorem Inv.closer (h : Inv w) {o : Op} (ho : Closer w o f) :
    (∃ p, Flying w p .close f) ∨ ∃ waiter status, (f, waiter, status) ∈ deliveries w.stack := by
  by_cases ha : (w.file f).closeActive = true
  · exact .inl ((h.files.closes.active f).mp ha)
  · right
    have hwait := h.files.closes.idle f (by simpa using ha)
    obtain ⟨l, hl, -, hmem⟩ := h.files.closes.listed f
    by_contra hno
    have hfind : (deliveries w.stack).find? (fun d => d.1 = f) = none := by
      refine List.find?_eq_none.mpr ?_
      rintro ⟨g, waiter, status⟩ hd hg
      obtain rfl : g = f := by simpa using hg
      exact hno ⟨waiter, status, hd⟩
    unfold World.head at hl
    rw [hfind] at hl
    dsimp only at hl
    rw [hwait] at hl
    rw [← hmem o, hl.eq_nil] at ho
    cases ho

/-! ## All runs -/

/-- The contract of the files. -/
structure FileContract (w : World) : Prop where
  lawful : ∀ f, Lawful (FileLaw f) w.log
  /-- at most one close, one read and one write of a file are in flight -/
  one : ∀ o p k f, k = .close ∨ k.transfers = true → Flying w o k f → Flying w p k f → o = p
  /-- a close and a transfer never are -/
  alone : ∀ o p k f, k.transfers = true → Flying w o .close f → ¬ Flying w p k f
  /-- the claim is set as long as libuv has the transfer, and a suspended transfer is libuv's -/
  claims : ∀ f k, k.transfers = true → ((w.file f).active k = true ↔ ∃ o, Flying w o k f)
  transfers : ∀ o, (w.op o).status = .suspended → (w.op o).kind ≠ .close → w.native o = true
  /-- a suspended close waits for the one that libuv has, or for the walk -/
  waits : ∀ o f, Closer w o f →
    (∃ p, Flying w p .close f) ∨ ∃ waiter status, (f, waiter, status) ∈ deliveries w.stack
  /-- and the walk resumes them all -/
  walks : w.terminated = false → ∀ f waiter status k, w.stack = .delivering f waiter status :: k →
    ∃ w', sys.Along (fun a => a = .tick ∨ a = .ret) w w' ∧ w'.stack = k ∧ ∀ o, ¬ Closer w' o f
  /-- after the completion no close suspends -/
  late : ∀ f, (w.file f).closeComplete = true → ∀ a w', step w a = some w' → ∀ o,
    Closer w' o f → Closer w o f
  /-- a rejected close leaves the file as it was, open and without awaiters -/
  rejected : ∀ a w', step w a = some w' → ∀ o f, .rejected o .close (some f) ∈ w'.log →
    .rejected o .close (some f) ∉ w.log →
      w'.file = w.file ∧ (w'.file f).isOpen = true ∧ (w'.file f).closeWaiters = none ∧
        ∀ p, ¬ Closer w' p f
  /-- a transfer is resumed with its claim released -/
  released : ∀ a w', step w a = some w' → ∀ o k f code, k.transfers = true →
    .resumed o k (some f) code ∈ w'.log → .resumed o k (some f) code ∉ w.log →
      (w'.file f).active k = false
  /-- no awaiter is read after its frame is gone -/
  safe : w.fault = false

theorem Form.rejected (hform : Form w w') (h : Inv w) {o : Op}
    (hin : .rejected o .close (some f) ∈ w'.log) (hnot : .rejected o .close (some f) ∉ w.log) :
    w'.file = w.file ∧ (w'.file f).isOpen = true ∧ (w'.file f).closeWaiters = none := by
  cases hform with
  | runs | owners | made | rested => exact absurd hin hnot
  | ended p code i es hst hes hcode =>
    have hin := (List.mem_append.mp hin).resolve_left hnot
    cases hes with
    | none => simp at hin
    | rejected hk =>
      cases hkind : (w.op p).kind <;> rw [hkind] at hin <;> first
        | exact absurd hkind hk
        | simp [cleaned] at hin
  | refused p g code hst hk hf hopen =>
    have hin := (List.mem_append.mp hin).resolve_left hnot
    obtain ⟨rfl, rfl⟩ : o = p ∧ f = g := by simpa using hin
    -- the list was empty before, so emptying it changes nothing
    have hwait := h.files.closes.idle f (FileState.isOpen_iff.mp hopen).2.1
    have hsame : Function.update w.file f { w.file f with closeWaiters := none } = w.file := by
      rw [← hwait, Function.update_eq_self]
    dsimp only
    rw [hsame]
    exact ⟨rfl, hopen, hwait⟩
  | answered p status addresses hstack hn hk hfail hnone =>
    have hin := (List.mem_append.mp hin).resolve_left hnot
    cases hkind : (w.op p).kind <;> rw [hkind] at hin <;> simp [cleaned] at hin
  | dropped p hst =>
    have hin := (List.mem_append.mp hin).resolve_left hnot
    obtain ⟨a, -, h'⟩ := Option.map_eq_some_iff.mp (Option.mem_toList.mp hin)
    cases h'
  | threw | submitted | closing | joined | asked | opened | closed | delivered =>
    have hin := (List.mem_append.mp hin).resolve_left hnot
    simp at hin

theorem Form.released (hform : Form w w') {o : Op} {k : Kind} {code : Int}
    (hk : k.transfers = true) (hin : .resumed o k (some f) code ∈ w'.log)
    (hnot : .resumed o k (some f) code ∉ w.log) : (w'.file f).active k = false := by
  cases hform with
  | runs | owners | made | rested => exact absurd hin hnot
  | ended p code' i es hst hes hcode =>
    have hin := (List.mem_append.mp hin).resolve_left hnot
    cases hes with
    | none => simp at hin
    | rejected hk' =>
      cases hkind : (w.op p).kind <;> rw [hkind] at hin <;> simp [cleaned] at hin
  | answered p status addresses hstack hn hk' hfail hnone =>
    have hin := (List.mem_append.mp hin).resolve_left hnot
    obtain ⟨rfl, rfl, hf, rfl⟩ : o = p ∧ k = (w.op p).kind ∧ some f = (w.op p).file ∧
        code = status := by
      rcases List.mem_append.mp hin with hin | hin
      · cases hkind : (w.op p).kind <;> rw [hkind] at hin <;> simp [cleaned] at hin
      · simpa using hin
    dsimp only
    rw [active_claimed hk, if_pos ⟨hf.symm, rfl⟩]
  | opened p g status hstack hn hk' hf hs =>
    have hin := (List.mem_append.mp hin).resolve_left hnot
    simp only [List.mem_cons, Event.resumed.injEq, reduceCtorEq, List.not_mem_nil, or_false,
      false_or] at hin
    rw [hin.2.1] at hk
    cases hk
  | delivered g p status k' hstack hst hk' hf hn =>
    have hin := (List.mem_append.mp hin).resolve_left hnot
    simp only [List.mem_cons, Event.resumed.injEq, List.not_mem_nil, or_false] at hin
    rw [hin.2.1] at hk
    cases hk
  | dropped p hst =>
    have hin := (List.mem_append.mp hin).resolve_left hnot
    obtain ⟨a, -, h'⟩ := Option.map_eq_some_iff.mp (Option.mem_toList.mp hin)
    cases h'
  | threw | refused | submitted | closing | joined | asked | closed =>
    have hin := (List.mem_append.mp hin).resolve_left hnot
    simp at hin

theorem Form.late (hform : Form w w') (h : Inv w) (hc : (w.file f).closeComplete = true) {o : Op}
    (ho : Closer w' o f) : Closer w o f := by
  -- an operation that the step does not touch, or does not suspend
  have hsame : ∀ {p : Op} {r : OpRec}, (o = p → r.status = .suspended → r.kind = .close →
      r.file = some f → Closer w o f) → w'.op = Function.update w.op p r → Closer w o f := by
    intro p r hr heq
    obtain ⟨hst, hk, hf⟩ := ho
    rw [heq] at hst hk hf
    by_cases hop : o = p
    · subst hop
      rw [Function.update_self] at hst hk hf
      exact hr rfl hst hk hf
    · rw [Function.update_of_ne hop] at hst hk hf
      exact ⟨hst, hk, hf⟩
  cases hform with
  | runs | owners | asked | closed | rested => exact ⟨ho.status, ho.kind, ho.file⟩
  | made | ended | threw | refused | opened | answered | delivered | dropped =>
    exact hsame (fun _ h' => by cases h') rfl
  | submitted p code task hst hk hclaim =>
    refine hsame (fun _ _ h' _ => ?_) rfl
    exact absurd h' hk
  | closing p g code hst hk hf hopen hread hwrite =>
    refine hsame (fun _ _ _ hfo => ?_) rfl
    obtain rfl : f = g := Option.some.inj (hfo.symm.trans hf)
    exact absurd (hc.symm.trans (FileState.isOpen_iff.mp hopen).2.2) (by decide)
  | joined p g hst hk hf hactive =>
    refine hsame (fun _ _ _ hfo => ?_) rfl
    obtain rfl : f = g := Option.some.inj (hfo.symm.trans hf)
    exact absurd (hc.symm.trans (h.files.closes.once f hactive)) (by decide)

/-- nobody waits for the close of an open file -/
theorem Inv.open_free (h : Inv w) (hopen : (w.file f).isOpen = true) (o : Op) : ¬ Closer w o f := by
  obtain ⟨-, ha, hc⟩ := FileState.isOpen_iff.mp hopen
  intro ho
  rcases h.closer ho with hfly | ⟨waiter, status, hd⟩
  · rw [(h.files.closes.active f).mpr hfly] at ha
    cases ha
  · rw [(h.files.closes.delivering f waiter status hd).1] at hc
    cases hc

theorem Inv.walks (h : Inv w) (ht : w.terminated = false) {waiter : Option Op} {status : Int}
    {k : List Frame} (hstack : w.stack = .delivering f waiter status :: k) :
    ∃ w', sys.Along (fun a => a = .tick ∨ a = .ret) w w' ∧ w'.stack = k ∧ ∀ o, ¬ Closer w' o f := by
  have hd : deliveries w.stack = (f, waiter, status) :: deliveries k := by rw [hstack]; rfl
  have hmem : (f, waiter, status) ∈ deliveries w.stack := by rw [hd]; exact List.mem_cons_self
  obtain ⟨l, hl, -, -⟩ := h.files.closes.listed f
  rw [h.files.closes.head_delivering hmem] at hl
  obtain ⟨w', hw', hinv, hs, hfile⟩ := walk h ht hstack hl
  refine ⟨w', hw', hs, fun o ho => ?_⟩
  rcases hinv.closer ho with hfly | ⟨waiter', status', hd'⟩
  · have honce := hinv.files.closes.once f ((hinv.files.closes.active f).mpr hfly)
    rw [hfile, (h.files.closes.delivering f waiter status hmem).1] at honce
    cases honce
  · -- there was only this walk
    have hsingle := h.files.closes.single
    rw [hd, List.length_cons] at hsingle
    have hpos := List.length_pos_of_mem hd'
    rw [hs] at hpos
    omega

/-- For every run of the file operations: libuv accepts one close of a file, while no transfer is
in flight and none after it; its status goes to every coroutine that awaits a close, once. -/
theorem file_contract (as : List Act) (w : World) (hr : sys.run sys.init as = some w) : FileContract w := by
  have h : Inv w := run_inv hr
  have hlaw : ∀ f, Lawful (FileLaw f) w.log := fun f =>
    (Sys.run_inv (S := sys) (P := fun w => Inv w ∧ Lawful (FileLaw f) w.log)
      (fun _ _ _ h hs => ⟨step_inv h.1 hs, (step_form (sound h.1.ops h.1.files) hs).file_law h.1 h.2⟩)
      ⟨Inv.init, lawful_nil⟩ hr).2
  refine ⟨hlaw, fun o p k f hk ho hp => ?_, fun o p k f hk ho hp => ?_, h.files.claims.active,
    fun o hst hk => (((h.ops.story o).of_suspended hst).waiting.native hk).1,
    fun o f ho => h.closer ho, fun ht f waiter status k hstack => h.walks ht hstack,
    fun f hc a w' hs o ho => (step_form (sound h.ops h.files) hs).late h hc ho,
    fun a w' hs o f hin hnot => ?_, fun a w' hs o k f code hk hin hnot => ?_, h.safe⟩
  · rcases hk with rfl | hk
    · exact h.files.closes.one o p f ho hp
    · exact h.files.claims.one o p k f hk ho hp
  · have hidle := h.files.apart f k (.inl ((h.files.closes.active f).mpr ⟨o, ho⟩))
    rw [(h.files.claims.active f k hk).mpr ⟨p, hp⟩] at hidle
    cases hidle
  · obtain ⟨hfile, hopen, hwait⟩ := (step_form (sound h.ops h.files) hs).rejected h hin hnot
    exact ⟨hfile, hopen, hwait, (step_inv h hs).open_free hopen⟩
  · exact (step_form (sound h.ops h.files) hs).released hk hin hnot

/-- A file is opened and read; a close meets the read, two more share one request that fails, and
one comes after. -/
def closeRun : List Act :=
  [.enter, .make { op := 0, kind := .openFile, newFile := 7 }, .await { op := 0, task := some 0 },
    .ret, .complete 0 3 none, .make { op := 1, kind := .read, owner := .result 0 },
    .await { op := 1, task := some 0 }, .make { op := 2, kind := .close, owner := .result 0 },
    .await { op := 2, task := none }, .ret, .complete 1 10 none,
    .make { op := 3, kind := .close, owner := .result 0 }, .await { op := 3, task := none },
    .make { op := 4, kind := .close, owner := .result 0 }, .await { op := 4, task := none }, .ret,
    .complete 3 (-5) none, .tick, .drop 4, .ret, .tick, .ret, .tick, .enter,
    .make { op := 5, kind := .close, owner := .result 0 }, .await { op := 5, task := none }]

theorem file_contract_closeRun : ∃ w, sys.run sys.init closeRun = some w ∧
    w.log.drop 8 = [.ended 2 .close (some 7) ebusy, .completed 1 10 none, .cleanup 1,
      .resumed 1 .read (some 7) 10, .submitted 3 .close (some 7), .suspended 3, .suspended 4,
      .completed 3 (-5) none, .cleanup 3, .resumed 4 .close (some 7) (-5),
      .resumed 3 .close (some 7) (-5), .ended 5 .close (some 7) (-5)] ∧ FileContract w :=
  ⟨_, rfl, rfl, file_contract closeRun _ rfl⟩

end

end Pool
