import Uvpp.Machine.History
import Uvpp.Pool.Forms

/-!
# The events about one operation

`trace Event.about log o` are the events about the operation `o`.  `Story` says, for each state of
the awaiter, what these events are: `Waiting` for a suspended operation, `Settled` for one that is
through.

`Form.ops` says that each step goes on with the story of one operation and leaves all others; with
it `Ops` holds in every run.
-/

namespace Pool
open History Cancel

def Event.op : Event → Op
  | .submitted o _ _ | .rejected o _ _ | .suspended o | .cancelAsked o | .completed o _ _
  | .cleanup o | .handed o _ | .resumed o _ _ _ | .ended o _ _ _ | .threw o | .freed o _ => o

def Event.about (o : Op) (e : Event) : Bool := e.op = o

theorem mem_trace_op {log : List Event} {e : Event} : e ∈ trace Event.about log e.op ↔ e ∈ log :=
  mem_trace _ (decide_eq_true rfl)

/-- a request that libuv accepted, and the stops since -/
def pending (o : Op) (k : Kind) (f : Option File) (n : Nat) : List Event :=
  .submitted o k f :: .suspended o :: List.replicate n (.cancelAsked o)

/-- The events about a suspended operation; the flag says that libuv has the request. -/
inductive Waiting (o : Op) (k : Kind) (f : Option File) (n : Bool) (t : List Event) : Prop
  | request (hk : k ≠ .close) (hn : n = true) (m : Nat) (ht : t = pending o k f m)
  | closing (hk : k = .close) (hn : n = true) (ht : t = [.submitted o .close f, .suspended o])
  | joined (hk : k = .close) (hn : n = false) (ht : t = [.suspended o])
  /-- the close is complete, and its own awaiter still in the list -/
  | closed (hk : k = .close) (hn : n = false) (status : Int)
      (ht : t = [.submitted o .close f, .suspended o, .completed o status none, .cleanup o])

/-- The events about an operation that is through, with the addresses it got. -/
inductive Settled (o : Op) (k : Kind) (a : Option Nat) (t : List Event) : Prop
  | ended (f : Option File) (code : Int) (es : List Event) (hes : Prelude o k f es) (ha : a = none)
      (ht : t = es ++ [.ended o k f code])
  | refused (hk : k = .close) (f : Option File) (code : Int) (ha : a = none)
      (ht : t = [.rejected o .close f, .cleanup o, .ended o .close f code])
  | threw (ha : a = none) (ht : t = [.threw o])
  | answered (hk : k ≠ .close) (f : Option File) (m : Nat) (status : Int)
      (hfail : k = .openFile → status < 0) (ha : k ≠ .resolve → a = none)
      (ht : t = pending o k f m ++ (.completed o status a :: cleaned o k ++ [.resumed o k f status]))
  | opened (hk : k = .openFile) (f : File) (m : Nat) (status : Int) (hs : 0 ≤ status)
      (ha : a = none)
      (ht : t = pending o k (some f) m ++ [.completed o status none, .cleanup o,
        .resumed o .openFile (some f) status, .handed o (some f)])
  | joined (hk : k = .close) (f : Option File) (status : Int) (ha : a = none)
      (ht : t = [.suspended o, .resumed o .close f status])
  | closed (hk : k = .close) (f : Option File) (status status' : Int) (ha : a = none)
      (ht : t = [.submitted o .close f, .suspended o, .completed o status none, .cleanup o,
        .resumed o .close f status'])

/-- neither libuv nor a cancellation state knows the operation -/
structure Idle (r : OpRec) (n : Bool) : Prop where
  native : n = false
  submitted : r.submitted = false
  cancellation : r.cancellation = none

/-- the record, whether libuv has the request, and the events about the operation `o` -/
inductive Story (o : Op) (r : OpRec) (n : Bool) (t : List Event) : Prop
  | fresh (hst : r.status = .fresh) (hi : Idle r n) (hf : r.file = none) (ht : t = [])
  | made (hst : r.status = .made) (hi : Idle r n) (ha : r.addresses = none)
      (hin : r.inputs = r.kind.copies) (hf : r.kind = .openFile → ∃ f, r.file = some f)
      (ht : t = [])
  | suspended (hst : r.status = .suspended) (ha : r.addresses = none)
      (hin : r.inputs = r.kind.copies)
      (hf : r.kind ≠ .resolve → ∃ f, r.file = some f)
      (hsub : r.submitted = true ↔ r.kind ≠ .close)
      (hc : r.kind = .close → r.cancellation = none) (ht : Waiting o r.kind r.file n t)
  | finished (hst : r.status = .finished) (hi : Idle r n)
      (ht : Settled o r.kind r.addresses t)
  | gone (hst : r.status = .gone) (hi : Idle r n) (s : List Event)
      (hs : Settled o r.kind r.addresses s ∨ s = [] ∧ r.addresses = none)
      (ht : t = s ++ (r.addresses.map (.freed o)).toList)

section Story
variable {o : Op} {r : OpRec} {n : Bool} {t : List Event}

theorem Story.of_fresh (h : Story o r n t) (hst : r.status = .fresh) :
    Idle r n ∧ r.file = none ∧ t = [] := by
  cases h with
  | fresh _ hi hf ht => exact ⟨hi, hf, ht⟩
  | made h _ | suspended h _ | finished h _ | gone h _ => rw [hst] at h; cases h

theorem Story.of_made (h : Story o r n t) (hst : r.status = .made) :
    Idle r n ∧ r.addresses = none ∧ r.inputs = r.kind.copies ∧
      (r.kind = .openFile → ∃ f, r.file = some f) ∧ t = [] := by
  cases h with
  | made _ hi ha hin hf ht => exact ⟨hi, ha, hin, hf, ht⟩
  | fresh h _ | suspended h _ | finished h _ | gone h _ => rw [hst] at h; cases h

theorem Story.of_finished (h : Story o r n t) (hst : r.status = .finished) :
    Idle r n ∧ Settled o r.kind r.addresses t := by
  cases h with
  | finished _ hi ht => exact ⟨hi, ht⟩
  | fresh h _ | made h _ | suspended h _ | gone h _ => rw [hst] at h; cases h

theorem Story.idle (h : Story o r n t) (hst : r.status ≠ .suspended) : Idle r n := by
  cases h with
  | fresh _ hi | made _ hi | finished _ hi | gone _ hi => exact hi
  | suspended h _ => exact absurd h hst

/-- what is kept while libuv or the list of a file has the operation -/
structure Kept (o : Op) (r : OpRec) (n : Bool) (t : List Event) : Prop where
  addresses : r.addresses = none
  inputs : r.inputs = r.kind.copies
  file : r.kind ≠ .resolve → ∃ f, r.file = some f
  submitted : r.submitted = true ↔ r.kind ≠ .close
  cancellation : r.kind = .close → r.cancellation = none
  waiting : Waiting o r.kind r.file n t

theorem Story.of_suspended (h : Story o r n t) (hst : r.status = .suspended) : Kept o r n t := by
  cases h with
  | suspended _ ha hin hf hsub hc ht => exact ⟨ha, hin, hf, hsub, hc, ht⟩
  | fresh h _ | made h _ | finished h _ | gone h _ => rw [hst] at h; cases h

/-- libuv has the requests of suspended operations only -/
theorem Story.native (h : Story o r n t) (hn : n = true) : r.status = .suspended := by
  by_contra hst
  have hi := (h.idle hst).native
  rw [hn] at hi
  cases hi

/-- a request that is not a close is libuv's as long as it is suspended -/
theorem Waiting.native {k : Kind} {f : Option File} (h : Waiting o k f n t) (hk : k ≠ .close) :
    n = true ∧ ∃ m, t = pending o k f m := by
  cases h with
  | request _ hn m ht => exact ⟨hn, m, ht⟩
  | closing h _ | joined h _ | closed h _ => exact absurd h hk

theorem Waiting.closing_trace {f : Option File} (h : Waiting o .close f true t) :
    t = [.submitted o .close f, .suspended o] := by
  cases h with
  | request hk _ => exact absurd rfl hk
  | closing _ _ ht => exact ht
  | joined _ hn | closed _ hn => cases hn

end Story

/-- The operations of a world, each with its own story. -/
structure Ops (w : World) : Prop where
  story : ∀ o, Story o (w.op o) (w.native o) (trace Event.about w.log o)
  registered : ∀ c o, (o, ()) ∈ (w.stops c).regs →
    (w.op o).status = .suspended ∧ (w.op o).cancellation = some c

section
variable {w w' : World} {o : Op} {es : List Event}

theorem Ops.init : Ops {} where
  story _ := .fresh rfl ⟨rfl, rfl, rfl⟩ rfl rfl
  registered _ _ h := by cases h

/-- a registered operation is submitted -/
theorem Ops.submitted (h : Ops w) {c : CancelId} (hc : (o, ()) ∈ (w.stops c).regs) :
    (w.op o).submitted = true := by
  obtain ⟨hst, hcan⟩ := h.registered c o hc
  have hkept := (h.story o).of_suspended hst
  refine hkept.submitted.mpr fun hk => ?_
  rw [hkept.cancellation hk] at hcan
  cases hcan

/-- An operation that is not suspended is not registered. -/
theorem Ops.unknown (h : Ops w) (hst : (w.op o).status ≠ .suspended) {c : CancelId} :
    (o, ()) ∉ (w.stops c).regs := fun hc => hst (h.registered c o hc).1

/-- a step that goes on with the story of `o` -/
theorem Ops.goes (h : Ops w) (hop : ∀ p, p ≠ o → w'.op p = w.op p)
    (hnative : ∀ p, p ≠ o → w'.native p = w.native p) (hlog : w'.log = w.log ++ es)
    (hes : ∀ e ∈ es, e.op = o)
    (ho : Story o (w'.op o) (w'.native o) (trace Event.about w.log o ++ es))
    (hregs : ∀ c p, (p, ()) ∈ (w'.stops c).regs → p ≠ o → (p, ()) ∈ (w.stops c).regs)
    (hown : ∀ c, (o, ()) ∈ (w'.stops c).regs →
      (w'.op o).status = .suspended ∧ (w'.op o).cancellation = some c) : Ops w' where
  story p := by
    rw [hlog, trace_append]
    by_cases hp : p = o
    · subst hp
      have hself : ∀ e ∈ es, Event.about p e = true := fun e he => decide_eq_true (hes e he)
      rw [trace_self hself]
      exact ho
    · have hother : ∀ e ∈ es, Event.about p e = false := fun e he =>
        decide_eq_false fun heq => hp (heq.symm.trans (hes e he))
      rw [trace_other hother, List.append_nil, hop p hp, hnative p hp]
      exact h.story p
  registered c p hc := by
    by_cases hp : p = o
    · subst hp
      exact hown c hc
    · rw [hop p hp]
      exact h.registered c p (hregs c p hc hp)

/-- the same for an operation that is not suspended before or after -/
theorem Ops.goesIdle (h : Ops w) (hst : (w.op o).status ≠ .suspended)
    (hop : ∀ p, p ≠ o → w'.op p = w.op p) (hnative : w'.native = w.native)
    (hlog : w'.log = w.log ++ es) (hes : ∀ e ∈ es, e.op = o)
    (ho : Story o (w'.op o) (w'.native o) (trace Event.about w.log o ++ es))
    (hregs : w'.stops = w.stops) :
    Ops w' := by
  refine h.goes hop (fun p _ => by rw [hnative]) hlog hes ho (fun c p hc _ => ?_) (fun c hc => ?_)
  · rw [hregs] at hc
    exact hc
  · rw [hregs] at hc
    exact absurd hc (h.unknown hst)

/-- after a completion the operation is registered nowhere -/
theorem Ops.unregistered (h : Ops w) {c : CancelId} {p : Op}
    (hc : (p, ()) ∈ (delist w.stops o (w.op o).cancellation c).regs) :
    p ≠ o ∧ (p, ()) ∈ (w.stops c).regs := by
  rw [← mem_names, mem_delist, mem_names] at hc
  refine ⟨?_, hc.1⟩
  rintro rfl
  exact hc.2 (h.registered c p hc.1).2 rfl

theorem mem_registered {task : Option CancelId} {c : CancelId} {p : Op} :
    (p, ()) ∈ (enlist w.stops o task c).regs ↔
      p = o ∧ task = some c ∨ (p, ()) ∈ (w.stops c).regs := by
  rw [← mem_names, mem_enlist, mem_names]

theorem Prelude.op {k : Kind} {f : Option File} (h : Prelude o k f es) : ∀ e ∈ es, e.op = o := by
  cases h with
  | none => simp
  | rejected hk => cases k <;> simp [cleaned, Event.op]

theorem cleaned_op {k : Kind} : ∀ e ∈ cleaned o k, e.op = o := by
  cases k <;> simp [cleaned, Event.op]

theorem Form.ops (hf : Form w w') (h : Ops w) : Ops w' := by
  cases hf with
  | runs s t hs ht =>
    exact ⟨h.story, fun c p hc => h.registered c p (by rw [← ht c]; exact hc)⟩
  | owners | rested => exact ⟨h.story, h.registered⟩
  | made m hst hnew =>
    obtain ⟨hi, -, ht⟩ := (h.story m.op).of_fresh hst
    have hes : ∀ e ∈ ([] : List Event), e.op = m.op := nofun
    refine h.goesIdle (by rw [hst]; decide) (fun p hp => Function.update_of_ne hp ..) rfl
      (List.append_nil _).symm hes ?_ rfl
    rw [ht]
    dsimp only [World.make]
    rw [Function.update_self]
    refine .made rfl ⟨hi.native, rfl, rfl⟩ rfl rfl (fun hk => ⟨m.newFile, ?_⟩) rfl
    dsimp only at hk ⊢
    rw [hk]
  | ended o code i es hst hes hcode =>
    obtain ⟨hi, ha, -, -, ht⟩ := (h.story o).of_made hst
    refine h.goesIdle (o := o) (by rw [hst]; decide) (fun p hp => Function.update_of_ne hp ..) rfl
      rfl ?_ ?_ rfl
    · intro e he
      rcases List.mem_append.mp he with he | he
      · exact hes.op e he
      · rw [List.mem_singleton.mp he]
        rfl
    · rw [ht]
      dsimp only
      rw [Function.update_self]
      exact .finished rfl ⟨hi.native, hi.submitted, hi.cancellation⟩ (.ended _ code es hes ha rfl)
  | threw o hst =>
    obtain ⟨hi, ha, -, -, ht⟩ := (h.story o).of_made hst
    refine h.goesIdle (o := o) (by rw [hst]; decide) (fun p hp => Function.update_of_ne hp ..) rfl
      rfl (by simp [Event.op]) ?_ rfl
    rw [ht]
    dsimp only
    rw [Function.update_self]
    exact .finished rfl ⟨hi.native, hi.submitted, hi.cancellation⟩ (.threw ha rfl)
  | refused o f code hst hk hf hopen =>
    obtain ⟨hi, ha, -, -, ht⟩ := (h.story o).of_made hst
    refine h.goesIdle (o := o) (by rw [hst]; decide) (fun p hp => Function.update_of_ne hp ..) rfl
      rfl (by simp [Event.op]) ?_ rfl
    rw [ht]
    dsimp only
    rw [Function.update_self]
    exact .finished rfl ⟨hi.native, hi.submitted, hi.cancellation⟩ (.refused hk _ code ha rfl)
  | submitted o code task hst hk hclaim =>
    obtain ⟨hi, ha, hin, hfile, ht⟩ := (h.story o).of_made hst
    have hcan : task.or (w.op o).cancellation = task := by
      rw [hi.cancellation]
      cases task <;> rfl
    refine h.goes (o := o) (fun p hp => Function.update_of_ne hp ..)
      (fun p hp => Function.update_of_ne hp ..) rfl (by simp [Event.op]) ?_ (fun c p hc hp => ?_)
      (fun c hc => ?_)
    · rw [ht]
      dsimp only
      rw [Function.update_self, Function.update_self]
      refine .suspended rfl ha hin (fun hr => ?_) ⟨fun _ => hk, fun _ => rfl⟩
        (fun h' => absurd h' hk) (.request hk rfl 0 rfl)
      by_cases ht : (w.op o).kind.transfers = true
      · obtain ⟨f, hf, -⟩ := hclaim ht
        exact ⟨f, hf⟩
      · refine hfile ?_
        cases hkind : (w.op o).kind with
        | openFile => rfl
        | read | write => rw [hkind] at ht; exact absurd rfl ht
        | close => exact absurd hkind hk
        | resolve => exact absurd hkind hr
    · exact (mem_registered.mp hc).resolve_left fun h' => hp h'.1
    · dsimp only
      rw [Function.update_self, hcan]
      have hreg := (mem_registered.mp hc).resolve_right (h.unknown (by rw [hst]; decide))
      exact ⟨rfl, hreg.2⟩
  | closing o f code hst hk hf hopen hread hwrite =>
    obtain ⟨hi, ha, hin, hfile, ht⟩ := (h.story o).of_made hst
    refine h.goes (o := o) (fun p hp => Function.update_of_ne hp ..)
      (fun p hp => Function.update_of_ne hp ..) rfl (by simp [Event.op]) ?_ (fun c p hc _ => hc)
      (fun c hc => absurd hc (h.unknown (by rw [hst]; decide)))
    rw [ht]
    dsimp only
    rw [Function.update_self, Function.update_self]
    refine .suspended rfl ha hin (fun _ => ⟨f, hf⟩) ?_ (fun _ => hi.cancellation)
      (.closing hk rfl (by rw [hf]; rfl))
    dsimp only
    rw [hi.submitted]
    exact ⟨nofun, fun h' => absurd hk h'⟩
  | joined o f hst hk hf hactive =>
    obtain ⟨hi, ha, hin, hfile, ht⟩ := (h.story o).of_made hst
    refine h.goes (o := o) (fun p hp => Function.update_of_ne hp ..) (fun p hp => rfl) rfl
      (by simp [Event.op]) ?_ (fun c p hc _ => hc)
      (fun c hc => absurd hc (h.unknown (by rw [hst]; decide)))
    rw [ht]
    dsimp only
    rw [Function.update_self]
    refine .suspended rfl ha hin (fun _ => ⟨f, hf⟩) ?_ (fun _ => hi.cancellation)
      (.joined hk hi.native rfl)
    dsimp only
    rw [hi.submitted]
    exact ⟨nofun, fun h' => absurd hk h'⟩
  | asked c o l hl =>
    have hreg : (o, ()) ∈ (w.stops c).regs := by rw [hl]; exact List.mem_cons_self
    obtain ⟨hst, hcan⟩ := h.registered c o hreg
    have hkept := (h.story o).of_suspended hst
    have hne := hkept.submitted.mp (h.submitted hreg)
    obtain ⟨hn, m, ht⟩ := hkept.waiting.native hne
    have hsub : ∀ c' p, (p, ()) ∈ (Function.update w.stops c { w.stops c with regs := l } c').regs →
        (p, ()) ∈ (w.stops c').regs := by
      intro c' p hp
      by_cases hc : c' = c
      · subst hc
        rw [Function.update_self] at hp
        rw [hl]
        exact List.mem_cons_of_mem _ hp
      · rw [Function.update_of_ne hc] at hp
        exact hp
    refine h.goes (o := o) (fun p hp => rfl) (fun p hp => rfl) rfl (by simp [Event.op]) ?_
      (fun c' p hc _ => hsub c' p hc) (fun c' hc => h.registered c' o (hsub c' o hc))
    rw [ht]
    refine .suspended hst hkept.addresses hkept.inputs hkept.file hkept.submitted
      hkept.cancellation (.request hne hn (m + 1) ?_)
    simp [pending, List.replicate_succ']
  | opened o f status hstack hn hk hf hs =>
    have hkept := (h.story o).of_suspended ((h.story o).native hn)
    obtain ⟨-, m, ht⟩ := hkept.waiting.native (by rw [hk]; decide)
    refine h.goes (o := o) (fun p hp => Function.update_of_ne hp ..)
      (fun p hp => Function.update_of_ne hp ..) rfl (by simp [Event.op]) ?_
      (fun c p hc _ => (h.unregistered hc).2) (fun c hc => absurd rfl (h.unregistered hc).1)
    rw [ht]
    dsimp only
    rw [Function.update_self, Function.update_self]
    refine .finished rfl ⟨rfl, rfl, rfl⟩ (.opened hk f m status hs hkept.addresses ?_)
    rw [hf]
  | answered o status addresses hstack hn hk hfail hnone =>
    have hkept := (h.story o).of_suspended ((h.story o).native hn)
    obtain ⟨-, m, ht⟩ := hkept.waiting.native hk
    refine h.goes (o := o) (fun p hp => Function.update_of_ne hp ..)
      (fun p hp => Function.update_of_ne hp ..) rfl ?_ ?_
      (fun c p hc _ => (h.unregistered hc).2) (fun c hc => absurd rfl (h.unregistered hc).1)
    · intro e he
      rcases List.mem_append.mp he with he | he
      · rcases List.mem_cons.mp he with rfl | he
        · rfl
        · exact cleaned_op e he
      · rw [List.mem_singleton.mp he]
        rfl
    · rw [ht]
      dsimp only
      rw [Function.update_self, Function.update_self]
      have haddr : (if (w.op o).kind = .resolve then addresses else (w.op o).addresses) =
          addresses := by
        split
        · rfl
        · rename_i hr
          rw [hkept.addresses, hnone hr]
      refine .finished rfl ⟨rfl, rfl, rfl⟩ ?_
      dsimp only
      rw [haddr]
      exact .answered hk _ m status hfail hnone rfl
  | closed o f status hstack hn hk hf =>
    have hst := (h.story o).native hn
    have hkept := (h.story o).of_suspended hst
    have ht : trace Event.about w.log o = [.submitted o .close (some f), .suspended o] := by
      have hw := hkept.waiting
      rw [hn, hk, hf] at hw
      exact hw.closing_trace
    refine h.goes (o := o) (fun p hp => rfl) (fun p hp => Function.update_of_ne hp ..) rfl
      (by simp [Event.op]) ?_ (fun c p hc _ => hc) (fun c hc => h.registered c o hc)
    rw [ht]
    dsimp only
    rw [Function.update_self]
    refine .suspended hst hkept.addresses hkept.inputs hkept.file hkept.submitted
      hkept.cancellation (.closed hk rfl status ?_)
    rw [hf]
    rfl
  | delivered f o status k hstack hst hk hf hn =>
    have hkept := (h.story o).of_suspended hst
    have hcan := hkept.cancellation hk
    have hsub : (w.op o).submitted = false :=
      Bool.eq_false_iff.mpr fun h' => hkept.submitted.mp h' hk
    refine h.goes (o := o) (fun p hp => Function.update_of_ne hp ..) (fun p hp => rfl) rfl
      (by simp [Event.op]) ?_ (fun c p hc _ => hc) (fun c hc => ?_)
    · dsimp only
      rw [Function.update_self]
      refine .finished rfl ⟨hn, hsub, hcan⟩ ?_
      cases hkept.waiting with
      | request hne _ => exact absurd hk hne
      | closing _ hn' => rw [hn] at hn'; cases hn'
      | joined _ _ ht =>
        rw [ht]
        exact .joined hk (some f) status hkept.addresses rfl
      | closed _ _ status' ht =>
        rw [ht, hf]
        exact .closed hk (some f) status' status hkept.addresses rfl
    · have hreg := (h.registered c o hc).2
      rw [hcan] at hreg
      cases hreg
  | dropped o hst =>
    have hi : Idle (w.op o) (w.native o) :=
      (h.story o).idle (by rcases hst with hst | hst <;> rw [hst] <;> decide)
    refine h.goesIdle (o := o) (by rcases hst with hst | hst <;> rw [hst] <;> decide)
      (fun p hp => Function.update_of_ne hp ..) rfl rfl ?_ ?_ rfl
    · intro e he
      obtain ⟨a, -, rfl⟩ := Option.map_eq_some_iff.mp (Option.mem_toList.mp he)
      rfl
    · dsimp only
      rw [Function.update_self]
      refine .gone rfl ⟨hi.native, hi.submitted, hi.cancellation⟩ _ ?_ rfl
      rcases hst with hst | hst
      · obtain ⟨-, ha, -, -, ht⟩ := (h.story o).of_made hst
        exact .inr ⟨ht, ha⟩
      · exact .inl ((h.story o).of_finished hst).2

end

end Pool
