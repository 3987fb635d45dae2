import Uvpp.Pool.Lists

/-!
# The closes in the history

* `Ops.flying`        a request that was accepted and not completed is libuv's;
* `Records`           what the history says about the closes of a file, and the file about them;
* `Form.records`      every step keeps it.
-/

namespace Pool
open History

/-! ## The history of a request -/

section
variable {w w' : World} {o p : Op} {k : Kind} {f : Option File}

theorem Prelude.not_submitted {k' : Kind} {f' : Option File} {es : List Event}
    (h : Prelude o k f es) : .submitted p k' f' ∉ es := by
  cases h with
  | none => simp
  | rejected hk => cases k <;> simp [cleaned]

theorem Prelude.not_completed {status : Int} {a : Option Nat} {es : List Event}
    (h : Prelude o k f es) : .completed p status a ∉ es := by
  cases h with
  | none => simp
  | rejected hk => cases k <;> simp [cleaned]

theorem mem_pending_submitted {k' : Kind} {f' : Option File} {m : Nat}
    (h : .submitted o k' f' ∈ pending o k f m) : k' = k ∧ f' = f := by
  simp only [pending, List.mem_cons, Event.submitted.injEq, reduceCtorEq, List.mem_replicate,
    and_false, or_false, true_and] at h
  exact h

/-- an accepted request of an operation that is through was completed -/
theorem Settled.completed {a : Option Nat} {t : List Event} {k' : Kind} (h : Settled o k a t)
    (hs : .submitted o k' f ∈ t) : ∃ status b, .completed o status b ∈ t := by
  cases h with
  | ended g code es hes ha ht =>
    rw [ht, List.mem_append] at hs
    rcases hs with hs | hs
    · exact absurd hs hes.not_submitted
    · simp at hs
  | refused _ _ _ _ ht | threw _ ht | joined _ _ _ _ ht =>
    rw [ht] at hs
    simp at hs
  | answered hk g m status hfail ha ht =>
    rw [ht]
    exact ⟨status, a, by simp⟩
  | opened _ _ _ status _ _ ht | closed _ _ status _ _ ht =>
    rw [ht]
    exact ⟨status, none, by simp⟩

/-- a request that libuv accepted and that is not completed is libuv's -/
theorem Ops.flying (h : Ops w) (hs : .submitted o k f ∈ w.log)
    (hc : ∀ status a, .completed o status a ∉ w.log) :
    w.native o = true ∧ (w.op o).kind = k ∧ (w.op o).file = f := by
  have hs : .submitted o k f ∈ trace Event.about w.log o := mem_trace_op.mpr hs
  have hc : ∀ status a, .completed o status a ∉ trace Event.about w.log o := fun status a h' =>
    hc status a (mem_trace_op.mp h')
  cases h.story o with
  | fresh _ _ _ ht | made _ _ _ _ _ ht => rw [ht] at hs; cases hs
  | suspended _ _ _ _ _ _ hw =>
    cases hw with
    | request hk hn m ht =>
      rw [ht] at hs
      obtain ⟨rfl, rfl⟩ := mem_pending_submitted hs
      exact ⟨hn, rfl, rfl⟩
    | closing hk hn ht =>
      rw [ht] at hs
      simp only [List.mem_cons, Event.submitted.injEq, reduceCtorEq, List.not_mem_nil, or_false,
        true_and] at hs
      exact ⟨hn, hk.trans hs.1.symm, hs.2.symm⟩
    | joined hk hn ht =>
      rw [ht] at hs
      simp at hs
    | closed hk hn status ht =>
      refine absurd ?_ (hc status none)
      rw [ht]
      simp
  | finished _ _ ht =>
    obtain ⟨status, a, hmem⟩ := ht.completed hs
    exact absurd hmem (hc status a)
  | gone _ _ s hset ht =>
    rw [ht] at hs hc
    have hs : .submitted o k f ∈ s := by
      rcases List.mem_append.mp hs with hs | hs
      · exact hs
      · obtain ⟨a, -, h'⟩ := Option.map_eq_some_iff.mp (Option.mem_toList.mp hs)
        cases h'
    rcases hset with hset | ⟨rfl, -⟩
    · obtain ⟨status, a, hmem⟩ := hset.completed hs
      exact absurd (List.mem_append_left _ hmem) (hc status a)
    · cases hs

theorem Waiting.suspended_mem {n : Bool} {t : List Event} (h : Waiting o k f n t) :
    .suspended o ∈ t := by
  cases h with
  | request _ _ m ht => rw [ht]; simp [pending]
  | closing _ _ ht | joined _ _ ht | closed _ _ _ ht => rw [ht]; simp

theorem Waiting.not_resumed {n : Bool} {t : List Event} (h : Waiting o k f n t) {k' : Kind}
    {f' : Option File} {code : Int} : .resumed o k' f' code ∉ t := by
  cases h with
  | request _ _ m ht => rw [ht]; simp [pending]
  | closing _ _ ht | joined _ _ ht | closed _ _ _ ht => rw [ht]; simp

end

/-! ## The closes in the history -/

structure Records (w : World) : Prop where
  accepted : ∀ o f, .submitted o .close (some f) ∈ w.log →
    (w.file f).closeActive = true ∨ (w.file f).closeComplete = true
  status : ∀ o f status a, .submitted o .close (some f) ∈ w.log → .completed o status a ∈ w.log →
    (w.file f).closeComplete = true ∧ (w.file f).closeStatus = status
  complete : ∀ f, (w.file f).closeComplete = true → ∃ o, .submitted o .close (some f) ∈ w.log ∧
    .completed o (w.file f).closeStatus none ∈ w.log

section
variable {w w' : World} {o : Op} {f : File} {es : List Event}

theorem Records.init : Records {} := ⟨nofun, nofun, nofun⟩

theorem Records.frame (h : Records w)
    (hfile : ∀ f, (w'.file f).closeActive = (w.file f).closeActive ∧
      (w'.file f).closeComplete = (w.file f).closeComplete ∧
      (w'.file f).closeStatus = (w.file f).closeStatus)
    (hlog : w'.log = w.log ++ es) (hsub : ∀ o f, .submitted o .close f ∉ es)
    (hcomp : ∀ o status a, .completed o status a ∈ es → ∀ f, .submitted o .close f ∉ w.log) :
    Records w' := by
  have hold : ∀ {o f}, .submitted o .close f ∈ w'.log → .submitted o .close f ∈ w.log := by
    intro o f hs
    rw [hlog] at hs
    exact (List.mem_append.mp hs).resolve_right (hsub o f)
  refine ⟨fun o f hs => ?_, fun o f status a hs hc => ?_, fun f hf => ?_⟩
  · rw [(hfile f).1, (hfile f).2.1]
    exact h.accepted o f (hold hs)
  · rw [(hfile f).2.1, (hfile f).2.2]
    rw [hlog] at hc
    rcases List.mem_append.mp hc with hc | hc
    · exact h.status o f status a (hold hs) hc
    · exact absurd (hold hs) (hcomp o status a hc (some f))
  · rw [(hfile f).2.1] at hf
    rw [(hfile f).2.2, hlog]
    obtain ⟨o, hs, hc⟩ := h.complete f hf
    exact ⟨o, List.mem_append_left _ hs, List.mem_append_left _ hc⟩

/-- a request that is libuv's and no close was not submitted as one -/
theorem Ops.not_close (h : Ops w) (hn : w.native o = true) (hk : (w.op o).kind ≠ .close)
    (f : Option File) : .submitted o .close f ∉ w.log := by
  intro hs
  obtain ⟨-, m, ht⟩ := ((h.story o).of_suspended ((h.story o).native hn)).waiting.native hk
  have hs : .submitted o .close f ∈ trace Event.about w.log o := mem_trace_op.mpr hs
  rw [ht] at hs
  exact hk (mem_pending_submitted hs).1.symm

theorem Records.closing (h : Records w) (hops : Ops w) (hst : (w.op o).status = .made)
    (hopen : (w.file f).isOpen = true)
    (hfile : w'.file = Function.update w.file f
      { w.file f with closeActive := true, closeWaiters := some o })
    (hlog : w'.log = w.log ++ [.submitted o .close (some f), .suspended o]) : Records w' := by
  have hself : w'.file f = { w.file f with closeActive := true, closeWaiters := some o } := by
    rw [hfile, Function.update_self]
  have hother : ∀ g, g ≠ f → w'.file g = w.file g := fun g hg => by
    rw [hfile, Function.update_of_ne hg]
  have hsub : ∀ {p g}, .submitted p .close g ∈ w'.log →
      p = o ∧ g = some f ∨ .submitted p .close g ∈ w.log := by
    intro p g hp
    rw [hlog] at hp
    rcases List.mem_append.mp hp with hp | hp
    · exact .inr hp
    · left
      simpa using hp
  have hcomp : ∀ {p status a}, .completed p status a ∈ w'.log → .completed p status a ∈ w.log := by
    intro p status a hp
    rw [hlog] at hp
    exact (List.mem_append.mp hp).resolve_right (by simp)
  have hcomplete := (FileState.isOpen_iff.mp hopen).2.2
  refine ⟨fun p g hs => ?_, fun p g status a hs hc => ?_, fun g hg => ?_⟩
  · by_cases hgf : g = f
    · subst hgf
      rw [hself]
      exact .inl rfl
    · rw [hother g hgf]
      rcases hsub hs with ⟨-, heq⟩ | hs
      · exact absurd (Option.some.inj heq) hgf
      · exact h.accepted p g hs
  · rcases hsub hs with ⟨rfl, -⟩ | hs
    · -- nothing was completed yet for a new operation
      have hc : .completed p status a ∈ trace Event.about w.log p := mem_trace_op.mpr (hcomp hc)
      rw [((hops.story p).of_made hst).2.2.2.2] at hc
      cases hc
    · have hold := h.status p g status a hs (hcomp hc)
      by_cases hgf : g = f
      · subst hgf
        rw [hcomplete] at hold
        cases hold.1
      · rw [hother g hgf]
        exact hold
  · by_cases hgf : g = f
    · subst hgf
      rw [hself, hcomplete] at hg
      cases hg
    · rw [hother g hgf] at hg ⊢
      obtain ⟨p, hs, hc⟩ := h.complete g hg
      rw [hlog]
      exact ⟨p, List.mem_append_left _ hs, List.mem_append_left _ hc⟩

theorem Records.closed (h : Records w) (hops : Ops w) (hfiles : Files w) (hn : w.native o = true)
    (hk : (w.op o).kind = .close) (hf : (w.op o).file = some f) {status : Int}
    (hfile : w'.file = Function.update w.file f
      { w.file f with
        descriptor := -1, closeActive := false, closeComplete := true, closeStatus := status
        closeWaiters := none })
    (hlog : w'.log = w.log ++ [.completed o status none, .cleanup o]) : Records w' := by
  have hself : (w'.file f).closeComplete = true ∧ (w'.file f).closeStatus = status := by
    rw [hfile, Function.update_self]
    exact ⟨rfl, rfl⟩
  have hother : ∀ g, g ≠ f → w'.file g = w.file g := fun g hg => by
    rw [hfile, Function.update_of_ne hg]
  have ht : trace Event.about w.log o = [.submitted o .close (some f), .suspended o] := by
    have hw := ((hops.story o).of_suspended ((hops.story o).native hn)).waiting
    rw [hn, hk, hf] at hw
    exact hw.closing_trace
  have hsub : ∀ {p g}, .submitted p .close g ∈ w'.log → .submitted p .close g ∈ w.log := by
    intro p g hp
    rw [hlog] at hp
    exact (List.mem_append.mp hp).resolve_right (by simp)
  have hcomp : ∀ {p st a}, .completed p st a ∈ w'.log →
      p = o ∧ st = status ∨ .completed p st a ∈ w.log := by
    intro p st a hp
    rw [hlog] at hp
    rcases List.mem_append.mp hp with hp | hp
    · exact .inr hp
    · left
      simp only [List.mem_cons, Event.completed.injEq, reduceCtorEq, List.not_mem_nil,
        or_false] at hp
      exact ⟨hp.1, hp.2.1⟩
  -- no other close of the file is complete: this one was active
  have honce := hfiles.closes.once f ((hfiles.closes.active f).mpr ⟨o, hn, hk, hf⟩)
  refine ⟨fun p g hs => ?_, fun p g st a hs hc => ?_, fun g hg => ?_⟩
  · by_cases hgf : g = f
    · subst hgf
      exact .inr hself.1
    · rw [hother g hgf]
      exact h.accepted p g (hsub hs)
  · rcases hcomp hc with ⟨rfl, rfl⟩ | hc
    · have hs : .submitted p .close (some g) ∈ trace Event.about w.log p :=
        mem_trace_op.mpr (hsub hs)
      rw [ht] at hs
      obtain rfl : g = f := by simpa using hs
      exact hself
    · have hold := h.status p g st a (hsub hs) hc
      by_cases hgf : g = f
      · subst hgf
        rw [honce] at hold
        cases hold.1
      · rw [hother g hgf]
        exact hold
  · rw [hlog]
    by_cases hgf : g = f
    · subst hgf
      refine ⟨o, List.mem_append_left _ ?_, List.mem_append_right _ ?_⟩
      · refine mem_trace_op.mp ?_
        show _ ∈ trace Event.about w.log o
        rw [ht]
        exact List.mem_cons_self
      · rw [hself.2]
        exact List.mem_cons_self
    · rw [hother g hgf] at hg ⊢
      obtain ⟨p, hs, hc⟩ := h.complete g hg
      exact ⟨p, List.mem_append_left _ hs, List.mem_append_left _ hc⟩

theorem Form.records (hf : Form w w') (hops : Ops w) (hfiles : Files w) (h : Records w) :
    Records w' := by
  have hsame : ∀ {g : File → FileState}, (∀ f, (g f).closePart = (w.file f).closePart) → ∀ f,
      (g f).closeActive = (w.file f).closeActive ∧
        (g f).closeComplete = (w.file f).closeComplete ∧
        (g f).closeStatus = (w.file f).closeStatus := by
    intro g hg f
    have hpart := hg f
    simp only [FileState.closePart, Prod.mk.injEq] at hpart
    exact ⟨hpart.1, hpart.2.1, hpart.2.2.1⟩
  have hupdate : ∀ {f : File} {x : FileState}, x.closeActive = (w.file f).closeActive ∧
      x.closeComplete = (w.file f).closeComplete ∧ x.closeStatus = (w.file f).closeStatus → ∀ g,
      (Function.update w.file f x g).closeActive = (w.file g).closeActive ∧
        (Function.update w.file f x g).closeComplete = (w.file g).closeComplete ∧
        (Function.update w.file f x g).closeStatus = (w.file g).closeStatus := by
    intro f x hx g
    by_cases hgf : g = f
    · subst hgf
      rw [Function.update_self]
      exact hx
    · rw [Function.update_of_ne hgf]
      exact ⟨rfl, rfl, rfl⟩
  cases hf with
  | runs | owners | made | rested _ status => exact ⟨h.accepted, h.status, h.complete⟩
  | ended o code i es hst hes hcode =>
    refine h.frame (hsame fun _ => rfl) rfl (fun p f hp => ?_) (fun p st a hp => ?_)
    · rcases List.mem_append.mp hp with hp | hp
      · exact hes.not_submitted hp
      · simp at hp
    · rcases List.mem_append.mp hp with hp | hp
      · exact absurd hp hes.not_completed
      · simp at hp
  | threw | asked | delivered => exact h.frame (hsame fun _ => rfl) rfl (by simp) (by simp)
  | refused | joined =>
    exact h.frame (hupdate ⟨rfl, rfl, rfl⟩) rfl (by simp) (by simp)
  | submitted o code task hst hk hclaim =>
    refine h.frame (hsame fun g => claimed_closePart) rfl (fun p f hp => ?_) (by simp)
    simp only [List.mem_cons, Event.submitted.injEq, reduceCtorEq, List.not_mem_nil,
      or_false] at hp
    exact hk hp.2.1.symm
  | closing o f code hst hk hf hopen hread hwrite => exact h.closing hops hst hopen rfl rfl
  | opened o f status hstack hn hk hf hs =>
    refine h.frame (hupdate ⟨rfl, rfl, rfl⟩) rfl (by simp) (fun p st a hp g => ?_)
    simp only [List.mem_cons, Event.completed.injEq, reduceCtorEq, List.not_mem_nil, or_false] at hp
    rw [hp.1]
    exact hops.not_close hn (by rw [hk]; decide) g
  | answered o status addresses hstack hn hk hfail hnone =>
    refine h.frame (hsame fun g => claimed_closePart) rfl (fun p f hp => ?_)
      (fun p st a hp g => ?_)
    · cases hkind : (w.op o).kind <;> rw [hkind] at hp <;> simp [cleaned] at hp
    · obtain rfl : p = o := by
        have hop : ∀ e ∈ (Event.completed o status addresses :: cleaned o (w.op o).kind ++
            [.resumed o (w.op o).kind (w.op o).file status]), e.op = o := by
          intro e he
          rcases List.mem_append.mp he with he | he
          · rcases List.mem_cons.mp he with rfl | he
            · rfl
            · exact cleaned_op e he
          · rw [List.mem_singleton.mp he]
            rfl
        exact hop _ hp
      exact hops.not_close hn hk g
  | closed o f status hstack hn hk hf => exact h.closed hops hfiles hn hk hf rfl rfl
  | dropped o hst =>
    refine h.frame (hsame fun _ => rfl) rfl (fun p f hp => ?_) (fun p st a hp => ?_)
    · obtain ⟨a, -, h'⟩ := Option.map_eq_some_iff.mp (Option.mem_toList.mp hp)
      cases h'
    · obtain ⟨a, -, h'⟩ := Option.map_eq_some_iff.mp (Option.mem_toList.mp hp)
      cases h'

end

end Pool
