import Uvpp.Machine.Run

/-!
# A bounded first-in first-out queue that is served in batches

What a bounded queue of jobs is for, without saying how it is built.  A job is accepted or rejected
when it is offered; accepted jobs are taken in batches, invoked in order, and destroyed after their
batch; once shut, nothing is accepted any more; a shut queue with nothing left may close.

* `Fifo`, `Op`, `Fifo.step`   the state with its history, and the operations;
* `sys cap budget`    the machine: `cap` jobs may wait, a batch has at most `budget`;
* `Ordered`           the invariant;
* `reach_ordered`     it holds in every run;
* `Ordered.invoked_initial`, `Ordered.rejected_not_invoked`, `Ordered.closed_done`   what it says.
-/

set_option linter.unusedSectionVars false

namespace Queue

structure Fifo (α : Type) where
  waiting : List α := []
  /-- taken and not yet invoked -/
  batch : List α := []
  /-- invoked and not yet destroyed -/
  spent : List α := []
  accepted : List α := []
  rejected : List α := []
  invoked : List α := []
  destroyed : List α := []
  isShut : Bool := false
  closed : Bool := false

inductive Op (α : Type) where
  | accept (x : α)
  | reject (x : α)
  | take
  | invoke
  | destroy
  | shut
  | close

section
variable {α : Type} [DecidableEq α]

/-- a job that was not offered before -/
def Fifo.isNew (q : Fifo α) (x : α) : Prop := x ∉ q.accepted ∧ x ∉ q.rejected

instance (q : Fifo α) (x : α) : Decidable (q.isNew x) := inferInstanceAs (Decidable (_ ∧ _))

def Fifo.step (cap budget : Nat) (q : Fifo α) : Op α → Option (Fifo α)
  | .accept x =>
    if q.isShut = false ∧ q.waiting.length < cap ∧ q.isNew x then
      some { q with waiting := q.waiting ++ [x], accepted := q.accepted ++ [x] }
    else none
  | .reject x => if q.isNew x then some { q with rejected := q.rejected ++ [x] } else none
  | .take =>
    if q.batch = [] ∧ q.spent = [] then
      some { q with batch := q.waiting.take budget, waiting := q.waiting.drop budget }
    else none
  | .invoke =>
    match q.batch with
    | x :: xs => some { q with batch := xs, spent := q.spent ++ [x], invoked := q.invoked ++ [x] }
    | [] => none
  | .destroy =>
    match q.batch, q.spent with
    | [], x :: xs => some { q with spent := xs, destroyed := q.destroyed ++ [x] }
    | _, _ => none
  | .shut => some { q with isShut := true }
  | .close =>
    if q.isShut = true ∧ q.waiting = [] ∧ q.batch = [] ∧ q.spent = [] then
      some { q with closed := true }
    else none

def sys (α : Type) [DecidableEq α] (cap budget : Nat) : Sys (Fifo α) (Op α) :=
  ⟨{}, Fifo.step cap budget⟩

structure Ordered (cap budget : Nat) (q : Fifo α) : Prop where
  accepted : q.accepted = q.invoked ++ (q.batch ++ q.waiting)
  invoked : q.invoked = q.destroyed ++ q.spent
  fresh : q.accepted.Nodup
  rejected : ∀ x ∈ q.rejected, x ∉ q.accepted
  waiting : q.waiting.length ≤ cap
  running : (q.spent ++ q.batch).length ≤ min cap budget
  closed : q.closed = true → q.isShut = true ∧ q.waiting = [] ∧ q.batch = [] ∧ q.spent = []

variable {cap budget : Nat} {q q' : Fifo α} {op : Op α}

theorem ordered_accept {x : α} (h : Ordered cap budget q) (hs : q.isShut = false)
    (hw : q.waiting.length < cap) (hx : q.isNew x) :
    Ordered cap budget { q with waiting := q.waiting ++ [x], accepted := q.accepted ++ [x] } := by
  refine ⟨?_, h.invoked, ?_, ?_, ?_, h.running, fun hc => ?_⟩
  · simp [h.accepted]
  · refine List.nodup_append.mpr ⟨h.fresh, by simp, ?_⟩
    intro a ha b hb
    rw [List.mem_singleton.mp hb]
    exact fun he => hx.1 (he ▸ ha)
  · intro y hy hm
    rcases List.mem_append.mp hm with hm | hm
    · exact h.rejected y hy hm
    · exact hx.2 (List.mem_singleton.mp hm ▸ hy)
  · rw [List.length_append, List.length_singleton]
    omega
  · have := (h.closed hc).1
    rw [hs] at this
    cases this

theorem ordered_take (h : Ordered cap budget q) (hb : q.batch = []) (hsp : q.spent = []) :
    Ordered cap budget { q with
      batch := q.waiting.take budget, waiting := q.waiting.drop budget } := by
  have hacc := h.accepted
  have hwait := h.waiting
  refine ⟨?_, h.invoked, h.fresh, h.rejected, ?_, ?_, fun hc => ?_⟩
  · show q.accepted = q.invoked ++ (q.waiting.take budget ++ q.waiting.drop budget)
    rw [List.take_append_drop, hacc, hb, List.nil_append]
  · show (q.waiting.drop budget).length ≤ cap
    rw [List.length_drop]
    omega
  · show (q.spent ++ q.waiting.take budget).length ≤ min cap budget
    rw [hsp, List.nil_append, List.length_take]
    omega
  · obtain ⟨h1, h2, -, -⟩ := h.closed hc
    refine ⟨h1, ?_, ?_, hsp⟩
    · show q.waiting.drop budget = []
      rw [h2, List.drop_nil]
    · show q.waiting.take budget = []
      rw [h2, List.take_nil]

theorem ordered_step (h : Ordered cap budget q) (hs : (sys α cap budget).step q op = some q') :
    Ordered cap budget q' := by
  cases op with
  | accept x =>
    obtain ⟨⟨h1, h2, h3⟩, rfl⟩ := by simpa [sys, Fifo.step] using hs
    exact ordered_accept h h1 h2 h3
  | reject x =>
    obtain ⟨hx, rfl⟩ := by simpa [sys, Fifo.step] using hs
    refine ⟨h.accepted, h.invoked, h.fresh, ?_, h.waiting, h.running, h.closed⟩
    intro y hy
    rcases List.mem_append.mp hy with hy | hy
    · exact h.rejected y hy
    · rw [List.mem_singleton.mp hy]
      exact hx.1
  | take =>
    obtain ⟨⟨hb, hsp⟩, rfl⟩ := by simpa [sys, Fifo.step] using hs
    exact ordered_take h hb hsp
  | invoke =>
    simp only [sys, Fifo.step] at hs
    split at hs <;> cases hs
    rename_i x xs hb
    refine ⟨?_, ?_, h.fresh, h.rejected, h.waiting, ?_, fun hc => ?_⟩
    · simpa [hb] using h.accepted
    · simp [h.invoked]
    · simpa [hb] using h.running
    · have := (h.closed hc).2.2.1
      rw [hb] at this
      cases this
  | destroy =>
    simp only [sys, Fifo.step] at hs
    split at hs <;> cases hs
    rename_i x xs hb hsp
    have hrun := h.running
    refine ⟨h.accepted, ?_, h.fresh, h.rejected, h.waiting, ?_, fun hc => ?_⟩
    · simp [h.invoked, hsp]
    · simp only [hb, hsp, List.length_append, List.length_cons] at hrun ⊢
      omega
    · have := (h.closed hc).2.2.2
      rw [hsp] at this
      cases this
  | shut =>
    cases hs
    exact ⟨h.accepted, h.invoked, h.fresh, h.rejected, h.waiting, h.running,
      fun hc => ⟨rfl, (h.closed hc).2⟩⟩
  | close =>
    obtain ⟨hc, rfl⟩ := by simpa [sys, Fifo.step] using hs
    exact ⟨h.accepted, h.invoked, h.fresh, h.rejected, h.waiting, h.running, fun _ => hc⟩

theorem reach_ordered (h : (sys α cap budget).Reach q) : Ordered cap budget q := by
  refine Sys.Reach.inv (P := Ordered cap budget) ?_ (fun _ _ _ hi hs => ordered_step hi hs) h
  exact ⟨rfl, rfl, List.nodup_nil, nofun, Nat.zero_le _, Nat.zero_le _, nofun⟩

namespace Ordered

theorem invoked_initial (h : Ordered cap budget q) : q.invoked <+: q.accepted :=
  ⟨_, h.accepted.symm⟩

theorem rejected_not_invoked (h : Ordered cap budget q) {x : α} (hx : x ∈ q.rejected) :
    x ∉ q.invoked :=
  fun hi => h.rejected x hx (h.invoked_initial.subset hi)

/-- when the queue closes, every accepted job has been invoked and destroyed -/
theorem closed_done (h : Ordered cap budget q) (hc : q.closed = true) :
    q.invoked = q.accepted ∧ q.destroyed = q.accepted := by
  obtain ⟨-, hw, hb, hsp⟩ := h.closed hc
  have hall : q.invoked = q.accepted := by rw [h.accepted, hb, hw, List.append_nil, List.append_nil]
  refine ⟨hall, ?_⟩
  rw [← hall, h.invoked, hsp, List.append_nil]

end Ordered

end

end Queue
