import Mathlib.Data.List.Nodup
import Mathlib.Logic.Function.Basic
import Mathlib.Tactic.Common

/-!
# Circular doubly linked queues

A memory of links is a pair of functions, `next` and `prev`.  `Links.Seg r a l b` says that from
`a` the links run through the nodes of `l`, in order, to `b`, in both directions; a queue with the
head `h` and the nodes `l` is a segment from `h` to `h` in which no node occurs twice.

* `Seg.append`            segments one after the other;
* `Seg.frame`             a segment depends on its own links only;
* `Seg.unlink`            unlinking a node of a segment by its two neighbours;
* `Seg.insertTail`        linking a node in before the end of a segment;
* `Ring.unlink`, `Ring.insertTail`   the same for queues;
* `Ring.outside`, `Ring.unlink_other`   what does not touch a queue;
* `Ring.unique`           a memory shows at most one queue at a head;
* `Linked next a l`       a simply linked list, from the pointer `a` to null.
-/

set_option linter.unusedSectionVars false
/-- the two links of every node -/
structure Links (α : Type) where
  next : α → α
  prev : α → α

namespace Links
variable {α : Type} [DecidableEq α]

def setNext (r : Links α) (a b : α) : Links α := { r with next := Function.update r.next a b }

def setPrev (r : Links α) (a b : α) : Links α := { r with prev := Function.update r.prev a b }

/-- the two neighbours of `x` are linked to each other -/
def unlink (r : Links α) (x : α) : Links α := (r.setPrev (r.next x) (r.prev x)).setNext (r.prev x) (r.next x)

/-- `x` becomes the last node before `h` -/
def insertTail (r : Links α) (h x : α) : Links α :=
  (((r.setNext x h).setPrev x (r.prev h)).setNext (r.prev h) x).setPrev h x

/-- from `a` through `l` to `b` -/
def Seg (r : Links α) : α → List α → α → Prop
  | a, [], b => r.next a = b ∧ r.prev b = a
  | a, x :: l, b => r.next a = x ∧ r.prev x = a ∧ Seg r x l b

/-- the queue with the head `h` and the nodes `l` -/
structure Ring (r : Links α) (h : α) (l : List α) : Prop where
  seg : r.Seg h l h
  nodup : (h :: l).Nodup

variable {r r' : Links α} {a b h x : α} {l m : List α}

theorem Seg.append : r.Seg a (l ++ x :: m) b ↔ r.Seg a l x ∧ r.Seg x m b := by
  induction l generalizing a with
  | nil =>
    show r.next a = x ∧ r.prev x = a ∧ r.Seg x m b ↔ (r.next a = x ∧ r.prev x = a) ∧ r.Seg x m b
    exact and_assoc.symm
  | cons c l ih =>
    show r.next a = c ∧ r.prev c = a ∧ r.Seg c (l ++ x :: m) b ↔
      (r.next a = c ∧ r.prev c = a ∧ r.Seg c l x) ∧ r.Seg x m b
    rw [ih]
    simp only [and_assoc]

/-- links that agree on a segment show the same segment -/
theorem Seg.frame (hs : r.Seg a l b) (hnext : ∀ y ∈ a :: l, r'.next y = r.next y)
    (hprev : ∀ y ∈ l ++ [b], r'.prev y = r.prev y) : r'.Seg a l b := by
  induction l generalizing a with
  | nil =>
    refine ⟨?_, ?_⟩
    · rw [hnext a List.mem_cons_self]
      exact hs.1
    · rw [hprev b (by simp)]
      exact hs.2
  | cons c l ih =>
    obtain ⟨hn, hp, hs⟩ := hs
    refine ⟨?_, ?_, ih hs (fun y hy => ?_) (fun y hy => ?_)⟩
    · rw [hnext a List.mem_cons_self]
      exact hn
    · rw [hprev c (by simp)]
      exact hp
    · exact hnext y (List.mem_cons_of_mem _ hy)
    · exact hprev y (List.mem_cons_of_mem _ hy)

/-- the node before the end of a segment -/
theorem Seg.prev_mem (hs : r.Seg a l b) : r.prev b ∈ a :: l := by
  induction l generalizing a with
  | nil => exact List.mem_singleton.mpr hs.2
  | cons c l ih => exact List.mem_cons_of_mem _ (ih hs.2.2)

/-- the node after the start of a segment -/
theorem Seg.next_mem (hs : r.Seg a l b) : r.next a ∈ l ++ [b] := by
  cases l with
  | nil => simp [hs.1]
  | cons c l => simp [hs.1]

theorem unlink_next {y : α} (hy : y ≠ r.prev x) : (r.unlink x).next y = r.next y :=
  Function.update_of_ne hy ..

theorem unlink_prev {y : α} (hy : y ≠ r.next x) : (r.unlink x).prev y = r.prev y :=
  Function.update_of_ne hy ..

theorem unlink_next_prev : (r.unlink x).next (r.prev x) = r.next x := Function.update_self ..

theorem unlink_prev_next : (r.unlink x).prev (r.next x) = r.prev x := Function.update_self ..

/-- Without `x` the segments on its two sides are one.  The induction goes through the nodes before
`x`; the end `b` may be the start of the whole segment, so it is only known to be none of the nodes
after the start. -/
theorem Seg.unlink (hl : r.Seg a l x) (hm : r.Seg x m b) (hnodup : (a :: (l ++ x :: m)).Nodup)
    (hb : b ∉ l ++ x :: m) : (r.unlink x).Seg a (l ++ m) b := by
  induction l generalizing a with
  | nil =>
    obtain ⟨hn, hp⟩ := hl
    have ha : a ∉ x :: m := (List.nodup_cons.mp hnodup).1
    cases m with
    | nil =>
      refine ⟨?_, ?_⟩
      · rw [← hm.1, ← hp, unlink_next_prev]
      · rw [← hm.1, unlink_prev_next, hp]
    | cons y m =>
      obtain ⟨hny, hpy, hm⟩ := hm
      have hy : y ∉ m := ((List.nodup_cons.mp ((List.nodup_cons.mp
        (List.nodup_cons.mp hnodup).2).2)).1)
      refine ⟨?_, ?_, hm.frame (fun z hz => unlink_next fun hz' => ?_)
        (fun z hz => unlink_prev fun hz' => ?_)⟩
      · rw [← hny, ← hp, unlink_next_prev]
      · rw [← hny, unlink_prev_next, hp]
      · rw [hz', hp] at hz
        exact ha (List.mem_cons_of_mem _ hz)
      · rw [hz', hny] at hz
        rcases List.mem_append.mp hz with hz | hz
        · exact hy hz
        · exact hb (by simp [List.mem_singleton.mp hz])
  | cons c l ih =>
    obtain ⟨hn, hp, hl⟩ := hl
    obtain ⟨ha, hrest⟩ := List.nodup_cons.mp hnodup
    refine ⟨?_, ?_, ih hl hrest fun hmem => hb (List.mem_cons_of_mem _ hmem)⟩
    · refine (unlink_next fun h' => ha ?_).trans hn
      have hmem := hl.prev_mem
      rw [← h'] at hmem
      exact List.mem_append_left (x :: m) (show a ∈ c :: l from hmem)
    · refine (unlink_prev fun h' => ?_).trans hp
      have hmem := hm.next_mem
      rw [← h'] at hmem
      rcases List.mem_append.mp hmem with hmem | hmem
      · exact (List.nodup_cons.mp hrest).1 (by simp [hmem])
      · exact hb (by simp [List.mem_singleton.mp hmem])

/-- `x` is linked in before the end of a segment -/
theorem Seg.insertTail (hs : r.Seg a l b) (hx : x ∉ a :: l) (hxb : x ≠ b)
    (hnodup : (a :: l).Nodup) (hb : b ∉ l) : (r.insertTail b x).Seg a (l ++ [x]) b := by
  have hlast : r.prev b ∈ a :: l := hs.prev_mem
  have hpx : (r.insertTail b x).prev x = r.prev b := by
    simp [Links.insertTail, setPrev, setNext, hxb]
  have hpb : (r.insertTail b x).prev b = x := by simp [Links.insertTail, setPrev]
  have hnx : (r.insertTail b x).next x = b := by
    have hne : x ≠ r.prev b := fun h' => hx (h' ▸ hlast)
    simp [Links.insertTail, setPrev, setNext, hne]
  have hnp : (r.insertTail b x).next (r.prev b) = x := by
    simp [Links.insertTail, setPrev, setNext]
  have hnext : ∀ y, y ≠ x → y ≠ r.prev b → (r.insertTail b x).next y = r.next y := by
    intro y hy hy'
    simp [Links.insertTail, setPrev, setNext, hy, hy']
  have hprev : ∀ y, y ≠ x → y ≠ b → (r.insertTail b x).prev y = r.prev y := by
    intro y hy hy'
    simp [Links.insertTail, setPrev, setNext, hy, hy']
  induction l generalizing a with
  | nil =>
    refine ⟨?_, ?_, hnx, hpb⟩
    · rw [← hs.2]
      exact hnp
    · rw [hpx]
      exact hs.2
  | cons c l ih =>
    obtain ⟨hn, hp, hs⟩ := hs
    obtain ⟨ha, hrest⟩ := List.nodup_cons.mp hnodup
    have hmem : r.prev b ∈ c :: l := hs.prev_mem
    refine ⟨?_, ?_, ih hs (fun h' => hx (List.mem_cons_of_mem _ h')) hrest
      (fun h' => hb (List.mem_cons_of_mem _ h')) hmem⟩
    · refine (hnext a (fun h' => hx ?_) fun h' => ha ?_).trans hn
      · rw [h']
        exact List.mem_cons_self
      · rw [h']
        exact hmem
    · refine (hprev c (fun h' => hx ?_) fun h' => hb ?_).trans hp
      · rw [h']
        exact List.mem_cons_of_mem _ List.mem_cons_self
      · rw [h']
        exact List.mem_cons_self

theorem Ring.unlink (hr : r.Ring h (l ++ x :: m)) : (r.unlink x).Ring h (l ++ m) where
  seg := by
    obtain ⟨hl, hm⟩ := Seg.append.mp hr.seg
    exact hl.unlink hm hr.nodup (List.nodup_cons.mp hr.nodup).1
  nodup := by
    refine hr.nodup.sublist (List.Sublist.cons_cons _ ?_)
    exact (List.Sublist.refl l).append (List.sublist_cons_self x m)

theorem Ring.not_mem (hr : r.Ring h (l ++ x :: m)) : x ∉ h :: (l ++ m) := by
  have hperm : (h :: (l ++ x :: m)).Perm (x :: h :: (l ++ m)) :=
    (List.perm_middle.cons h).trans (List.Perm.swap x h _)
  exact (List.nodup_cons.mp (hperm.nodup_iff.mp hr.nodup)).1

theorem Ring.insertTail (hr : r.Ring h l) (hx : x ∉ h :: l) : (r.insertTail h x).Ring h (l ++ [x]) where
  seg := hr.seg.insertTail hx (fun h' => hx (h' ▸ List.mem_cons_self)) hr.nodup
    (List.nodup_cons.mp hr.nodup).1
  nodup := by
    rw [← List.cons_append, List.nodup_append]
    refine ⟨hr.nodup, List.nodup_singleton x, fun y hy z hz hyz => hx ?_⟩
    rw [← List.mem_singleton.mp hz, ← hyz]
    exact hy

/-- the links of a node outside of a queue are no part of it -/
theorem Ring.outside (hr : r.Ring h l) (hx : x ∉ h :: l) : ((r.setNext x a).setPrev x b).Ring h l where
  seg := by
    have hne : ∀ y ∈ h :: l, y ≠ x := by
      rintro y hy rfl
      exact hx hy
    refine hr.seg.frame (fun y hy => Function.update_of_ne (hne y hy) ..)
      fun y hy => Function.update_of_ne (hne y ?_) ..
    simpa [or_comm] using hy
  nodup := hr.nodup

/-- unlinking a node of one queue is nothing to another -/
theorem Ring.unlink_other {k : α} (hr : r.Ring h (l ++ x :: m)) {n : List α} (hn : r.Ring k n)
    (hd : ∀ y ∈ k :: n, y ∉ h :: (l ++ x :: m)) : (r.unlink x).Ring k n where
  seg := by
    obtain ⟨hl, hm⟩ := Seg.append.mp hr.seg
    have hprev : r.prev x ∈ h :: (l ++ x :: m) := by
      rw [← List.cons_append]
      exact List.mem_append_left _ hl.prev_mem
    have hnext : r.next x ∈ h :: (l ++ x :: m) := by
      rcases List.mem_append.mp hm.next_mem with hmem | hmem
      · simp [hmem]
      · simp [List.mem_singleton.mp hmem]
    refine hn.seg.frame (fun y hy => unlink_next ?_) fun y hy => unlink_prev ?_
    · rintro rfl
      exact hd _ hy hprev
    · rintro rfl
      exact hd _ (by simpa [or_comm] using hy) hnext
  nodup := hn.nodup

/-- a segment is determined by its ends, when its end is none of its nodes -/
theorem Seg.unique (hl : r.Seg a l b) (hm : r.Seg a m b) (hbl : b ∉ l) (hbm : b ∉ m) : l = m := by
  induction l generalizing a m with
  | nil =>
    cases m with
    | nil => rfl
    | cons c m => exact absurd (show b ∈ c :: m by rw [← hl.1, hm.1]; exact List.mem_cons_self) hbm
  | cons c l ih =>
    cases m with
    | nil => exact absurd (show b ∈ c :: l by rw [← hm.1, hl.1]; exact List.mem_cons_self) hbl
    | cons d m =>
      obtain rfl : c = d := hl.1.symm.trans hm.1
      rw [ih hl.2.2 hm.2.2 (fun h' => hbl (List.mem_cons_of_mem _ h'))
        (fun h' => hbm (List.mem_cons_of_mem _ h'))]

theorem Ring.unique (hl : r.Ring h l) (hm : r.Ring h m) : l = m :=
  hl.seg.unique hm.seg (List.nodup_cons.mp hl.nodup).1 (List.nodup_cons.mp hm.nodup).1

end Links

section Linked
variable {α : Type} [DecidableEq α] {next next' : α → Option α} {a : Option α} {x : α} {l : List α}

/-- from `a` through `l` to null -/
def Linked (next : α → Option α) : Option α → List α → Prop
  | a, [] => a = none
  | a, x :: l => a = some x ∧ Linked next (next x) l

theorem Linked.frame (h : Linked next a l) (hn : ∀ x ∈ l, next' x = next x) : Linked next' a l := by
  induction l generalizing a with
  | nil => exact h
  | cons x l ih =>
    refine ⟨h.1, ?_⟩
    rw [hn x List.mem_cons_self]
    exact ih h.2 fun y hy => hn y (List.mem_cons_of_mem _ hy)

theorem Linked.push (h : Linked next a l) (hx : x ∉ l) :
    Linked (Function.update next x a) (some x) (x :: l) := by
  refine ⟨rfl, ?_⟩
  rw [Function.update_self]
  exact h.frame fun y hy => Function.update_of_ne (fun (he : y = x) => hx (he ▸ hy)) ..

theorem Linked.eq_nil (h : Linked next none l) : l = [] := by
  cases l with
  | nil => rfl
  | cons x l => cases h.1

theorem Linked.eq_cons (h : Linked next (some x) l) : ∃ m, l = x :: m ∧ Linked next (next x) m := by
  cases l with
  | nil => cases h
  | cons y m =>
    obtain ⟨hy, hm⟩ := h
    cases hy
    exact ⟨m, rfl, hm⟩

end Linked
