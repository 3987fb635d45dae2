import Uvpp.Wait.Model

/-!
# What a list of notifications amounts to

An fs-event source keeps one outcome for all notifications that nobody waits for
(`fs_event_source.hpp`).

* `Notification`         the arguments of `deliver_event`, and the result that they alone give;
* `summary`              the outcome of a whole list: its first failure, or all flags together with
                         the name that all have in common;
* `summary_snoc`         one more notification changes the summary as `deliver_event` does.
-/

namespace Wait

/-- the arguments of one `deliver_event`; `throws`: storing the file name throws -/
structure Notification where
  filename : Option String
  events : BitVec 32
  status : Int
  throws : Bool
deriving DecidableEq

/-- what `co_await next()` gives -/
inductive NextResult where
  | exception
  | error (status : Int)
  | event (e : FsEvent)
deriving DecidableEq

/-- `next_awaiter::await_resume` -/
def FsOutcome.result (x : FsOutcome) : NextResult :=
  if x.failed then .exception
  else if x.status < 0 then .error x.status
  else .event x.event

namespace Notification

def outcome (n : Notification) : FsOutcome := .make n.filename n.events n.status n.throws

def fails (n : Notification) : Bool := decide (n.status < 0) || (n.filename.isSome && n.throws)

/-- what the notification gives when it is the only one -/
def result (n : Notification) : NextResult :=
  if n.status < 0 then .error n.status
  else if n.filename.isSome && n.throws then .exception
  else .event { filename := n.filename, events := n.events }

theorem failing_outcome (n : Notification) : n.outcome.failing = n.fails := by
  unfold outcome FsOutcome.failing FsOutcome.make fails
  by_cases hs : n.status < 0
  · simp [hs]
  · have hge : n.status ≥ 0 := by omega
    simp [hs, hge]

theorem outcome_of_not_fails {n : Notification} (hn : n.fails = false) :
    n.outcome = { status := n.status, event := { filename := n.filename, events := n.events },
                  failed := false } := by
  obtain ⟨hs, ht⟩ : ¬ n.status < 0 ∧ (n.filename.isSome && n.throws) = false := by
    simpa [fails] using hn
  have hge : n.status ≥ 0 := by omega
  cases hf : n.filename with
  | none => simp [outcome, FsOutcome.make, hf]
  | some name =>
    have hthrows : n.throws = false := by simpa [hf] using ht
    simp [outcome, FsOutcome.make, hf, hthrows, hge]

end Notification

def unionEvents (l : List Notification) : BitVec 32 := l.foldl (fun f n => f ||| n.events) 0

/-- the file name of all notifications, if they have the same -/
def commonName : List Notification → Option String
  | [] => none
  | n :: t => if ∀ m ∈ t, m.filename = n.filename then n.filename else none

/-- everything that happened, in one outcome -/
def together (status : Int) (l : List Notification) : FsOutcome where
  status := status
  event := { filename := commonName l, events := unionEvents l }
  failed := false

/-- the first failure, or everything together -/
def summary (l : List Notification) : Option FsOutcome :=
  match l.find? Notification.fails, l with
  | some n, _ => some n.outcome
  | none, [] => none
  | none, n :: t => some (together n.status (n :: t))

theorem commonName_snoc {l : List Notification} (hl : l ≠ []) (n : Notification) :
    commonName (l ++ [n]) = if commonName l = n.filename then commonName l else none := by
  cases l with
  | nil => exact absurd rfl hl
  | cons m t =>
    by_cases ht : ∀ x ∈ t, x.filename = m.filename
    · have hsame : (∀ x ∈ t ++ [n], x.filename = m.filename) ↔ m.filename = n.filename := by
        constructor
        · intro h
          exact (h n (by simp)).symm
        · intro h x hx
          rcases List.mem_append.mp hx with hx | hx
          · exact ht x hx
          · rw [List.mem_singleton.mp hx, h]
      simp only [List.cons_append, commonName, if_pos ht, hsame]
    · have hmore : ¬ ∀ x ∈ t ++ [n], x.filename = m.filename := fun h =>
        ht fun x hx => h x (List.mem_append_left _ hx)
      simp only [List.cons_append, commonName, if_neg ht, if_neg hmore, ite_self]

theorem commonName_eq_some {l : List Notification} (hl : l ≠ []) (name : String) :
    commonName l = some name ↔ ∀ n ∈ l, n.filename = some name := by
  cases l with
  | nil => exact absurd rfl hl
  | cons m t =>
    rw [List.forall_mem_cons]
    by_cases ht : ∀ x ∈ t, x.filename = m.filename
    · simp only [commonName, if_pos ht]
      exact ⟨fun h => ⟨h, fun x hx => (ht x hx).trans h⟩, And.left⟩
    · simp only [commonName, if_neg ht, reduceCtorEq, false_iff]
      rintro ⟨hm, h⟩
      exact ht fun x hx => (h x hx).trans hm.symm

theorem unionEvents_snoc (l : List Notification) (n : Notification) :
    unionEvents (l ++ [n]) = unionEvents l ||| n.events := by
  simp [unionEvents, List.foldl_append]

theorem summary_of_find {l : List Notification} {n : Notification}
    (h : l.find? Notification.fails = some n) : summary l = some n.outcome := by
  unfold summary
  rw [h]

theorem summary_of_none {n : Notification} {t : List Notification}
    (h : (n :: t).find? Notification.fails = none) :
    summary (n :: t) = some (together n.status (n :: t)) := by
  unfold summary
  rw [h]

theorem fails_of_find_none {n : Notification} {t : List Notification}
    (h : (n :: t).find? Notification.fails = none) : n.fails = false := by
  simpa using List.find?_eq_none.mp h n List.mem_cons_self

theorem Notification.status_of_not_fails {n : Notification} (h : n.fails = false) :
    ¬ n.status < 0 := of_decide_eq_false (Bool.or_eq_false_iff.mp h).1

theorem together_failing {st : Int} (h : ¬ st < 0) (l : List Notification) :
    (together st l).failing = false := by
  simp [together, FsOutcome.failing, h]

theorem together_coalesce (st : Int) {l : List Notification} (hl : l ≠ []) {n : Notification}
    (hn : n.fails = false) : (together st l).coalesce n.outcome = together st (l ++ [n]) := by
  unfold together FsOutcome.coalesce
  rw [Notification.outcome_of_not_fails hn, commonName_snoc hl, unionEvents_snoc]

/-- what one more notification does to the summary; this is what `deliver_event` computes -/
theorem summary_snoc (l : List Notification) (n : Notification) :
    summary (l ++ [n]) =
      match summary l with
      | none => some n.outcome
      | some y =>
        if y.failing then some y
        else if n.outcome.failing then some n.outcome
        else some (y.coalesce n.outcome) := by
  cases hfind : l.find? Notification.fails with
  | some m =>
    have hm : m.outcome.failing = true := by
      rw [Notification.failing_outcome]
      exact List.find?_some hfind
    have hmore : (l ++ [n]).find? Notification.fails = some m := by
      rw [List.find?_append, hfind, Option.some_or]
    rw [summary_of_find hfind, summary_of_find hmore]
    simp only [hm, if_true]
  | none =>
    have hmore : (l ++ [n]).find? Notification.fails = if n.fails then some n else none := by
      rw [List.find?_append, hfind, Option.none_or]
      cases hn : n.fails <;> simp [hn]
    cases hn : n.fails with
    | true =>
      rw [hn, if_pos rfl] at hmore
      rw [summary_of_find hmore, Notification.failing_outcome, hn]
      cases l with
      | nil => rfl
      | cons m t =>
        have hst := Notification.status_of_not_fails (fails_of_find_none hfind)
        rw [summary_of_none hfind]
        simp only [together_failing hst, Bool.false_eq_true, if_false, if_true]
    | false =>
      rw [hn, if_neg (by simp)] at hmore
      cases l with
      | nil =>
        rw [Notification.outcome_of_not_fails hn]
        simp [summary, hn, together, commonName, unionEvents]
      | cons m t =>
        have hst := Notification.status_of_not_fails (fails_of_find_none hfind)
        rw [summary_of_none hfind, Notification.failing_outcome, hn]
        simp only [together_failing hst, Bool.false_eq_true, if_false]
        rw [together_coalesce _ (List.cons_ne_nil m t) hn]
        exact summary_of_none hmore

end Wait
