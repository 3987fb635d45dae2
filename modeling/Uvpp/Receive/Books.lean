import Mathlib.Data.List.Count
import Uvpp.Machine.History
import Uvpp.Receive.Finish

/-!
# The history of an operation

* `accepts`, `inits`, `closes`, `failures`, `outcomes`, `arrived`, `total`   what a history holds;
* `Law`      what is offered to libuv, and when the coroutine goes on;
* `Books`    how the parts fit together: what was taken over is returned or closed.
-/

namespace Receive
open History

/-! ## What a history holds -/

def Event.accepts : Event → Option (Handle × Pending)
  | .accepted h p => some (h, p)
  | _ => none

def Event.inits : Event → Option Handle
  | .initialised h => some h
  | _ => none

def Event.closes : Event → Option Handle
  | .uvClose h => some h
  | _ => none

def Event.fails : Event → Option Failure
  | .failed x => some x
  | _ => none

def Event.ends : Event → Option (Int × List Handle)
  | .resumed code hs => some (code, hs)
  | _ => none

def Event.arrived : Event → List Pending
  | .read _ l => l
  | _ => []

def Event.bytes : Event → Nat
  | .read n _ => n.toNat
  | _ => 0

/-- the connections that were accepted, with the entries of the queue -/
def accepts (log : List Event) : List (Handle × Pending) := log.filterMap Event.accepts

def inits (log : List Event) : List Handle := log.filterMap Event.inits

def closes (log : List Event) : List Handle := log.filterMap Event.closes

def failures (log : List Event) : List Failure := log.filterMap Event.fails

def outcomes (log : List Event) : List (Int × List Handle) := log.filterMap Event.ends

/-- all handles that came to the queue -/
def arrived (log : List Event) : List Pending := log.flatMap Event.arrived

/-- the bytes read -/
def total (log : List Event) : Nat := (log.map Event.bytes).sum

def pipeCloses (log : List Event) : Nat := log.count .uvClosePipe

section
variable {log l : List Event}

@[simp] theorem accepts_append : accepts (log ++ l) = accepts log ++ accepts l :=
  List.filterMap_append

@[simp] theorem inits_append : inits (log ++ l) = inits log ++ inits l := List.filterMap_append

@[simp] theorem closes_append : closes (log ++ l) = closes log ++ closes l := List.filterMap_append

@[simp] theorem failures_append : failures (log ++ l) = failures log ++ failures l :=
  List.filterMap_append

@[simp] theorem outcomes_append : outcomes (log ++ l) = outcomes log ++ outcomes l :=
  List.filterMap_append

@[simp] theorem arrived_append : arrived (log ++ l) = arrived log ++ arrived l := List.flatMap_append

@[simp] theorem total_append : total (log ++ l) = total log + total l := by
  simp [total]

@[simp] theorem pipeCloses_append : pipeCloses (log ++ l) = pipeCloses log + pipeCloses l :=
  List.count_append

/-- a history in which nothing was taken over -/
structure Untouched (log : List Event) : Prop where
  accepts : accepts log = []
  inits : inits log = []
  closes : closes log = []
  failures : failures log = []
  outcomes : outcomes log = []
  pipe : pipeCloses log = 0

theorem Untouched.append (h : Untouched log) (hl : Untouched l) : Untouched (log ++ l) where
  accepts := by simp [h.accepts, hl.accepts]
  inits := by simp [h.inits, hl.inits]
  closes := by simp [h.closes, hl.closes]
  failures := by simp [h.failures, hl.failures]
  outcomes := by simp [h.outcomes, hl.outcomes]
  pipe := by simp [h.pipe, hl.pipe]

theorem untouched_nil : Untouched [] := ⟨rfl, rfl, rfl, rfl, rfl, rfl⟩

/-- the events of the handles that the loop took over -/
theorem taken_sums (pairs : List (Handle × Pending)) : accepts (pairs.flatMap taken) = pairs ∧
    inits (pairs.flatMap taken) = pairs.map Prod.fst ∧ closes (pairs.flatMap taken) = [] ∧
    failures (pairs.flatMap taken) = [] ∧ outcomes (pairs.flatMap taken) = [] ∧
    pipeCloses (pairs.flatMap taken) = 0 ∧ arrived (pairs.flatMap taken) = [] ∧
    total (pairs.flatMap taken) = 0 := by
  induction pairs with
  | nil => exact ⟨rfl, rfl, rfl, rfl, rfl, rfl, rfl, rfl⟩
  | cons x pairs ih =>
    obtain ⟨h1, h2, h3, h4, h5, h6, h7, h8⟩ := ih
    rw [List.flatMap_cons, accepts_append, inits_append, closes_append, failures_append,
      outcomes_append, pipeCloses_append, arrived_append, total_append, h1, h2, h3, h4, h5, h6, h7,
      h8]
    exact ⟨rfl, rfl, rfl, rfl, rfl, rfl, rfl, rfl⟩

/-- the events of connections that are closed -/
theorem uvClose_sums (hs : List Handle) : accepts (hs.map .uvClose) = [] ∧ inits (hs.map .uvClose) = [] ∧
    closes (hs.map .uvClose) = hs ∧ failures (hs.map .uvClose) = [] ∧
    outcomes (hs.map .uvClose) = [] ∧ pipeCloses (hs.map .uvClose) = 0 ∧
    arrived (hs.map .uvClose) = [] ∧ total (hs.map .uvClose) = 0 := by
  induction hs with
  | nil => exact ⟨rfl, rfl, rfl, rfl, rfl, rfl, rfl, rfl⟩
  | cons h hs ih =>
    obtain ⟨h1, h2, h3, h4, h5, h6, h7, h8⟩ := ih
    rw [List.map_cons, ← List.singleton_append, accepts_append, inits_append, closes_append,
      failures_append, outcomes_append, pipeCloses_append, arrived_append, total_append, h1, h2, h3,
      h4, h5, h6, h7, h8]
    exact ⟨rfl, rfl, rfl, rfl, rfl, rfl, rfl, rfl⟩

end

/-! ## The laws -/

/-- libuv is offered the rest of the buffer, and the coroutine goes on after the close of a
connection that could not be accepted -/
def Law (size : Nat) (past : List Event) : Event → Prop
  | .offered offset length => offset = total past ∧ offset + length = size ∧ 0 < length
  | .resumed _ _ => ∀ h, .failed (.accept h) ∈ past → .closed h ∈ past
  | _ => True

theorem mem_failures {log : List Event} {x : Failure} : x ∈ failures log ↔ .failed x ∈ log := by
  unfold failures
  rw [List.mem_filterMap]
  constructor
  · rintro ⟨e, he, hx⟩
    cases e <;> cases hx
    exact he
  · intro h
    exact ⟨_, h, rfl⟩

theorem follows_taken {size : Nat} {past : List Event} {pairs : List (Handle × Pending)} :
    Follows (Law size) past (pairs.flatMap taken) := by
  induction pairs generalizing past with
  | nil => trivial
  | cons x pairs ih => exact ⟨trivial, trivial, ih⟩

theorem follows_uvClose {size : Nat} {past : List Event} {hs : List Handle} :
    Follows (Law size) past (hs.map .uvClose) := by
  induction hs generalizing past with
  | nil => trivial
  | cons h hs ih => exact ⟨trivial, ih⟩

/-- How the parts of a history fit together. -/
structure Books (cfg : Config) (log : List Event) : Prop where
  /-- connections are initialised once; the accepted ones are the first of them -/
  nodup : (inits log).Nodup
  accepted : ∃ l, inits log = (accepts log).map Prod.fst ++ l
  /-- what is closed was initialised -/
  closed : closes log = [] ∨ closes log = inits log
  /-- the pipe is closed for the one failure of the loop -/
  pipe : pipeCloses log = (failures log).length
  single : (failures log).length ≤ 1
  /-- the coroutine goes on once -/
  once : (outcomes log).length ≤ 1
  /-- with all handles of the queue, in its order -/
  success : ∀ code hs, (code, hs) ∈ outcomes log → 0 ≤ code →
    hs = (accepts log).map Prod.fst ∧ hs ≠ [] ∧
      (accepts log).map Prod.snd = cfg.pending ++ arrived log ∧
      (∀ x ∈ accepts log, x.2.tcp = true) ∧ inits log = hs ∧ closes log = [] ∧ failures log = []
  /-- or without any, and all of them are closed -/
  failure : ∀ code hs, (code, hs) ∈ outcomes log → code < 0 → hs = [] ∧ closes log = inits log

theorem Untouched.books {cfg : Config} {log : List Event} (h : Untouched log) : Books cfg log where
  nodup := by
    rw [h.inits]
    exact List.nodup_nil
  accepted := ⟨[], by rw [h.inits, h.accepts]; rfl⟩
  closed := .inl h.closes
  pipe := by rw [h.pipe, h.failures]; rfl
  single := by rw [h.failures]; exact Nat.zero_le 1
  once := by rw [h.outcomes]; exact Nat.zero_le 1
  success code hs hm := by
    rw [h.outcomes] at hm
    cases hm
  failure code hs hm := by
    rw [h.outcomes] at hm
    cases hm

/-- a close callback changes nothing in the books -/
theorem Books.callback {cfg : Config} {log : List Event} (h : Books cfg log) (g : Handle) :
    Books cfg (log ++ [.closed g]) := by
  have heq : accepts (log ++ [.closed g]) = accepts log ∧ inits (log ++ [.closed g]) = inits log ∧
      closes (log ++ [.closed g]) = closes log ∧ failures (log ++ [.closed g]) = failures log ∧
      outcomes (log ++ [.closed g]) = outcomes log ∧
      pipeCloses (log ++ [.closed g]) = pipeCloses log ∧
      arrived (log ++ [.closed g]) = arrived log := by
    rw [accepts_append, inits_append, closes_append, failures_append, outcomes_append,
      pipeCloses_append, arrived_append]
    exact ⟨List.append_nil _, List.append_nil _, List.append_nil _, List.append_nil _,
      List.append_nil _, rfl, List.append_nil _⟩
  obtain ⟨h1, h2, h3, h4, h5, h6, h7⟩ := heq
  refine ⟨?_, ?_, ?_, ?_, ?_, ?_, ?_, ?_⟩
  · rw [h2]
    exact h.nodup
  · rw [h1, h2]
    exact h.accepted
  · rw [h2, h3]
    exact h.closed
  · rw [h4, h6]
    exact h.pipe
  · rw [h4]
    exact h.single
  · rw [h5]
    exact h.once
  · intro code hs hm
    rw [h5] at hm
    rw [h1, h2, h3, h4, h7]
    exact h.success code hs hm
  · intro code hs hm
    rw [h5] at hm
    rw [h2, h3]
    exact h.failure code hs hm

section
variable {cfg : Config} {log : List Event} {code : Int}

/-- the end of a failed operation -/
theorem Books.fails (h : Books cfg log) (ho : outcomes log = []) (hc : closes log = inits log)
    (hcode : code < 0) : Books cfg (log ++ [.resumed code []]) := by
  have ha : accepts (log ++ [.resumed code []]) = accepts log := by
    rw [accepts_append]
    exact List.append_nil _
  have hi : inits (log ++ [.resumed code []]) = inits log := by
    rw [inits_append]
    exact List.append_nil _
  have hcl : closes (log ++ [.resumed code []]) = closes log := by
    rw [closes_append]
    exact List.append_nil _
  have hf : failures (log ++ [.resumed code []]) = failures log := by
    rw [failures_append]
    exact List.append_nil _
  have hout : outcomes (log ++ [.resumed code []]) = [(code, [])] := by
    rw [outcomes_append, ho]
    rfl
  refine ⟨?_, ?_, ?_, ?_, ?_, ?_, ?_, ?_⟩
  · rw [hi]
    exact h.nodup
  · rw [hi, ha]
    exact h.accepted
  · rw [hi, hcl]
    exact h.closed
  · rw [hf, pipeCloses_append]
    exact h.pipe
  · rw [hf]
    exact h.single
  · rw [hout]
    exact Nat.le_refl 1
  · intro c hs hm hnn
    rw [hout] at hm
    cases List.mem_singleton.mp hm
    omega
  · intro c hs hm _
    rw [hout] at hm
    cases List.mem_singleton.mp hm
    rw [hi, hcl]
    exact ⟨rfl, hc⟩

end

end Receive
