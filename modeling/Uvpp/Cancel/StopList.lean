import Mathlib.Data.List.Induction
import Mathlib.Data.List.Nodup
import Mathlib.Tactic.Common

/-!
# Stop lists: what a list of stop registrations is for

The history of one stop list is a list of events.  `live` is the registrations that are still
waiting after a history, newest first; `Legal` says that every event of a history was allowed
when it happened:

* a key is registered only before the stop, and only when it is not waiting already;
* only a waiting key is unregistered;
* the stop begins once and ends once, and it ends with nothing waiting;
* an invocation, made while the stop runs, takes the NEWEST waiting registration.

`Legal.completed` is the point of it: whatever is unregistered while the stop runs, the
invocations of a completed stop are exactly the registrations waiting when it began, newest
first, without those unregistered during it.
-/

set_option linter.unusedSectionVars false
namespace StopList
variable {ι κ : Type} [DecidableEq ι] [DecidableEq κ]

/-- one event of a stop list; `κ` is what is called on a stop -/
inductive Event (ι κ : Type) where
  | registered (r : ι) (c : κ)
  | unregistered (r : ι)
  | began
  | invoked (r : ι) (c : κ)
  | ended
deriving DecidableEq

/-- the waiting registrations after one more event -/
def apply (L : List (ι × κ)) : Event ι κ → List (ι × κ)
  | .registered r c => (r, c) :: L
  | .unregistered r => L.filter fun x => x.1 ≠ r
  | .began => L
  | .invoked r _ => L.filter fun x => x.1 ≠ r
  | .ended => L

/-- the waiting registrations after a history, newest first -/
def live (log : List (Event ι κ)) : List (ι × κ) := log.foldl apply []

/-- the invocations of a history, in order -/
def invocations (log : List (Event ι κ)) : List (ι × κ) :=
  log.filterMap fun
    | .invoked r c => some (r, c)
    | _ => none

/-- an event that is allowed after the history `pre` -/
def Ok (pre : List (Event ι κ)) : Event ι κ → Prop
  | .registered r _ => .began ∉ pre ∧ r ∉ (live pre).map Prod.fst
  | .unregistered r => r ∈ (live pre).map Prod.fst
  | .began => .began ∉ pre
  | .invoked r c => .began ∈ pre ∧ .ended ∉ pre ∧ (live pre).head? = some (r, c)
  | .ended => .began ∈ pre ∧ .ended ∉ pre ∧ live pre = []

/-- every event was allowed when it happened -/
def Legal (log : List (Event ι κ)) : Prop := ∀ pre e post, log = pre ++ e :: post → Ok pre e

theorem live_snoc (log : List (Event ι κ)) (e : Event ι κ) :
    live (log ++ [e]) = apply (live log) e := by
  unfold live
  rw [List.foldl_append]
  rfl

theorem invocations_append (a b : List (Event ι κ)) :
    invocations (a ++ b) = invocations a ++ invocations b := by
  simp [invocations, List.filterMap_append]

theorem legal_nil : Legal ([] : List (Event ι κ)) := by
  intro pre e post h
  exact absurd h.symm (by simp)

theorem legal_snoc {log : List (Event ι κ)} {e : Event ι κ} (h : Legal log) (he : Ok log e) :
    Legal (log ++ [e]) := by
  intro pre e' post hsplit
  rcases List.eq_nil_or_concat post with rfl | ⟨post', x, rfl⟩
  · obtain ⟨rfl, hx⟩ := List.append_inj' hsplit rfl
    cases hx
    exact he
  · have hcut : log ++ [e] = (pre ++ e' :: post') ++ [x] := by simpa using hsplit
    exact h pre e' post' (List.append_inj' hcut rfl).1

theorem Legal.left {a b : List (Event ι κ)} (h : Legal (a ++ b)) : Legal a := by
  intro pre e post hsplit
  exact h pre e (post ++ b) (by rw [hsplit]; simp)

theorem Legal.last {log : List (Event ι κ)} {e : Event ι κ} (h : Legal (log ++ [e])) : Ok log e :=
  h log e [] rfl

/-! ## keys wait at most once -/

theorem keys_filter_nodup {L : List (ι × κ)} (h : (L.map Prod.fst).Nodup) (p : ι × κ → Bool) :
    ((L.filter p).map Prod.fst).Nodup :=
  h.sublist ((List.filter_sublist (l := L) (p := p)).map Prod.fst)

theorem Legal.keys_nodup {log : List (Event ι κ)} (h : Legal log) :
    ((live log).map Prod.fst).Nodup := by
  induction log using List.reverseRecOn with
  | nil => exact List.nodup_nil
  | append_singleton log e ih =>
    have hL := ih h.left
    have he := h.last
    rw [live_snoc]
    cases e with
    | registered r c => exact List.nodup_cons.mpr ⟨he.2, hL⟩
    | unregistered | invoked => exact keys_filter_nodup hL _
    | began => exact hL
    | ended => exact hL

/-- taking the newest registration out by its key leaves the others -/
theorem filter_head {L : List (ι × κ)} {r : ι} {c : κ} (h : ((((r, c) :: L)).map Prod.fst).Nodup) :
    (((r, c) :: L).filter fun x => x.1 ≠ r) = L := by
  have hr : r ∉ L.map Prod.fst := (List.nodup_cons.mp h).1
  have hkeep : (L.filter fun x => x.1 ≠ r) = L := by
    rw [List.filter_eq_self]
    intro x hx
    have hne : x.1 ≠ r := fun e => hr (e ▸ List.mem_map_of_mem hx)
    simpa using hne
  simpa using hkeep

/-! ## a whole stop -/

/-- while the stop runs: what was invoked and what still waits are together the registrations
it found, without those unregistered since -/
theorem Legal.running {pre mid : List (Event ι κ)} (h : Legal (pre ++ .began :: mid))
    (hmid : .ended ∉ mid) :
    invocations mid ++ live (pre ++ .began :: mid)
      = (live pre).filter fun x => Event.unregistered x.1 ∉ mid := by
  induction mid using List.reverseRecOn with
  | nil =>
    rw [live_snoc]
    simp [invocations, apply]
  | append_singleton mid e ih =>
    have hcut : pre ++ .began :: (mid ++ [e]) = (pre ++ .began :: mid) ++ [e] := by simp
    rw [hcut] at h ⊢
    have hmid' : Event.ended ∉ mid := fun hm => hmid (by simp [hm])
    have hrun := ih h.left hmid'
    have hbeg : Event.began ∈ pre ++ .began :: mid := by simp
    have he := h.last
    have hnd : ((invocations mid ++ live (pre ++ .began :: mid)).map Prod.fst).Nodup := by
      rw [hrun]
      exact keys_filter_nodup (h.left.left (a := pre)).keys_nodup _
    rw [live_snoc, invocations_append]
    cases e with
    | registered r c => exact absurd hbeg he.1
    | began => exact absurd hbeg he
    | ended => exact absurd (by simp) hmid
    | unregistered r =>
      -- an unregistered key was still waiting, so it is none of the invoked ones
      have hr : r ∈ (live (pre ++ .began :: mid)).map Prod.fst := he
      rw [List.map_append, List.nodup_append] at hnd
      have hkeep : ((invocations mid).filter fun x => x.1 ≠ r) = invocations mid := by
        rw [List.filter_eq_self]
        intro x hx
        have hne : x.1 ≠ r := hnd.2.2 x.1 (List.mem_map_of_mem hx) r hr
        simpa using hne
      have hcong : ((live pre).filter fun x => Event.unregistered x.1 ∉ mid ++ [.unregistered r])
          = (((live pre).filter fun x => Event.unregistered x.1 ∉ mid).filter
              fun x => x.1 ≠ r) := by
        rw [List.filter_filter]
        apply List.filter_congr
        intro x _
        simp [and_comm]
      rw [hcong, ← hrun, List.filter_append, hkeep]
      simp [invocations, apply]
    | invoked r c =>
      obtain ⟨_, _, hhead⟩ := he
      obtain ⟨L, hL⟩ : ∃ L, live (pre ++ .began :: mid) = (r, c) :: L := by
        cases hl : live (pre ++ .began :: mid) with
        | nil => rw [hl] at hhead; cases hhead
        | cons x L =>
          rw [hl] at hhead
          exact ⟨L, by rw [Option.some.inj hhead]⟩
      rw [hL] at hrun hnd ⊢
      rw [List.map_append, List.nodup_append] at hnd
      have hdrop : apply ((r, c) :: L) (.invoked r c) = L := filter_head hnd.2.1
      rw [hdrop]
      have hcong : ((live pre).filter fun x => Event.unregistered x.1 ∉ mid ++ [.invoked r c])
          = (live pre).filter fun x => Event.unregistered x.1 ∉ mid := by
        apply List.filter_congr
        intro x _
        simp
      rw [hcong, ← hrun]
      simp [invocations]

/-- a completed stop invokes, newest first, exactly the registrations it found and that nobody
unregistered while it ran -/
theorem Legal.completed {pre mid post : List (Event ι κ)}
    (h : Legal (pre ++ .began :: (mid ++ .ended :: post))) :
    invocations mid = (live pre).filter fun x => Event.unregistered x.1 ∉ mid := by
  have hcut : pre ++ .began :: (mid ++ .ended :: post) = (pre ++ .began :: mid) ++ .ended :: post := by
    simp
  have hend := h (pre ++ .began :: mid) .ended post hcut
  obtain ⟨_, hnone, hempty⟩ := hend
  have hmid : Event.ended ∉ mid := fun hm => hnone (by simp [hm])
  rw [hcut] at h
  have hrun := (h.left).running hmid
  rw [hempty, List.append_nil] at hrun
  exact hrun

/-- an unregistered key is not invoked again unless it was registered again -/
theorem Legal.not_after_unregister {pre mid post : List (Event ι κ)} {r : ι} {c : κ}
    (h : Legal (pre ++ .unregistered r :: (mid ++ .invoked r c :: post))) :
    ∃ c', Event.registered r c' ∈ mid := by
  have hcut : pre ++ .unregistered r :: (mid ++ .invoked r c :: post)
      = (pre ++ .unregistered r :: mid) ++ .invoked r c :: post := by simp
  have hin := (h (pre ++ .unregistered r :: mid) (.invoked r c) post hcut).2.2
  have hmem : r ∈ (live (pre ++ .unregistered r :: mid)).map Prod.fst := by
    cases hl : live (pre ++ .unregistered r :: mid) with
    | nil => rw [hl] at hin; cases hin
    | cons x L => rw [hl] at hin; rw [Option.some.inj hin]; simp
  clear hcut hin h
  induction mid using List.reverseRecOn with
  | nil =>
    rw [live_snoc] at hmem
    simp [apply] at hmem
  | append_singleton mid e ih =>
    have hsplit : pre ++ Event.unregistered r :: (mid ++ [e])
        = (pre ++ .unregistered r :: mid) ++ [e] := by simp
    rw [hsplit, live_snoc] at hmem
    by_cases hold : r ∈ (live (pre ++ .unregistered r :: mid)).map Prod.fst
    · obtain ⟨c', hc'⟩ := ih hold
      exact ⟨c', List.mem_append_left _ hc'⟩
    · -- the key is new: only a registration adds one
      cases e with
      | registered r' c' =>
        rcases List.mem_cons.mp hmem with heq | hmem'
        · cases heq
          exact ⟨c', by simp⟩
        · exact absurd hmem' hold
      | unregistered | invoked =>
        exact absurd (((List.filter_sublist).map Prod.fst).subset hmem) hold
      | began => exact absurd hmem hold
      | ended => exact absurd hmem hold

theorem Legal.began_once {pre post : List (Event ι κ)} (h : Legal (pre ++ .began :: post)) :
    Event.began ∉ post := by
  intro hmem
  obtain ⟨a, b, rfl⟩ := List.append_of_mem hmem
  exact h (pre ++ .began :: a) .began b (by simp) (by simp)

/-- once the stop began, one more event adds no round: an invocation uses up a registration -/
theorem Legal.rounds_snoc {log : List (Event ι κ)} {e : Event ι κ} (h : Legal (log ++ [e]))
    (hb : .began ∈ log) :
    (invocations (log ++ [e])).length + (live (log ++ [e])).length
      ≤ (invocations log).length + (live log).length := by
  have he := h.last
  rw [live_snoc, invocations_append, List.length_append]
  cases e with
  | registered r c => exact absurd hb he.1
  | began => exact absurd hb he
  | ended => simp [invocations, apply]
  | unregistered r =>
    have hle := List.length_filter_le (fun x : ι × κ => decide (x.1 ≠ r)) (live log)
    simpa [invocations, apply] using hle
  | invoked r c =>
    obtain ⟨_, _, hhead⟩ := he
    have hlt : ((live log).filter fun x => x.1 ≠ r).length < (live log).length := by
      cases hl : live log with
      | nil => rw [hl] at hhead; cases hhead
      | cons x L =>
        rw [hl] at hhead
        rw [Option.some.inj hhead]
        have hle := List.length_filter_le (fun x : ι × κ => decide (x.1 ≠ r)) L
        rw [List.filter_cons_of_neg (by simp), List.length_cons]
        omega
    simp only [invocations, List.filterMap_cons, List.filterMap_nil, List.length_cons,
      List.length_nil, apply]
    omega

theorem Legal.no_register_after_began {pre post : List (Event ι κ)} {r : ι} {c : κ}
    (h : Legal (pre ++ .began :: post)) : Event.registered r c ∉ post := by
  intro hmem
  obtain ⟨a, b, rfl⟩ := List.append_of_mem hmem
  have hok := h (pre ++ .began :: a) (.registered r c) b (by simp)
  exact hok.1 (by simp)

end StopList
