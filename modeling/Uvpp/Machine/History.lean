import Mathlib.Data.List.Basic
import Mathlib.Tactic.Common

/-!
# Histories that keep a law

A law `P past e` says which events `e` may follow the events `past`.

* `Lawful P log`        every event of `log` was lawful when it happened;
* `Follows P past es`   the events `es` may happen one after the other after `past`;
* `Lawful.append`       a lawful history goes on lawfully;
* `trace about log i`   the events about `i`.
-/

namespace History
variable {E : Type} {P : List E → E → Prop} {log es : List E}

def Lawful (P : List E → E → Prop) (log : List E) : Prop :=
  ∀ past e rest, log = past ++ e :: rest → P past e

def Follows (P : List E → E → Prop) : List E → List E → Prop
  | _, [] => True
  | past, e :: es => P past e ∧ Follows P (past ++ [e]) es

theorem lawful_nil : Lawful P [] := by
  intro past e rest h
  simp at h

/-- the induction goes through the new events; what is lawful grows at its end -/
theorem Lawful.append (h : Lawful P log) (hes : Follows P log es) : Lawful P (log ++ es) := by
  induction es generalizing log with
  | nil =>
    rw [List.append_nil]
    exact h
  | cons e es ih =>
    obtain ⟨he, hes⟩ := hes
    rw [show log ++ e :: es = (log ++ [e]) ++ es by simp]
    refine ih ?_ hes
    intro past x rest hx
    rcases List.eq_nil_or_concat rest with rfl | ⟨rest, y, rfl⟩
    · obtain ⟨hlog, hx⟩ := List.append_inj' hx rfl
      obtain rfl := List.singleton_inj.mp hx
      rw [← hlog]
      exact he
    · refine h past x rest ?_
      have hx : log ++ [e] = (past ++ x :: rest) ++ [y] := by rw [hx]; simp
      exact (List.append_inj' hx rfl).1

section
variable {I : Type} {about : I → E → Bool} {i : I} {e : E}

def trace (about : I → E → Bool) (log : List E) (i : I) : List E := log.filter (about i)

theorem mem_trace (about : I → E → Bool) (he : about i e = true) :
    e ∈ trace about log i ↔ e ∈ log := by
  simp [trace, he]

theorem trace_append (log es : List E) (i : I) :
    trace about (log ++ es) i = trace about log i ++ trace about es i :=
  List.filter_append ..

theorem trace_self (h : ∀ e ∈ es, about i e = true) : trace about es i = es :=
  List.filter_eq_self.mpr h

theorem trace_other (h : ∀ e ∈ es, about i e = false) : trace about es i = [] :=
  List.filter_eq_nil_iff.mpr fun e he => by simp [h e he]

end

end History
