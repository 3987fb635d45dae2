import Mathlib.Tactic.Common

/-!
# Commands that change a state and may throw

What a command did before it throws stays done.

* `Cmd`, `exec`            a command, and its result with the state it leaves;
* `Triple P m Q E`         from `P`, `m` returns with `Q` or throws with `E`;
* `Triple.bind`, ...       the rules;
* `Spec P m Q`             from `P`, `m` ends with `Q`, which may ask what was thrown.
-/

namespace Throwing

abbrev Cmd (ε σ α : Type) := ExceptT ε (StateM σ) α

section
variable {ε σ α β : Type}

def exec (m : Cmd ε σ α) (s : σ) : Except ε α × σ := StateT.run (ExceptT.run m) s

/-- `cleanup` when `m` throws -/
def unwind (m : Cmd ε σ α) (cleanup : σ → σ) : Cmd ε σ α := fun s =>
  match exec m s with
  | (.ok a, s) => (.ok a, s)
  | (.error e, s) => (.error e, cleanup s)

theorem exec_unwind (m : Cmd ε σ α) (cleanup : σ → σ) (s : σ) :
    exec (unwind m cleanup) s =
      match exec m s with
      | (.ok a, s') => (.ok a, s')
      | (.error e, s') => (.error e, cleanup s') := rfl

theorem exec_bind (m : Cmd ε σ α) (f : α → Cmd ε σ β) (s : σ) :
    exec (m >>= f) s =
      match exec m s with
      | (.ok a, s') => exec (f a) s'
      | (.error e, s') => (.error e, s') := by
  show (ExceptT.bindCont f (exec m s).1 : StateM σ (Except ε β)) (exec m s).2 = _
  cases exec m s with
  | mk x s' => cases x <;> rfl

theorem exec_bind_ok {m : Cmd ε σ α} {a : α} {s s' : σ} (h : exec m s = (.ok a, s'))
    (f : α → Cmd ε σ β) : exec (m >>= f) s = exec (f a) s' := by
  rw [exec_bind, h]

theorem exec_bind_error {m : Cmd ε σ α} {e : ε} {s s' : σ} (h : exec m s = (.error e, s'))
    (f : α → Cmd ε σ β) : exec (m >>= f) s = (.error e, s') := by
  rw [exec_bind, h]

theorem exec_modify (g : σ → σ) (s : σ) : exec (modify g : Cmd ε σ PUnit) s = (.ok ⟨⟩, g s) := rfl

/-- `m` returns with `Q`, or throws with `E`. -/
def Triple (P : σ → Prop) (m : Cmd ε σ α) (Q : α → σ → Prop) (E : σ → Prop) : Prop :=
  ∀ s, P s → (∃ a s', exec m s = (.ok a, s') ∧ Q a s') ∨ ∃ e s', exec m s = (.error e, s') ∧ E s'

variable {P P' : σ → Prop} {m : Cmd ε σ α} {f : α → Cmd ε σ β} {Q Q' : α → σ → Prop}
  {R : β → σ → Prop} {E E' : σ → Prop}

theorem Triple.pure {a : α} (h : ∀ s, P s → Q a s) : Triple P (Pure.pure a : Cmd ε σ α) Q E :=
  fun s hs => .inl ⟨a, s, rfl, h s hs⟩

theorem Triple.throw {e : ε} (h : ∀ s, P s → E s) : Triple P (MonadExcept.throw e : Cmd ε σ α) Q E :=
  fun s hs => .inr ⟨e, s, rfl, h s hs⟩

theorem Triple.change {g : σ → σ} {Q : PUnit → σ → Prop} (h : ∀ s, P s → Q ⟨⟩ (g s)) :
    Triple P (modify g : Cmd ε σ PUnit) Q E :=
  fun s hs => .inl ⟨⟨⟩, g s, rfl, h s hs⟩

/-- what is read is a value of the state -/
theorem Triple.read {g : σ → α} (h : ∀ s, P s → Q (g s) s) :
    Triple P (do return g (← get) : Cmd ε σ α) Q E :=
  fun s hs => .inl ⟨g s, s, rfl, h s hs⟩

theorem Triple.bind (hm : Triple P m Q E) (hf : ∀ a, Triple (Q a) (f a) R E) :
    Triple P (m >>= f) R E := by
  intro s hs
  rw [exec_bind]
  rcases hm s hs with ⟨a, s', hex, hq⟩ | ⟨e, s', hex, he⟩
  · rw [hex]
    exact hf a s' hq
  · rw [hex]
    exact .inr ⟨e, s', rfl, he⟩

theorem Triple.weaken (hm : Triple P m Q E) (hP : ∀ s, P' s → P s) (hQ : ∀ a s, Q a s → Q' a s)
    (hE : ∀ s, E s → E' s) : Triple P' m Q' E' := by
  intro s hs
  rcases hm s (hP s hs) with ⟨a, s', hex, hq⟩ | ⟨e, s', hex, he⟩
  · exact .inl ⟨a, s', hex, hQ a s' hq⟩
  · exact .inr ⟨e, s', hex, hE s' he⟩

/-- a consequence of the precondition that does not depend on the state -/
theorem Triple.given {p : Prop} (hp : ∀ s, P s → p) (hm : p → Triple P m Q E) : Triple P m Q E :=
  fun s hs => hm (hp s hs) s hs

theorem Triple.unwind {cleanup : σ → σ} (hm : Triple P m Q E) (hE : ∀ s, E s → E' (cleanup s)) :
    Triple P (unwind m cleanup) Q E' := by
  intro s hs
  rcases hm s hs with ⟨a, s', hex, hq⟩ | ⟨e, s', hex, he⟩
  · exact .inl ⟨a, s', by rw [exec_unwind, hex], hq⟩
  · exact .inr ⟨e, cleanup s', by rw [exec_unwind, hex], hE s' he⟩

/-- `Q` of the result of `m`, or of what it threw, and of the state it leaves -/
def Spec (P : σ → Prop) (m : Cmd ε σ α) (Q : Except ε α → σ → Prop) : Prop :=
  ∀ s, P s → Q (exec m s).1 (exec m s).2

variable {F : Except ε α → σ → Prop} {G : Except ε β → σ → Prop}

theorem Spec.pure {a : α} (h : ∀ s, P s → F (.ok a) s) : Spec P (Pure.pure a : Cmd ε σ α) F := h

theorem Spec.throw {e : ε} (h : ∀ s, P s → F (.error e) s) :
    Spec P (MonadExcept.throw e : Cmd ε σ α) F := h

/-- a change of the state, and what comes after it -/
theorem Spec.change {g : σ → σ} {k : PUnit → Cmd ε σ β} (hg : ∀ s, P s → P' (g s))
    (hk : Spec P' (k ⟨⟩) G) : Spec P (modify g >>= k) G := by
  intro s hs
  rw [exec_bind, exec_modify]
  exact hk (g s) (hg s hs)

/-- what comes after the state is read does not depend on what was read -/
theorem Spec.read {k : σ → Cmd ε σ β} (hk : ∀ v, Spec P (k v) G) : Spec P (get >>= k) G := by
  intro s hs
  exact hk s s hs

end

end Throwing
