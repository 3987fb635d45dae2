import Mathlib.Logic.Equiv.Basic
import Uvpp.SendBatch.Refine

/-!
# Programs with batches

* `held_destroy`, `held_swap`, `copyConstruct_triple`    destructor, moves and copies;
* `Post`          every batch shows its list, and those that do not exist are empty;
* `act_triple`    an act does to the batches what it does to the lists, or nothing;
* `run_post`      in all runs the batches show `contents` of the history.
-/

namespace SendBatch
open Throwing Storage

section
variable {cfg : Config} {r q : Ref} {s : Ref → UdpSendBatch} {K : UdpSendBatch → Prop} {m : Mem}
  {ds : List Datagram}

/-! ## Destructor and moves -/

theorem destroy_self : (m.destroy r).batch r = {} := by
  show Function.update m.batch r {} r = {}
  rw [Function.update_self]

theorem destroy_of_ne (h : q ≠ r) : (m.destroy r).batch q = m.batch q := by
  show Function.update m.batch r {} q = m.batch q
  rw [Function.update_of_ne h]

theorem destroy_data (x : Ref × Field) :
    (m.destroy r).data x = if x.1 = r then none else m.data x := by
  obtain ⟨q, f⟩ := x
  show (Function.update m.batch r {} q).data f = _
  by_cases hq : q = r
  · rw [if_pos hq, hq, Function.update_self]
    cases f <;> rfl
  · rw [if_neg hq, Function.update_of_ne hq]
    rfl

/-- the five blocks of the batch are given back -/
theorem held_destroy (h : Held m.heap m.data) : Held (m.destroy r).heap (m.destroy r).data := by
  have hlive : ∀ a, (m.destroy r).heap.live a = true ↔
      m.heap.live a = true ∧ ∀ f, m.data (r, f) ≠ some a := by
    intro a
    show (release _ (release _ (release _ (release _ (release _ m.heap))))).live a = true ↔ _
    rw [release_live, release_live, release_live, release_live, release_live]
    constructor
    · rintro ⟨⟨⟨⟨⟨hl, h5⟩, h4⟩, h3⟩, h2⟩, h1⟩
      refine ⟨hl, fun f => ?_⟩
      cases f
      · exact h1
      · exact h2
      · exact h3
      · exact h4
      · exact h5
    · rintro ⟨hl, hf⟩
      exact ⟨⟨⟨⟨⟨hl, hf .bufferArrays⟩, hf .addresses⟩, hf .bufferCounts⟩, hf .bufferStarts⟩,
        hf .rawBuffers⟩
  constructor
  · intro a
    rw [hlive a, h.live a]
    constructor
    · rintro ⟨⟨⟨q, f⟩, hx⟩, hne⟩
      refine ⟨(q, f), ?_⟩
      rw [destroy_data, if_neg, hx]
      rintro rfl
      exact hne f hx
    · rintro ⟨x, hx⟩
      rw [destroy_data] at hx
      split at hx
      · cases hx
      · rename_i hxr
        exact ⟨⟨x, hx⟩, fun f hf => hxr (congrArg Prod.fst (h.single x (r, f) a hx hf))⟩
  · intro x y a hx hy
    rw [destroy_data] at hx hy
    split at hx
    · cases hx
    split at hy
    · cases hy
    exact h.single x y a hx hy

theorem At.destroy (h : At r s K m) : At r s (fun b => b = {}) (m.destroy r) := by
  refine ⟨held_destroy h.held, fun q hq => ?_, destroy_self⟩
  rw [destroy_of_ne hq]
  exact h.others q hq

theorem swap_batch (x : Ref) :
    (m.swap r q).batch x = m.batch (Equiv.swap r q x) := by
  show Function.update (Function.update m.batch r (m.batch q)) q (m.batch r) x = _
  rw [Equiv.swap_apply_def]
  by_cases hq : x = q
  · rw [hq, Function.update_self]
    split
    · rename_i hqr
      rw [hqr]
    · rw [if_pos rfl]
  · rw [Function.update_of_ne hq]
    by_cases hr : x = r
    · rw [hr, Function.update_self, if_pos rfl]
    · rw [Function.update_of_ne hr, if_neg hr, if_neg hq]

theorem held_swap (h : Held m.heap m.data) : Held (m.swap r q).heap (m.swap r q).data := by
  have heq : (m.swap r q).data = fun x => m.data (Equiv.prodCongr (Equiv.swap r q) (Equiv.refl _) x) := by
    funext x
    obtain ⟨k, f⟩ := x
    show ((m.swap r q).batch k).data f = _
    rw [swap_batch]
    rfl
  rw [heq]
  exact h.rename _

/-- the target of a move is new, so it is empty -/
theorem moveConstruct_eq (hr : m.batch r = {}) : m.moveConstruct r q = m.swap r q := by
  unfold Mem.moveConstruct Mem.swap
  rw [hr]

/-! ## Copies -/

/-- the members are built one after the other -/
theorem copyConstruct_triple (hne : q ≠ r) (hs : Shows cfg ds (s q)) :
    Triple (At r s fun b => b = {}) (copyConstruct r q) (fun _ => At r s (Shows cfg ds))
      (At r s fun b => b = {}) := by
  unfold copyConstruct
  refine Triple.unwind (E := At r s fun _ => True) ?_ fun m hm => hm.destroy
  refine Triple.bind (Q := fun b => fun m => At r s (fun b => b = {}) m ∧ b = s q) ?_ fun b => ?_
  · exact Triple.read fun m hm => ⟨hm, hm.others q hne⟩
  refine Triple.given (p := b = s q) (fun m hm => hm.2) fun hb => ?_
  rw [hb]
  refine Triple.bind (Q := fun _ => At r s fun b => ∃ v₁ : Vec Buf,
    v₁.items = descriptors ds ∧ b = { rawBuffers := v₁ }) ?_ fun _ => ?_
  · refine (Part.run_triple (K := fun b => b = {}) ?_ fun b hb => trivial).weaken
      (fun m hm => hm.1) (fun _ m hm => hm) fun m hm => hm
    rintro b rfl
    exact (build_does _).weaken fun v hv => ⟨v, hv.trans hs.rawBuffers, rfl⟩
  refine Triple.bind (Q := fun _ => At r s fun b => ∃ (v₁ : Vec Buf) (v₂ : Vec Nat),
    v₁.items = descriptors ds ∧ v₂.items = offsets 0 ds ∧
    b = { rawBuffers := v₁, bufferStarts := v₂ }) ?_ fun _ => ?_
  · refine Part.run_triple ?_ fun b hb => trivial
    rintro b ⟨v₁, h₁, rfl⟩
    exact (build_does _).weaken fun v hv => ⟨v₁, v, h₁, hv.trans hs.bufferStarts, rfl⟩
  refine Triple.bind (Q := fun _ => At r s fun b => ∃ (v₁ : Vec Buf) (v₂ v₃ : Vec Nat),
    v₁.items = descriptors ds ∧ v₂.items = offsets 0 ds ∧ v₃.items = ds.map (·.buffers.length) ∧
    b = { rawBuffers := v₁, bufferStarts := v₂, bufferCounts := v₃ }) ?_ fun _ => ?_
  · refine Part.run_triple ?_ fun b hb => trivial
    rintro b ⟨v₁, v₂, h₁, h₂, rfl⟩
    exact (build_does _).weaken fun v hv => ⟨v₁, v₂, v, h₁, h₂, hv.trans hs.bufferCounts, rfl⟩
  refine Triple.bind (Q := fun _ => At r s fun b => ∃ (v₁ : Vec Buf) (v₂ v₃ : Vec Nat)
    (v₄ : Vec SockAddr), v₁.items = descriptors ds ∧ v₂.items = offsets 0 ds ∧
    v₃.items = ds.map (·.buffers.length) ∧ v₄.items = ds.map (·.address) ∧
    b = { rawBuffers := v₁, bufferStarts := v₂, bufferCounts := v₃, addresses := v₄ }) ?_ fun _ => ?_
  · refine Part.run_triple ?_ fun b hb => trivial
    rintro b ⟨v₁, v₂, v₃, h₁, h₂, h₃, rfl⟩
    exact (build_does _).weaken fun v hv =>
      ⟨v₁, v₂, v₃, v, h₁, h₂, h₃, hv.trans hs.addresses, rfl⟩
  refine Triple.bind (Q := fun _ => At r s fun b => b.rawBuffers.items = descriptors ds ∧
    b.bufferStarts.items = offsets 0 ds ∧ b.bufferCounts.items = ds.map (·.buffers.length) ∧
    b.addresses.items = ds.map (·.address) ∧ ds.length ≤ b.bufferArrays.capacity) ?_ fun _ => ?_
  · refine Part.run_triple ?_ fun b hb => trivial
    rintro b ⟨v₁, v₂, v₃, v₄, h₁, h₂, h₃, h₄, rfl⟩
    refine (build_does _).weaken fun v hv => ⟨h₁, h₂, h₃, h₄, ?_⟩
    have hroom := v.room
    rw [hv, List.length_replicate, hs.bufferArrays, pointers_length] at hroom
    exact hroom
  · refine rebuildBufferPointers_triple ds (fun b hb => ⟨hb.2.1, hb.2.2.1, hb.2.2.2.2⟩) ?_
    rintro b v ⟨h₁, h₂, h₃, h₄, -⟩ hv
    exact ⟨⟨h₂, h₃, h₄, hv, hs.fits, hs.count⟩, h₁⟩

/-! ## All batches -/

/-- Every batch shows its list, and those that do not exist are empty. -/
structure Post (cfg : Config) (alive : Nat → Bool) (c : Nat → List Datagram) (m : Mem) : Prop where
  held : Held m.heap m.data
  copy : m.batch .copy = {}
  dead : ∀ i, alive i = false → m.batch (.owner i) = {}
  shows : ∀ i, Shows cfg (c i) (m.batch (.owner i))

variable {alive : Nat → Bool} {c : Nat → List Datagram} {i j : Nat}

theorem shows_empty : Shows cfg [] {} :=
  ⟨⟨rfl, rfl, rfl, rfl, nofun, Nat.two_pow_pos _⟩, rfl⟩

theorem owner_ne (h : i ≠ j) : Ref.owner i ≠ .owner j := fun heq => h (Ref.owner.inj heq)

/-- one batch changed, and its list -/
theorem Post.at {m' : Mem} (h : Post cfg alive c m) (hi : alive i = true)
    (hat : At (.owner i) m.batch (Shows cfg ds) m') : Post cfg alive (Function.update c i ds) m' where
  held := hat.held
  copy := by
    rw [hat.others .copy nofun]
    exact h.copy
  dead k hk := by
    have hki : k ≠ i := by
      rintro rfl
      cases hi.symm.trans hk
    rw [hat.others _ (owner_ne hki)]
    exact h.dead k hk
  shows k := by
    by_cases hki : k = i
    · rw [hki, Function.update_self]
      exact hat.this
    · rw [Function.update_of_ne hki, hat.others _ (owner_ne hki)]
      exact h.shows k

/-- an operation of one batch -/
theorem Post.lift {x : M Unit} (hi : alive i = true)
    (hx : ∀ s, Triple (At (.owner i) s (Shows cfg (c i))) x (fun _ => At (.owner i) s (Shows cfg ds))
      (At (.owner i) s (Shows cfg (c i)))) :
    Triple (Post cfg alive c) x (fun _ => Post cfg alive (Function.update c i ds))
      (Post cfg alive c) := by
  intro m hm
  rcases hx m.batch m ⟨hm.held, fun _ _ => rfl, hm.shows i⟩ with ⟨a, m', hex, hat⟩ | ⟨e, m', hex, hat⟩
  · exact .inl ⟨a, m', hex, hm.at hi hat⟩
  · refine .inr ⟨e, m', hex, ?_⟩
    have hpost := hm.at hi hat
    rwa [Function.update_eq_self] at hpost

theorem Post.clear (h : Post cfg alive c m) (hi : alive i = true) :
    Post cfg alive (Function.update c i []) (m.clear (.owner i)) := by
  refine h.at hi ⟨?_, fun q hq => Function.update_of_ne hq .., ?_⟩
  · have hdata : (m.clear (.owner i)).data = m.data := by
      funext x
      obtain ⟨q, f⟩ := x
      show (Function.update m.batch _ _ q).data f = (m.batch q).data f
      by_cases hq : q = .owner i
      · rw [hq, Function.update_self]
        cases f <;> rfl
      · rw [Function.update_of_ne hq]
    rw [hdata]
    exact h.held
  · show Shows cfg [] (Function.update m.batch _ _ _)
    rw [Function.update_self]
    exact ⟨⟨rfl, rfl, rfl, rfl, nofun, Nat.two_pow_pos _⟩, rfl⟩

theorem Post.destroy (h : Post cfg alive c m) :
    Post cfg (Function.update alive i false) (Function.update c i []) (m.destroy (.owner i)) := by
  refine ⟨held_destroy h.held, ?_, fun k hk => ?_, fun k => ?_⟩
  · rw [destroy_of_ne (r := .owner i) (q := .copy) nofun]
    exact h.copy
  · by_cases hki : k = i
    · rw [hki]
      exact destroy_self
    · rw [Function.update_of_ne hki] at hk
      rw [destroy_of_ne (owner_ne hki)]
      exact h.dead k hk
  · by_cases hki : k = i
    · rw [hki, destroy_self, Function.update_self]
      exact shows_empty
    · rw [destroy_of_ne (owner_ne hki), Function.update_of_ne hki]
      exact h.shows k

/-- two batches change places -/
theorem Post.swap {live : Nat → Bool} (h : Post cfg alive c m)
    (hi : live i = false → alive j = false) (hj : live j = false → alive i = false)
    (hl : ∀ k, k ≠ i → k ≠ j → live k = alive k) :
    Post cfg live (Function.update (Function.update c i (c j)) j (c i))
      (m.swap (.owner i) (.owner j)) := by
  have hleft : (m.swap (.owner i) (.owner j)).batch (.owner i) = m.batch (.owner j) := by
    rw [swap_batch, Equiv.swap_apply_left]
  have hright : (m.swap (.owner i) (.owner j)).batch (.owner j) = m.batch (.owner i) := by
    rw [swap_batch, Equiv.swap_apply_right]
  have hother : ∀ q, q ≠ .owner i → q ≠ .owner j →
      (m.swap (.owner i) (.owner j)).batch q = m.batch q := by
    intro q hqi hqj
    rw [swap_batch, Equiv.swap_apply_of_ne_of_ne hqi hqj]
  refine ⟨held_swap h.held, ?_, fun k hk => ?_, fun k => ?_⟩
  · rw [hother .copy nofun nofun]
    exact h.copy
  · by_cases hki : k = i
    · subst hki
      rw [hleft]
      exact h.dead j (hi hk)
    by_cases hkj : k = j
    · subst hkj
      rw [hright]
      exact h.dead i (hj hk)
    · rw [hother _ (owner_ne hki) (owner_ne hkj)]
      exact h.dead k ((hl k hki hkj).symm.trans hk)
  · by_cases hkj : k = j
    · subst hkj
      rw [hright, Function.update_self]
      exact h.shows i
    rw [Function.update_of_ne hkj]
    by_cases hki : k = i
    · subst hki
      rw [hleft, Function.update_self]
      exact h.shows j
    · rw [hother _ (owner_ne hki) (owner_ne hkj), Function.update_of_ne hki]
      exact h.shows k

theorem copyConstruct_post (hi : alive i = false) (hj : alive j = true) :
    Triple (Post cfg alive c) (copyConstruct (.owner i) (.owner j))
      (fun _ => Post cfg (Function.update alive i true) (Function.update c i (c j)))
      (Post cfg alive c) := by
  have hji : j ≠ i := by
    rintro rfl
    cases hi.symm.trans hj
  intro m hm
  have hcopy := copyConstruct_triple (s := m.batch) (owner_ne hji) (hm.shows j)
  rcases hcopy m ⟨hm.held, fun _ _ => rfl, hm.dead i hi⟩ with
    ⟨a, m', hex, hat⟩ | ⟨e, m', hex, hat⟩
  · refine .inl ⟨a, m', hex, ?_⟩
    have hpost : Post cfg (Function.update alive i true) c m :=
      ⟨hm.held, hm.copy, fun k hk => hm.dead k ?_, hm.shows⟩
    · exact hpost.at (Function.update_self ..) hat
    · by_cases hki : k = i
      · rw [hki, Function.update_self] at hk
        cases hk
      · rwa [Function.update_of_ne hki] at hk
  · refine .inr ⟨e, m', hex, hat.held, ?_, fun k hk => ?_, fun k => ?_⟩
    · rw [hat.others .copy nofun]
      exact hm.copy
    · by_cases hki : k = i
      · rw [hki]
        exact hat.this
      · rw [hat.others _ (owner_ne hki)]
        exact hm.dead k hk
    · by_cases hki : k = i
      · rw [hki, hat.this, ← hm.dead i hi]
        exact hm.shows i
      · rw [hat.others _ (owner_ne hki)]
        exact hm.shows k

/-- the old contents go to the local copy, and are destroyed with it -/
theorem copyAssign_post (hi : alive i = true) :
    Triple (Post cfg alive c) (copyAssign (.owner i) (.owner j))
      (fun _ => Post cfg alive (Function.update c i (c j))) (Post cfg alive c) := by
  unfold copyAssign
  split
  · rename_i hij
    rw [Ref.owner.inj hij, Function.update_eq_self]
    exact Triple.pure fun m hm => hm
  intro m₀ hm₀
  have hne : ∀ k, Ref.owner k ≠ .copy := fun k => nofun
  have hcopy := copyConstruct_triple (s := m₀.batch) (hne j) (hm₀.shows j)
  have hall : Triple (At .copy m₀.batch fun b => b = {})
      (do
        copyConstruct .copy (.owner j)
        modify (Mem.swap (.owner i) .copy)
        modify (Mem.destroy .copy))
      (fun _ => Post cfg alive (Function.update c i (c j))) (At .copy m₀.batch fun b => b = {}) := by
    refine hcopy.bind fun _ => ?_
    refine Triple.bind (Q := fun _ m => Held m.heap m.data ∧
      Shows cfg (c j) (m.batch (.owner i)) ∧
      ∀ k, k ≠ i → m.batch (.owner k) = m₀.batch (.owner k)) ?_ fun _ => ?_
    · refine Triple.change fun m hm => ⟨held_swap hm.held, ?_, fun k hki => ?_⟩
      · rw [swap_batch, Equiv.swap_apply_left]
        exact hm.this
      · rw [swap_batch, Equiv.swap_apply_of_ne_of_ne (owner_ne hki) (hne k)]
        exact hm.others _ (hne k)
    · refine Triple.change fun m ⟨hheld, hshows, hrest⟩ => ?_
      refine ⟨held_destroy hheld, destroy_self, fun k hk => ?_, fun k => ?_⟩
      · have hki : k ≠ i := by
          rintro rfl
          cases hi.symm.trans hk
        rw [destroy_of_ne (hne k), hrest k hki]
        exact hm₀.dead k hk
      · rw [destroy_of_ne (hne k)]
        by_cases hki : k = i
        · rw [hki, Function.update_self]
          exact hshows
        · rw [Function.update_of_ne hki, hrest k hki]
          exact hm₀.shows k
  rcases hall m₀ ⟨hm₀.held, fun _ _ => rfl, hm₀.copy⟩ with hok | ⟨e, m', hex, hat⟩
  · exact .inl hok
  · refine .inr ⟨e, m', hex, hat.held, hat.this, fun k hk => ?_, fun k => ?_⟩
    · rw [hat.others _ (hne k)]
      exact hm₀.dead k hk
    · rw [hat.others _ (hne k)]
      exact hm₀.shows k

theorem moveConstruct_post (hi : alive i = false) (h : Post cfg alive c m) :
    Post cfg (Function.update alive i true) (Function.update (Function.update c i (c j)) j [])
      (m.moveConstruct (.owner i) (.owner j)) := by
  have hempty : c i = [] := by
    have hcounts := (h.shows i).bufferCounts
    rw [h.dead i hi] at hcounts
    exact List.map_eq_nil_iff.mp hcounts.symm
  rw [moveConstruct_eq (h.dead i hi), ← hempty]
  refine h.swap (fun hk => ?_) (fun _ => hi) fun k hki _ => Function.update_of_ne hki ..
  rw [Function.update_self] at hk
  cases hk

theorem moveAssign_post (hi : alive i = true) (hj : alive j = true) :
    Triple (Post cfg alive c) (moveAssign (.owner i) (.owner j))
      (fun _ => Post cfg alive (Function.update (Function.update c i (c j)) j (c i)))
      (Post cfg alive c) := by
  unfold moveAssign
  split
  · rename_i hij
    have hij : i = j := Ref.owner.inj hij
    subst hij
    rw [Function.update_eq_self, Function.update_eq_self]
    exact Triple.pure fun m hm => hm
  · refine Triple.change fun m hm => hm.swap (fun hk => ?_) (fun hk => ?_) fun _ _ _ => rfl
    · cases hi.symm.trans hk
    · cases hj.symm.trans hk

/-- An act does to the batches what it does to the lists, or nothing. -/
theorem act_triple (a : Act) (ha : a.allowed alive = true) :
    Triple (Post cfg alive c) (a.run cfg) (fun _ => Post cfg (a.lives alive) (a.apply c))
      (Post cfg alive c) := by
  cases a with
  | create i =>
    have hi : alive i = false := by simpa [Act.allowed] using ha
    refine Triple.pure fun m hm => ⟨hm.held, hm.copy, fun k hk => hm.dead k ?_, fun k => ?_⟩
    · by_cases hki : k = i
      · rw [hki]
        exact hi
      · rwa [Act.lives, Function.update_of_ne hki] at hk
    · by_cases hki : k = i
      · rw [hki, Act.apply, Function.update_self, hm.dead i hi]
        exact shows_empty
      · rw [Act.apply, Function.update_of_ne hki]
        exact hm.shows k
  | add i buffers address => exact Post.lift ha fun s => appendViews_triple
  | addBytes i base length address => exact Post.lift ha fun s => addBytes_triple
  | reserve i n k =>
    have hres : Triple (Post cfg alive c) (reserve cfg (.owner i) n k)
        (fun _ => Post cfg alive (Function.update c i (c i))) (Post cfg alive c) :=
      Post.lift ha fun s => reserve_triple
    rw [Function.update_eq_self] at hres
    exact hres
  | clear i => exact Triple.change fun m hm => hm.clear ha
  | copyConstruct i j =>
    obtain ⟨hi, hj⟩ : alive i = false ∧ alive j = true := by simpa [Act.allowed] using ha
    exact copyConstruct_post hi hj
  | moveConstruct i j =>
    obtain ⟨hi, hj⟩ : alive i = false ∧ alive j = true := by simpa [Act.allowed] using ha
    exact Triple.change fun m hm => moveConstruct_post hi hm
  | copyAssign i j =>
    obtain ⟨hi, hj⟩ : alive i = true ∧ alive j = true := by simpa [Act.allowed] using ha
    exact copyAssign_post hi
  | moveAssign i j =>
    obtain ⟨hi, hj⟩ : alive i = true ∧ alive j = true := by simpa [Act.allowed] using ha
    exact moveAssign_post hi hj
  | destroy i => exact Triple.change fun m hm => hm.destroy

/-! ## Runs -/

theorem contents_snoc {log : List (Act × Bool)} {x : Act × Bool} :
    contents (log ++ [x]) = if x.2 then x.1.apply (contents log) else contents log := by
  unfold contents
  rw [List.foldl_append]
  rfl

theorem step_post {w w' : World} {x : Act × List (Option Addr)}
    (h : Post cfg w.alive (contents w.log) w.mem) (hs : step cfg w x = some w') :
    Post cfg w'.alive (contents w'.log) w'.mem := by
  obtain ⟨ha, hs⟩ := Option.ite_none_right_eq_some.mp hs
  have hpre : Post cfg w.alive (contents w.log)
      { w.mem with heap := { w.mem.heap with answers := x.2 } } :=
    ⟨⟨h.held.live, h.held.single⟩, h.copy, h.dead, h.shows⟩
  rcases act_triple x.1 ha _ hpre with ⟨a, m, hex, hpost⟩ | ⟨e, m, hex, hpost⟩
  · rw [hex] at hs
    cases hs
    dsimp only
    rw [contents_snoc]
    exact hpost
  · rw [hex] at hs
    cases hs
    dsimp only
    rw [contents_snoc]
    exact hpost

theorem init_post : Post cfg (sys cfg).init.alive (contents (sys cfg).init.log) (sys cfg).init.mem :=
  ⟨⟨fun a => ⟨nofun, fun ⟨x, hx⟩ => by cases x with | mk q f => cases f <;> cases hx⟩,
      fun x y a hx => by cases x with | mk q f => cases f <;> cases hx⟩,
    rfl, fun _ _ => rfl, fun _ => shows_empty⟩

theorem run_post {as : List (Act × List (Option Addr))} {w : World}
    (hr : (sys cfg).run (sys cfg).init as = some w) :
    Post cfg w.alive (contents w.log) w.mem :=
  Sys.run_inv (S := sys cfg) (fun _ _ _ h hs => step_post h hs) init_post hr

end

end SendBatch
