import Uvpp.Raw.Request

/-!
# Raw requests complete once

* `Holds`            what a pending request stores for its submission;
* `World.held`       the results that hold an address list;
* `Inv`, `step_inv`  the invariant, one lemma per call;
* `completed_once`   the contract.
-/

namespace RawRequest
open Errno

/-! ## the invariant -/

/-- What the request holds for the submission `n`: a completion leaves it empty and calls the
callback that came with the submission, and the worker finds its callable. -/
structure Holds (f : Family) (n : Native) (r : Request) (log : List Event) : Prop where
  pending : r.pending = true
  emptied : (deliver f n r).1 = {}
  called : ∀ c i, .submitted n.submission c i ∈ log →
    (deliver f n r).2 = if c then some n.submission else none
  own : ∀ t, (deliver f n r).2 = some t → t = n.submission
  work : f = .work → n.static = false → n.ran = false → r.work.isSome

/-- how many results hold the list -/
def World.held (w : World) (s : Nat) : Nat :=
  w.kept.count (some s) + w.running.elim 0 fun c => [c.param, c.result].count (some s)

def World.outstanding (w : World) : Option Nat := w.native.map (·.submission)

structure Inv (f : Family) (w : World) : Prop where
  ledger : Ledger w.next w.outstanding w.log
  idle : w.native = none → ∀ r, w.request = some r → r = {}
  holds : ∀ n, w.native = some n → ∃ r, w.request = some r ∧ Holds f n r w.log
  lists : ∀ s, w.log.count (.freed s) + w.held s = w.log.count (.listed s)
  listed : ∀ s, w.log.count (.listed s) ≤ (completions w.log s).length
  safe : w.fault = false

section
variable {f : Family} {w w' : World} {r : Request} {n : Native} {c : Bool} {e : Int}

theorem Holds.mono {log log' : List Event} (h : Holds f n r log)
    (hm : ∀ c i, .submitted n.submission c i ∈ log' → .submitted n.submission c i ∈ log) :
    Holds f n r log' :=
  ⟨h.pending, h.emptied, fun c i hc => h.called c i (hm c i hc), h.own, h.work⟩

theorem inv_init : Inv f {} where
  ledger := .init
  idle := fun _ _ hr => (Option.some.inj hr).symm
  holds := nofun
  lists := fun _ => rfl
  listed := fun _ => Nat.le_refl 0
  safe := rfl

/-- a request that is not pending is empty and nothing is outstanding -/
theorem Inv.not_pending (h : Inv f w) (hr : w.request = some r) (hp : r.pending = false) :
    w.native = none ∧ r = {} := by
  cases hn : w.native with
  | none => exact ⟨rfl, h.idle hn r hr⟩
  | some n =>
    obtain ⟨r', hr', hh⟩ := h.holds n hn
    obtain rfl := Option.some.inj (hr.symm.trans hr')
    exact absurd hh.pending (by rw [hp]; decide)

theorem Inv.pending_iff (h : Inv f w) (hr : w.request = some r) :
    r.pending = true ↔ w.native.isSome := by
  constructor
  · intro hp
    cases hn : w.native with
    | none =>
      rw [h.idle hn r hr] at hp
      cases hp
    | some n => rfl
  · intro hs
    obtain ⟨n, hn⟩ := Option.isSome_iff_exists.mp hs
    obtain ⟨r', hr', hh⟩ := h.holds n hn
    obtain rfl := Option.some.inj (hr.symm.trans hr')
    exact hh.pending

theorem Inv.reject (h : Inv f w) (c : Bool) (he : e < 0) : Inv f (w.answer c e) where
  ledger := h.ledger.reject c he
  idle := h.idle
  holds := fun n hn => by
    obtain ⟨r, hr, hh⟩ := h.holds n hn
    have hlt := (h.ledger.outstanding n.submission (congrArg (Option.map _) hn)).1
    refine ⟨r, hr, hh.mono fun c i hm => ?_⟩
    rcases Ledger.mem_submitted hm with hm | ⟨hs, -, -⟩
    · exact hm
    · omega
  lists := fun s => by
    simpa [World.answer, World.held] using h.lists s
  listed := fun s => by
    simpa [World.answer] using h.listed s
  safe := h.safe

theorem Inv.accept (h : Inv f w) (hn : w.native = none) (he : 0 ≤ e) (hs : n.submission = w.next)
    (hp : r.pending = true) (hempty : (deliver f n r).1 = {})
    (hcall : (deliver f n r).2 = if c then some w.next else none)
    (hwork : f = .work → n.static = false → n.ran = false → r.work.isSome) :
    Inv f ({ w with request := some r, native := some n }.answer c e) where
  ledger := by
    have hout : w.outstanding = none := congrArg (Option.map _) hn
    have hl := (hout ▸ h.ledger).accept c he
    rw [← hs] at hl
    rw [← hs]
    exact hl
  idle := nofun
  holds := fun n' hn' => by
    obtain rfl := Option.some.inj hn'
    refine ⟨r, rfl, hp, hempty, fun d i hm => ?_, fun t ht => ?_, hwork⟩
    · rcases Ledger.mem_submitted hm with hm | ⟨-, rfl, -⟩
      · exact absurd (h.ledger.numbered _ d i hm) (by omega)
      · rw [hcall, hs]
    · rw [hcall] at ht
      cases c with
      | false => cases ht
      | true => exact (Option.some.inj ht).symm.trans hs.symm
  lists := fun s => by
    simpa [World.answer, World.held] using h.lists s
  listed := fun s => by
    simpa [World.answer] using h.listed s
  safe := h.safe

theorem Inv.submit (hf : f ≠ .work) (h : Inv f w) (hr : w.request = some r) :
    Inv f (w.submit r c e) := by
  unfold World.submit
  cases hp : r.pending with
  | true => exact h.reject c (by decide)
  | false =>
    obtain ⟨hn, rfl⟩ := h.not_pending hr hp
    cases c with
    | false => exact h.reject false (by decide)
    | true =>
      by_cases he : 0 ≤ e
      · simp only [Bool.false_eq_true, Bool.not_true, if_false, if_pos he]
        refine h.accept hn he rfl rfl ?_ ?_ (fun hw => absurd hw hf)
        · simp [deliver, hf, trampoline]
        · simp [deliver, hf, trampoline]
      · simp only [Bool.false_eq_true, Bool.not_true, if_false, if_neg he]
        exact h.reject true (by omega)

theorem Inv.submitStatic (hf : f ≠ .work) (h : Inv f w) (hr : w.request = some r) :
    Inv f (w.submitStatic r e) := by
  unfold World.submitStatic
  cases hp : r.pending with
  | true => exact h.reject true (by decide)
  | false =>
    obtain ⟨hn, rfl⟩ := h.not_pending hr hp
    by_cases he : 0 ≤ e
    · simp only [Bool.false_eq_true, if_false, if_pos he]
      refine h.accept hn he rfl rfl ?_ ?_ (fun hw => absurd hw hf)
      · simp [deliver, hf, trampoline]
      · simp [deliver, hf, trampoline]
    · simp only [Bool.false_eq_true, if_false, if_neg he]
      exact h.reject true (by omega)

theorem Inv.submitWork {work : Bool} (h : Inv .work w) (hr : w.request = some r) :
    Inv .work (w.submitWork r work c e) := by
  unfold World.submitWork
  cases hp : r.pending with
  | true => exact h.reject c (by decide)
  | false =>
    obtain ⟨hn, rfl⟩ := h.not_pending hr hp
    cases work with
    | false => exact h.reject c (by decide)
    | true =>
      by_cases he : e < 0
      · simp only [Bool.false_eq_true, Bool.not_true, if_false, if_pos he, ← hr]
        exact h.reject c he
      · simp only [Bool.false_eq_true, Bool.not_true, if_false, if_neg he]
        exact h.accept hn (by omega) rfl rfl rfl rfl (fun _ _ _ => rfl)

theorem Inv.submitWorkStatic (h : Inv .work w) (hr : w.request = some r) :
    Inv .work (w.submitWorkStatic r e) := by
  unfold World.submitWorkStatic
  cases hp : r.pending with
  | true => exact h.reject true (by decide)
  | false =>
    obtain ⟨hn, rfl⟩ := h.not_pending hr hp
    by_cases he : e < 0
    · simp only [Bool.false_eq_true, if_false, if_pos he, ← hr]
      exact h.reject true he
    · simp only [Bool.false_eq_true, if_false, if_neg he]
      exact h.accept hn (by omega) rfl rfl rfl rfl (fun _ hs _ => by cases hs)

/-- results change hands; those of `rs` are destroyed -/
theorem Inv.results (h : Inv f w) {running : Option Call} {kept rs : List (Option Nat)}
    (hc : ∀ s, rs.count (some s) + { w with running := running, kept := kept }.held s = w.held s) :
    Inv f { w with running := running, kept := kept, log := w.log ++ free rs } where
  ledger := h.ledger.aside free_aside
  idle := h.idle
  holds := fun n hn => by
    obtain ⟨r, hr, hh⟩ := h.holds n hn
    refine ⟨r, hr, hh.mono fun c i hm => ?_⟩
    rcases List.mem_append.mp hm with hm | hm
    · exact hm
    · exact (free_aside _ hm).elim
  lists := fun s => by
    have hl := h.lists s
    have hs := hc s
    show (w.log ++ free rs).count (.freed s) + { w with running := running, kept := kept }.held s =
      (w.log ++ free rs).count (.listed s)
    rw [List.count_append, List.count_append, count_freed, count_listed]
    omega
  listed := fun s => by
    show (w.log ++ free rs).count (.listed s) ≤ (completions (w.log ++ free rs) s).length
    rw [List.count_append, count_listed, completions_append, (histories_aside free_aside s).1]
    simpa using h.listed s
  safe := h.safe

/-- the native part changes in what a completion does not read -/
theorem Inv.setNative (h : Inv f w) (hn : w.native = some n) (n' : Native)
    (hs : n'.submission = n.submission)
    (hh : ∀ r, Holds f n r w.log → Holds f n' r w.log) : Inv f { w with native := some n' } where
  ledger := by
    have hout : w.outstanding = some n'.submission := by
      rw [World.outstanding, hn, hs]
      rfl
    show Ledger w.next (some n'.submission) w.log
    rw [← hout]
    exact h.ledger
  idle := nofun
  holds := fun m hm => by
    obtain rfl := Option.some.inj hm
    obtain ⟨r, hr, hold⟩ := h.holds n hn
    exact ⟨r, hr, hh r hold⟩
  lists := h.lists
  listed := h.listed
  safe := h.safe

theorem Inv.answered (h : Inv f w) (e : Int) : Inv f { w with log := w.log ++ [.answered e] } where
  ledger := h.ledger.aside (by simp [Event.aside])
  idle := h.idle
  holds := fun n hn => by
    obtain ⟨r, hr, hh⟩ := h.holds n hn
    exact ⟨r, hr, hh.mono fun c i hm => by simpa using hm⟩
  lists := fun s => by
    simpa [World.held] using h.lists s
  listed := fun s => by
    have hc : completions (w.log ++ [.answered e]) s = completions w.log s := by
      rw [completions_append]
      exact List.append_nil _
    simpa [hc] using h.listed s
  safe := h.safe

theorem Inv.cancel (h : Inv f w) (hr : w.request = some r) (hs : w.cancel r e = some w') :
    Inv f w' := by
  unfold World.cancel at hs
  cases hp : r.pending with
  | false =>
    rw [hp, if_neg Bool.false_ne_true] at hs
    cases hs
    exact h.answered einval
  | true =>
    obtain ⟨n, hn⟩ := Option.isSome_iff_exists.mp ((h.pending_iff hr).mp hp)
    rw [hp, if_pos rfl, hn] at hs
    dsimp only at hs
    split at hs
    · cases hs
      rw [← hn]
      exact h.answered e
    · split at hs
      · cases hs
      · cases hs
        exact (h.setNative hn { n with cancelled := true } rfl fun r hh => ⟨hh.pending, hh.emptied,
          hh.called, hh.own, hh.work⟩).answered e

theorem Inv.runWork (h : Inv .work w) (hn : w.native = some n) (hran : n.ran = false) :
    Inv .work (w.runWork n) := by
  unfold World.runWork
  by_cases hs : n.static = true
  · rw [if_pos hs]
    exact h.setNative hn { n with ran := true } rfl fun r hh => ⟨hh.pending, hh.emptied, hh.called,
      hh.own, nofun⟩
  · obtain ⟨r, hr, hh⟩ := h.holds n hn
    obtain ⟨s, hwork⟩ := Option.isSome_iff_exists.mp (hh.work rfl (by simpa using hs) hran)
    simp only [if_neg hs, hr, hwork]
    have hout : w.outstanding = some n.submission := congrArg (Option.map _) hn
    -- a completion empties the slot of the worker as well, so it does not matter that it is empty
    have hdeliver : deliver .work { n with ran := true } { r with work := none } =
        deliver .work n r := by
      simp [deliver, hs, completeWork]
    refine ⟨?_, nofun, fun m hm => ?_, h.lists, h.listed, h.safe⟩
    · show Ledger w.next (some n.submission) w.log
      rw [← hout]
      exact h.ledger
    · obtain rfl := Option.some.inj hm
      refine ⟨_, rfl, hh.pending, ?_, ?_, ?_, nofun⟩
      · rw [hdeliver]
        exact hh.emptied
      · rw [hdeliver]
        exact hh.called
      · rw [hdeliver]
        exact hh.own

/-- the events of a completion: the list that libuv has, the callback that is called, and the
results that are destroyed -/
def World.completionLog (w : World) (s : Nat) (e : Int) (list o : Option Nat)
    (rs : List (Option Nat)) : List Event :=
  w.log ++ list.toList.map .listed ++ [.completed s e] ++ o.toList.map (.invoked · e) ++ free rs

theorem completionLog_count {list o : Option Nat} {rs : List (Option Nat)} (t : Nat) :
    (w.completionLog n.submission e list o rs).count (.freed t) =
        w.log.count (.freed t) + rs.count (some t) ∧
      (w.completionLog n.submission e list o rs).count (.listed t) =
        w.log.count (.listed t) + [list].count (some t) := by
  unfold World.completionLog
  simp only [List.count_append, count_freed, count_listed]
  cases list <;> cases o <;> simp [List.count_cons]

theorem listed_aside {list : Option Nat} : ∀ e ∈ list.toList.map Event.listed, e.aside := by
  intro e he
  obtain ⟨s, -, rfl⟩ := List.mem_map.mp he
  trivial

theorem completionLog_completions {list o : Option Nat} {rs : List (Option Nat)} (t : Nat) :
    completions (w.completionLog n.submission e list o rs) t =
      completions w.log t ++ if n.submission = t then [e] else [] := by
  unfold World.completionLog
  simp only [completions_append, (histories_aside free_aside t).1,
    (histories_aside listed_aside t).1]
  cases o <;> simp

/-- A completion hands its list to the callback (`running`) or destroys it (`rs`). -/
theorem Inv.handOver (h : Inv f w) (hn : w.native = some n) (hi : w.running = none)
    {list o : Option Nat} (hl : ∀ s, list = some s → s = n.submission)
    (ho : ∀ c i, .submitted n.submission c i ∈ w.log → o = if c then some n.submission else none)
    (hown : ∀ t, o = some t → t = n.submission) (running : Option Call) (rs : List (Option Nat))
    (hc : ∀ s, rs.count (some s) + (running.elim 0 fun c => [c.param, c.result].count (some s)) =
      [list].count (some s)) :
    Inv f { w with
      request := some {}, native := none, running := running
      log := w.completionLog n.submission e list o rs } where
  ledger := by
    have hout : w.outstanding = some n.submission := congrArg (Option.map _) hn
    have hled := h.ledger
    rw [hout] at hled
    refine ((hled.aside listed_aside).complete e (fun c i hm => ?_) hown).aside free_aside
    rcases List.mem_append.mp hm with hm | hm
    · exact ho c i hm
    · exact (listed_aside _ hm).elim
  idle := fun _ _ hr => (Option.some.inj hr).symm
  holds := nofun
  lists := fun s => by
    have hls := h.lists s
    have hcs := hc s
    rw [World.held, hi] at hls
    show (w.completionLog n.submission e list o rs).count (.freed s) +
      (w.kept.count (some s) + running.elim 0 fun c => [c.param, c.result].count (some s)) =
      (w.completionLog n.submission e list o rs).count (.listed s)
    rw [(completionLog_count s).1, (completionLog_count s).2]
    simp only [Option.elim_none] at hls
    omega
  listed := fun s => by
    have hls := h.listed s
    show (w.completionLog n.submission e list o rs).count (.listed s) ≤
      (completions (w.completionLog n.submission e list o rs) s).length
    rw [(completionLog_count s).2, completionLog_completions, List.length_append]
    by_cases hs : list = some s
    · rw [hs, if_pos (hl s hs).symm]
      simpa using hls
    · have hz : [list].count (some s) = 0 := by simpa [List.count_cons] using hs
      omega
  safe := h.safe

theorem Inv.complete (h : Inv f w) (hn : w.native = some n) (hi : w.running = none)
    (addresses : Bool) : Inv f (w.complete f n e addresses) := by
  obtain ⟨r, hr, hh⟩ := h.holds n hn
  unfold World.complete
  rw [hr]
  simp only [hh.emptied]
  set list := if f = .getaddrinfo ∧ addresses then some n.submission else none with hlist
  have hl : ∀ s, list = some s → s = n.submission := by
    intro s hs
    rw [hlist] at hs
    split at hs
    · exact (Option.some.inj hs).symm
    · cases hs
  cases ho : (deliver f n r).2 with
  | none =>
    have hinv := h.handOver (e := e) hn hi hl hh.called hh.own none [list] (fun s => rfl)
    simpa [World.completionLog, ho, hi] using hinv
  | some s =>
    have hinv := h.handOver (e := e) hn hi hl hh.called hh.own (some ⟨s, list, none⟩) []
      (fun t => by simp [List.count_cons])
    simpa [World.completionLog, ho, free] using hinv

theorem held_running {c : Call} (hr : w.running = some c) (s : Nat) :
    w.held s = w.kept.count (some s) + ([c.param].count (some s) + [c.result].count (some s)) := by
  rw [World.held, hr, ← List.count_append]
  rfl

theorem count_moved_from (s : Nat) : [(none : Option Nat)].count (some s) = 0 := rfl

theorem Inv.ret {c : Call} (h : Inv f w) (hr : w.running = some c) : Inv f (w.ret c) :=
  h.results fun s => by
    rw [World.held, World.held, hr, Nat.add_comm]
    rfl

theorem Inv.resetResult {c : Call} (h : Inv f w) (hr : w.running = some c) :
    Inv f (w.resetResult c) :=
  h.results fun s => by
    rw [held_running hr, held_running rfl, count_moved_from]
    dsimp only
    omega

theorem Inv.keep {c : Call} (h : Inv f w) (hr : w.running = some c) : Inv f (w.keep c) := by
  have hinv : Inv f { w with
      running := some { c with param := none }, kept := w.kept ++ [c.param]
      log := w.log ++ free [] } :=
    h.results fun s => by
      rw [held_running hr, held_running rfl, count_moved_from, List.count_append, List.count_nil]
      dsimp only
      omega
  simpa [free, World.keep] using hinv

/-- one result of the user takes the place of another -/
theorem count_set_kept {kept : List (Option Nat)} {i : Nat} {r : Option Nat} (hi : kept[i]? = some r)
    (r' : Option Nat) (s : Nat) :
    (kept.set i r').count (some s) + [r].count (some s) =
      kept.count (some s) + [r'].count (some s) := by
  obtain ⟨hlt, rfl⟩ := List.getElem?_eq_some_iff.mp hi
  have hle : [kept[i]].count (some s) ≤ kept.count (some s) :=
    (List.singleton_sublist.mpr (List.getElem_mem hlt)).count_le _
  rw [List.count_set hlt]
  simp only [List.count_cons, List.count_nil] at hle ⊢
  omega

theorem Inv.assign {c : Call} {i : Nat} (h : Inv f w) (hr : w.running = some c)
    (hs : w.assign c i = some w') : Inv f w' := by
  unfold World.assign at hs
  split at hs
  · cases hs
  · next r hi =>
    cases hs
    refine h.results fun s => ?_
    have hset := count_set_kept hi c.param s
    rw [held_running hr, held_running rfl, count_moved_from]
    dsimp only
    omega

theorem Inv.drop {i : Nat} (h : Inv f w) (hs : w.drop i = some w') : Inv f w' := by
  unfold World.drop at hs
  split at hs
  · cases hs
  · next r hi =>
    cases hs
    refine h.results fun s => ?_
    have hset := count_set_kept hi none s
    rw [count_moved_from] at hset
    unfold World.held
    dsimp only
    omega

theorem Inv.destroy (h : Inv f w) (hr : w.request = some r) (hp : r.pending = false) :
    Inv f { w with request := none } where
  ledger := h.ledger
  idle := fun _ r hr => by cases hr
  holds := fun n hn => by
    have hn' : w.native = some n := hn
    rw [(h.not_pending hr hp).1] at hn'
    cases hn'
  lists := h.lists
  listed := h.listed
  safe := h.safe

theorem Inv.construct (h : Inv f w) (hr : w.request = none) :
    Inv f { w with request := some {} } where
  ledger := h.ledger
  idle := fun _ _ hr => (Option.some.inj hr).symm
  holds := fun n hn => by
    obtain ⟨r, hr', -⟩ := h.holds n hn
    rw [hr] at hr'
    cases hr'
  lists := h.lists
  listed := h.listed
  safe := h.safe

theorem step_inv (f : Family) (w : World) (a : Act) (w' : World) (h : Inv f w)
    (hs : step f w a = some w') : Inv f w' := by
  cases a with
  | submit work c e =>
    obtain ⟨r, hr, rfl⟩ := Option.map_eq_some_iff.mp hs
    by_cases hf : f = .work
    · subst hf
      exact h.submitWork hr
    · rw [if_neg hf]
      exact h.submit hf hr
  | submitStatic e =>
    obtain ⟨r, hr, rfl⟩ := Option.map_eq_some_iff.mp hs
    by_cases hf : f = .work
    · subst hf
      exact h.submitWorkStatic hr
    · rw [if_neg hf]
      exact h.submitStatic hf hr
  | cancel e =>
    simp only [step] at hs
    split at hs
    · obtain ⟨r, hr, hc⟩ := Option.bind_eq_some_iff.mp hs
      exact h.cancel hr hc
    · cases hs
  | runWork =>
    simp only [step] at hs
    split at hs
    · next n hn =>
      split at hs
      · next hg =>
        obtain ⟨rfl, hran, -⟩ := hg
        cases hs
        exact h.runWork hn (by simpa using hran)
      · cases hs
    · cases hs
  | complete e addresses =>
    simp only [step] at hs
    split at hs
    · next n hn =>
      split at hs
      · next hg =>
        cases hs
        exact h.complete hn (by simpa using hg.1) addresses
      · cases hs
    · cases hs
  | ret =>
    obtain ⟨c, hc, rfl⟩ := Option.map_eq_some_iff.mp hs
    exact h.ret hc
  | resetResult =>
    obtain ⟨c, hc, rfl⟩ := Option.map_eq_some_iff.mp hs
    exact h.resetResult hc
  | keep =>
    obtain ⟨c, hc, rfl⟩ := Option.map_eq_some_iff.mp hs
    exact h.keep hc
  | assign i =>
    obtain ⟨c, hc, hs⟩ := Option.bind_eq_some_iff.mp hs
    exact h.assign hc hs
  | drop i => exact h.drop hs
  | destroy =>
    simp only [step] at hs
    split at hs
    · next r hr =>
      split at hs
      · cases hs
      · next hp =>
        cases hs
        exact h.destroy hr (by simpa using hp)
    · cases hs
  | construct =>
    simp only [step] at hs
    split at hs
    · cases hs
    · next hr =>
      cases hs
      exact h.construct hr

end

/-! ## the contract -/

/-- What holds in every state.  The last clauses but one are about address lists: a list is freed or
held by one result, and it is freed where no result is left. -/
structure Contract (f : Family) (w : World) : Prop where
  accepted : ∀ s c e, .submitted s c e ∈ w.log → 0 ≤ e →
    if w.outstanding = some s then completions w.log s = [] ∧ invocations w.log s = []
    else Called w.log s c
  rejected : ∀ s c e, .submitted s c e ∈ w.log → e < 0 → invocations w.log s = []
  pending : ∀ r, w.request = some r → (r.pending = true ↔ w.native.isSome)
  /-- only the answer is added -/
  busy : ∀ r, w.request = some r → r.pending = true →
    (∀ work c e w', step f w (.submit work c e) = some w' → w' = w.answer c ebusy) ∧
    ∀ e w', step f w (.submitStatic e) = some w' → w' = w.answer true ebusy
  /-- the state in which a completion callback starts -/
  emptied : ∀ e addresses w', step f w (.complete e addresses) = some w' → w'.request = some {}
  undisturbed : ∀ w', step f w .ret = some w' → w'.request = w.request ∧ w'.native = w.native
  lists : ∀ s, w.log.count (.freed s) + w.held s = w.log.count (.listed s) ∧
    w.log.count (.listed s) ≤ 1
  freed : w.running = none → (∀ r ∈ w.kept, r = none) →
    ∀ s, w.log.count (.freed s) = w.log.count (.listed s)
  safe : w.fault = false

section
variable {f : Family} {w w' : World} {r : Request}

theorem submit_pending (hr : w.request = some r) (hp : r.pending = true) {work c : Bool} {e : Int}
    (hs : step f w (.submit work c e) = some w') : w' = w.answer c ebusy := by
  simp only [step, hr, Option.map_some, World.submitWork, World.submit, hp, if_true, ite_self,
    Option.some.injEq] at hs
  exact hs.symm

theorem submitStatic_pending (hr : w.request = some r) (hp : r.pending = true) {e : Int}
    (hs : step f w (.submitStatic e) = some w') : w' = w.answer true ebusy := by
  simp only [step, hr, Option.map_some, World.submitWorkStatic, World.submitStatic, hp, if_true,
    ite_self, Option.some.injEq] at hs
  exact hs.symm

theorem Inv.emptied (h : Inv f w) {e : Int} {addresses : Bool}
    (hs : step f w (.complete e addresses) = some w') : w'.request = some {} := by
  simp only [step] at hs
  split at hs
  · next n hn =>
    obtain ⟨r, hr, hh⟩ := h.holds n hn
    split at hs
    · cases hs
      simp only [World.complete, hr, hh.emptied]
      split <;> rfl
    · cases hs
  · cases hs

theorem held_none (hr : w.running = none) (hk : ∀ r ∈ w.kept, r = none) (s : Nat) :
    w.held s = 0 := by
  rw [World.held, hr, Option.elim_none, Nat.add_zero]
  refine List.count_eq_zero.mpr fun hm => ?_
  cases hk _ hm

end

/-- The contract of the raw requests: every accepted submission is answered by exactly one call of
its callback. -/
theorem completed_once (f : Family) (as : List Act) (w : World)
    (hrun : (sys f).run (sys f).init as = some w) : Contract f w := by
  have h : Inv f w := Sys.run_inv (S := sys f) (step_inv f) inv_init hrun
  exact {
    accepted := fun s c e hm he => by
      split
      · next hout => exact (h.ledger.outstanding s hout).2
      · next hout => exact h.ledger.called s c e hm he hout
    rejected := fun s c e hm he => (h.ledger.rejected s c e hm he).2
    pending := fun r hr => h.pending_iff hr
    busy := fun r hr hp => ⟨fun work c e w' hs => submit_pending hr hp hs,
      fun e w' hs => submitStatic_pending hr hp hs⟩
    emptied := fun e addresses w' hs => h.emptied hs
    undisturbed := fun w' hs => by
      obtain ⟨c, -, rfl⟩ := Option.map_eq_some_iff.mp hs
      exact ⟨rfl, rfl⟩
    lists := fun s => ⟨h.lists s, Nat.le_trans (h.listed s) (h.ledger.once s)⟩
    freed := fun hr hk s => by
      have hl := h.lists s
      rwa [held_none hr hk, Nat.add_zero] at hl
    safe := h.safe }

/-- A callback submits again while it runs and keeps its addresses; the second callback takes the
place of what was kept. -/
def resubmitRun : List Act :=
  [.submit false true 0, .submitStatic 0, .complete 0 true, .submitStatic 0, .keep, .ret,
    .complete 0 true, .destroy, .assign 0, .ret, .drop 0]

theorem completed_once_resubmitRun : ∃ w,
    (sys .getaddrinfo).run (sys .getaddrinfo).init resubmitRun = some w ∧
    w.log = [.submitted 0 true 0, .submitted 1 true ebusy, .listed 0, .completed 0 0, .invoked 0 0,
      .submitted 2 true 0, .listed 2, .completed 2 0, .invoked 2 0, .freed 0, .freed 2] ∧
    Contract .getaddrinfo w :=
  ⟨_, rfl, rfl, completed_once .getaddrinfo resubmitRun _ rfl⟩

end RawRequest
