import Uvpp.Pool.Files

/-!
# The lists of awaiters

A close that is awaited goes to the front of the list of its file; the completion takes the list
off the file and walks it.  Each node lies in the frame of the coroutine that waits there, so the
walk reads the next node before it resumes.

* `Closes.push`       an awaiter more;
* `Files.closing`, `Files.joined`, `Files.closed`, `Files.delivered`, `Files.rested`
                      the steps of a close;
* `Form.files`        every step keeps `Files`;
* `sound`             what the steps take for granted.
-/

namespace Pool

section
variable {w w' : World} {o : Op} {f : File}

/-- before the completion the list starts at the file -/
theorem Closes.head_eq (h : Closes w) (hf : (w.file f).closeComplete = false) :
    w.head f = (w.file f).closeWaiters := by
  have hnone : (deliveries w.stack).find? (fun d => d.1 = f) = none := by
    refine List.find?_eq_none.mpr ?_
    rintro ⟨g, waiter, status⟩ hd hg
    obtain rfl : g = f := by simpa using hg
    rw [(h.delivering g waiter status hd).1] at hf
    cases hf
  unfold World.head
  rw [hnone]

/-- at the awaiter that a delivery comes to next -/
theorem Closes.head_delivering (h : Closes w) {waiter : Option Op} {status : Int}
    (hd : (f, waiter, status) ∈ deliveries w.stack) : w.head f = waiter := by
  obtain ⟨d, heq⟩ : ∃ d, deliveries w.stack = [d] := by
    refine List.length_eq_one_iff.mp ?_
    have hpos := List.length_pos_of_mem hd
    have hle := h.single
    omega
  rw [heq] at hd
  obtain rfl := List.mem_singleton.mp hd
  unfold World.head
  rw [heq]
  simp

/-- an awaiter goes to the front of the list of its file -/
theorem Closes.push (h : Closes w) (hst : (w.op o).status ≠ .suspended)
    (hk : (w.op o).kind = .close) (hf : (w.op o).file = some f)
    (hcomplete : (w.file f).closeComplete = false) (hop : ∀ p, p ≠ o → w'.op p = w.op p)
    (hrec : ∃ code, w'.op o =
      { w.op o with status := .suspended, code := code, next := (w.file f).closeWaiters })
    (hfile : ∀ g, g ≠ f → w'.file g = w.file g) (hwaiters : (w'.file f).closeWaiters = some o)
    (hsame : (w'.file f).closeComplete = false) (hd : deliveries w'.stack = deliveries w.stack)
    (g : File) : ∃ l, Linked (fun p => (w'.op p).next) (w'.head g) l ∧ l.Nodup ∧
      ∀ p, p ∈ l ↔ Closer w' p g := by
  obtain ⟨code, hrec⟩ := hrec
  obtain ⟨l, hl, hnd, hmem⟩ := h.listed g
  have hout : o ∉ l := fun ho => hst ((hmem o).mp ho).status
  have hclose : ∀ p, p ≠ o → (Closer w' p g ↔ Closer w p g) := fun p hp => closer_congr (hop p hp)
  by_cases hg : g = f
  · subst hg
    refine ⟨o :: l, ?_, List.nodup_cons.mpr ⟨hout, hnd⟩, fun p => ?_⟩
    · have hhead : w'.head g = some o := by
        unfold World.head
        rw [hd]
        split
        · exact hwaiters
        · rename_i d hfind
          have hdg : d.1 = g := by simpa using List.find?_some hfind
          obtain ⟨g', waiter, status⟩ := d
          subst hdg
          rw [(h.delivering _ waiter status (List.mem_of_find?_eq_some hfind)).1] at hcomplete
          cases hcomplete
      have hpush := hl.push hout
      rw [h.head_eq hcomplete] at hpush
      rw [hhead]
      refine hpush.frame fun p _ => ?_
      by_cases hp : p = o
      · subst hp
        rw [Function.update_self, hrec]
      · rw [Function.update_of_ne hp, hop p hp]
    · rw [List.mem_cons]
      by_cases hp : p = o
      · subst hp
        refine ⟨fun _ => ?_, fun _ => .inl rfl⟩
        rw [Closer.iff_op, hrec]
        exact ⟨rfl, hk, hf⟩
      · rw [hclose p hp, ← hmem p, or_iff_right hp]
  · refine ⟨l, ?_, hnd, fun p => ?_⟩
    · have hhead : w'.head g = w.head g := by
        unfold World.head
        rw [hd, hfile g hg]
      rw [hhead]
      refine hl.frame fun p hp => ?_
      rw [hop p]
      rintro rfl
      exact hout hp
    · by_cases hp : p = o
      · subst hp
        refine ⟨fun hp => absurd hp hout, fun hp => ?_⟩
        have hpf := hp.file
        rw [hrec] at hpf
        exact absurd (Option.some.inj (hpf.symm.trans hf)) hg
      · rw [hclose p hp, hmem p]

/-- what holds of each file alone -/
structure FileState.Ordered (x : FileState) : Prop where
  once : x.closeActive = true → x.closeComplete = false
  idle : x.closeActive = false → x.closeWaiters = none
  apart : ∀ k, x.closeActive = true ∨ x.closeComplete = true → x.active k = false

theorem Files.ordered (h : Files w) (f : File) : (w.file f).Ordered :=
  ⟨h.closes.once f, h.closes.idle f, h.apart f⟩

/-- a step of the close of `f` -/
theorem Files.of_close (h : Files w) {x : FileState} (hfile : w'.file = Function.update w.file f x)
    (hx : x.Ordered) (htransfer : ∀ k, x.active k = (w.file f).active k)
    (hfly : ∀ p k g, k.transfers = true → (Flying w' p k g ↔ Flying w p k g))
    (hactive : x.closeActive = true ↔ ∃ p, Flying w' p .close f)
    (hsame : ∀ p g, g ≠ f → (Flying w' p .close g ↔ Flying w p .close g))
    (hone : ∀ p q, Flying w' p .close f → Flying w' q .close f → p = q)
    (hdelivering : ∀ g waiter status, (g, waiter, status) ∈ deliveries w'.stack →
      (w'.file g).closeComplete = true ∧ (w'.file g).closeStatus = status)
    (hsingle : (deliveries w'.stack).length ≤ 1)
    (hlisted : ∀ g, ∃ l, Linked (fun p => (w'.op p).next) (w'.head g) l ∧ l.Nodup ∧
      ∀ p, p ∈ l ↔ Closer w' p g) : Files w' := by
  have hord : ∀ g, (w'.file g).Ordered := by
    rw [hfile]
    exact (Function.forall_update_iff w.file fun _ y => y.Ordered).mpr ⟨hx, fun g _ => h.ordered g⟩
  have hact : ∀ g, ∀ k, (w'.file g).active k = (w.file g).active k := by
    rw [hfile]
    exact (Function.forall_update_iff w.file fun g y => ∀ k, y.active k = (w.file g).active k).mpr
      ⟨htransfer, fun _ _ _ => rfl⟩
  refine ⟨h.claims.frame (fun g k _ => hact g k) hfly, ⟨?_, fun p q g hp hq => ?_,
    fun g => (hord g).once, fun g => (hord g).idle, hdelivering, hsingle, hlisted⟩,
    fun g => (hord g).apart⟩
  · rw [hfile]
    refine (Function.forall_update_iff w.file fun g y =>
      y.closeActive = true ↔ ∃ p, Flying w' p .close g).mpr ⟨hactive, fun g hg => ?_⟩
    rw [h.closes.active g]
    exact exists_congr fun p => (hsame p g hg).symm
  · by_cases hg : g = f
    · subst hg
      exact hone p q hp hq
    · exact h.closes.one p q g ((hsame p g hg).mp hp) ((hsame q g hg).mp hq)

theorem Files.closing (h : Files w) (hi : w.native o = false) (hst : (w.op o).status = .made)
    (hk : (w.op o).kind = .close) (hf : (w.op o).file = some f)
    (hopen : (w.file f).isOpen = true) (hread : (w.file f).readActive = false)
    (hwrite : (w.file f).writeActive = false) (hop : ∀ p, p ≠ o → w'.op p = w.op p)
    (hrec : ∃ code, w'.op o =
      { w.op o with status := .suspended, code := code, next := (w.file f).closeWaiters })
    (hfile : w'.file = Function.update w.file f
      { w.file f with closeActive := true, closeWaiters := some o })
    (hnative : w'.native = Function.update w.native o true) (hstack : w'.stack = w.stack) :
    Files w' := by
  obtain ⟨-, hidle, hcomplete⟩ := FileState.isOpen_iff.mp hopen
  have hself : w'.file f = { w.file f with closeActive := true, closeWaiters := some o } := by
    rw [hfile, Function.update_self]
  have hother : ∀ g, g ≠ f → w'.file g = w.file g := fun g hg => by
    rw [hfile, Function.update_of_ne hg]
  have hkinds : ∀ p, (w'.op p).kind = (w.op p).kind ∧ (w'.op p).file = (w.op p).file := fun p => by
    by_cases hp : p = o
    · obtain ⟨code, hrec⟩ := hrec
      rw [hp, hrec]
      exact ⟨rfl, rfl⟩
    · rw [hop p hp]
      exact ⟨rfl, rfl⟩
  have hfly : ∀ {p k g}, Flying w' p k g ↔ p = o ∧ (w.op o).kind = k ∧ (w.op o).file = some g ∨
      Flying w p k g := flying_start hi hnative (fun p => (hkinds p).1) fun p => (hkinds p).2
  -- the new request is the only one
  have honly : ∀ p, Flying w' p .close f → p = o := fun p hp => by
    rcases hfly.mp hp with ⟨hpo, -⟩ | hp
    · exact hpo
    · rw [(h.closes.active f).mpr ⟨p, hp⟩] at hidle
      cases hidle
  refine h.of_close hfile ⟨fun _ => hcomplete, nofun, fun k _ => ?_⟩ (fun k => by cases k <;> rfl)
    (fun p k g hkt => ?_) ⟨fun _ => ⟨o, hfly.mpr (.inl ⟨rfl, hk, hf⟩)⟩, fun _ => rfl⟩
    (fun p g hg => ?_) (fun p q hp hq => (honly p hp).trans (honly q hq).symm)
    (fun g waiter status hd => ?_) (by rw [hstack]; exact h.closes.single)
    (h.closes.push (by rw [hst]; decide) hk hf hcomplete hop hrec hother (by rw [hself])
      (by rw [hself]; exact hcomplete) (by rw [hstack]))
  · cases k with
    | read => exact hread
    | write => exact hwrite
    | openFile | close | resolve => rfl
  · refine ⟨fun hp => (hfly.mp hp).resolve_left fun h' => ?_, fun hp => hfly.mpr (.inr hp)⟩
    rw [hk] at h'
    rw [← h'.2.1] at hkt
    cases hkt
  · exact ⟨fun hp => (hfly.mp hp).resolve_left fun h' => hg (Option.some.inj (h'.2.2.symm.trans hf)),
      fun hp => hfly.mpr (.inr hp)⟩
  · rw [hstack] at hd
    have hold := h.closes.delivering g waiter status hd
    by_cases hgf : g = f
    · subst hgf
      rw [hcomplete] at hold
      cases hold.1
    · rw [hother g hgf]
      exact hold

theorem Files.joined (h : Files w) (hst : (w.op o).status = .made) (hk : (w.op o).kind = .close)
    (hf : (w.op o).file = some f) (hactive : (w.file f).closeActive = true)
    (hop : ∀ p, p ≠ o → w'.op p = w.op p)
    (hrec : w'.op o = { w.op o with status := .suspended, next := (w.file f).closeWaiters })
    (hfile : w'.file = Function.update w.file f { w.file f with closeWaiters := some o })
    (hnative : w'.native = w.native) (hstack : w'.stack = w.stack) : Files w' := by
  have hcomplete := h.closes.once f hactive
  have hself : w'.file f = { w.file f with closeWaiters := some o } := by
    rw [hfile, Function.update_self]
  have hother : ∀ g, g ≠ f → w'.file g = w.file g := fun g hg => by
    rw [hfile, Function.update_of_ne hg]
  have hfly : ∀ {p k g}, Flying w' p k g ↔ Flying w p k g := by
    intro p k g
    by_cases hp : p = o
    · subst hp
      exact flying_congr (by rw [hnative]) (by rw [hrec]) (by rw [hrec])
    · exact flying_congr (by rw [hnative]) (by rw [hop p hp]) (by rw [hop p hp])
  refine h.of_close hfile ⟨fun _ => hcomplete, fun ha => ?_, fun k _ => ?_⟩
    (fun k => by cases k <;> rfl) (fun p k g _ => hfly) ⟨fun _ => ?_, fun _ => hactive⟩
    (fun p g _ => hfly) (fun p q hp hq => h.closes.one p q f (hfly.mp hp) (hfly.mp hq))
    (fun g waiter status hd => ?_) (by rw [hstack]; exact h.closes.single)
    (h.closes.push (by rw [hst]; decide) hk hf hcomplete hop ⟨(w.op o).code, hrec⟩ hother
      (by rw [hself]) (by rw [hself]; exact hcomplete) (by rw [hstack]))
  · exact absurd (hactive.symm.trans ha) (by decide)
  · have hold := h.apart f k (.inl hactive)
    cases k <;> exact hold
  · obtain ⟨p, hp⟩ := (h.closes.active f).mp hactive
    exact ⟨p, hfly.mpr hp⟩
  · rw [hstack] at hd
    have hold := h.closes.delivering g waiter status hd
    rw [hfile]
    by_cases hgf : g = f
    · subst hgf
      rw [Function.update_self]
      exact hold
    · rw [Function.update_of_ne hgf]
      exact hold

theorem Files.closed (h : Files w) (hstack : w.stack = []) (hn : w.native o = true)
    (hk : (w.op o).kind = .close) (hf : (w.op o).file = some f) {status : Int}
    (hop : w'.op = w.op)
    (hfile : w'.file = Function.update w.file f
      { w.file f with
        descriptor := -1, closeActive := false, closeComplete := true, closeStatus := status
        closeWaiters := none })
    (hnative : w'.native = Function.update w.native o false)
    (hstack' : w'.stack = [.delivering f (w.file f).closeWaiters status]) : Files w' := by
  have hfo : Flying w o .close f := ⟨hn, hk, hf⟩
  have hactive : (w.file f).closeActive = true := (h.closes.active f).mpr ⟨o, hfo⟩
  have hself : w'.file f = { w.file f with
      descriptor := -1, closeActive := false, closeComplete := true, closeStatus := status
      closeWaiters := none } := by rw [hfile, Function.update_self]
  have hother : ∀ g, g ≠ f → w'.file g = w.file g := fun g hg => by
    rw [hfile, Function.update_of_ne hg]
  have hfly : ∀ {p k g}, Flying w' p k g ↔ p ≠ o ∧ Flying w p k g :=
    flying_stop hnative fun p _ => by rw [hop]
  have hgone : ∀ p, ¬ Flying w' p .close f := fun p hp =>
    (hfly.mp hp).1 (h.closes.one p o f (hfly.mp hp).2 hfo)
  have hd : deliveries w'.stack = [(f, (w.file f).closeWaiters, status)] := by rw [hstack']; rfl
  refine h.of_close hfile ⟨nofun, fun _ => rfl, fun k _ => ?_⟩ (fun k => by cases k <;> rfl)
    (fun p k g hkt => ?_) ⟨nofun, fun ⟨p, hp⟩ => absurd hp (hgone p)⟩ (fun p g hg => ?_)
    (fun p q hp _ => absurd hp (hgone p)) (fun g waiter st hm => ?_) (by rw [hd]; exact le_refl 1)
    (fun g => ?_)
  · have hold := h.apart f k (.inl hactive)
    cases k <;> exact hold
  · refine hfly.trans ⟨fun hp => hp.2, fun hp => ⟨?_, hp⟩⟩
    rintro rfl
    rw [← hp.kind, hk] at hkt
    cases hkt
  · refine hfly.trans ⟨fun hp => hp.2, fun hp => ⟨?_, hp⟩⟩
    rintro rfl
    exact hg (Option.some.inj (hp.file.symm.trans hf))
  · rw [hd] at hm
    cases List.mem_singleton.mp hm
    rw [hfile, Function.update_self]
    exact ⟨rfl, rfl⟩
  · obtain ⟨l, hl, hnd, hmem⟩ := h.closes.listed g
    refine ⟨l, ?_, hnd, fun p => (hmem p).trans (closer_congr (by rw [hop])).symm⟩
    have hhead : w'.head g = w.head g := by
      have hold : w.head g = (w.file g).closeWaiters := by
        unfold World.head
        rw [hstack]
        rfl
      rw [hold]
      unfold World.head
      rw [hd]
      by_cases hgf : g = f
      · subst hgf
        simp
      · have hfg : f ≠ g := fun h' => hgf h'.symm
        simp [hfg, hgf, hfile]
    rw [hhead]
    exact hl.frame fun p _ => by rw [hop]

/-- a delivery goes on: the files and what libuv has stay -/
theorem Files.walks (h : Files w) (hfile : w'.file = w.file)
    (hfly : ∀ {p k g}, Flying w' p k g ↔ Flying w p k g)
    (hdelivering : ∀ g waiter status, (g, waiter, status) ∈ deliveries w'.stack →
      ∃ waiter', (g, waiter', status) ∈ deliveries w.stack)
    (hsingle : (deliveries w'.stack).length ≤ 1)
    (hlisted : ∀ g, ∃ l, Linked (fun p => (w'.op p).next) (w'.head g) l ∧ l.Nodup ∧
      ∀ p, p ∈ l ↔ Closer w' p g) : Files w' := by
  refine ⟨h.claims.frame (fun g k _ => by rw [hfile]) (fun p k g _ => hfly), ⟨fun g => ?_,
    fun p q g hp hq => h.closes.one p q g (hfly.mp hp) (hfly.mp hq),
    fun g => by rw [hfile]; exact h.closes.once g, fun g => by rw [hfile]; exact h.closes.idle g,
    fun g waiter status hm => ?_, hsingle, hlisted⟩, fun g k => by rw [hfile]; exact h.apart g k⟩
  · rw [hfile, h.closes.active g]
    exact exists_congr fun p => hfly.symm
  · obtain ⟨waiter', hold⟩ := hdelivering g waiter status hm
    rw [hfile]
    exact h.closes.delivering g waiter' status hold

theorem Files.delivered (h : Files w) {status : Int} {k : List Frame}
    (hstack : w.stack = .delivering f (some o) status :: k) (hf : (w.op o).file = some f)
    (hop : ∀ p, p ≠ o → w'.op p = w.op p)
    (hrec : w'.op o = { w.op o with status := .finished, code := status })
    (hfile : w'.file = w.file) (hnative : w'.native = w.native)
    (hstack' : w'.stack = .user :: .delivering f (w.op o).next status :: k) : Files w' := by
  have hd : deliveries w.stack = (f, some o, status) :: deliveries k := by rw [hstack]; rfl
  have hd' : deliveries w'.stack = (f, (w.op o).next, status) :: deliveries k := by
    rw [hstack']
    rfl
  have hmem : (f, some o, status) ∈ deliveries w.stack := by rw [hd]; exact List.mem_cons_self
  have hkinds : ∀ p, (w'.op p).kind = (w.op p).kind ∧ (w'.op p).file = (w.op p).file ∧
      (w'.op p).next = (w.op p).next := fun p => by
    by_cases hp : p = o
    · rw [hp, hrec]
      exact ⟨rfl, rfl, rfl⟩
    · rw [hop p hp]
      exact ⟨rfl, rfl, rfl⟩
  have hfly : ∀ {p k g}, Flying w' p k g ↔ Flying w p k g := fun {p} =>
    flying_congr (by rw [hnative]) (hkinds p).1 (hkinds p).2.1
  -- `o` leaves the list, all others stay
  have hcloser : ∀ {p g}, Closer w' p g ↔ p ≠ o ∧ Closer w p g := by
    intro p g
    by_cases hp : p = o
    · subst hp
      refine ⟨fun h' => ?_, fun h' => absurd rfl h'.1⟩
      have hst := h'.status
      rw [hrec] at hst
      cases hst
    · rw [closer_congr (hop p hp)]
      exact (and_iff_right hp).symm
  refine h.walks hfile hfly (fun g waiter st hm => ?_) ?_ fun g => ?_
  · rw [hd'] at hm
    rcases List.mem_cons.mp hm with hm | hm
    · cases hm
      exact ⟨_, hmem⟩
    · exact ⟨waiter, by rw [hd]; exact List.mem_cons_of_mem _ hm⟩
  · have hold := h.closes.single
    rw [hd] at hold
    rw [hd']
    exact hold
  · obtain ⟨l, hl, hnd, hml⟩ := h.closes.listed g
    by_cases hgf : g = f
    · subst hgf
      rw [h.closes.head_delivering hmem] at hl
      obtain ⟨m, rfl, hm⟩ := hl.eq_cons
      obtain ⟨hom, hnd⟩ := List.nodup_cons.mp hnd
      refine ⟨m, ?_, hnd, fun p => ?_⟩
      · have hhead : w'.head g = (w.op o).next := by
          unfold World.head
          rw [hd']
          simp
        rw [hhead]
        exact hm.frame fun p _ => (hkinds p).2.2
      · rw [hcloser, ← hml p, List.mem_cons]
        constructor
        · intro hp
          exact ⟨fun h' => hom (h' ▸ hp), .inr hp⟩
        · rintro ⟨hne, rfl | hp⟩
          · exact absurd rfl hne
          · exact hp
    · have hfg : f ≠ g := fun h' => hgf h'.symm
      refine ⟨l, ?_, hnd, fun p => (hml p).trans ?_⟩
      · have hhead : w'.head g = w.head g := by
          unfold World.head
          rw [hd, hd', hfile]
          simp [hfg]
        rw [hhead]
        exact hl.frame fun p _ => (hkinds p).2.2
      · rw [hcloser]
        refine ⟨fun hp => ⟨?_, hp⟩, fun hp => hp.2⟩
        rintro rfl
        exact hgf (Option.some.inj (hp.file.symm.trans hf))

theorem Files.rested (h : Files w) {status : Int} {k : List Frame}
    (hstack : w.stack = .delivering f none status :: k) (hop : w'.op = w.op)
    (hfile : w'.file = w.file) (hnative : w'.native = w.native) (hstack' : w'.stack = k) :
    Files w' := by
  have hd : deliveries w.stack = (f, none, status) :: deliveries k := by rw [hstack]; rfl
  have hmem : (f, none, status) ∈ deliveries w.stack := by rw [hd]; exact List.mem_cons_self
  have hrest : deliveries w'.stack = [] := by
    rw [hstack', ← List.length_eq_zero_iff]
    have hle := h.closes.single
    rw [hd, List.length_cons] at hle
    omega
  have hk : deliveries k = [] := by rw [← hstack']; exact hrest
  refine h.walks hfile (flying_congr (by rw [hnative]) (by rw [hop]) (by rw [hop]))
    (fun g waiter st hm => (by rw [hrest] at hm; cases hm)) (by rw [hrest]; exact Nat.zero_le 1)
    fun g => ?_
  · obtain ⟨l, hl, hnd, hml⟩ := h.closes.listed g
    refine ⟨l, ?_, hnd, fun p => (hml p).trans (closer_congr (by rw [hop])).symm⟩
    have hhead : w'.head g = w.head g := by
      have hnew : w'.head g = (w.file g).closeWaiters := by
        unfold World.head
        rw [hrest, hfile]
        rfl
      rw [hnew]
      by_cases hgf : g = f
      · -- the walk is over, and nobody joined a close that is complete
        subst hgf
        rw [h.closes.head_delivering hmem]
        refine h.closes.idle g (Bool.eq_false_iff.mpr fun ha => ?_)
        have hc := h.closes.once g ha
        rw [(h.closes.delivering g none status hmem).1] at hc
        cases hc
      · have hfg : f ≠ g := fun h' => hgf h'.symm
        unfold World.head
        rw [hd, hk]
        simp [hfg]
    rw [hhead]
    exact hl.frame fun p _ => by rw [hop]

end

section
variable {w w' : World}

/-- an operation that is not suspended, before or after -/
theorem Files.passes {o : Op} {r : OpRec} (hops : Ops w) (h : Files w)
    (hst : (w.op o).status ≠ .suspended) (hop : w'.op = Function.update w.op o r)
    (hfile : w'.file = w.file) (hd : deliveries w'.stack = deliveries w.stack)
    (hnative : w'.native = w.native) (hr : r.status ≠ .suspended) : Files w' :=
  h.unseen (o := o) ⟨hfile, hd, hnative, fun p hp => by rw [hop, Function.update_of_ne hp],
    ((hops.story o).idle hst).native, hst, by rw [hop, Function.update_self]; exact hr⟩

theorem Form.files (hf : Form w w') (hops : Ops w) (h : Files w) : Files w' := by
  have hmade : ∀ {o}, (w.op o).status = .made → (w.op o).status ≠ .suspended := fun hst => by
    rw [hst]
    decide
  have hidle : ∀ {o}, (w.op o).status = .made → w.native o = false := fun {o} hst =>
    ((hops.story o).idle (hmade hst)).native
  cases hf with
  | runs s t hs ht => exact h.congr rfl rfl rfl hs
  | owners | asked => exact h.congr rfl rfl rfl rfl
  | made m hst hnew => exact h.passes hops (by rw [hst]; decide) rfl rfl rfl rfl nofun
  | ended _ _ _ _ hst | threw _ hst => exact h.passes hops (hmade hst) rfl rfl rfl rfl nofun
  | refused o f code hst hk hf hopen =>
    -- the list was empty
    have hnone : Function.update w.file f { w.file f with closeWaiters := none } = w.file := by
      have hw := h.closes.idle f (FileState.isOpen_iff.mp hopen).2.1
      rw [← hw, Function.update_eq_self]
    exact h.passes hops (hmade hst) rfl hnone rfl rfl nofun
  | submitted o code task hst hk hclaim =>
    refine h.submitted (hidle hst) hk hclaim
      (fun p hp => Function.update_of_ne hp ..) ?_ ?_ rfl rfl rfl
    · dsimp only
      rw [Function.update_self]
    · dsimp only
      rw [Function.update_self]
  | closing o f code hst hk hf hopen hread hwrite =>
    exact h.closing (hidle hst) hst hk hf hopen hread hwrite
      (fun p hp => Function.update_of_ne hp ..) ⟨code, Function.update_self ..⟩ rfl rfl rfl
  | joined o f hst hk hf hactive =>
    exact h.joined hst hk hf hactive (fun p hp => Function.update_of_ne hp ..)
      (Function.update_self ..) rfl rfl rfl
  | opened o f status hstack hn hk hf hs =>
    refine h.opened hk (fun p hp => Function.update_of_ne hp ..) ?_ rfl rfl (by rw [hstack]; rfl)
    dsimp only
    rw [Function.update_self]
  | answered o status addresses hstack hn hk hfail hnone =>
    refine h.answered hn hk (fun p hp => Function.update_of_ne hp ..) ?_ rfl rfl
      (by rw [hstack]; rfl)
    dsimp only
    rw [Function.update_self]
  | closed o f status hstack hn hk hf => exact h.closed hstack hn hk hf rfl rfl rfl rfl
  | delivered f o status k hstack hst hk hf hn =>
    exact h.delivered hstack hf (fun p hp => Function.update_of_ne hp ..)
      (Function.update_self ..) rfl rfl rfl
  | rested f status k hstack => exact h.rested hstack rfl rfl rfl rfl
  | dropped o hst =>
    exact h.passes hops (by rcases hst with hst | hst <;> rw [hst] <;> decide) rfl rfl rfl rfl nofun

theorem sound (hops : Ops w) (h : Files w) : Sound w where
  asks c o hc := hops.submitted hc
  known o hn hk := by
    refine ((hops.story o).of_suspended ((hops.story o).native hn)).file fun hr => ?_
    rw [hr] at hk
    simp at hk
  listed f o status hd := by
    obtain ⟨l, hl, -, hmem⟩ := h.closes.listed f
    rw [h.closes.head_delivering hd] at hl
    obtain ⟨m, rfl, -⟩ := hl.eq_cons
    have hcloser := (hmem o).mp List.mem_cons_self
    refine ⟨hcloser.status, hcloser.kind, hcloser.file, Bool.eq_false_iff.mpr fun hn => ?_⟩
    have hactive := (h.closes.active f).mpr ⟨o, hn, hcloser.kind, hcloser.file⟩
    have honce := h.closes.once f hactive
    rw [(h.closes.delivering f _ status hd).1] at honce
    cases honce

end

end Pool
