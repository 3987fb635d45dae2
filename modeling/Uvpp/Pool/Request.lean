import Uvpp.Pool.Contract

/-!
# A request belongs to its awaiter until libuv calls back

* `Births`              the state of a file that is being opened belongs to its open alone; an open
                        file has an owner;
* `RequestLaw o`        how the request of `o` is completed, cleaned up and resumed;
* `request_contract`    what holds in all runs, whatever a stop does.
-/

namespace Pool
open History

/-! ## Files that are being opened -/

/-- the awaiter of the open still has the state -/
def Unborn (w : World) (o : Op) (f : File) : Prop :=
  (w.op o).kind = .openFile ∧ ((w.op o).status = .made ∨ (w.op o).status = .suspended) ∧
    (w.op o).file = some f

structure Births (w : World) : Prop where
  blank : ∀ f, w.made f = false → w.file f = {}
  held : ∀ x f, w.holds x = some f → w.made f = true
  used : ∀ o f, (w.op o).file = some f → w.made f = true
  unborn : ∀ o f, Unborn w o f → w.file f = {} ∧ (∀ x, w.holds x ≠ some f) ∧
    ∀ p, p ≠ o → (w.op p).file ≠ some f
  kept : ∀ f, (w.file f).isOpen = true → ∃ x, w.holds x = some f
  result : ∀ o, w.alive (.result o) = false → w.holds (.result o) = none

section
variable {w w' : World} {o : Op} {f : File}

theorem alive_result : w.alive (.result o) = false ↔
    (w.op o).status ≠ .finished ∧ (w.op o).status ≠ .gone := by
  simp [World.alive]

theorem Births.init : Births {} where
  blank _ _ := rfl
  held _ _ h := by cases h
  used _ _ h := by cases h
  unborn _ _ h := by cases h.2.2
  kept _ h := by cases h
  result _ _ := rfl

/-- A step of the operation `o` that gives birth to no file: it changes its own file only. -/
theorem Births.frame (h : Births w) {o : Op} {r : OpRec} (hr : w'.op = Function.update w.op o r)
    (hrk : r.kind = (w.op o).kind) (hrf : r.file = (w.op o).file)
    (hlive : r.status = .made ∨ r.status = .suspended →
      (w.op o).status = .made ∨ (w.op o).status = .suspended)
    (halive : r.status ≠ .finished → r.status ≠ .gone →
      (w.op o).status ≠ .finished ∧ (w.op o).status ≠ .gone)
    (hholds : w'.holds = w.holds) (hmade : w'.made = w.made)
    (hfile : ∀ g, w'.file g = w.file g ∨ (w.op o).kind ≠ .openFile ∧ (w.op o).file = some g)
    (hopen : ∀ g, (w'.file g).isOpen = true → (w.file g).isOpen = true) : Births w' := by
  have hop : ∀ p, p ≠ o → w'.op p = w.op p := fun p hp => by rw [hr, Function.update_of_ne hp]
  have ho : w'.op o = r := by rw [hr, Function.update_self]
  have hfiles : ∀ p, (w'.op p).file = (w.op p).file := fun p => by
    by_cases hp : p = o
    · rw [hp, ho, hrf]
    · rw [hop p hp]
  have hunborn : ∀ {p g}, Unborn w' p g → Unborn w p g := by
    rintro p g ⟨hk, hst, hf⟩
    by_cases hp : p = o
    · subst hp
      rw [ho] at hk hst hf
      exact ⟨hrk.symm.trans hk, hlive hst, hrf.symm.trans hf⟩
    · rw [hop p hp] at hk hst hf
      exact ⟨hk, hst, hf⟩
  refine ⟨fun g hg => ?_, fun x g hx => ?_, fun p g hp => ?_, fun p g hp => ?_, fun g hg => ?_,
    fun p hp => ?_⟩
  · rw [hmade] at hg
    rcases hfile g with heq | ⟨-, hused⟩
    · rw [heq]
      exact h.blank g hg
    · rw [h.used o g hused] at hg
      cases hg
  · rw [hholds] at hx
    rw [hmade]
    exact h.held x g hx
  · rw [hfiles p] at hp
    rw [hmade]
    exact h.used p g hp
  · obtain ⟨hblank, hnone, hother⟩ := h.unborn p g (hunborn hp)
    refine ⟨?_, fun x => by rw [hholds]; exact hnone x, fun q hq => by
      rw [hfiles q]; exact hother q hq⟩
    rcases hfile g with heq | ⟨hk, hused⟩
    · rw [heq]
      exact hblank
    · -- the file of `o` is not this one
      by_cases hpo : o = p
      · subst hpo
        exact absurd (hunborn hp).1 hk
      · exact absurd hused (hother o hpo)
  · rw [hholds]
    exact h.kept g (hopen g hg)
  · rw [hholds]
    refine h.result p ?_
    by_cases hpo : p = o
    · subst hpo
      rw [alive_result] at hp ⊢
      rw [ho] at hp
      exact halive hp.1 hp.2
    · rw [alive_result] at hp ⊢
      rw [hop p hpo] at hp
      exact hp

theorem Births.owners (h : Births w) {g : Owner → Option File} {b : Bool}
    (hkept : ∀ f, (w.file f).isOpen = true → (∃ x, w.holds x = some f) → ∃ x, g x = some f)
    (hfrom : ∀ x f, g x = some f → ∃ y, w.holds y = some f)
    (hresult : ∀ o, w.alive (.result o) = false → g (.result o) = w.holds (.result o)) :
    Births { w with holds := g, terminated := b } where
  blank := h.blank
  held x f hx := by
    obtain ⟨y, hy⟩ := hfrom x f hx
    exact h.held y f hy
  used := h.used
  unborn o f ho := by
    obtain ⟨hblank, hnone, hother⟩ := h.unborn o f ho
    refine ⟨hblank, fun x hx => ?_, hother⟩
    obtain ⟨y, hy⟩ := hfrom x f hx
    exact hnone y hy
  kept f hf := hkept f hf (h.kept f hf)
  result o ho := (hresult o ho).trans (h.result o ho)

/-- the file that the new awaiter `m` refers to -/
theorem make_file (m : Making) : ((w.make m).op m.op).file = some f →
    m.kind = .openFile ∧ f = m.newFile ∨ m.kind ≠ .openFile ∧ w.holds m.owner = some f := by
  intro hf
  dsimp only [World.make] at hf
  rw [Function.update_self] at hf
  dsimp only at hf
  cases hk : m.kind with
  | openFile =>
    rw [hk] at hf
    exact .inl ⟨rfl, (Option.some.inj hf).symm⟩
  | resolve =>
    rw [hk] at hf
    cases hf
  | read | write | close =>
    rw [hk] at hf
    exact .inr ⟨by decide, hf⟩

theorem Births.made (h : Births w) {m : Making} (hst : (w.op m.op).status = .fresh)
    (hnew : m.kind = .openFile → w.made m.newFile = false) :
    Births (w.make m) := by
  have hop : ∀ p, p ≠ m.op → (w.make m).op p = w.op p := fun p hp => Function.update_of_ne hp ..
  have hmade : ∀ f, w.made f = true → (w.make m).made f = true := by
    intro f hf
    dsimp only [World.make]
    split
    · by_cases hfm : f = m.newFile
      · rw [hfm, Function.update_self]
      · rw [Function.update_of_ne hfm]
        exact hf
    · exact hf
  have hkindm : ((w.make m).op m.op).kind = m.kind := by
    dsimp only [World.make]
    rw [Function.update_self]
  refine ⟨fun f hf => ?_, fun x f hx => hmade f (h.held x f hx), fun p f hp => ?_,
    fun p f hp => ?_, h.kept, fun p hp => ?_⟩
  · refine h.blank f (Bool.eq_false_iff.mpr fun hf' => ?_)
    rw [hmade f hf'] at hf
    cases hf
  · by_cases hpm : p = m.op
    · subst hpm
      rcases make_file m hp with ⟨hk, rfl⟩ | ⟨-, hx⟩
      · dsimp only [World.make]
        rw [if_pos hk, Function.update_self]
      · exact hmade f (h.held _ f hx)
    · rw [hop p hpm] at hp
      exact hmade f (h.used p f hp)
  · obtain ⟨hk, hst', hf⟩ := hp
    by_cases hpm : p = m.op
    · subst hpm
      rw [hkindm] at hk
      -- nobody knows a state that is just allocated
      rcases make_file m hf with ⟨-, rfl⟩ | ⟨hne, -⟩
      · have hunmade := hnew hk
        refine ⟨h.blank _ hunmade, fun x hx => ?_, fun q hq hqf => ?_⟩
        · exact absurd (hunmade.symm.trans (h.held x _ hx)) (by decide)
        · rw [hop q hq] at hqf
          exact absurd (hunmade.symm.trans (h.used q _ hqf)) (by decide)
      · exact absurd hk hne
    · rw [hop p hpm] at hk hst' hf
      obtain ⟨hblank, hnone, hother⟩ := h.unborn p f ⟨hk, hst', hf⟩
      refine ⟨hblank, hnone, fun q hq hqf => ?_⟩
      by_cases hqm : q = m.op
      · subst hqm
        rcases make_file m hqf with ⟨hkm, rfl⟩ | ⟨-, hx⟩
        · exact absurd ((hnew hkm).symm.trans (h.used p _ hf)) (by decide)
        · exact hnone _ hx
      · rw [hop q hqm] at hqf
        exact hother q hq hqf
  · refine h.result p ?_
    by_cases hpm : p = m.op
    · subst hpm
      rw [alive_result, hst]
      decide
    · rw [alive_result] at hp ⊢
      rw [hop p hpm] at hp
      exact hp

theorem Births.opened (h : Births w) {status : Int} (hst : (w.op o).status = .suspended)
    (hk : (w.op o).kind = .openFile) (hf : (w.op o).file = some f)
    (hop : ∀ p, p ≠ o → w'.op p = w.op p) (hof : (w'.op o).file = none)
    (hst' : (w'.op o).status = .finished)
    (hfile : w'.file = Function.update w.file f { w.file f with descriptor := status })
    (hholds : w'.holds = Function.update w.holds (.result o) (some f))
    (hmade : w'.made = w.made) : Births w' := by
  obtain ⟨hblank, hnone, hother⟩ := h.unborn o f ⟨hk, .inr hst, hf⟩
  have hmf := h.used o f hf
  have hresult : w.holds (.result o) = none := h.result o (by rw [alive_result, hst]; decide)
  have hfiles : ∀ {p g}, (w'.op p).file = some g → p ≠ o ∧ (w.op p).file = some g := by
    intro p g hp
    have hpo : p ≠ o := by
      rintro rfl
      rw [hof] at hp
      cases hp
    rw [hop p hpo] at hp
    exact ⟨hpo, hp⟩
  refine ⟨fun g hg => ?_, fun x g hx => ?_, fun p g hp => ?_, fun p g hp => ?_, fun g hg => ?_,
    fun p hp => ?_⟩
  · rw [hmade] at hg
    have hgf : g ≠ f := by
      rintro rfl
      rw [hmf] at hg
      cases hg
    rw [hfile, Function.update_of_ne hgf]
    exact h.blank g hg
  · rw [hmade]
    rw [hholds] at hx
    by_cases hxo : x = .result o
    · rw [hxo, Function.update_self] at hx
      cases hx
      exact hmf
    · rw [Function.update_of_ne hxo] at hx
      exact h.held x g hx
  · rw [hmade]
    exact h.used p g (hfiles hp).2
  · obtain ⟨hpk, hpst, hpf⟩ := hp
    obtain ⟨hpo, hpf⟩ := hfiles hpf
    rw [hop p hpo] at hpk hpst
    obtain ⟨hb, hn, ho⟩ := h.unborn p g ⟨hpk, hpst, hpf⟩
    have hgf : g ≠ f := by
      rintro rfl
      exact hother p hpo hpf
    refine ⟨?_, fun x => ?_, fun q hq hqf => ho q hq (hfiles hqf).2⟩
    · rw [hfile, Function.update_of_ne hgf]
      exact hb
    · rw [hholds]
      by_cases hxo : x = .result o
      · rw [hxo, Function.update_self]
        exact fun heq => hgf (Option.some.inj heq).symm
      · rw [Function.update_of_ne hxo]
        exact hn x
  · rw [hholds]
    by_cases hgf : g = f
    · exact ⟨.result o, by rw [Function.update_self, hgf]⟩
    · rw [hfile, Function.update_of_ne hgf] at hg
      obtain ⟨x, hx⟩ := h.kept g hg
      refine ⟨x, ?_⟩
      rw [Function.update_of_ne]
      · exact hx
      · rintro rfl
        rw [hresult] at hx
        cases hx
  · have hpo : p ≠ o := by
      rintro rfl
      exact (alive_result.mp hp).1 hst'
    rw [alive_result, hop p hpo, ← alive_result] at hp
    rw [hholds, Function.update_of_ne fun heq => hpo (Owner.result.inj heq)]
    exact h.result p hp

theorem claimed_isOpen {file : File → FileState} {k : Kind} {b : Bool} {g : Option File} :
    (claimed file k b g f).isOpen = (file f).isOpen := by
  cases g with
  | none => rfl
  | some g =>
    by_cases hfg : f = g
    · subst hfg
      simp only [claimed, Function.update_self]
      cases k <;> rfl
    · simp only [claimed, Function.update_of_ne hfg]

/-- a claim changes the file of a transfer only -/
theorem claimed_other {file : File → FileState} {k : Kind} {b : Bool} {g : Option File} (f : File) :
    claimed file k b g f = file f ∨ k ≠ .openFile ∧ g = some f := by
  by_cases hk : k.transfers = true
  · by_cases hg : g = some f
    · refine .inr ⟨?_, hg⟩
      rintro rfl
      cases hk
    · left
      cases g with
      | none => rfl
      | some g =>
        refine Function.update_of_ne ?_ ..
        rintro rfl
        exact hg rfl
  · rw [claimed_eq (by simpa using hk)]
    exact .inl rfl

theorem Form.births (hform : Form w w') (hops : Ops w) (h : Births w) : Births w' := by
  -- a step that changes one file, and does not open it
  have hupdate : ∀ {f : File} {x : FileState} {k : Kind} {g : Option File}, k ≠ .openFile →
      g = some f → ∀ f', Function.update w.file f x f' = w.file f' ∨ k ≠ .openFile ∧ g = some f' := by
    intro f x k g hk hg f'
    by_cases hf : f' = f
    · subst hf
      exact .inr ⟨hk, hg⟩
    · exact .inl (Function.update_of_ne hf ..)
  have hopen : ∀ {f : File} {x : FileState}, (x.isOpen = true → (w.file f).isOpen = true) → ∀ f',
      (Function.update w.file f x f').isOpen = true → (w.file f').isOpen = true := by
    intro f x hx f' hf'
    by_cases hf : f' = f
    · subst hf
      rw [Function.update_self] at hf'
      exact hx hf'
    · rw [Function.update_of_ne hf] at hf'
      exact hf'
  cases hform with
  | runs | asked | rested => exact ⟨h.blank, h.held, h.used, h.unborn, h.kept, h.result⟩
  | owners g b hkept hfrom hresult => exact h.owners hkept hfrom hresult
  | made m hst hnew => exact h.made hst hnew
  | ended | threw | delivered | dropped =>
    exact h.frame rfl rfl rfl (by simp) (by simp) rfl rfl (fun _ => .inl rfl) fun _ => id
  | refused o f code hst hk hf ho =>
    exact h.frame rfl rfl rfl (by simp) (by simp) rfl rfl (hupdate (by rw [hk]; decide) hf)
      (hopen id)
  | submitted o code task hst hk hclaim =>
    refine h.frame rfl rfl rfl (fun _ => .inl hst) (fun _ _ => by rw [hst]; decide) rfl rfl
      (fun g => claimed_other g) fun g hg => ?_
    rw [← claimed_isOpen]
    exact hg
  | closing o f code hst hk hf ho hread hwrite =>
    exact h.frame rfl rfl rfl (fun _ => .inl hst) (fun _ _ => by rw [hst]; decide) rfl rfl
      (hupdate (by rw [hk]; decide) hf) (hopen fun _ => ho)
  | joined o f hst hk hf hactive =>
    exact h.frame rfl rfl rfl (fun _ => .inl hst) (fun _ _ => by rw [hst]; decide) rfl rfl
      (hupdate (by rw [hk]; decide) hf) (hopen id)
  | opened o f status hstack hn hk hf hs =>
    refine h.opened ((hops.story o).native hn) hk hf (fun p hp => Function.update_of_ne hp ..) ?_ ?_
      rfl rfl rfl
    · dsimp only
      rw [Function.update_self]
    · dsimp only
      rw [Function.update_self]
  | answered o status addresses hstack hn hk hfail hnone =>
    refine h.frame rfl rfl rfl (by simp) (by simp) rfl rfl (fun g => claimed_other g) fun g hg => ?_
    rw [← claimed_isOpen]
    exact hg
  | closed o f status hstack hn hk hf =>
    refine h.frame (o := o) (Function.update_eq_self ..).symm rfl rfl id (fun h1 h2 => ⟨h1, h2⟩) rfl
      rfl (hupdate (by rw [hk]; decide) hf) (hopen fun hx => ?_)
    cases (FileState.isOpen_iff.mp hx).1

/-! ## How a request ends -/

/-- What may happen to the operation `o` after `past`:

* libuv calls back once, and the request is cleaned up once;
* a request other than a close is resumed once: right after its callback and its cleanup, with the
  status of the callback;
* the file of a successful open is handed over right after that;
* a list of addresses is freed once. -/
def RequestLaw (o : Op) (past : List Event) : Event → Prop
  | .completed p _ _ => p = o → ∀ status a, .completed o status a ∉ past
  | .cleanup p => p = o → .cleanup o ∉ past
  | .resumed p k f code => p = o → k ≠ .close → (∀ k' f' c, .resumed o k' f' c ∉ past) ∧
      ∃ l a, past = l ++ .completed o code a :: cleaned o k ∧ .submitted o k f ∈ l
  | .handed p f => p = o → ∃ l status, past = l ++ [.resumed o .openFile f status] ∧ 0 ≤ status
  | .freed p a => p = o → (∀ b, .freed o b ∉ past) ∧ ∃ status, .completed o status (some a) ∈ past
  | _ => True

/-- as long as libuv has the request nothing ended -/
theorem Ops.not_done (h : Ops w) (hn : w.native o = true) :
    (∀ status a, .completed o status a ∉ w.log) ∧ .cleanup o ∉ w.log ∧
      ∀ k f code, .resumed o k f code ∉ w.log := by
  have hw := ((h.story o).of_suspended ((h.story o).native hn)).waiting
  have hno : ∀ e : Event, e.op = o → e ∉ trace Event.about w.log o → e ∉ w.log := by
    rintro e rfl he hmem
    exact he (mem_trace_op.mpr hmem)
  refine ⟨fun status a => hno _ rfl ?_, hno _ rfl ?_, fun k f code => hno _ rfl hw.not_resumed⟩
  · cases hw with
    | request _ _ m ht => rw [ht]; simp [pending]
    | closing _ _ ht => rw [ht]; simp
    | joined _ hn' | closed _ hn' => rw [hn] at hn'; cases hn'
  · cases hw with
    | request _ _ m ht => rw [ht]; simp [pending]
    | closing _ _ ht => rw [ht]; simp
    | joined _ hn' | closed _ hn' => rw [hn] at hn'; cases hn'

/-- nothing was cleaned up for a new operation -/
theorem Ops.not_cleaned (h : Ops w) (hst : (w.op o).status = .made) : .cleanup o ∉ w.log := by
  intro hmem
  have hmem : .cleanup o ∈ trace Event.about w.log o := mem_trace_op.mpr hmem
  rw [((h.story o).of_made hst).2.2.2.2] at hmem
  cases hmem

theorem Settled.not_freed {k : Kind} {a : Option Nat} {t : List Event} (h : Settled o k a t)
    (b : Nat) : .freed o b ∉ t := by
  cases h with
  | ended f code es hes ha ht =>
    rw [ht]
    cases hes with
    | none => simp
    | rejected hk => cases k <;> simp [cleaned]
  | answered hk f m status hfail ha ht => rw [ht]; cases k <;> simp [pending, cleaned]
  | opened hk f m status hs ha ht => rw [ht]; simp [pending]
  | refused _ _ _ _ ht | threw _ ht | joined _ _ _ _ ht | closed _ _ _ _ _ ht => rw [ht]; simp

theorem Settled.addresses {k : Kind} {a : Nat} {t : List Event} (h : Settled o k (some a) t) :
    ∃ status, .completed o status (some a) ∈ t := by
  cases h with
  | answered hk f m status hfail ha ht => exact ⟨status, by rw [ht]; simp⟩
  | ended _ _ _ _ ha | refused _ _ _ ha | threw ha | opened _ _ _ _ _ ha | joined _ _ _ ha
  | closed _ _ _ _ ha => cases ha

/-- the events of a request that libuv completes, up to its resumption -/
theorem Ops.follows (h : Ops w) (hn : w.native o = true) (hk : (w.op o).kind ≠ .close) (q : Op)
    {status : Int} {a : Option Nat} {es : List Event}
    (hes : Follows (RequestLaw q) (w.log ++ (.completed o status a :: cleaned o (w.op o).kind ++
      [.resumed o (w.op o).kind (w.op o).file status])) es) :
    Follows (RequestLaw q) w.log (.completed o status a :: cleaned o (w.op o).kind ++
      [.resumed o (w.op o).kind (w.op o).file status] ++ es) := by
  obtain ⟨hcomp, hclean, hres⟩ := h.not_done hn
  obtain ⟨-, m, ht⟩ := ((h.story o).of_suspended ((h.story o).native hn)).waiting.native hk
  have hsub : .submitted o (w.op o).kind (w.op o).file ∈ w.log := by
    refine mem_trace_op.mp ?_
    show _ ∈ trace Event.about w.log o
    rw [ht]
    exact List.mem_cons_self
  have hresumed : RequestLaw q (w.log ++ (.completed o status a :: cleaned o (w.op o).kind))
      (.resumed o (w.op o).kind (w.op o).file status) := by
    rintro rfl -
    refine ⟨fun k' f' c hmem => ?_, w.log, a, rfl, hsub⟩
    rcases List.mem_append.mp hmem with hmem | hmem
    · exact hres k' f' c hmem
    · cases hkind : (w.op o).kind <;> rw [hkind] at hmem <;> simp [cleaned] at hmem
  have hcleanup : RequestLaw q (w.log ++ [.completed o status a]) (.cleanup o) := by
    rintro rfl hmem
    rcases List.mem_append.mp hmem with hmem | hmem
    · exact hclean hmem
    · simp at hmem
  refine ⟨fun heq => heq ▸ hcomp, ?_⟩
  cases hkind : (w.op o).kind <;> rw [hkind] at hresumed hes <;> first
    | exact ⟨hcleanup, by simpa [cleaned] using hresumed, by simpa [cleaned] using hes⟩
    | exact ⟨by simpa [cleaned] using hresumed, by simpa [cleaned] using hes⟩

theorem Form.request_law (hform : Form w w') (hops : Ops w) (q : Op)
    (hl : Lawful (RequestLaw q) w.log) : Lawful (RequestLaw q) w'.log := by
  cases hform with
  | runs | owners | made | rested => exact hl
  | ended o code i es hst hes hcode =>
    have hcleanup : ∀ k f, RequestLaw q (w.log ++ [.rejected o k f]) (.cleanup o) := by
      rintro k f rfl hmem
      rcases List.mem_append.mp hmem with hmem | hmem
      · exact hops.not_cleaned hst hmem
      · simp at hmem
    cases hes with
    | none => exact hl.append ⟨trivial, trivial⟩
    | rejected hk =>
      dsimp only
      cases hkind : (w.op o).kind <;> first
        | exact hl.append ⟨trivial, hcleanup _ _, trivial, trivial⟩
        | exact hl.append ⟨trivial, trivial, trivial⟩
  | threw | joined | asked => exact hl.append ⟨trivial, trivial⟩
  | refused o f code hst hk hf hopen =>
    refine hl.append ⟨trivial, ?_, trivial, trivial⟩
    rintro rfl hmem
    rcases List.mem_append.mp hmem with hmem | hmem
    · exact hops.not_cleaned hst hmem
    · simp at hmem
  | submitted | closing => exact hl.append ⟨trivial, trivial, trivial⟩
  | opened o f status hstack hn hk hf hs =>
    have hes : Follows (RequestLaw q) (w.log ++ (.completed o status none ::
        cleaned o (w.op o).kind ++ [.resumed o (w.op o).kind (w.op o).file status]))
        [.handed o (some f)] := by
      refine ⟨?_, trivial⟩
      rintro rfl
      refine ⟨w.log ++ [.completed o status none, .cleanup o], status, ?_, hs⟩
      simp [hk, hf, cleaned]
    have hfollows := hops.follows hn (by rw [hk]; decide) q hes
    rw [hk, hf] at hfollows
    exact hl.append hfollows
  | answered o status addresses hstack hn hk hfail hnone =>
    have hnil : Follows (RequestLaw q) (w.log ++ (.completed o status addresses ::
        cleaned o (w.op o).kind ++ [.resumed o (w.op o).kind (w.op o).file status])) [] := trivial
    have hfollows := hops.follows hn hk q hnil
    rw [List.append_nil] at hfollows
    exact hl.append hfollows
  | closed o f status hstack hn hk hf =>
    obtain ⟨hcomp, hclean, -⟩ := hops.not_done hn
    refine hl.append ⟨fun heq => heq ▸ hcomp, ?_, trivial⟩
    rintro rfl hmem
    rcases List.mem_append.mp hmem with hmem | hmem
    · exact hclean hmem
    · simp at hmem
  | delivered f o status k hstack hst hk hf hn =>
    exact hl.append ⟨fun _ hne => absurd rfl hne, trivial⟩
  | dropped o hst =>
    dsimp only
    cases ha : (w.op o).addresses with
    | none =>
      rw [Option.map_none, Option.toList_none, List.append_nil]
      exact hl
    | some a =>
      refine hl.append ⟨?_, trivial⟩
      rintro rfl
      rcases hst with hst | hst
      · rw [((hops.story o).of_made hst).2.1] at ha
        cases ha
      · have hset := ((hops.story o).of_finished hst).2
        refine ⟨fun b hmem => hset.not_freed b (mem_trace_op.mpr hmem), ?_⟩
        rw [ha] at hset
        obtain ⟨status, hmem⟩ := hset.addresses
        exact ⟨status, mem_trace_op.mp hmem⟩

/-! ## All runs -/

theorem Settled.completed_eq {k : Kind} {a b : Option Nat} {t : List Event} {status : Int}
    (h : Settled o k a t) (hc : .completed o status b ∈ t) : b = a := by
  cases h with
  | ended f code es hes ha ht =>
    rw [ht] at hc
    rcases List.mem_append.mp hc with hc | hc
    · exact absurd hc hes.not_completed
    · simp at hc
  | answered hk f m status' hfail ha ht =>
    rw [ht] at hc
    cases k <;> simp [pending, cleaned] at hc <;> exact hc.2
  | opened hk f m status' hs ha ht =>
    rw [ht] at hc
    rw [ha]
    simp [pending] at hc
    exact hc.2
  | closed hk f status' status'' ha ht =>
    rw [ht] at hc
    rw [ha]
    simp at hc
    exact hc.2
  | refused _ _ _ _ ht | threw _ ht | joined _ _ _ _ ht => rw [ht] at hc; simp at hc

/-- a list of addresses that libuv returned is in the awaiter, or freed -/
theorem Ops.freed (h : Ops w) {status : Int} {a : Nat}
    (hc : .completed o status (some a) ∈ w.log) :
    (w.op o).status = .finished ∧ (w.op o).addresses = some a ∨
      (w.op o).status = .gone ∧ .freed o a ∈ w.log := by
  have hc : .completed o status (some a) ∈ trace Event.about w.log o := mem_trace_op.mpr hc
  cases h.story o with
  | fresh _ _ _ ht | made _ _ _ _ _ ht => rw [ht] at hc; cases hc
  | suspended _ _ _ _ _ _ hw =>
    cases hw with
    | request _ _ m ht => rw [ht] at hc; simp [pending] at hc
    | closing _ _ ht | joined _ _ ht | closed _ _ _ ht => rw [ht] at hc; simp at hc
  | finished hst _ ht => exact .inl ⟨hst, (ht.completed_eq hc).symm⟩
  | gone hst _ s hs ht =>
    right
    refine ⟨hst, mem_trace_op.mp ?_⟩
    show _ ∈ trace Event.about w.log o
    rw [ht] at hc ⊢
    rcases List.mem_append.mp hc with hc | hc
    · rcases hs with hs | ⟨rfl, -⟩
      · rw [← hs.completed_eq hc]
        simp
      · cases hc
    · obtain ⟨b, -, h'⟩ := Option.map_eq_some_iff.mp (Option.mem_toList.mp hc)
      cases h'

theorem Form.handed (hform : Form w w') (hops : Ops w) (hb : Births w) {f : Option File}
    {status : Int} (hin : .resumed o .openFile f status ∈ w'.log)
    (hnot : .resumed o .openFile f status ∉ w.log) (hs : 0 ≤ status) :
    ∃ g, f = some g ∧ .handed o f ∈ w'.log ∧ w'.holds (.result o) = some g ∧
      (w'.file g).descriptor = status ∧ (w'.file g).isOpen = true := by
  cases hform with
  | runs | owners | made | rested => exact absurd hin hnot
  | ended p code' i es hst hes hcode =>
    have hin := (List.mem_append.mp hin).resolve_left hnot
    cases hes with
    | none => simp at hin
    | rejected hk' =>
      cases hkind : (w.op p).kind <;> rw [hkind] at hin <;> simp [cleaned] at hin
  | opened p g status' hstack hn hk hf hs' =>
    have hin := (List.mem_append.mp hin).resolve_left hnot
    obtain ⟨rfl, rfl, rfl⟩ : o = p ∧ f = some g ∧ status = status' := by simpa using hin
    -- the state was blank until now
    obtain ⟨hblank, -, -⟩ := hb.unborn o g ⟨hk, .inr ((hops.story o).native hn), hf⟩
    refine ⟨g, rfl, by simp, Function.update_self .., ?_, ?_⟩
    · dsimp only
      rw [Function.update_self]
    · dsimp only
      rw [Function.update_self, hblank]
      exact FileState.isOpen_iff.mpr ⟨hs, rfl, rfl⟩
  | answered p status' addresses hstack hn hk hfail hnone =>
    have hin := (List.mem_append.mp hin).resolve_left hnot
    obtain ⟨rfl, hkind, -, rfl⟩ : o = p ∧ .openFile = (w.op p).kind ∧ f = (w.op p).file ∧
        status = status' := by
      rcases List.mem_append.mp hin with hin | hin
      · cases hkind : (w.op p).kind <;> rw [hkind] at hin <;> simp [cleaned] at hin
      · simpa using hin
    exact absurd hs (not_le.mpr (hfail hkind.symm))
  | dropped p hst =>
    have hin := (List.mem_append.mp hin).resolve_left hnot
    obtain ⟨a, -, h'⟩ := Option.map_eq_some_iff.mp (Option.mem_toList.mp hin)
    cases h'
  | threw | refused | submitted | closing | joined | asked | closed | delivered =>
    have hin := (List.mem_append.mp hin).resolve_left hnot
    simp at hin

/-- The contract of the requests. -/
structure RequestContract (w : World) : Prop where
  lawful : ∀ o, Lawful (RequestLaw o) w.log
  /-- until it is resumed libuv has the request, and the awaiter its copies and its claim -/
  retained : ∀ o, (w.op o).status = .suspended → (w.op o).kind ≠ .close →
    w.native o = true ∧ (w.op o).submitted = true ∧ (w.op o).inputs = (w.op o).kind.copies ∧
      ((w.op o).kind.transfers = true → ∃ f, (w.op o).file = some f ∧
        (w.file f).active (w.op o).kind = true) ∧
      .cleanup o ∉ w.log ∧ ∀ k f code, .resumed o k f code ∉ w.log
  /-- a coroutine that runs again is registered nowhere -/
  unregistered : ∀ o c, (w.op o).status ≠ .suspended → (o, ()) ∉ (w.stops c).regs
  /-- addresses are in the awaiter until it frees them -/
  addresses : ∀ o status a, .completed o status (some a) ∈ w.log →
    (w.op o).status = .finished ∧ (w.op o).addresses = some a ∨
      (w.op o).status = .gone ∧ .freed o a ∈ w.log
  /-- a descriptor goes to the returned file -/
  handed : ∀ a w', step w a = some w' → ∀ o f status, .resumed o .openFile f status ∈ w'.log →
    .resumed o .openFile f status ∉ w.log → 0 ≤ status →
      ∃ g, f = some g ∧ .handed o f ∈ w'.log ∧ w'.holds (.result o) = some g ∧
        (w'.file g).descriptor = status ∧ (w'.file g).isOpen = true
  /-- and stays with an owner until it is closed -/
  kept : ∀ f, (w.file f).isOpen = true → ∃ x, w.holds x = some f

/-- For every run, whenever a stop comes and whatever libuv makes of it: an accepted request is
resumed by its callback alone, once, with its status, and owned until then. -/
theorem request_contract (as : List Act) (w : World) (hr : sys.run sys.init as = some w) :
    RequestContract w := by
  have h : Inv w := run_inv hr
  have hrun : Inv w ∧ Births w ∧ ∀ o, Lawful (RequestLaw o) w.log := by
    refine Sys.run_inv (S := sys)
      (P := fun w => Inv w ∧ Births w ∧ ∀ o, Lawful (RequestLaw o) w.log) (fun w a w' h hs => ?_)
      ⟨Inv.init, Births.init, fun _ => lawful_nil⟩ hr
    have hf := step_form (sound h.1.ops h.1.files) hs
    exact ⟨step_inv h.1 hs, hf.births h.1.ops h.2.1, fun o => hf.request_law h.1.ops o (h.2.2 o)⟩
  obtain ⟨-, hb, hlaw⟩ := hrun
  refine ⟨hlaw, fun o hst hk => ?_, fun o c hst => h.ops.unknown hst,
    fun o status a hc => h.ops.freed hc,
    fun a w' hs o f status hin hnot h0 =>
      (step_form (sound h.ops h.files) hs).handed h.ops hb hin hnot h0, hb.kept⟩
  have hkept := (h.ops.story o).of_suspended hst
  have hn := (hkept.waiting.native hk).1
  obtain ⟨-, hclean, hres⟩ := h.ops.not_done hn
  refine ⟨hn, hkept.submitted.mpr hk, hkept.inputs, fun ht => ?_, hclean, hres⟩
  obtain ⟨f, hf⟩ := hkept.file fun hr => by rw [hr] at ht; cases ht
  exact ⟨f, hf, (h.files.claims.active f _ ht).mpr ⟨o, hn, rfl, hf⟩⟩

/-- An open and a resolve are stopped; libuv cancels the resolve and opens the file all the same.
A second resolve gets a list of addresses. -/
def stoppedRun : List Act :=
  [.enter, .make { op := 0, kind := .openFile, newFile := 7 }, .await { op := 0, task := some 0 },
    .make { op := 1, kind := .resolve }, .await { op := 1, task := some 0 },
    .make { op := 2, kind := .resolve }, .await { op := 2, task := some 1 }, .requestStop 0, .tick,
    .tick, .tick, .ret, .complete 0 3 none, .ret, .complete 1 (-3003) none, .drop 1, .ret,
    .complete 2 0 (some 8), .drop 2]

theorem request_contract_stoppedRun : ∃ w, sys.run sys.init stoppedRun = some w ∧
    w.log.drop 6 = [.cancelAsked 1, .cancelAsked 0, .completed 0 3 none, .cleanup 0,
      .resumed 0 .openFile (some 7) 3, .handed 0 (some 7), .completed 1 (-3003) none,
      .resumed 1 .resolve none (-3003), .completed 2 0 (some 8), .resumed 2 .resolve none 0,
      .freed 2 8] ∧ w.holds (.result 0) = some 7 ∧ RequestContract w :=
  ⟨_, rfl, rfl, rfl, request_contract stoppedRun _ rfl⟩

end

end Pool
