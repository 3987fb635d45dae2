import Uvpp.Machine.Ring
import Uvpp.Pool.Story

/-!
# The files

* `Claims`     `read_active` and `write_active` are set as long as libuv has such a request for the
               file, and it has at most one of each;
* `Closes`     the same for `close_active`; the list of the file holds the suspended closes;
* `Apart`      a close and a transfer never meet;
* `Records`    what the history says about the closes of a file.

The list of a file starts at `close_waiters` or, once the close is complete, at the awaiter that
the delivery comes to next: `World.head`.
-/

namespace Pool

/-- libuv has the request `o` of the kind `k` for the file `f` -/
structure Flying (w : World) (o : Op) (k : Kind) (f : File) : Prop where
  native : w.native o = true
  kind : (w.op o).kind = k
  file : (w.op o).file = some f

/-- the close `o` of `f` is suspended -/
structure Closer (w : World) (o : Op) (f : File) : Prop where
  status : (w.op o).status = .suspended
  kind : (w.op o).kind = .close
  file : (w.op o).file = some f

theorem Closer.iff_op {w : World} {o : Op} {f : File} : Closer w o f ↔
    (w.op o).status = .suspended ∧ (w.op o).kind = .close ∧ (w.op o).file = some f :=
  ⟨fun h => ⟨h.status, h.kind, h.file⟩, fun h => ⟨h.1, h.2.1, h.2.2⟩⟩

/-- the first awaiter of `f` that is still to be resumed -/
def World.head (w : World) (f : File) : Option Op :=
  match (deliveries w.stack).find? fun d => d.1 = f with
  | none => (w.file f).closeWaiters
  | some d => d.2.1

def FileState.closePart (x : FileState) : Bool × Bool × Int × Option Op :=
  (x.closeActive, x.closeComplete, x.closeStatus, x.closeWaiters)

structure Claims (w : World) : Prop where
  active : ∀ f k, k.transfers = true → ((w.file f).active k = true ↔ ∃ o, Flying w o k f)
  one : ∀ o p k f, k.transfers = true → Flying w o k f → Flying w p k f → o = p

structure Closes (w : World) : Prop where
  active : ∀ f, (w.file f).closeActive = true ↔ ∃ o, Flying w o .close f
  one : ∀ o p f, Flying w o .close f → Flying w p .close f → o = p
  once : ∀ f, (w.file f).closeActive = true → (w.file f).closeComplete = false
  idle : ∀ f, (w.file f).closeActive = false → (w.file f).closeWaiters = none
  delivering : ∀ f waiter status, (f, waiter, status) ∈ deliveries w.stack →
    (w.file f).closeComplete = true ∧ (w.file f).closeStatus = status
  single : (deliveries w.stack).length ≤ 1
  listed : ∀ f, ∃ l, Linked (fun o => (w.op o).next) (w.head f) l ∧ l.Nodup ∧
    ∀ o, o ∈ l ↔ Closer w o f

/-- from its start on a close is alone -/
def Apart (w : World) : Prop :=
  ∀ f k, (w.file f).closeActive = true ∨ (w.file f).closeComplete = true →
    (w.file f).active k = false

section
variable {w w' : World} {o : Op} {f : File} {k : Kind}

theorem FileState.isOpen_iff {x : FileState} :
    x.isOpen = true ↔ 0 ≤ x.descriptor ∧ x.closeActive = false ∧ x.closeComplete = false := by
  simp [FileState.isOpen, and_assoc]

theorem FileState.active_setActive (x : FileState) (b : Bool) {k k' : Kind}
    (hk : k.transfers = true) : (x.setActive b k').active k = if k' = k then b else x.active k := by
  cases k with
  | read => cases k' <;> rfl
  | write => cases k' <;> rfl
  | openFile => cases hk
  | close => cases hk
  | resolve => cases hk

theorem Flying.iff_op : Flying w o k f ↔
    w.native o = true ∧ (w.op o).kind = k ∧ (w.op o).file = some f :=
  ⟨fun h => ⟨h.native, h.kind, h.file⟩, fun h => ⟨h.1, h.2.1, h.2.2⟩⟩

theorem flying_congr (hn : w'.native o = w.native o) (hk : (w'.op o).kind = (w.op o).kind)
    (hf : (w'.op o).file = (w.op o).file) : Flying w' o k f ↔ Flying w o k f := by
  rw [Flying.iff_op, Flying.iff_op, hn, hk, hf]

theorem closer_congr (ho : w'.op o = w.op o) : Closer w' o f ↔ Closer w o f := by
  rw [Closer.iff_op, Closer.iff_op, ho]

theorem Claims.frame (h : Claims w)
    (hactive : ∀ f k, k.transfers = true → (w'.file f).active k = (w.file f).active k)
    (hfly : ∀ o k f, k.transfers = true → (Flying w' o k f ↔ Flying w o k f)) : Claims w' where
  active f k hk := by
    rw [hactive f k hk, h.active f k hk]
    exact exists_congr fun o => (hfly o k f hk).symm
  one o p k f hk ho hp := h.one o p k f hk ((hfly o k f hk).mp ho) ((hfly p k f hk).mp hp)

theorem Closes.frame (h : Closes w) (hfile : ∀ f, (w'.file f).closePart = (w.file f).closePart)
    (hfly : ∀ o f, Flying w' o .close f ↔ Flying w o .close f)
    (hcloser : ∀ o f, Closer w' o f ↔ Closer w o f)
    (hnext : ∀ o f, Closer w o f → (w'.op o).next = (w.op o).next)
    (hd : deliveries w'.stack = deliveries w.stack) : Closes w' := by
  simp only [FileState.closePart, Prod.mk.injEq] at hfile
  refine ⟨fun f => ?_, fun o p f ho hp => ?_, fun f ha => ?_, fun f ha => ?_, ?_, ?_, fun f => ?_⟩
  · rw [(hfile f).1, h.active f]
    exact exists_congr fun o => (hfly o f).symm
  · exact h.one o p f ((hfly o f).mp ho) ((hfly p f).mp hp)
  · rw [(hfile f).2.1]
    exact h.once f (by rw [← (hfile f).1]; exact ha)
  · rw [(hfile f).2.2.2]
    exact h.idle f (by rw [← (hfile f).1]; exact ha)
  · intro f waiter status hm
    rw [(hfile f).2.1, (hfile f).2.2.1]
    exact h.delivering f waiter status (by rw [← hd]; exact hm)
  · rw [hd]
    exact h.single
  · obtain ⟨l, hl, hnd, hmem⟩ := h.listed f
    refine ⟨l, ?_, hnd, fun o => (hmem o).trans (hcloser o f).symm⟩
    have hhead : w'.head f = w.head f := by
      unfold World.head
      rw [hd, (hfile f).2.2.2]
    rw [hhead]
    exact hl.frame fun o ho => hnext o f ((hmem o).mp ho)

/-- The step changes nothing that concerns the files: an operation that libuv does not have, and
that is not suspended before or after. -/
structure Unseen (w w' : World) (o : Op) : Prop where
  file : w'.file = w.file
  stack : deliveries w'.stack = deliveries w.stack
  native : w'.native = w.native
  op : ∀ p, p ≠ o → w'.op p = w.op p
  flying : w.native o = false
  before : (w.op o).status ≠ .suspended
  after : (w'.op o).status ≠ .suspended

theorem Unseen.flying_iff (h : Unseen w w' o) {p : Op} : Flying w' p k f ↔ Flying w p k f := by
  by_cases hp : p = o
  · subst hp
    rw [Flying.iff_op, Flying.iff_op, h.native, h.flying]
    simp
  · exact flying_congr (by rw [h.native]) (by rw [h.op p hp]) (by rw [h.op p hp])

theorem Unseen.closer_iff (h : Unseen w w' o) {p : Op} : Closer w' p f ↔ Closer w p f := by
  by_cases hp : p = o
  · subst hp
    exact ⟨fun h' => absurd h'.status h.after, fun h' => absurd h'.status h.before⟩
  · exact closer_congr (h.op p hp)

theorem Unseen.claims (h : Unseen w w' o) (hw : Claims w) : Claims w' :=
  hw.frame (fun f k _ => by rw [h.file]) fun p k f _ => h.flying_iff

theorem Unseen.closes (h : Unseen w w' o) (hw : Closes w) : Closes w' := by
  refine hw.frame (fun f => by rw [h.file]) (fun p f => h.flying_iff) (fun p f => h.closer_iff)
    (fun p f hp => ?_) h.stack
  rw [h.op p]
  rintro rfl
  exact h.before hp.status

theorem Unseen.apart (h : Unseen w w' o) (hw : Apart w) : Apart w' := by
  intro f k
  rw [h.file]
  exact hw f k

/-! ## Requests that come and go -/

/-- libuv gets the request `o` -/
theorem flying_start (hn : w.native o = false) (hnative : w'.native = Function.update w.native o true)
    (hkind : ∀ p, (w'.op p).kind = (w.op p).kind) (hfile : ∀ p, (w'.op p).file = (w.op p).file)
    {p : Op} : Flying w' p k f ↔ p = o ∧ (w.op o).kind = k ∧ (w.op o).file = some f ∨
      Flying w p k f := by
  rw [Flying.iff_op, Flying.iff_op, hnative, hkind, hfile]
  by_cases hp : p = o
  · subst hp
    simp [hn]
  · simp [hp]

/-- libuv calls back for the request `o` -/
theorem flying_stop (hnative : w'.native = Function.update w.native o false)
    (hop : ∀ p, p ≠ o → w'.op p = w.op p) {p : Op} :
    Flying w' p k f ↔ p ≠ o ∧ Flying w p k f := by
  rw [Flying.iff_op, Flying.iff_op, hnative]
  by_cases hp : p = o
  · subst hp
    simp
  · simp [hp, hop p hp]

theorem claimed_closePart {file : File → FileState} {b : Bool} {g : Option File} :
    (claimed file k b g f).closePart = (file f).closePart := by
  cases g with
  | none => rfl
  | some g =>
    by_cases hfg : f = g
    · subst hfg
      simp only [claimed, Function.update_self]
      cases k <;> rfl
    · simp only [claimed, Function.update_of_ne hfg]

theorem active_claimed {file : File → FileState} {k' : Kind} {b : Bool} {g : Option File}
    (hk : k.transfers = true) :
    (claimed file k' b g f).active k = if g = some f ∧ k' = k then b else (file f).active k := by
  cases g with
  | none => simp [claimed]
  | some g =>
    by_cases hfg : f = g
    · subst hfg
      simp [claimed, FileState.active_setActive _ b hk]
    · have hgf : g ≠ f := fun h => hfg h.symm
      simp [claimed, hfg, hgf]

/-- What the files are about, together. -/
structure Files (w : World) : Prop where
  claims : Claims w
  closes : Closes w
  apart : Apart w

theorem Files.init : Files {} := by
  have hno : ∀ {o : Op} {k : Kind} {f : File}, ¬ Flying {} o k f := fun h => by cases h.native
  refine ⟨⟨fun f k hk => ?_, fun o p k f _ h => absurd h hno⟩, ⟨fun f => ?_,
    fun o p f h => absurd h hno, nofun, fun _ _ => rfl, nofun, by decide, fun f => ?_⟩, ?_⟩
  · refine ⟨fun h => ?_, fun ⟨o, h⟩ => absurd h hno⟩
    cases k <;> cases h
  · exact ⟨nofun, fun ⟨o, h⟩ => absurd h hno⟩
  · exact ⟨[], rfl, List.nodup_nil, fun o => ⟨nofun, fun h => by cases h.status⟩⟩
  · intro f k h
    cases k <;> rfl

theorem Files.unseen (h : Files w) (hu : Unseen w w' o) : Files w' :=
  ⟨hu.claims h.claims, hu.closes h.closes, hu.apart h.apart⟩

/-- the step changes neither a file nor an operation nor what libuv has -/
theorem Files.congr (h : Files w) (hfile : w'.file = w.file) (ho : w'.op = w.op)
    (hn : w'.native = w.native) (hd : deliveries w'.stack = deliveries w.stack) : Files w' where
  claims := h.claims.frame (fun f k _ => by rw [hfile]) fun o k f _ =>
    flying_congr (by rw [hn]) (by rw [ho]) (by rw [ho])
  closes := h.closes.frame (fun f => by rw [hfile])
    (fun o f => flying_congr (by rw [hn]) (by rw [ho]) (by rw [ho]))
    (fun o f => closer_congr (by rw [ho])) (fun o f _ => by rw [ho]) hd
  apart f k := by
    rw [hfile]
    exact h.apart f k

/-- The step is about a request `o` that is no close: the closes stay, and it remains to say what
becomes of the claims. -/
theorem Files.noClose (h : Files w) (hclaims : Claims w') (hk : (w.op o).kind ≠ .close)
    (hop : ∀ p, p ≠ o → w'.op p = w.op p) (hkind : (w'.op o).kind = (w.op o).kind)
    (hnative : ∀ p, p ≠ o → w'.native p = w.native p)
    (hpart : ∀ f, (w'.file f).closePart = (w.file f).closePart)
    (hactive : ∀ f k, k.transfers = true → (w'.file f).active k = true →
      (w.file f).active k = true ∨ (w.file f).isOpen = true)
    (hd : deliveries w'.stack = deliveries w.stack) : Files w' := by
  have hself : ∀ {p}, (w.op p).kind = .close → p ≠ o := by
    rintro p hp rfl
    exact hk hp
  have hself' : ∀ {p}, (w'.op p).kind = .close → p ≠ o := by
    rintro p hp rfl
    exact hk (hkind.symm.trans hp)
  have hfly : ∀ p, p ≠ o → ∀ f, Flying w' p .close f ↔ Flying w p .close f := fun p hp f =>
    flying_congr (hnative p hp) (by rw [hop p hp]) (by rw [hop p hp])
  refine ⟨hclaims, h.closes.frame hpart (fun p f => ?_) (fun p f => ?_) (fun p f hp => ?_) hd,
    fun f k hclose => Bool.eq_false_iff.mpr fun ha => ?_⟩
  · exact ⟨fun h' => (hfly p (hself' h'.kind) f).mp h', fun h' => (hfly p (hself h'.kind) f).mpr h'⟩
  · exact ⟨fun h' => (closer_congr (hop p (hself' h'.kind))).mp h',
      fun h' => (closer_congr (hop p (hself h'.kind))).mpr h'⟩
  · rw [hop p (hself hp.kind)]
  · have heq := hpart f
    simp only [FileState.closePart, Prod.mk.injEq] at heq
    rw [heq.1, heq.2.1] at hclose
    have hkt : k.transfers = true := by cases k <;> first | rfl | cases ha
    rcases hactive f k hkt ha with hold | hopen
    · rw [h.apart f k hclose] at hold
      cases hold
    · obtain ⟨-, hidle, hcomplete⟩ := FileState.isOpen_iff.mp hopen
      rw [hidle, hcomplete] at hclose
      simp at hclose

theorem Files.submitted (h : Files w) (hn : w.native o = false) (hk : (w.op o).kind ≠ .close)
    (hclaim : (w.op o).kind.transfers = true → ∃ f, (w.op o).file = some f ∧
      (w.file f).isOpen = true ∧ (w.file f).active (w.op o).kind = false)
    (hop : ∀ p, p ≠ o → w'.op p = w.op p) (hkind : (w'.op o).kind = (w.op o).kind)
    (hof : (w'.op o).file = (w.op o).file)
    (hfile : w'.file = claimed w.file (w.op o).kind true (w.op o).file)
    (hnative : w'.native = Function.update w.native o true) (hstack : w'.stack = w.stack) :
    Files w' := by
  have hsame : ∀ p, (w'.op p).kind = (w.op p).kind ∧ (w'.op p).file = (w.op p).file := fun p => by
    by_cases hp : p = o
    · rw [hp]
      exact ⟨hkind, hof⟩
    · rw [hop p hp]
      exact ⟨rfl, rfl⟩
  have hfly : ∀ {p k f}, Flying w' p k f ↔ p = o ∧ (w.op o).kind = k ∧ (w.op o).file = some f ∨
      Flying w p k f := flying_start hn hnative (fun p => (hsame p).1) fun p => (hsame p).2
  -- nobody flew where the claim is taken
  have hfree : ∀ k f, k.transfers = true → (w.op o).kind = k → (w.op o).file = some f →
      (w.file f).isOpen = true ∧ ∀ p, ¬ Flying w p k f := by
    rintro k f hk rfl hf
    obtain ⟨g, hg, hopen, hidle⟩ := hclaim hk
    obtain rfl : f = g := Option.some.inj (hf.symm.trans hg)
    refine ⟨hopen, fun p hp => ?_⟩
    rw [(h.claims.active f _ hk).mpr ⟨p, hp⟩] at hidle
    cases hidle
  refine h.noClose ⟨fun f k hk => ?_, fun p q k f hk hp hq => ?_⟩ hk hop hkind
    (fun p hp => by rw [hnative, Function.update_of_ne hp])
    (fun f => by rw [hfile, claimed_closePart]) (fun f k hkt ha => ?_) (by rw [hstack])
  · rw [hfile, active_claimed hk]
    split
    · rename_i hc
      exact ⟨fun _ => ⟨o, hfly.mpr (.inl ⟨rfl, hc.2, hc.1⟩)⟩, fun _ => rfl⟩
    · rename_i hc
      rw [h.claims.active f k hk]
      refine exists_congr fun p => ⟨fun hp => hfly.mpr (.inr hp), fun hp => ?_⟩
      exact (hfly.mp hp).resolve_left fun h' => hc ⟨h'.2.2, h'.2.1⟩
  · rcases hfly.mp hp with ⟨hpo, hpk, hpf⟩ | hp' <;> rcases hfly.mp hq with ⟨hqo, hqk, hqf⟩ | hq'
    · rw [hpo, hqo]
    · exact absurd hq' ((hfree k f hk hpk hpf).2 q)
    · exact absurd hp' ((hfree k f hk hqk hqf).2 p)
    · exact h.claims.one p q k f hk hp' hq'
  · rw [hfile, active_claimed hkt] at ha
    split at ha
    · rename_i hc
      exact .inr (hfree k f hkt hc.2 hc.1).1
    · exact .inl ha

theorem Files.answered (h : Files w) (hn : w.native o = true) (hk : (w.op o).kind ≠ .close)
    (hop : ∀ p, p ≠ o → w'.op p = w.op p) (hkind : (w'.op o).kind = (w.op o).kind)
    (hfile : w'.file = claimed w.file (w.op o).kind false (w.op o).file)
    (hnative : w'.native = Function.update w.native o false)
    (hd : deliveries w'.stack = deliveries w.stack) : Files w' := by
  have hfly : ∀ {p k f}, Flying w' p k f ↔ p ≠ o ∧ Flying w p k f := flying_stop hnative hop
  refine h.noClose ⟨fun f k hk => ?_, fun p q k f hk hp hq => ?_⟩ hk hop hkind
    (fun p hp => by rw [hnative, Function.update_of_ne hp])
    (fun f => by rw [hfile, claimed_closePart]) (fun f k hkt ha => ?_) hd
  · rw [hfile, active_claimed hk]
    split
    · -- the only one that flew is gone
      rename_i hc
      refine ⟨nofun, fun ⟨p, hp⟩ => ?_⟩
      obtain ⟨hpo, hp⟩ := hfly.mp hp
      exact absurd (h.claims.one p o k f hk hp ⟨hn, hc.2, hc.1⟩) hpo
    · rename_i hc
      rw [h.claims.active f k hk]
      refine exists_congr fun p => ⟨fun hp => hfly.mpr ⟨?_, hp⟩, fun hp => (hfly.mp hp).2⟩
      rintro rfl
      exact hc ⟨hp.file, hp.kind⟩
  · exact h.claims.one p q k f hk (hfly.mp hp).2 (hfly.mp hq).2
  · rw [hfile, active_claimed hkt] at ha
    split at ha
    · cases ha
    · exact .inl ha

theorem Files.opened (h : Files w) (hk : (w.op o).kind = .openFile)
    (hop : ∀ p, p ≠ o → w'.op p = w.op p) (hkind : (w'.op o).kind = (w.op o).kind) {status : Int}
    (hfile : w'.file = Function.update w.file f { w.file f with descriptor := status })
    (hnative : w'.native = Function.update w.native o false)
    (hd : deliveries w'.stack = deliveries w.stack) : Files w' := by
  have hsame : ∀ g, (w'.file g).closePart = (w.file g).closePart ∧
      ∀ k, (w'.file g).active k = (w.file g).active k := by
    rw [hfile]
    refine (Function.forall_update_iff w.file fun g x => x.closePart = (w.file g).closePart ∧
      ∀ k, x.active k = (w.file g).active k).mpr ⟨⟨rfl, fun k => ?_⟩, fun g _ => ⟨rfl, fun _ => rfl⟩⟩
    cases k <;> rfl
  refine h.noClose (h.claims.frame (fun g k _ => (hsame g).2 k) fun p k g hkt => ?_)
    (by rw [hk]; decide) hop hkind (fun p hp => by rw [hnative, Function.update_of_ne hp])
    (fun g => (hsame g).1) (fun g k _ ha => .inl ?_) hd
  · refine (flying_stop hnative hop).trans ⟨fun hp => hp.2, fun hp => ⟨?_, hp⟩⟩
    rintro rfl
    rw [← hp.kind, hk] at hkt
    cases hkt
  · rw [← (hsame g).2 k]
    exact ha

end

end Pool
