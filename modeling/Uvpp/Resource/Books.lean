import Mathlib.Data.List.Nodup
import Mathlib.Tactic.Common
import Uvpp.Resource.Model

/-!
# The books of a scope

What the records, the owners and the history have to do with each other, whatever the attempts are
doing.

* `adopted`, `retired`, `ids`   the owners taken over, given up, and still recorded;
* `Books`                       the invariant;
* `Books.*`                     each change of the model keeps it.
-/

namespace Resource

def Event.adopts : Event → Option Id
  | .adopted r => some r
  | _ => none

def Event.retires : Event → Option Id
  | .retired r => some r
  | _ => none

/-- the owners that were adopted, in order -/
def adopted (log : List Event) : List Id := log.filterMap Event.adopts

/-- the owners whose records were given up, in order -/
def retired (log : List Event) : List Id := log.filterMap Event.retires

/-- the owners with a record -/
def ids (l : List (Option Rec)) : List Id := l.filterMap (Option.map Rec.id)

section
variable (log : List Event) (e : Event) (es : List Event)

@[simp] theorem adopted_append : adopted (log ++ es) = adopted log ++ adopted es :=
  List.filterMap_append

@[simp] theorem retired_append : retired (log ++ es) = retired log ++ retired es :=
  List.filterMap_append

@[simp] theorem adopted_cons : adopted (e :: es) = e.adopts.toList ++ adopted es := by
  cases e <;> rfl

@[simp] theorem retired_cons : retired (e :: es) = e.retires.toList ++ retired es := by
  cases e <;> rfl

@[simp] theorem adopted_nil : adopted [] = [] := rfl
@[simp] theorem retired_nil : retired [] = [] := rfl

end

section
variable {l : List (Option Rec)} {i : Nat} {x y : Rec}

theorem ids_append (l m : List (Option Rec)) : ids (l ++ m) = ids l ++ ids m :=
  List.filterMap_append

theorem mem_ids {r : Id} : r ∈ ids l ↔ ∃ x, some x ∈ l ∧ x.id = r := by
  simp only [ids, List.mem_filterMap, Option.map_eq_some_iff]
  constructor
  · rintro ⟨o, ho, x, rfl, hx⟩
    exact ⟨x, ho, hx⟩
  · rintro ⟨x, ho, hx⟩
    exact ⟨some x, ho, x, rfl, hx⟩

/-- the list around an entry -/
theorem split_at (hi : l[i]? = some (some x)) (o : Option Rec) :
    ∃ a b, l = a ++ some x :: b ∧ l.set i o = a ++ o :: b := by
  obtain ⟨hlt, hget⟩ := List.getElem?_eq_some_iff.mp hi
  refine ⟨l.take i, l.drop (i + 1), ?_, List.set_eq_take_append_cons_drop.trans (if_pos hlt)⟩
  rw [← hget, List.getElem_cons_drop, List.take_append_drop]

theorem ids_set_none (hn : (ids l).Nodup) (hi : l[i]? = some (some x)) :
    ids (l.set i none) = (ids l).filter (· ≠ x.id) := by
  obtain ⟨a, b, hl, hs⟩ := split_at hi none
  have hids : ids l = ids a ++ x.id :: ids b := by rw [hl, ids_append]; rfl
  rw [hids] at hn ⊢
  obtain ⟨-, hb, hab⟩ := List.nodup_append.mp hn
  have ha : x.id ∉ ids a := fun hm => hab _ hm _ List.mem_cons_self rfl
  have hb' : x.id ∉ ids b := (List.nodup_cons.mp hb).1
  rw [hs, ids_append, List.filter_append, List.filter_cons_of_neg (by simp),
    List.filter_eq_self.mpr fun r hr => by simpa using ne_of_mem_of_not_mem hr ha,
    List.filter_eq_self.mpr fun r hr => by simpa using ne_of_mem_of_not_mem hr hb']
  rfl

theorem ids_set_same (hi : l[i]? = some (some x)) (hy : y.id = x.id) :
    ids (l.set i (some y)) = ids l := by
  obtain ⟨a, b, hl, hs⟩ := split_at hi (some y)
  rw [hs, hl, ids_append, ids_append]
  show _ ++ y.id :: _ = _ ++ x.id :: _
  rw [hy]

/-- with different names, the other entries of the list have other names -/
theorem mem_set {o : Option Rec} (hn : (ids l).Nodup) (hi : l[i]? = some (some x))
    (hy : some y ∈ l.set i o) : some y = o ∨ some y ∈ l ∧ y.id ≠ x.id := by
  obtain ⟨a, b, hl, hs⟩ := split_at hi o
  rw [hs] at hy
  have hids : ids l = ids a ++ x.id :: ids b := by rw [hl, ids_append]; rfl
  rw [hids] at hn
  obtain ⟨-, hb, hab⟩ := List.nodup_append.mp hn
  rcases List.mem_append.mp hy with hy | hy
  · refine .inr ⟨hl ▸ List.mem_append_left _ hy, fun he => ?_⟩
    exact hab x.id (mem_ids.mpr ⟨y, hy, he⟩) _ List.mem_cons_self rfl
  · rcases List.mem_cons.mp hy with hy | hy
    · exact .inl hy
    · refine .inr ⟨hl ▸ List.mem_append_right _ (List.mem_cons_of_mem _ hy), fun he => ?_⟩
      exact (List.nodup_cons.mp hb).1 (mem_ids.mpr ⟨y, hy, he⟩)

end

/-! ## the invariant -/

/-- what the history and the owner `r` have to do with each other -/
structure ResBooks (log : List Event) (r : Id) (x : Res) : Prop where
  submitted : log.count (.submitted r) = if x.native = .opened then 0 else 1
  completed : log.count (.completed r) = if x.native = .closed then 1 else 0
  invalidated : log.count (.invalidated r) = if x.holder = .gone then 1 else 0
  destroyed : log.count (.destroyed r) = if x.holder = .gone then 1 else 0
  caller : x.holder = .caller ↔ r ∉ adopted log
  gone : x.holder = .gone → x.native = .closed
  view : x.view = true ↔ x.holder = .scope
  active : x.active = true → x.native = .opened

/-- every owner was destroyed after its close was complete and its views were invalid -/
def Ordered (log : List Event) : Prop :=
  ∀ l r m, log = l ++ .destroyed r :: m → .completed r ∈ l ∧ .invalidated r ∈ l

theorem ordered_snoc {log : List Event} (h : Ordered log) {e : Event}
    (he : ∀ r, e = .destroyed r → .completed r ∈ log ∧ .invalidated r ∈ log) :
    Ordered (log ++ [e]) := by
  intro l r m heq
  rcases List.eq_nil_or_concat m with rfl | ⟨m', e', rfl⟩
  · obtain ⟨rfl, hlast⟩ := List.append_inj' heq rfl
    exact he r (List.cons.inj hlast).1
  · rw [List.concat_eq_append, ← List.cons_append, ← List.append_assoc] at heq
    exact h l r m' (List.append_inj' heq rfl).1

structure Books (w : World) : Prop where
  ordered : Ordered w.log
  res : ∀ r, ResBooks w.log r (w.res r)
  records : ids w.resources = (adopted w.log).filter (· ∉ retired w.log)
  nodup : (adopted w.log).Nodup
  retiredOnce : (retired w.log).Nodup
  retired : ∀ r ∈ retired w.log, (w.res r).holder = .gone
  released : ∀ x, some x ∈ w.resources → (x.released = true ↔ (w.res x.id).holder = .gone)

section
variable {w : World}

theorem Books.ids_nodup (h : Books w) : (ids w.resources).Nodup :=
  h.records ▸ h.nodup.filter _

theorem Books.init : Books {} where
  ordered := by simp [Ordered]
  res := fun r => by constructor <;> simp
  records := rfl
  nodup := List.nodup_nil
  retiredOnce := List.nodup_nil
  retired := nofun
  released := nofun

/-- the events that no book counts -/
def Event.quiet : Event → Bool
  | .notAdopted .. | .rejected _ | .nothingToDo | .began | .cleanup _ | .failed _ | .succeeded => true
  | _ => false

theorem ResBooks.quiet {log : List Event} {r : Id} {x : Res} (h : ResBooks log r x) {e : Event}
    (he : e.quiet) : ResBooks (log ++ [e]) r x := by
  obtain ⟨h1, h2, h3, h4, h5, h6, h7, h8⟩ := h
  cases e <;> first
    | exact ⟨by simpa using h1, by simpa using h2, by simpa using h3, by simpa using h4,
        by simpa [Event.adopts] using h5, h6, h7, h8⟩
    | cases he

theorem Books.quiet (h : Books w) {e : Event} (he : e.quiet) : Books (w.emit [e]) := by
  have ha : adopted (w.log ++ [e]) = adopted w.log := by
    cases e <;> first | (simp [Event.adopts]; done) | cases he
  have hr : Resource.retired (w.log ++ [e]) = Resource.retired w.log := by
    cases e <;> first | (simp [Event.retires]; done) | cases he
  refine ⟨ordered_snoc h.ordered ?_, fun r => (h.res r).quiet he, ?_, ?_, ?_, ?_, h.released⟩
  · rintro r rfl
    cases he
  · exact h.records.trans (by rw [World.emit, ha, hr])
  · exact ha ▸ h.nodup
  · exact hr ▸ h.retiredOnce
  · exact hr ▸ h.retired

/-- the owner that an event is about -/
def Event.subject : Event → Option Id
  | .adopted r | .submitted r | .completed r | .invalidated r | .destroyed r | .retired r => some r
  | _ => none

namespace ResBooks
variable {log : List Event} {r r' : Id} {x : Res}

/-- an event about another owner -/
theorem other (h : ResBooks log r x) {e : Event} (he : e.subject = some r') (hne : r ≠ r') :
    ResBooks (log ++ [e]) r x := by
  obtain ⟨h1, h2, h3, h4, h5, h6, h7, h8⟩ := h
  have hne' := hne.symm
  cases e <;> cases he <;>
    exact ⟨by simpa [List.count_singleton, hne'] using h1,
      by simpa [List.count_singleton, hne'] using h2,
      by simpa [List.count_singleton, hne'] using h3,
      by simpa [List.count_singleton, hne'] using h4,
      by simpa [Event.adopts, hne] using h5, h6, h7, h8⟩

theorem adopt (h : ResBooks log r x) (hx : x.holder = .caller) :
    ResBooks (log ++ [.adopted r]) r { x with holder := .scope, view := true } where
  submitted := by simpa using h.submitted
  completed := by simpa using h.completed
  invalidated := by simpa [hx] using h.invalidated
  destroyed := by simpa [hx] using h.destroyed
  caller := by simp [Event.adopts]
  gone := nofun
  view := ⟨fun _ => rfl, fun _ => rfl⟩
  active := h.active

theorem submit (h : ResBooks log r x) (hx : x.native = .opened) (ha : x.active = false) :
    ResBooks (log ++ [.submitted r]) r { x with native := .closing } where
  submitted := by simpa [hx] using h.submitted
  completed := by simpa [hx] using h.completed
  invalidated := by simpa using h.invalidated
  destroyed := by simpa using h.destroyed
  caller := by simpa [Event.adopts] using h.caller
  gone := fun hg => absurd (h.gone hg) (by rw [hx]; exact nofun)
  view := h.view
  active := fun hact => by rw [show x.active = true from hact] at ha; cases ha

theorem complete (h : ResBooks log r x) (hx : x.native = .closing) (s : Int) :
    ResBooks (log ++ [.completed r]) r { x with native := .closed, closeStatus := s } where
  submitted := by simpa [hx] using h.submitted
  completed := by simpa [hx] using h.completed
  invalidated := by simpa using h.invalidated
  destroyed := by simpa using h.destroyed
  caller := by simpa [Event.adopts] using h.caller
  gone := fun _ => rfl
  view := h.view
  active := fun hact => absurd (h.active hact) (by rw [hx]; exact nofun)

theorem leave (h : ResBooks log r x) (hx : x.holder = .scope) (hn : x.native = .closed) :
    ResBooks ((log ++ [.invalidated r]) ++ [.destroyed r]) r
      { x with holder := .gone, view := false } where
  submitted := by simpa using h.submitted
  completed := by simpa using h.completed
  invalidated := by simpa [hx] using h.invalidated
  destroyed := by simpa [hx] using h.destroyed
  caller := by
    have hc := h.caller
    rw [hx] at hc
    simpa [Event.adopts] using hc
  gone := fun _ => hn
  view := by simp
  active := h.active

theorem retire (h : ResBooks log r x) : ResBooks (log ++ [.retired r]) r x where
  submitted := by simpa using h.submitted
  completed := by simpa using h.completed
  invalidated := by simpa using h.invalidated
  destroyed := by simpa using h.destroyed
  caller := by simpa [Event.adopts] using h.caller
  gone := h.gone
  view := h.view
  active := h.active

theorem setActive (h : ResBooks log r x) {b : Bool} (hb : b = true → x.native = .opened) :
    ResBooks log r { x with active := b } where
  submitted := h.submitted
  completed := h.completed
  invalidated := h.invalidated
  destroyed := h.destroyed
  caller := h.caller
  gone := h.gone
  view := h.view
  active := hb

end ResBooks

/-- the books do not look at the attempt -/
theorem Books.setAttempt (h : Books w) (s : CleanupState) (a : Option Attempt) :
    Books { w with state := s, attempt := a } :=
  ⟨h.ordered, h.res, h.records, h.nodup, h.retiredOnce, h.retired, h.released⟩

theorem holder_update {r : Id} {y : Res} (hh : y.holder = (w.res r).holder) (r' : Id) :
    (Function.update w.res r y r').holder = (w.res r').holder := by
  by_cases hr : r' = r
  · subst hr
    rw [Function.update_self, hh]
  · rw [Function.update_of_ne hr]

/-- an owner changes, but not its holder -/
theorem Books.setRes (h : Books w) {r : Id} {f : Res → Res}
    (hy : ResBooks w.log r (f (w.res r))) (hh : (f (w.res r)).holder = (w.res r).holder) :
    Books (w.setRes r f) where
  ordered := h.ordered
  res := (Function.forall_update_iff w.res fun r' x => ResBooks w.log r' x).mpr
    ⟨hy, fun r' _ => h.res r'⟩
  records := h.records
  nodup := h.nodup
  retiredOnce := h.retiredOnce
  retired := fun r' hr => (holder_update hh r').trans (h.retired r' hr)
  released := fun x hx => by
    rw [show ((w.setRes r f).res x.id).holder = _ from holder_update hh x.id]
    exact h.released x hx

/-- libuv is asked to close, or reports the close -/
theorem Books.touch (h : Books w) {r : Id} {e : Event} {f : Res → Res}
    (he : e.subject = some r) (ha : e.adopts = none) (hr : e.retires = none)
    (hy : ResBooks (w.log ++ [e]) r (f (w.res r)))
    (hh : (f (w.res r)).holder = (w.res r).holder) (hd : e ≠ .destroyed r) :
    Books ((w.setRes r f).emit [e]) := by
  have hadopted : adopted (w.log ++ [e]) = adopted w.log := by simp [ha]
  have hretired : Resource.retired (w.log ++ [e]) = Resource.retired w.log := by simp [hr]
  refine ⟨ordered_snoc h.ordered ?_, ?_, ?_, ?_, ?_, ?_, ?_⟩
  · rintro r' rfl
    cases he
    exact absurd rfl hd
  · exact (Function.forall_update_iff w.res fun r' x => ResBooks (w.log ++ [e]) r' x).mpr
      ⟨hy, fun r' hne => (h.res r').other he hne⟩
  · exact h.records.trans (by rw [World.emit, World.setRes, hadopted, hretired])
  · exact hadopted ▸ h.nodup
  · exact hretired ▸ h.retiredOnce
  · intro r' hr'
    exact (holder_update hh r').trans (h.retired r' (hretired ▸ hr'))
  · intro x hx
    rw [show (((w.setRes r f).emit [e]).res x.id).holder = _ from holder_update hh x.id]
    exact h.released x hx

theorem Books.adopt (h : Books w) {r : Id} (hc : (w.res r).holder = .caller) :
    Books (({ w with resources := w.resources ++ [some (Rec.mk r false)] }.setRes r
      ({ · with holder := .scope, view := true })).emit [.adopted r]) := by
  have hnew : r ∉ adopted w.log := (h.res r).caller.mp hc
  have hnotRetired : r ∉ Resource.retired w.log := fun hm => by
    have hg := h.retired r hm
    rw [hc] at hg
    cases hg
  have hadopted : adopted (w.log ++ [.adopted r]) = adopted w.log ++ [r] := by simp [Event.adopts]
  have hretired : Resource.retired (w.log ++ [.adopted r]) = Resource.retired w.log := by
    simp [Event.retires]
  have hother : ∀ r' ≠ r, (({ w with resources := w.resources ++ [some (Rec.mk r false)] }.setRes r
      ({ · with holder := .scope, view := true })).emit [.adopted r]).res r' = w.res r' :=
    fun r' hne => Function.update_of_ne hne _ _
  refine ⟨ordered_snoc h.ordered nofun, ?_, ?_, ?_, ?_, ?_, ?_⟩
  · exact (Function.forall_update_iff w.res fun r' x => ResBooks (w.log ++ [.adopted r]) r' x).mpr
      ⟨(h.res r).adopt hc, fun r' hne => (h.res r').other rfl hne⟩
  · show ids (w.resources ++ [some (Rec.mk r false)]) =
      (adopted (w.log ++ [.adopted r])).filter (· ∉ Resource.retired (w.log ++ [.adopted r]))
    rw [ids_append, h.records, hadopted, hretired, List.filter_append,
      List.filter_cons_of_pos (by simpa using hnotRetired)]
    rfl
  · show (adopted (w.log ++ [.adopted r])).Nodup
    rw [hadopted]
    exact List.nodup_append.mpr ⟨h.nodup, List.nodup_singleton r, fun a ha b hb he => by
      rw [List.mem_singleton] at hb
      exact hnew (hb ▸ he ▸ ha)⟩
  · exact hretired ▸ h.retiredOnce
  · intro r' hr'
    have hr'' : r' ∈ Resource.retired w.log := hretired ▸ hr'
    rw [hother r' (ne_of_mem_of_not_mem hr'' hnotRetired)]
    exact h.retired r' hr''
  · intro x hx
    rcases List.mem_append.mp hx with hx | hx
    · have hne : x.id ≠ r := fun he => by
        have hm : x.id ∈ ids w.resources := mem_ids.mpr ⟨x, hx, rfl⟩
        rw [h.records, he] at hm
        exact hnew (List.mem_of_mem_filter hm)
      rw [hother x.id hne]
      exact h.released x hx
    · obtain rfl : x = Rec.mk r false := by simpa using hx
      refine ⟨nofun, fun hg => ?_⟩
      simp [World.emit, World.setRes] at hg

/-- the record at `i` is given up -/
theorem Books.retire (h : Books w) {i : Nat} {x : Rec}
    (hi : w.resources[i]? = some (some x)) (hg : (w.res x.id).holder = .gone) :
    Books ({ w with resources := w.resources.set i none }.emit [.retired x.id]) := by
  have hadopted : adopted (w.log ++ [.retired x.id]) = adopted w.log := by simp [Event.adopts]
  have hretired : Resource.retired (w.log ++ [.retired x.id]) =
      Resource.retired w.log ++ [x.id] := by simp [Event.retires]
  have hmem : x.id ∈ ids w.resources := mem_ids.mpr ⟨x, List.mem_of_getElem? hi, rfl⟩
  have hnot : x.id ∉ Resource.retired w.log := by
    rw [h.records] at hmem
    simpa using (List.mem_filter.mp hmem).2
  refine ⟨ordered_snoc h.ordered nofun, ?_, ?_, ?_, ?_, ?_, ?_⟩
  · intro r
    by_cases hr : r = x.id
    · subst hr
      exact (h.res x.id).retire
    · exact (h.res r).other rfl hr
  · show ids (w.resources.set i none) = (adopted (w.log ++ [.retired x.id])).filter
      (· ∉ Resource.retired (w.log ++ [.retired x.id]))
    rw [ids_set_none h.ids_nodup hi, h.records, hadopted, hretired, List.filter_filter]
    refine List.filter_congr fun r _ => ?_
    simp [and_comm]
  · exact hadopted ▸ h.nodup
  · show (Resource.retired (w.log ++ [.retired x.id])).Nodup
    rw [hretired]
    exact List.nodup_append.mpr ⟨h.retiredOnce, List.nodup_singleton _, fun a ha b hb he => by
      rw [List.mem_singleton] at hb
      exact hnot (hb ▸ he ▸ ha)⟩
  · intro r hr
    have hr' : r ∈ Resource.retired w.log ++ [x.id] := hretired ▸ hr
    rcases List.mem_append.mp hr' with hr' | hr'
    · exact h.retired r hr'
    · rw [List.mem_singleton.mp hr']
      exact hg
  · intro y hy
    rcases mem_set h.ids_nodup hi hy with hy | hy
    · cases hy
    · exact h.released y hy.1

/-- The owner of the record at `i` is destroyed after its close.  Its record is a released one then;
unless it is that of a file whose close failed, it is given up next. -/
theorem Books.leave (h : Books w) {i : Nat} {x : Rec} (hi : w.resources[i]? = some (some x))
    (hs : (w.res x.id).holder = .scope) (hn : (w.res x.id).native = .closed) :
    Books { w with
      res := Function.update w.res x.id { w.res x.id with holder := .gone, view := false }
      resources := w.resources.set i (some ⟨x.id, true⟩)
      log := (w.log ++ [.invalidated x.id]) ++ [.destroyed x.id] } := by
  have hadopted : adopted ((w.log ++ [.invalidated x.id]) ++ [.destroyed x.id]) = adopted w.log := by
    simp [Event.adopts]
  have hretired : Resource.retired ((w.log ++ [.invalidated x.id]) ++ [.destroyed x.id]) =
      Resource.retired w.log := by simp [Event.retires]
  have hnot : x.id ∉ Resource.retired w.log := fun hm => by
    have hg := h.retired x.id hm
    rw [hs] at hg
    cases hg
  have hinv : Ordered (w.log ++ [.invalidated x.id]) := ordered_snoc h.ordered nofun
  have hcompleted : .completed x.id ∈ w.log := by
    have hc := (h.res x.id).completed
    rw [hn, if_pos rfl] at hc
    exact List.count_pos_iff.mp (by omega)
  refine ⟨ordered_snoc hinv ?_, ?_, ?_, ?_, ?_, ?_, ?_⟩
  · rintro r hr
    cases hr
    exact ⟨List.mem_append_left _ hcompleted, by simp⟩
  · exact (Function.forall_update_iff w.res fun r y => ResBooks _ r y).mpr
      ⟨(h.res x.id).leave hs hn, fun r hne => ((h.res r).other rfl hne).other rfl hne⟩
  · dsimp only
    rw [ids_set_same (y := ⟨x.id, true⟩) hi rfl, h.records, hadopted, hretired]
  · exact hadopted ▸ h.nodup
  · exact hretired ▸ h.retiredOnce
  · intro r hr
    have hr' : r ∈ Resource.retired w.log := hretired ▸ hr
    dsimp only
    rw [Function.update_of_ne (ne_of_mem_of_not_mem hr' hnot)]
    exact h.retired r hr'
  · intro y hy
    rcases mem_set h.ids_nodup hi hy with hy | ⟨hy, hne⟩
    · cases hy
      dsimp only
      rw [Function.update_self]
      exact ⟨fun _ => rfl, fun _ => rfl⟩
    · dsimp only
      rw [Function.update_of_ne hne]
      exact h.released y hy

end

end Resource
