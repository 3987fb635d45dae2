import Uvpp.Receive.Books

/-!
# The stages of an operation and its ends

* `Base`, `Waits`, `Stage`   an operation that reads, one that waits for a close, and all stages;
* `Base.ends`, `Base.goes_on`   what the result of the loop over the pending handles means.
-/

namespace Receive
open History

/-! ## The stages of an operation -/

/-- An operation that reads. -/
structure Base (cfg : Config) (w : World) : Prop where
  size : w.size = cfg.size
  lengthBits : w.lengthBits = cfg.lengthBits
  status : w.status = .suspended
  reading : w.reading = true
  activeRead : w.activeRead = true
  registered : w.registered = true → w.cancellation = true
  pipe : w.pipe = {}
  continuation : w.continuation = some 0
  closePipe : w.closePipe = false
  required : w.provisionalCloseRequired = false
  completed : w.provisionalCloseCompleted = false
  clean : Clean w
  untouched : Untouched w.log
  queue : w.pending = cfg.pending ++ arrived w.log
  bytes : w.bytesTransferred = total w.log
  fits : w.bytesTransferred ≤ cfg.size
  safe : w.fault = false

/-- The coroutine waits for the close of a connection that could not be accepted. -/
structure Waits (w : World) (h : Handle) : Prop where
  status : w.status = .suspended
  code : w.code < 0
  completed : w.provisionalCloseCompleted = false
  received : w.received = []
  waiters : (w.conn h).close.waiters = []
  callback : (w.conn h).close.callbackWaiter = some 0
  destination : (w.conn h).destination = true
  closing : (w.conn h).close.phase = .closing
  others : ∀ g, g ≠ h → Silent (w.conn g)
  failed : ∀ g, .failed (.accept g) ∈ w.log ↔ g = h
  outcomes : outcomes w.log = []
  closes : closes w.log = inits w.log

inductive Stage (cfg : Config) (w : World) : Prop
  | fresh (h : w = (sys cfg).init)
  | reads (h : Base cfg w) (hroom : w.bytesTransferred < cfg.size)
      (hoffer : ∀ l, w.offer = some l → w.bytesTransferred + l ≤ cfg.size)
  | waits (h : Handle) (hend : Ended w) (hw : Waits w h)
  | settled (hst : w.status = .over) (hend : Ended w) (hs : ∀ h, Silent (w.conn h))
      (hone : .suspended ∈ w.log → (outcomes w.log).length = 1)

/-- What all runs keep. -/
structure Inv (cfg : Config) (w : World) : Prop where
  stage : Stage cfg w
  books : Books cfg w.log
  laws : Lawful (Law cfg.size) w.log
  bytes : total w.log ≤ cfg.size
  safe : w.fault = false

section
variable {cfg : Config} {w v : World} {d : Haul}

theorem Inv.init (cfg : Config) : Inv cfg (sys cfg).init :=
  ⟨.fresh rfl, untouched_nil.books, lawful_nil, Nat.zero_le _, rfl⟩

theorem silent_empty : Silent {} := ⟨rfl, rfl, rfl⟩

theorem Silent.ite_released {p : Prop} [Decidable p] {x : Connection} (h : Silent x) :
    Silent (if p then x.released else x) := by
  split
  · exact h.released
  · exact h

/-- the connections of a haul are open, and nobody waits for their close -/
theorem hauled_conn (h : Handle) :
    Silent ((w.hauled d).conn h) ∧ ((w.hauled d).conn h).close.phase = .opened := by
  show Silent (if h ∈ d.handles then _ else _) ∧ (if h ∈ d.handles then _ else _ : Connection).close.phase = _
  split
  · exact ⟨⟨rfl, rfl, rfl⟩, rfl⟩
  · exact ⟨silent_empty, rfl⟩

theorem Base.ending (h : Base cfg w) (hd : d.Ok w) : Ending (w.hauled d) where
  registered := h.registered
  pipe := h.pipe
  continuation := h.continuation
  required := h.required
  nodup := hd.nodup
  opened g _ := (hauled_conn g).2

theorem Untouched.not_failed {log : List Event} (h : Untouched log) {x : Failure} :
    .failed x ∉ log := by
  intro hm
  have hx := mem_failures.mpr hm
  rw [h.failures] at hx
  cases hx

/-! ## The ends of an operation -/

/-- a failure of an operation that took nothing over: a read error, a full buffer, a stop -/
theorem Base.fails (h : Base cfg w) (hl : Lawful (Law cfg.size) w.log) (code : Int)
    (hend : Ended v) (hst : v.status = .over) (hfault : v.fault = w.fault)
    (hconn : ∀ g, Silent (v.conn g)) (hcode : code < 0)
    (hlog : v.log = w.log ++ [.resumed code []]) : Inv cfg v := by
  have hu := h.untouched
  have hout : outcomes v.log = [(code, [])] := by
    rw [hlog, outcomes_append, hu.outcomes]
    rfl
  refine ⟨.settled hst hend hconn ?_, ?_, ?_, ?_, hfault.trans h.safe⟩
  · rw [hout]
    exact fun _ => rfl
  · rw [hlog]
    exact hu.books.fails hu.outcomes (hu.closes.trans hu.inits.symm) hcode
  · rw [hlog]
    exact hl.append ⟨fun g hg => absurd hg hu.not_failed, trivial⟩
  · rw [hlog, total_append, ← h.bytes]
    exact h.fits

/-- the events of a loop that failed -/
def broken (w : World) (d : Haul) (l : List Event) (hs : List Handle) : List Event :=
  w.log ++ d.pairs.flatMap taken ++ l ++ [.uvClosePipe] ++ hs.map .uvClose

/-- the loop failed with `x` after it took over `d.pairs` and initialised `hs` -/
theorem broken_sums (hs : List Handle) (hu : Untouched w.log) {l : List Event} {x : Failure}
    (ha : accepts l = []) (hc : closes l = []) (hf : failures l = [x]) (ho : outcomes l = [])
    (hp : pipeCloses l = 0) :
    accepts (broken w d l hs) = d.pairs ∧ inits (broken w d l hs) = d.handles ++ inits l ∧
      closes (broken w d l hs) = hs ∧ failures (broken w d l hs) = [x] ∧
      outcomes (broken w d l hs) = [] ∧ pipeCloses (broken w d l hs) = 1 := by
  obtain ⟨t1, t2, t3, t4, t5, t6, -, -⟩ := taken_sums d.pairs
  obtain ⟨u1, u2, u3, u4, u5, u6, -, -⟩ := uvClose_sums hs
  unfold broken Haul.handles
  refine ⟨?_, ?_, ?_, ?_, ?_, ?_⟩
  · rw [accepts_append, accepts_append, accepts_append, accepts_append, hu.accepts, t1, u1, ha]
    simp [accepts, Event.accepts]
  · rw [inits_append, inits_append, inits_append, inits_append, hu.inits, t2, u2]
    simp [inits, Event.inits]
  · rw [closes_append, closes_append, closes_append, closes_append, hu.closes, t3, u3, hc]
    simp [closes, Event.closes]
  · rw [failures_append, failures_append, failures_append, failures_append, hu.failures, t4, u4, hf]
    simp [failures, Event.fails]
  · rw [outcomes_append, outcomes_append, outcomes_append, outcomes_append, hu.outcomes, t5, u5, ho]
    simp [outcomes, Event.ends]
  · rw [pipeCloses_append, pipeCloses_append, pipeCloses_append, pipeCloses_append, hu.pipe, t6, u6,
      hp]
    rfl

/-- all that was initialised is closed -/
theorem broken_books (hu : Untouched w.log) {l : List Event} {x : Failure}
    (ha : accepts l = []) (hc : closes l = []) (hf : failures l = [x]) (ho : outcomes l = [])
    (hp : pipeCloses l = 0) (hnd : (d.handles ++ inits l).Nodup) :
    Books cfg (broken w d l (d.handles ++ inits l)) := by
  obtain ⟨e1, e2, e3, e4, e5, e6⟩ := broken_sums (d := d) (d.handles ++ inits l) hu ha hc hf ho hp
  refine ⟨?_, ⟨inits l, ?_⟩, .inr ?_, ?_, ?_, ?_, ?_, ?_⟩
  · rw [e2]
    exact hnd
  · rw [e1, e2]
    rfl
  · rw [e2, e3]
  · rw [e4, e6]
    rfl
  · rw [e4]
    exact Nat.le_refl 1
  · rw [e5]
    exact Nat.zero_le 1
  · rw [e5]
    nofun
  · rw [e5]
    nofun

theorem broken_laws (hs : List Handle) (hl : Lawful (Law cfg.size) w.log) {l : List Event}
    (hfol : ∀ past, Follows (Law cfg.size) past l) : Lawful (Law cfg.size) (broken w d l hs) := by
  have hpipe : ∀ past, Follows (Law cfg.size) past [.uvClosePipe] := fun _ => ⟨trivial, trivial⟩
  exact (((hl.append follows_taken).append (hfol _)).append (hpipe _)).append follows_uvClose

theorem broken_total {l : List Event} {hs : List Handle} (hlt : total l = 0) :
    total (broken w d l hs) = total w.log := by
  obtain ⟨-, -, -, -, -, -, -, t⟩ := taken_sums d.pairs
  obtain ⟨-, -, -, -, -, -, -, u⟩ := uvClose_sums hs
  unfold broken
  rw [total_append, total_append, total_append, total_append, t, u, hlt]
  rfl

/-- the loop failed before the next connection was initialised -/
theorem Base.ends_failed (h : Base cfg w) (hl : Lawful (Law cfg.size) w.log) (hd : d.Ok w)
    {x : Failure} {code : Int} {capacity : Nat} {incoming : Option Handle} {next : Handle}
    (hx : ∀ g, x ≠ .accept g) (hcode : code < 0) (hin : ∀ g, incoming = some g → g ∉ d.handles) :
    Inv cfg (World.finish { w.hauled d with
      code := code, closePipe := true, capacity := capacity, incoming := incoming, next := next
      log := w.log ++ d.pairs.flatMap taken ++ [.failed x] }) := by
  obtain ⟨v, hv⟩ : ∃ v : World, v = { w.hauled d with
      code := code, closePipe := true, capacity := capacity, incoming := incoming, next := next
      log := w.log ++ d.pairs.flatMap taken ++ [.failed x] } := ⟨_, rfl⟩
  have hend : Ending v := by
    obtain ⟨e1, e2, e3, e4, e5, e6⟩ := h.ending hd
    rw [hv]
    exact ⟨e1, e2, e3, e4, e5, e6⟩
  have hun : v.untransferred = none := by
    rw [hv]
    unfold World.untransferred
    cases hi : incoming with
    | none => rfl
    | some g => simp [World.hauled, hin g hi]
  obtain ⟨hended, hst, hfault, hconn, hlog⟩ := finish_fails hend (by rw [hv]; exact hcode) hun
  have hlog : v.finish.log = broken w d [.failed x] d.handles ++ [.resumed code []] := by
    rw [hlog, hv]
    rfl
  have hu := h.untouched
  obtain ⟨-, e2, e3, e4, e5, -⟩ :=
    broken_sums (d := d) (l := [.failed x]) d.handles hu rfl rfl rfl rfl rfl
  have hbooks : Books cfg _ := broken_books (d := d) (l := [.failed x]) hu rfl rfl rfl rfl rfl
    (by rw [show inits [.failed x] = [] from rfl, List.append_nil]; exact hd.nodup)
  rw [show inits [.failed x] = [] from rfl, List.append_nil] at hbooks e2
  rw [← hv]
  refine ⟨.settled hst hended ?_ ?_, ?_, ?_, ?_, ?_⟩
  · intro g
    rw [hconn g, hv]
    exact (hauled_conn (w := w) (d := d) g).1.ite_released
  · rw [hlog, outcomes_append, e5]
    exact fun _ => rfl
  · rw [hlog]
    exact hbooks.fails e5 (e3.trans e2.symm) hcode
  · rw [hlog]
    have hlaws := broken_laws (d := d) (l := [.failed x]) d.handles hl
      fun _ => ⟨trivial, trivial⟩
    refine hlaws.append ⟨fun g hg => ?_, trivial⟩
    have hg := mem_failures.mpr hg
    rw [e4] at hg
    exact absurd (List.mem_singleton.mp hg).symm (hx g)
  · rw [hlog, total_append, broken_total rfl, ← h.bytes]
    exact h.fits
  · rw [hfault, hv]
    exact h.safe

/-- `uv_accept` failed: the coroutine waits for the close of the connection -/
theorem Base.ends_unaccepted (h : Base cfg w) (hl : Lawful (Law cfg.size) w.log) (hd : d.Ok w)
    {g : Handle} {code : Int} {capacity : Nat} {next : Handle} (hg : g ∉ d.handles)
    (hcode : code < 0) :
    Inv cfg (World.finish { w.hauled d with
      code := code, closePipe := true, capacity := capacity, incoming := some g, next := next
      conn := Function.update (w.hauled d).conn g { initialized := true }
      log := w.log ++ d.pairs.flatMap taken ++ [.initialised g, .failed (.accept g)] }) := by
  obtain ⟨v, hv⟩ : ∃ v : World, v = { w.hauled d with
      code := code, closePipe := true, capacity := capacity, incoming := some g, next := next
      conn := Function.update (w.hauled d).conn g { initialized := true }
      log := w.log ++ d.pairs.flatMap taken ++ [.initialised g, .failed (.accept g)] } := ⟨_, rfl⟩
  have hself : v.conn g = { initialized := true } := by
    rw [hv]
    exact Function.update_self ..
  have hother : ∀ k, k ≠ g → v.conn k = (w.hauled d).conn k := by
    intro k hk
    rw [hv]
    exact Function.update_of_ne hk ..
  have hend : Ending v := by
    obtain ⟨e1, e2, e3, e4, e5, e6⟩ := h.ending hd
    have hopened : ∀ k ∈ v.received, (v.conn k).close.phase = .opened := by
      intro k hk
      by_cases hkg : k = g
      · rw [hkg, hself]
      · rw [hother k hkg]
        exact (hauled_conn k).2
    rw [hv] at hopened ⊢
    exact ⟨e1, e2, e3, e4, e5, hopened⟩
  have hun : v.untransferred = some g := by
    have hin : v.incoming = some g := by rw [hv]
    unfold World.untransferred
    rw [hin, Option.filter_some, hself]
    rfl
  have hrec : v.received = d.handles := by rw [hv]; rfl
  obtain ⟨hended, hst, hfault, hcode', -, hcompl, hnil, hconn, hrest, hlog⟩ :=
    finish_waits hend (by rw [hv]; exact hcode) hun (by rw [hrec]; exact hg) (by rw [hself])
  have hlog : v.finish.log =
      broken w d [.initialised g, .failed (.accept g)] (d.handles ++ [g]) := by
    rw [hlog, hv]
    simp [broken, World.hauled]
  have hu := h.untouched
  have hnd : (d.handles ++ [g]).Nodup := by
    rw [List.nodup_append]
    refine ⟨hd.nodup, List.nodup_singleton g, ?_⟩
    intro a ha b hb hab
    rw [List.mem_singleton.mp hb] at hab
    exact hg (hab ▸ ha)
  obtain ⟨-, e2, e3, e4, e5, -⟩ := broken_sums (d := d)
    (l := [.initialised g, .failed (.accept g)]) (d.handles ++ [g]) hu rfl rfl rfl rfl rfl
  have hbooks : Books cfg _ := broken_books (d := d) (l := [.initialised g, .failed (.accept g)])
    hu rfl rfl rfl rfl rfl hnd
  rw [← hv]
  refine ⟨.waits g hended ⟨?_, ?_, ?_, hnil, ?_, ?_, ?_, ?_, ?_, ?_, ?_, ?_⟩, ?_, ?_, ?_, ?_⟩
  · rw [hst, hv]
    exact h.status
  · rw [hcode', hv]
    exact hcode
  · rw [hcompl, hv]
    exact h.completed
  · rw [hconn, hself]
    rfl
  · rw [hconn]
    rfl
  · rw [hconn]
    rfl
  · rw [hconn]
    rfl
  · intro k hk
    rw [hrest k hk, hother k hk]
    exact (hauled_conn (w := w) (d := d) k).1.ite_released
  · intro k
    rw [← mem_failures, hlog, e4, List.mem_singleton]
    exact ⟨fun hk => Failure.accept.inj hk, congrArg _⟩
  · rw [hlog]
    exact e5
  · rw [hlog, e2, e3]
    rfl
  · rw [hlog]
    exact hbooks
  · rw [hlog]
    exact broken_laws _ hl fun _ => ⟨trivial, trivial, trivial⟩
  · rw [hlog, broken_total rfl, ← h.bytes]
    exact h.fits
  · rw [hfault, hv]
    exact h.safe

/-- the queue is empty, and something was taken over -/
theorem Base.ends_drained (h : Base cfg w) (hl : Lawful (Law cfg.size) w.log) (hd : d.Ok w)
    (hrest : d.rest = []) (hne : d.pairs ≠ []) :
    Inv cfg (World.finish { w.hauled d with code := 0 }) := by
  have hnil : d.handles ≠ [] := fun hh => hne (List.map_eq_nil_iff.mp hh)
  obtain ⟨e1, e2, e3, e4, e5, e6⟩ := h.ending hd
  obtain ⟨hended, hst, hfault, hconn, hlog⟩ :=
    finish_returns (w := { w.hauled d with code := 0 }) ⟨e1, e2, e3, e4, e5, e6⟩ (Int.le_refl 0) hnil
  have hlog : (World.finish { w.hauled d with code := 0 }).log =
      w.log ++ d.pairs.flatMap taken ++ [.resumed 0 d.handles] := hlog
  have hu := h.untouched
  obtain ⟨t1, t2, t3, t4, t5, t6, t7, t8⟩ := taken_sums d.pairs
  have ha : accepts (w.log ++ d.pairs.flatMap taken ++ [.resumed 0 d.handles]) = d.pairs := by
    rw [accepts_append, accepts_append, hu.accepts, t1]
    exact List.append_nil _
  have hi : inits (w.log ++ d.pairs.flatMap taken ++ [.resumed 0 d.handles]) = d.handles := by
    rw [inits_append, inits_append, hu.inits, t2]
    exact List.append_nil _
  have hc : closes (w.log ++ d.pairs.flatMap taken ++ [.resumed 0 d.handles]) = [] := by
    rw [closes_append, closes_append, hu.closes, t3]
    rfl
  have hf : failures (w.log ++ d.pairs.flatMap taken ++ [.resumed 0 d.handles]) = [] := by
    rw [failures_append, failures_append, hu.failures, t4]
    rfl
  have ho : outcomes (w.log ++ d.pairs.flatMap taken ++ [.resumed 0 d.handles]) =
      [(0, d.handles)] := by
    rw [outcomes_append, outcomes_append, hu.outcomes, t5]
    rfl
  have hp : pipeCloses (w.log ++ d.pairs.flatMap taken ++ [.resumed 0 d.handles]) = 0 := by
    rw [pipeCloses_append, pipeCloses_append, hu.pipe, t6]
    rfl
  have hq : d.pairs.map Prod.snd =
      cfg.pending ++ arrived (w.log ++ d.pairs.flatMap taken ++ [.resumed 0 d.handles]) := by
    have harr : arrived (w.log ++ d.pairs.flatMap taken ++ [.resumed 0 d.handles]) =
        arrived w.log := by
      rw [arrived_append, arrived_append, t7, List.append_nil]
      exact List.append_nil _
    have hqueue := hd.queue
    rw [hrest, List.append_nil, h.queue] at hqueue
    rw [harr, hqueue]
  refine ⟨.settled hst hended ?_ ?_, ⟨?_, ⟨[], ?_⟩, .inl ?_, ?_, ?_, ?_, ?_, ?_⟩, ?_, ?_, ?_⟩
  · intro g
    rw [hconn]
    exact (hauled_conn (w := w) (d := d) g).1
  · rw [hlog, ho]
    exact fun _ => rfl
  · rw [hlog, hi]
    exact hd.nodup
  · rw [hlog, hi, ha, List.append_nil]
    rfl
  · rw [hlog]
    exact hc
  · rw [hlog, hp, hf]
    rfl
  · rw [hlog, hf]
    exact Nat.zero_le 1
  · rw [hlog, ho]
    exact Nat.le_refl 1
  · intro code hs hm _
    rw [hlog, ho] at hm
    cases List.mem_singleton.mp hm
    rw [hlog, ha, hi, hc, hf]
    exact ⟨rfl, hnil, hq, hd.tcp, rfl, rfl, rfl⟩
  · intro code hs hm hneg
    rw [hlog, ho] at hm
    cases List.mem_singleton.mp hm
    cases hneg
  · rw [hlog]
    refine (hl.append follows_taken).append ⟨fun g hg => absurd (mem_failures.mpr hg) ?_, trivial⟩
    rw [failures_append, hu.failures, t4]
    exact List.not_mem_nil
  · rw [hlog, total_append, total_append, t8, ← h.bytes]
    exact h.fits
  · rw [hfault]
    exact h.safe

/-- nothing was pending: the operation goes on reading -/
theorem Base.undrained (h : Base cfg w) (hd : d.Ok w) (hrest : d.rest = []) (hnil : d.pairs = []) :
    Base cfg { w.hauled d with code := 0 } ∧ (w.hauled d).log = w.log := by
  have hlog : (w.hauled d).log = w.log := by
    show w.log ++ d.pairs.flatMap taken = w.log
    rw [hnil]
    exact List.append_nil _
  have hh : d.handles = [] := by
    unfold Haul.handles
    rw [hnil]
    rfl
  refine ⟨⟨h.size, h.lengthBits, h.status, h.reading, h.activeRead, h.registered, h.pipe,
    h.continuation, h.closePipe, h.required, h.completed, ⟨hh, ?_, ?_⟩, ?_, ?_, ?_, h.fits, h.safe⟩,
    hlog⟩
  · intro g
    show (if g ∈ d.handles then _ else _) = _
    rw [hh]
    rfl
  · exact fun g hg => (hd.incoming g hg).1
  · dsimp only
    rw [hlog]
    exact h.untouched
  · have hqueue := hd.queue
    rw [hnil, hrest] at hqueue
    dsimp only
    rw [hlog, ← h.queue, hqueue]
    exact hrest
  · dsimp only
    rw [hlog]
    exact h.bytes

/-- a loop that returns true ends the operation -/
theorem Base.ends (h : Base cfg w) (hl : Lawful (Law cfg.size) w.log) {rounds : Nat → Round}
    (ha : w.adoptPendingTcp rounds = some (v, true)) : Inv cfg v.finish := by
  obtain ⟨d, hd, hexit⟩ := adoptPendingTcp_exit h.clean ha
  generalize hb : true = b at hexit
  cases hexit with
  | drained hrest => exact h.ends_drained hl hd hrest (of_decide_eq_true hb.symm)
  | failed x code capacity incoming next hx hcode hin => exact h.ends_failed hl hd hx hcode hin
  | unaccepted g code capacity next hg hcode => exact h.ends_unaccepted hl hd hg hcode

/-- one that returns false found nothing -/
theorem Base.goes_on (h : Base cfg w) {rounds : Nat → Round}
    (ha : w.adoptPendingTcp rounds = some (v, false)) :
    Base cfg v ∧ v.log = w.log ∧ v.bytesTransferred = w.bytesTransferred ∧ v.offer = w.offer := by
  obtain ⟨d, hd, hexit⟩ := adoptPendingTcp_exit h.clean ha
  generalize hb : false = b at hexit
  cases hexit with
  | drained hrest =>
    have hnil : d.pairs = [] := Decidable.of_not_not (of_decide_eq_false hb.symm)
    obtain ⟨hbase, hlog⟩ := h.undrained hd hrest hnil
    exact ⟨hbase, hlog, rfl, rfl⟩
  | failed x code capacity incoming next hx hcode hin => cases hb
  | unaccepted g code capacity next hg hcode => cases hb

end

end Receive
