import Uvpp.Machine.History
import Uvpp.Operation.Run

/-!
# The history of the transfers

* `taken n log`    the bytes that transfer `n` has kept so far;
* `Law p past e`   what may happen to a transfer after `past`: a region is submitted whole, an
                   offered region is what is left of the span, with the length that
                   `make_native_buffer_unchecked` makes of it, and a transfer that was refused never
                   reached libuv;
* `Holds x log`    an awaiter knows its transfer;
* `Booked p w`     the history is lawful and the awaiters fit it;
* `Calm w v`       changes that the history does not see.
-/

namespace Operation
open History

def Event.bytes (n : Nat) : Event → Nat
  | .received m count => if m = n then count else 0
  | _ => 0

def taken (n : Nat) (log : List Event) : Nat := (log.map (Event.bytes n)).sum

theorem taken_emit (n : Nat) (log : List Event) (e : Event) :
    taken n (log ++ [e]) = taken n log + e.bytes n := by
  simp [taken]

theorem taken_other {n : Nat} {log : List Event} (h : ∀ e ∈ log, e.number ≠ n) :
    taken n log = 0 := by
  rw [taken, List.sum_eq_zero_iff_forall_eq_nat]
  intro k hk
  obtain ⟨e, he, rfl⟩ := List.mem_map.mp hk
  cases e with
  | received m count => exact if_neg (h _ he)
  | _ => rfl

def Law (p : Platform) (past : List Event) : Event → Prop
  | .called n _ => ∀ e ∈ past, e.number ≠ n
  | .refused n => (∃ span, .called n span ∈ past) ∧ ∀ e ∈ past, e.number = n → e.native = false
  | .submitted n buf => .refused n ∉ past ∧ ∃ span, .called n span ∈ past ∧
      buf = { base := span.data, len := span.size }
  | .started n => .refused n ∉ past ∧ ∃ span, .called n span ∈ past
  | .offered n buf => .refused n ∉ past ∧ ∃ span, .called n span ∈ past ∧ taken n past ≤ span.size ∧
      buf = makeNativeBufferUnchecked p (span.data + taken n past) (span.size - taken n past)
  | .received n count => .refused n ∉ past ∧ ∃ span, .called n span ∈ past ∧
      taken n past + count ≤ span.size

structure Holds (x : Transfer) (log : List Event) : Prop where
  called : .called x.number x.span ∈ log
  kept : .refused x.number ∉ log
  taken : x.taken = taken x.number log
  whole : x.path ≠ .ipc → x.taken = 0
  room : x.taken ≤ x.span.size
  offered : ∀ len, x.offered = some len → x.taken + len ≤ x.span.size

structure Booked (p : Platform) (w : World) : Prop where
  lawful : Lawful (Law p) w.log
  below : ∀ e ∈ w.log, e.number < w.count
  holds : ∀ t x, w.transfer t = some x → Holds x w.log
  apart : ∀ t q x y, w.transfer t = some x → w.transfer q = some y → x.number = y.number → t = q

theorem booked_init (p : Platform) : Booked p {} where
  lawful := lawful_nil
  below := nofun
  holds := nofun
  apart := nofun

section
variable {p : Platform} {w : World} {t : TaskId} {x : Transfer}

/-- the history stays as it is; transfers may end -/
structure Calm (w v : World) : Prop where
  loop : v.loop = w.loop
  log : v.log = w.log
  count : v.count = w.count
  transfer : ∀ t x, v.transfer t = some x → w.transfer t = some x

theorem Calm.refl (w : World) : Calm w w := ⟨rfl, rfl, rfl, fun _ _ hx => hx⟩

theorem Calm.trans {u v : World} (h : Calm w u) (h' : Calm u v) : Calm w v where
  loop := h'.loop.trans h.loop
  log := h'.log.trans h.log
  count := h'.count.trans h.count
  transfer t x hx := h.transfer t x (h'.transfer t x hx)

theorem Calm.setOwner {o : OwnerId} {y : Owner} : Calm w (w.setOwner o y) := { Calm.refl w with }

theorem Calm.unregister : Calm w (w.unregister t) := { Calm.refl w with }

theorem Calm.register : Calm w (w.register t) := by
  rw [World.register]
  split
  · exact .refl w
  · exact { Calm.refl w with }

theorem Calm.resumeAll (ts : List TaskId) : Calm w (w.resumeAll ts) :=
  { Calm.refl w with
    transfer := by
      intro t x hx
      rw [World.resumeAll] at hx
      dsimp only at hx
      split at hx
      · cases hx
      · exact hx }

theorem Calm.resume (t : TaskId) : Calm w (w.resume t) := .resumeAll [t]

theorem Calm.endTransfer : Calm w (w.setTransfer t none) :=
  { Calm.refl w with
    transfer := (Function.forall_update_iff w.transfer fun t y =>
      ∀ x, y = some x → w.transfer t = some x).mpr ⟨nofun, fun _ _ _ hx => hx⟩ }

theorem Calm.closeUntransferred {o : OwnerId} : Calm w (w.closeUntransferred o t) := by
  rw [World.closeUntransferred]
  split
  · exact { Calm.refl w with }
  · exact .refl w

theorem Calm.requestClose {o : OwnerId} : Calm w (w.requestClose o) := by
  rw [World.requestClose]
  dsimp only
  split
  · exact .refl w
  · have hclosing : Calm w (w.setPhase o .closing) := .setOwner
    have hreleased : Calm w ((w.setPhase o .closing).release o .waiter) := hclosing.trans .setOwner
    split
    · exact hclosing
    · split
      · exact hreleased.trans .closeUntransferred
      · split
        · exact hreleased.trans (.resume _)
        · exact hclosing

theorem Booked.calm {v : World} (h : Booked p w) (hc : Calm w v) : Booked p v where
  lawful := hc.log ▸ h.lawful
  below := by rw [hc.log, hc.count]; exact h.below
  holds t x hx := hc.log ▸ h.holds t x (hc.transfer t x hx)
  apart t q x y hx hy := h.apart t q x y (hc.transfer t x hx) (hc.transfer q y hy)

/-! ## the history goes on -/

/-- an awaiter still knows its transfer after an event that is not about it -/
theorem Holds.emit {log : List Event} {e : Event} (h : Holds x log)
    (hbytes : e.bytes x.number = 0) (hrefused : e ≠ .refused x.number) : Holds x (log ++ [e]) :=
  { h with
    called := List.mem_append_left _ h.called
    kept := by
      intro hm
      rcases List.mem_append.mp hm with hm | hm
      · exact h.kept hm
      · exact hrefused (List.mem_singleton.mp hm).symm
    taken := by rw [taken_emit, hbytes, Nat.add_zero, h.taken] }

theorem lawful_emit {log : List Event} {e : Event} (h : Lawful (Law p) log) (he : Law p log e) :
    Lawful (Law p) (log ++ [e]) := h.append ⟨he, trivial⟩

theorem Booked.emit (h : Booked p w) {e : Event} (hlaw : Law p w.log e) (hn : e.number < w.count)
    (hbytes : ∀ t x, w.transfer t = some x → e.bytes x.number = 0)
    (hrefused : ∀ t x, w.transfer t = some x → e ≠ .refused x.number) : Booked p (w.emit e) where
  lawful := lawful_emit h.lawful hlaw
  below := by
    intro e' he'
    rcases List.mem_append.mp he' with he' | he'
    · exact h.below e' he'
    · exact List.mem_singleton.mp he' ▸ hn
  holds t x hx := (h.holds t x hx).emit (hbytes t x hx) (hrefused t x hx)
  apart := h.apart

/-- the numbers stay apart when an awaiter keeps its own -/
theorem Booked.apart_update (h : Booked p w) {y : Transfer} (hx : w.transfer t = some x)
    (hnumber : y.number = x.number) : ∀ q q' z z',
    Function.update w.transfer t (some y) q = some z →
    Function.update w.transfer t (some y) q' = some z' → z.number = z'.number → q = q' := by
  have hold : ∀ q z, Function.update w.transfer t (some y) q = some z →
      ∃ z', w.transfer q = some z' ∧ z.number = z'.number := by
    refine (Function.forall_update_iff w.transfer fun q v => ∀ z, v = some z →
      ∃ z', w.transfer q = some z' ∧ z.number = z'.number).mpr ⟨?_, ?_⟩
    · intro z hz
      exact ⟨x, hx, Option.some.inj hz ▸ hnumber⟩
    · intro q _ z hz
      exact ⟨z, hz, rfl⟩
  intro q q' z z' hz hz' heq
  obtain ⟨v, hv, hn⟩ := hold q z hz
  obtain ⟨v', hv', hn'⟩ := hold q' z' hz'
  exact h.apart q q' v v' hv hv' (by rw [← hn, ← hn', heq])

/-- one awaiter moves on within its transfer -/
theorem Booked.setTransfer (h : Booked p w) {y : Transfer} (hx : w.transfer t = some x)
    (hnumber : y.number = x.number) (hy : Holds y w.log) : Booked p (w.setTransfer t (some y)) :=
  { h with
    holds := (Function.forall_update_iff w.transfer fun _ v => ∀ z, v = some z →
      Holds z w.log).mpr ⟨fun _ hz => Option.some.inj hz ▸ hy, fun q _ => h.holds q⟩
    apart := h.apart_update hx hnumber }

/-- a suspended operation gets its awaiter -/
theorem Booked.newTransfer (h : Booked p w) (hx : Holds x w.log)
    (hnew : ∀ q y, w.transfer q = some y → y.number ≠ x.number) :
    Booked p (w.setTransfer t (some x)) := by
  have hold : ∀ q z, Function.update w.transfer t (some x) q = some z →
      Holds z w.log ∧ ((q = t ∧ z = x) ∨ w.transfer q = some z) := by
    refine (Function.forall_update_iff w.transfer fun q v => ∀ z, v = some z →
      Holds z w.log ∧ ((q = t ∧ z = x) ∨ w.transfer q = some z)).mpr ⟨?_, ?_⟩
    · intro z hz
      obtain rfl := Option.some.inj hz
      exact ⟨hx, .inl ⟨rfl, rfl⟩⟩
    · intro q _ z hz
      exact ⟨h.holds q z hz, .inr hz⟩
  refine { h with holds := fun q z hz => (hold q z hz).1, apart := ?_ }
  intro q q' z z' hz hz' heq
  rcases (hold q z hz).2 with ⟨rfl, rfl⟩ | hq
  · rcases (hold q' z' hz').2 with ⟨rfl, rfl⟩ | hq'
    · rfl
    · exact absurd heq.symm (hnew q' z' hq')
  · rcases (hold q' z' hz').2 with ⟨rfl, rfl⟩ | hq'
    · exact absurd heq (hnew q z hq)
    · exact h.apart q q' z z' hq hq' heq

/-! ## regions -/

theorem onAlloc_eq {log : List Event} (h : Holds x log) :
    World.onAlloc p x = makeNativeBufferUnchecked p (x.span.data + taken x.number log)
      (x.span.size - taken x.number log) := by
  rw [← h.taken, World.onAlloc]
  split
  · rfl
  · rename_i hpath
    rw [h.whole hpath]
    rfl

/-- a length is never made larger -/
theorem onAlloc_le {log : List Event} (h : Holds x log) :
    x.taken + (World.onAlloc p x).len ≤ x.span.size := by
  have hmod := Nat.mod_le (x.span.size - taken x.number log) (2 ^ p.lengthBits)
  have hroom := h.room
  rw [onAlloc_eq h, makeNativeBufferUnchecked, ← h.taken]
  rw [← h.taken] at hmod
  dsimp only
  omega

theorem Booked.offer (h : Booked p w) (hx : w.transfer t = some x) : Booked p (w.offer p t x) := by
  have hold := h.holds t x hx
  have hlaw : Law p w.log (.offered x.number (World.onAlloc p x)) :=
    ⟨hold.kept, x.span, hold.called, hold.taken ▸ hold.room, onAlloc_eq hold⟩
  have hemit : Booked p (w.emit (.offered x.number (World.onAlloc p x))) :=
    h.emit hlaw (h.below (.called x.number x.span) hold.called) (fun _ _ _ => rfl)
      (fun _ _ _ => nofun)
  refine Booked.setTransfer (x := x) hemit hx rfl ?_
  have hnext : Holds x (w.log ++ [.offered x.number (World.onAlloc p x)]) := hold.emit rfl nofun
  have hle : x.taken + (World.onAlloc p x).len ≤ x.span.size := onAlloc_le hold
  exact { hnext with offered := fun len hlen => Option.some.inj hlen ▸ hle }

/-- the bytes of a read fit into the region that was offered for it -/
theorem Booked.keep (h : Booked p w) (hx : w.transfer t = some x) (hipc : x.path = .ipc)
    {count len : Nat} (hlen : x.offered = some len) (hcount : count ≤ len) :
    Booked p (w.keep t x count) := by
  have hold := h.holds t x hx
  have hroom := hold.offered len hlen
  have hlaw : Law p w.log (.received x.number count) :=
    ⟨hold.kept, x.span, hold.called, by rw [← hold.taken]; omega⟩
  -- the event is about this transfer alone
  have hothers : ∀ q y, w.transfer q = some y → q ≠ t →
      Event.bytes y.number (.received x.number count) = 0 := by
    intro q y hy hq
    exact if_neg fun heq => hq (h.apart q t y x hy hx heq.symm)
  have hnew : Holds { x with taken := x.taken + count, offered := none }
      (w.log ++ [.received x.number count]) := by
    refine { hold with
      called := List.mem_append_left _ hold.called
      kept := ?_
      taken := ?_
      whole := fun hp => absurd hipc hp
      room := ?_
      offered := nofun }
    · intro hm
      rcases List.mem_append.mp hm with hm | hm
      · exact hold.kept hm
      · cases List.mem_singleton.mp hm
    · rw [taken_emit, ← hold.taken]
      exact congrArg (x.taken + ·) (if_pos rfl).symm
    · show x.taken + count ≤ x.span.size
      omega
  refine { lawful := lawful_emit h.lawful hlaw, below := ?_, holds := ?_, apart := ?_ }
  · intro e he
    rcases List.mem_append.mp he with he | he
    · exact h.below e he
    · rw [List.mem_singleton.mp he]
      exact h.below (.called x.number x.span) hold.called
  · refine (Function.forall_update_iff w.transfer fun q v => ∀ y, v = some y →
      Holds y (w.log ++ [.received x.number count])).mpr ⟨?_, ?_⟩
    · intro y hy
      obtain rfl := Option.some.inj hy
      exact hnew
    · intro q hq y hy
      exact (h.holds q y hy).emit (hothers q y hy hq) nofun
  · exact h.apart_update hx rfl

end

end Operation
