import Uvpp.Operation.Steps

/-!
# The regions that libuv gets

* `RegionContract`   a region that goes with a native call is the whole span; the region of an
                     allocation callback begins where the bytes kept so far end, and has the length
                     that is left exactly if `uv_buf_t::len` can hold that length; a transfer that
                     was refused never reached libuv;
* `region_contract`  in every run, for all widths.

The three awaiters with an allocation callback never check the length: see `empty_region`.
-/

namespace Operation
open History

section
variable {p : Platform}

/-- the length is kept exactly if it fits -/
theorem makeNativeBuffer_len_iff (base length : Nat) :
    (makeNativeBufferUnchecked p base length).len = length ↔ bufferLengthFits p length = true := by
  have hpos : 0 < 2 ^ p.lengthBits := Nat.two_pow_pos _
  rw [bufferLengthFits, decide_eq_true_eq]
  constructor
  · intro hlen
    have hlt : length % 2 ^ p.lengthBits < 2 ^ p.lengthBits := Nat.mod_lt _ hpos
    have heq : length % 2 ^ p.lengthBits = length := hlen
    omega
  · intro hle
    exact Nat.mod_eq_of_lt (by omega)

theorem makeNativeBuffer_len_zero (base length : Nat) :
    (makeNativeBufferUnchecked p base length).len = 0 ↔ 2 ^ p.lengthBits ∣ length :=
  (Nat.dvd_iff_mod_eq_zero ..).symm

/-- a refused transfer stays refused: whichever of the two events came first -/
theorem refused_quiet {log : List Event} (h : Lawful (Law p) log) {n : Nat} (hr : .refused n ∈ log)
    {e : Event} (he : e ∈ log) (hn : e.number = n) : e.native = false := by
  obtain ⟨past, rest, rfl⟩ := List.append_of_mem hr
  rcases List.mem_append.mp he with he | he
  · exact (h past (.refused n) rest rfl).2 e he hn
  · rcases List.mem_cons.mp he with rfl | he
    · rfl
    · obtain ⟨mid, last, rfl⟩ := List.append_of_mem he
      have hlaw := h (past ++ .refused n :: mid) e last (by simp)
      have hmem : .refused n ∈ past ++ .refused n :: mid :=
        List.mem_append_right _ List.mem_cons_self
      subst hn
      cases e with
      | called m span => rfl
      | refused m => rfl
      | submitted | started | offered | received => exact absurd hmem hlaw.1

/-- a transfer has one span -/
theorem called_once {log : List Event} (h : Lawful (Law p) log) {n : Nat} {x y : Span}
    (hx : .called n x ∈ log) (hy : .called n y ∈ log) : x = y := by
  obtain ⟨past, rest, rfl⟩ := List.append_of_mem hx
  rcases List.mem_append.mp hy with hy | hy
  · exact absurd rfl (h past (.called n x) rest rfl (.called n y) hy)
  · rcases List.mem_cons.mp hy with hy | hy
    · cases hy
      rfl
    · obtain ⟨mid, last, rfl⟩ := List.append_of_mem hy
      have hlaw := h (past ++ .called n x :: mid) (.called n y) last (by simp)
      exact absurd rfl (hlaw (.called n x) (List.mem_append_right _ List.mem_cons_self))

end

structure RegionContract (p : Platform) (log : List Event) : Prop where
  /-- a number stands for one transfer -/
  called : ∀ n x y, .called n x ∈ log → .called n y ∈ log → x = y
  /-- either a transfer is refused before anything native happens -/
  refused : ∀ n, .refused n ∈ log → ∀ e ∈ log, e.number = n → e.native = false
  /-- or its span goes with the native call -/
  submitted : ∀ past n buf rest, log = past ++ .submitted n buf :: rest →
    ∃ span, .called n span ∈ past ∧ buf = { base := span.data, len := span.size }
  /-- or it is offered what is left of its span, exactly if that fits -/
  offered : ∀ past n buf rest, log = past ++ .offered n buf :: rest →
    ∃ span, .called n span ∈ past ∧ taken n past ≤ span.size ∧
      buf.base = span.data + taken n past ∧
      (buf.len = span.size - taken n past ↔
        bufferLengthFits p (span.size - taken n past) = true) ∧
      (buf.len = 0 ↔ 2 ^ p.lengthBits ∣ span.size - taken n past)

/-- in every run, for all widths -/
theorem region_contract (p : Platform) (as : List Action) (w : World)
    (h : (sys p).run (sys p).init as = some w) : RegionContract p w.log := by
  have hlaw := (run_inv h).booked.lawful
  refine
    { called := fun n x y hx hy => called_once hlaw hx hy
      refused := fun n hn e he => refused_quiet hlaw hn he
      submitted := ?_
      offered := ?_ }
  · intro past n buf rest hlog
    exact (hlaw past _ rest hlog).2
  · intro past n buf rest hlog
    obtain ⟨-, span, hcalled, hle, rfl⟩ := hlaw past _ rest hlog
    exact ⟨span, hcalled, hle, rfl, makeNativeBuffer_len_iff _ _, makeNativeBuffer_len_zero _ _⟩

/-- A pipe receives seven bytes in two reads and a connection with the second; then a file write of
`2 ^ 32` bytes is refused and one of nine is submitted. -/
def twoReads : List Action :=
  [.construct 0 .pipeConnection 0 true, .construct 1 .file 0 false, .create 0, .spawn 0 0 0,
    .await 0 (.receiveHandle 0 ⟨16, 7⟩) {}, .alloc 0, .readHandle 0 4 .none, .alloc 0,
    .readHandle 0 3 .adopted, .await 0 (.writeFile 1 ⟨32, 2 ^ 32⟩) {},
    .await 0 (.writeFile 1 ⟨32, 9⟩) {}]

theorem region_contract_twoReads :
    ∃ w, (sys windows64).run (sys windows64).init twoReads = some w ∧
      w.log = [.called 0 ⟨16, 7⟩, .started 0, .offered 0 ⟨16, 7⟩, .received 0 4,
        .offered 0 ⟨20, 3⟩, .received 0 3, .called 1 ⟨32, 2 ^ 32⟩, .refused 1, .called 2 ⟨32, 9⟩,
        .submitted 2 ⟨32, 9⟩] ∧
      RegionContract windows64 w.log :=
  ⟨_, rfl, rfl, region_contract windows64 twoReads _ rfl⟩

/-- A read into a buffer of `2 ^ 32` bytes: libuv is offered a region of length zero. -/
theorem empty_region :
    ∃ w, (sys windows64).run (sys windows64).init
        [.construct 0 .tcpConnection 0 false, .create 0, .spawn 0 0 0,
          .await 0 (.readSome 0 ⟨16, 2 ^ 32⟩) {}, .alloc 0] = some w ∧
      w.log = [.called 0 ⟨16, 2 ^ 32⟩, .started 0, .offered 0 ⟨16, 0⟩] ∧
      w.status 0 = .suspended (.slot 0 .reader) :=
  ⟨_, rfl, rfl, rfl⟩

end Operation
