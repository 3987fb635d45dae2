import Mathlib.Data.List.Forall2
import Uvpp.SendBatch.Programs

/-!
# Batches show and send what was added

* `entries`            the list of entries of a batch, and `Points` what an entry says;
* `sendManyNow_eq`     what is submitted, exactly;
* `sendLoop_eq`        a caller that goes on after what was sent sends every datagram once;
* `batch_contract`     what holds in all runs.
-/

namespace SendBatch
open Errno Throwing Storage

/-- what is sent is not empty and has a base for every length -/
def Datagram.valid (d : Datagram) : Bool :=
  !d.buffers.isEmpty && d.buffers.all fun x => x.len = 0 || x.base.isSome

/-- the entry of `d`, whose descriptors begin at `o` -/
def entryAt (data : Option Addr) (o : Nat) (d : Datagram) : Entry :=
  ⟨bufferPointer data o d.buffers.length, d.buffers.length, d.address⟩

/-- the entries of a list, from the offset `o` on -/
def entries (data : Option Addr) : Nat → List Datagram → List Entry
  | _, [] => []
  | o, d :: ds => entryAt data o d :: entries data (o + d.buffers.length) ds

/-- The entry is that of `d`, and its pointer is null or leads to the descriptors of `d` in the
storage of `b`. -/
structure Points (b : UdpSendBatch) (d : Datagram) (e : Entry) : Prop where
  count : e.count = d.buffers.length
  address : e.address = d.address
  null : e.buffers = none ↔ d.buffers = []
  own : ∀ p, e.buffers = some p → b.rawBuffers.data = some p.1 ∧ b.read p e.count = some d.buffers

section
variable {cfg : Config} {b : UdpSendBatch} {ds : List Datagram} {es : List Entry}
  {data : Option Addr} {o : Nat}

theorem entries_length : (entries data o ds).length = ds.length := by
  induction ds generalizing o with
  | nil => rfl
  | cons d ds ih => rw [entries, List.length_cons, ih, List.length_cons]

/-- the three arrays at one index -/
theorem entries_get (k : Nat) :
    (entries data o ds)[k]? =
      match (pointers data o ds)[k]?, (ds.map (·.buffers.length))[k]?, (ds.map (·.address))[k]? with
      | some p, some n, some a => some ⟨p, n, a⟩
      | _, _, _ => none := by
  induction ds generalizing o k with
  | nil => rfl
  | cons d ds ih =>
    cases k with
    | zero => rfl
    | succ k => exact ih k

theorem view_entry (h : Shows cfg ds b) (k : Nat) :
    (b.view cfg).entryAt k = (entries b.rawBuffers.data 0 ds)[k]? := by
  unfold View.entryAt UdpSendBatch.view
  dsimp only
  rw [h.bufferArrays, h.bufferCounts, h.addresses]
  exact (entries_get k).symm

theorem view_count (h : Shows cfg ds b) : (b.view cfg).count = ds.length := by
  show narrow cfg b.bufferArrays.items.length = ds.length
  rw [h.bufferArrays, pointers_length]
  exact Nat.mod_eq_of_lt h.count

/-- `before` are the descriptors of the datagrams before `d` -/
theorem entryAt_points {d : Datagram} (before after : List Buf)
    (h : b.rawBuffers.items = before ++ d.buffers ++ after) :
    Points b d (entryAt b.rawBuffers.data before.length d) := by
  by_cases hnil : d.buffers = []
  · have hnone : (entryAt b.rawBuffers.data before.length d).buffers = none :=
      if_pos (by rw [hnil]; rfl)
    refine ⟨rfl, rfl, ⟨fun _ => hnil, fun _ => hnone⟩, fun p hp => ?_⟩
    rw [hnone] at hp
    cases hp
  · obtain ⟨a, ha⟩ := Vec.data_some (v := b.rawBuffers) (by
      rw [h]
      intro heq
      exact hnil (List.append_eq_nil_iff.mp (List.append_eq_nil_iff.mp heq).1).2)
    have hsome : (entryAt b.rawBuffers.data before.length d).buffers = some (a, before.length) := by
      show bufferPointer b.rawBuffers.data before.length d.buffers.length = _
      unfold bufferPointer
      rw [if_neg fun hz => hnil (List.eq_nil_of_length_eq_zero hz), ha]
      rfl
    refine ⟨rfl, rfl, ⟨fun hn => ?_, fun hn => absurd hn hnil⟩, fun p hp => ?_⟩
    · rw [hsome] at hn
      cases hn
    · rw [hsome] at hp
      cases hp
      refine ⟨ha, ?_⟩
      have hle : before.length + d.buffers.length ≤ b.rawBuffers.items.length := by
        rw [h, List.length_append, List.length_append]
        omega
      unfold UdpSendBatch.read
      rw [if_pos ⟨ha, hle⟩, h, List.append_assoc, List.drop_left]
      exact congrArg some List.take_left

/-- the induction goes through the datagrams; `before` grows with each of them -/
theorem entries_points (before : List Buf) (h : b.rawBuffers.items = before ++ descriptors ds) :
    List.Forall₂ (Points b) ds (entries b.rawBuffers.data before.length ds) := by
  induction ds generalizing before with
  | nil => exact .nil
  | cons d ds ih =>
    rw [descriptors_cons] at h
    refine .cons (entryAt_points before (descriptors ds) ?_) ?_
    · rw [h, List.append_assoc]
    · rw [← List.length_append]
      exact ih _ (by rw [h, List.append_assoc])

/-! ## Sending -/

theorem validNativeBuffers_eq {d : Datagram} {e : Entry} (h : Points b d e)
    (hfits : d.buffers.length < 2 ^ cfg.countBits) :
    validNativeBuffers cfg b e = some d.valid := by
  unfold validNativeBuffers
  cases hp : e.buffers with
  | none =>
    have hnil : d.buffers = [] := h.null.mp hp
    rw [Datagram.valid, hnil]
    rfl
  | some p =>
    have hne : d.buffers ≠ [] := fun hnil => by
      rw [h.null.mpr hnil] at hp
      cases hp
    have hz : ¬ e.count = 0 := by
      rw [h.count]
      exact fun hz => hne (List.eq_nil_of_length_eq_zero hz)
    have hlt : ¬ 2 ^ cfg.countBits ≤ e.count := by
      rw [h.count]
      exact Nat.not_le.mpr hfits
    dsimp only
    rw [if_neg (by simp [hz, hlt]), (h.own p hp).2]
    simp [Datagram.valid, hne]

theorem allValid_eq (h : List.Forall₂ (Points b) ds es)
    (hfits : ∀ d ∈ ds, d.buffers.length < 2 ^ cfg.countBits) :
    allValid cfg b es = some (ds.all Datagram.valid) := by
  induction h with
  | nil => rfl
  | @cons d e ds es hde _ ih =>
    unfold allValid
    rw [validNativeBuffers_eq hde (hfits d List.mem_cons_self), List.all_cons]
    cases d.valid with
    | true => exact ih fun x hx => hfits x (List.mem_cons_of_mem _ hx)
    | false => rfl

theorem mapM_range {g : Nat → Option Entry} (hg : ∀ k, g k = es[k]?) (n first : Nat)
    (hn : first + n = es.length) : (List.range' first n).mapM g = some (es.drop first) := by
  induction n generalizing first with
  | zero =>
    rw [List.drop_of_length_le (by omega)]
    rfl
  | succ n ih =>
    have hlt : first < es.length := by omega
    rw [List.range'_succ, List.mapM_cons, hg, List.getElem?_eq_getElem hlt, ih (first + 1) (by omega),
      List.drop_eq_getElem_cons hlt]
    rfl

/-- the arrays of a batch with datagrams are there -/
theorem rejects_iff (h : Shows cfg ds b) (first : Nat) :
    (b.view cfg).rejects cfg first = true ↔
      ¬ (first < ds.length ∧ ds.length - first < 2 ^ (cfg.countBits - 1)) := by
  unfold View.rejects
  rw [view_count h]
  simp only [Bool.or_eq_true, decide_eq_true_eq]
  constructor
  · rintro hrej ⟨hlt, hmax⟩
    have hne : ds ≠ [] := by
      rintro rfl
      cases hlt
    obtain ⟨a, ha⟩ := Vec.data_some (v := b.bufferArrays) (by
      rw [h.bufferArrays]
      exact fun hn => hne (List.eq_nil_of_length_eq_zero (by rw [← pointers_length, hn]; rfl)))
    obtain ⟨n, hn⟩ := Vec.data_some (v := b.bufferCounts) (by
      rw [h.bufferCounts]
      exact fun hn => hne (List.map_eq_nil_iff.mp hn))
    obtain ⟨p, hp⟩ := Vec.data_some (v := b.addresses) (by
      rw [h.addresses]
      exact fun hn => hne (List.map_eq_nil_iff.mp hn))
    rcases hrej with (((hle | hle) | hnone) | hnone) | hnone
    · omega
    · omega
    · rw [show (b.view cfg).buffers.data = some a from ha] at hnone
      cases hnone
    · rw [show (b.view cfg).bufferCounts.data = some n from hn] at hnone
      cases hnone
    · rw [show (b.view cfg).addresses.data = some p from hp] at hnone
      cases hnone
  · intro hout
    refine .inl (.inl (.inl ?_))
    omega

theorem submit_eq (h : Shows cfg ds b) {first : Nat} (hlt : first < ds.length) :
    submit cfg b first = some (if (ds.drop first).all Datagram.valid = true then
      .ok ((entries b.rawBuffers.data 0 ds).drop first) else .error einval) := by
  have hentries := mapM_range (view_entry h) (ds.length - first) first
    (by rw [entries_length]; omega)
  have hpoints : List.Forall₂ (Points b) (ds.drop first)
      ((entries b.rawBuffers.data 0 ds).drop first) :=
    List.forall₂_drop first (entries_points [] h.rawBuffers)
  have hfits : ∀ d ∈ ds.drop first, d.buffers.length < 2 ^ cfg.countBits :=
    fun d hd => h.fits d (List.mem_of_mem_drop hd)
  unfold submit
  rw [view_count h, hentries]
  show (allValid cfg b _).bind _ = _
  rw [allValid_eq hpoints hfits]
  rfl

/-- What is submitted: nothing, or all entries from `first` on. -/
theorem sendManyNow_eq (h : Shows cfg ds b) (ready : Bool) (first : Nat) :
    sendManyNow cfg ready b first = some (
      if ready = false then .error ebadf
      else if (first < ds.length ∧ ds.length - first < 2 ^ (cfg.countBits - 1)) ∧
          (ds.drop first).all Datagram.valid = true then
        .ok ((entries b.rawBuffers.data 0 ds).drop first)
      else .error einval) := by
  unfold sendManyNow
  cases ready with
  | false => rfl
  | true =>
    have hready : ¬ (!true) = true := by simp
    have hready' : ¬ true = false := by simp
    rw [if_neg hready, if_neg hready']
    by_cases hin : first < ds.length ∧ ds.length - first < 2 ^ (cfg.countBits - 1)
    · rw [if_neg fun hrej => (rejects_iff h first).mp hrej hin, submit_eq h hin.1]
      simp only [hin, and_self, true_and]
    · rw [if_pos ((rejects_iff h first).mpr hin), if_neg fun hall => hin hall.1]

theorem sendLoop_eq
    (h : ∀ first, (∃ code, sendManyNow cfg true b first = some (.error code)) ∨
      sendManyNow cfg true b first = some (.ok (es.drop first)))
    (ns : List Int) (first : Nat) : ∃ last, first ≤ last ∧
      sendLoop cfg b ns first = some ((es.drop first).take (last - first), last) := by
  induction ns generalizing first with
  | nil =>
    refine ⟨first, Nat.le_refl _, ?_⟩
    rw [Nat.sub_self]
    rfl
  | cons n ns ih =>
    unfold sendLoop
    rcases h first with ⟨code, heq⟩ | heq
    · rw [heq]
      refine ⟨first, Nat.le_refl _, ?_⟩
      rw [Nat.sub_self]
      rfl
    · rw [heq]
      dsimp only
      obtain ⟨k, hk⟩ : ∃ k, k = ((es.drop first).take n.toNat).length := ⟨_, rfl⟩
      have hsent : (es.drop first).take n.toNat = (es.drop first).take k := by
        rw [hk, List.length_take, ← List.take_take, List.take_length]
      obtain ⟨last, hle, hloop⟩ := ih (first + k)
      rw [← hk, hloop]
      refine ⟨last, by omega, ?_⟩
      show some (_, last) = _
      rw [hsent, ← List.drop_drop, ← List.take_add,
        show k + (last - (first + k)) = last - first by omega]

end

/-! ## The contract -/

/-- What holds of batch `i` with the datagrams `ds`. -/
structure Kept (cfg : Config) (w : World) (i : Nat) (ds : List Datagram) (es : List Entry) :
    Prop where
  /-- `view` shows one entry for each datagram, in their order -/
  count : ((w.mem.batch (.owner i)).view cfg).count = es.length
  entry : ∀ k, ((w.mem.batch (.owner i)).view cfg).entryAt k = es[k]?
  points : List.Forall₂ (Points (w.mem.batch (.owner i))) ds es
  /-- its pointers lead to a live block that no other vector and no other batch owns -/
  own : ∀ e ∈ es, ∀ p, e.buffers = some p → w.mem.heap.live p.1 = true ∧
    ∀ r f, (w.mem.batch r).data f = some p.1 → r = .owner i ∧ f = .rawBuffers
  /-- nothing is submitted, or all entries from the index on -/
  sends : ∀ ready first, sendManyNow cfg ready (w.mem.batch (.owner i)) first = some (
    if ready = false then .error ebadf
    else if (first < ds.length ∧ ds.length - first < 2 ^ (cfg.countBits - 1)) ∧
        (ds.drop first).all Datagram.valid = true then .ok (es.drop first)
    else .error einval)
  /-- a caller that goes on sends the datagrams between two indices, each of them once -/
  once : ∀ ns first, ∃ last, first ≤ last ∧
    sendLoop cfg (w.mem.batch (.owner i)) ns first = some ((es.drop first).take (last - first), last)

theorem Post.kept {cfg : Config} {w : World} {c : Nat → List Datagram}
    (h : Post cfg w.alive c w.mem) (i : Nat) :
    Kept cfg w i (c i) (entries (w.mem.batch (.owner i)).rawBuffers.data 0 (c i)) := by
  have hs := h.shows i
  have hpoints := entries_points [] hs.rawBuffers
  refine ⟨?_, view_entry hs, hpoints, ?_, sendManyNow_eq hs, ?_⟩
  · rw [view_count hs, entries_length]
  · intro e he p hp
    obtain ⟨d, -, hd⟩ : ∃ d ∈ c i, Points (w.mem.batch (.owner i)) d e := by
      obtain ⟨k, hk, rfl⟩ := List.mem_iff_getElem.mp he
      have hk' : k < (c i).length := by
        rw [hpoints.length_eq]
        exact hk
      exact ⟨(c i)[k], List.getElem_mem _, hpoints.get hk' hk⟩
    obtain ⟨hdata, -⟩ := hd.own p hp
    refine ⟨(h.held.live p.1).mpr ⟨(.owner i, .rawBuffers), hdata⟩, fun r f hf => ?_⟩
    have heq := h.held.single (r, f) (.owner i, .rawBuffers) p.1 hf hdata
    exact ⟨congrArg Prod.fst heq, congrArg Prod.snd heq⟩
  · refine sendLoop_eq fun first => ?_
    rw [sendManyNow_eq hs true first]
    by_cases hin : (first < (c i).length ∧ (c i).length - first < 2 ^ (cfg.countBits - 1)) ∧
        ((c i).drop first).all Datagram.valid = true
    · right
      rw [if_neg (by simp), if_pos hin]
    · left
      rw [if_neg (by simp), if_neg hin]
      exact ⟨einval, rfl⟩

/-- For all programs with batches and all failures of their allocations, the batches show and send
the datagrams that were added to them. -/
theorem batch_contract (cfg : Config) (as : List (Act × List (Option Addr))) (w : World)
    (hr : (sys cfg).run (sys cfg).init as = some w) (i : Nat) :
    ∃ es, Kept cfg w i (contents w.log i) es :=
  ⟨_, (run_post hr).kept i⟩

/-- Two datagrams; the buffers move with the second one.  A third one fails in its last allocation,
and the copy assignment of the other batch in its second. -/
def grown : List (Act × List (Option Addr)) :=
  [(.create 0, []), (.add 0 [⟨some 1, 2⟩] (some 7), [some 10, some 11, some 12, some 13, some 14]),
    (.create 1, []),
    (.add 0 [⟨some 3, 4⟩, ⟨none, 0⟩] none, [some 20, some 21, some 22, some 23, some 24]),
    (.add 0 [⟨some 5, 6⟩] none, [some 30, some 31, some 32, some 33, none]),
    (.copyAssign 1 0, [some 14, some 10, none])]

theorem batch_contract_grown : ∃ w, (sys ⟨32, 64⟩).run (sys ⟨32, 64⟩).init grown = some w ∧
    w.log.map Prod.snd = [true, true, true, true, false, false] ∧
    contents w.log 0 = [⟨[⟨some 1, 2⟩], some 7⟩, ⟨[⟨some 3, 4⟩, ⟨none, 0⟩], none⟩] ∧
    contents w.log 1 = [] ∧ ∃ es, Kept ⟨32, 64⟩ w 0 (contents w.log 0) es := by
  have hlog : ((sys ⟨32, 64⟩).run (sys ⟨32, 64⟩).init grown).map (·.log) =
      some ((grown.map Prod.fst).zip [true, true, true, true, false, false]) := by decide +kernel
  obtain ⟨w, hw, hl⟩ := Option.map_eq_some_iff.mp hlog
  refine ⟨w, hw, ?_, ?_, ?_, batch_contract ⟨32, 64⟩ grown w hw 0⟩
  · rw [hl]
    rfl
  · rw [hl]
    rfl
  · rw [hl]
    rfl

end SendBatch
