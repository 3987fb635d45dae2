import Mathlib.Logic.Equiv.Basic
import Uvpp.SendBatch.Model

/-!
# A batch is a list of datagrams

* `Datagram`, `Act.apply`, `contents`   what a batch is for: a list that grows at its end;
* `Shows`                  the five vectors hold such a list, with pointers into a given block;
* `At r s K`               all storage has one owner, the other batches are those of `s`, and `K` holds
                           of batch `r`;
* `append_triple`, ...     the operations, and that they change nothing when they throw.
-/

namespace SendBatch
open Throwing Storage

structure Datagram where
  buffers : List Buf
  address : SockAddr
deriving DecidableEq

/-- what an act does to the lists when it returns -/
def Act.apply (s : Nat → List Datagram) : Act → Nat → List Datagram
  | create i => Function.update s i []
  | add i buffers address => Function.update s i (s i ++ [⟨buffers, address⟩])
  | addBytes i base length address => Function.update s i (s i ++ [⟨[⟨base, length⟩], address⟩])
  | reserve _ _ _ => s
  | clear i => Function.update s i []
  | copyConstruct i j => Function.update s i (s j)
  | moveConstruct i j => Function.update (Function.update s i (s j)) j []
  | copyAssign i j => Function.update s i (s j)
  | moveAssign i j => Function.update (Function.update s i (s j)) j (s i)
  | destroy i => Function.update s i []

/-- the lists after a history; an act that threw did nothing -/
def contents (log : List (Act × Bool)) : Nat → List Datagram :=
  log.foldl (fun s x => if x.2 then x.1.apply s else s) fun _ => []

/-! ## The vectors of a list -/

def offsets : Nat → List Datagram → List Nat
  | _, [] => []
  | o, d :: ds => o :: offsets (o + d.buffers.length) ds

def pointers (data : Option Addr) : Nat → List Datagram → List Ptr
  | _, [] => []
  | o, d :: ds => bufferPointer data o d.buffers.length :: pointers data (o + d.buffers.length) ds

/-- all descriptors, one datagram after the other -/
def descriptors (ds : List Datagram) : List Buf := ds.flatMap (·.buffers)

/-- The vectors with one element for each datagram hold `ds`, with pointers into the block `data`. -/
structure Entries (cfg : Config) (data : Option Addr) (b : UdpSendBatch) (ds : List Datagram) :
    Prop where
  bufferStarts : b.bufferStarts.items = offsets 0 ds
  bufferCounts : b.bufferCounts.items = ds.map (·.buffers.length)
  addresses : b.addresses.items = ds.map (·.address)
  bufferArrays : b.bufferArrays.items = pointers data 0 ds
  fits : ∀ d ∈ ds, d.buffers.length < 2 ^ cfg.countBits
  count : ds.length < 2 ^ cfg.countBits

/-- The batch holds `ds`, with pointers into its own storage. -/
structure Shows (cfg : Config) (ds : List Datagram) (b : UdpSendBatch) : Prop
    extends Entries cfg b.rawBuffers.data b ds where
  rawBuffers : b.rawBuffers.items = descriptors ds

section
variable {o : Nat} {ds : List Datagram} {d : Datagram} {data : Option Addr}

theorem offsets_length : (offsets o ds).length = ds.length := by
  induction ds generalizing o with
  | nil => rfl
  | cons d ds ih => rw [offsets, List.length_cons, ih, List.length_cons]

theorem pointers_length : (pointers data o ds).length = ds.length := by
  induction ds generalizing o with
  | nil => rfl
  | cons d ds ih => rw [pointers, List.length_cons, ih, List.length_cons]

theorem descriptors_append {l : List Datagram} :
    descriptors (ds ++ l) = descriptors ds ++ descriptors l := List.flatMap_append

theorem descriptors_cons : descriptors (d :: ds) = d.buffers ++ descriptors ds := List.flatMap_cons

theorem descriptors_snoc : descriptors (ds ++ [d]) = descriptors ds ++ d.buffers := by
  rw [descriptors_append]
  exact congrArg _ (List.append_nil _)

theorem offsets_snoc :
    offsets o (ds ++ [d]) = offsets o ds ++ [o + (descriptors ds).length] := by
  induction ds generalizing o with
  | nil => rfl
  | cons x ds ih =>
    rw [List.cons_append, offsets, ih, offsets, descriptors_cons, List.length_append,
      Nat.add_assoc]
    rfl

theorem pointers_snoc : pointers data o (ds ++ [d]) =
    pointers data o ds ++ [bufferPointer data (o + (descriptors ds).length) d.buffers.length] := by
  induction ds generalizing o with
  | nil => rfl
  | cons x ds ih =>
    rw [List.cons_append, pointers, ih, pointers, descriptors_cons, List.length_append,
      Nat.add_assoc]
    rfl

/-- the loop of `rebuild_buffer_pointers` -/
theorem mapIdx_bufferPointer (l : List Ptr) (hl : l.length = ds.length) :
    (l.mapIdx fun i _ => bufferPointer data ((offsets o ds).getD i 0)
      ((ds.map (·.buffers.length)).getD i 0)) = pointers data o ds := by
  induction ds generalizing o l with
  | nil =>
    rw [List.eq_nil_of_length_eq_zero hl]
    rfl
  | cons d ds ih =>
    cases l with
    | nil => cases hl
    | cons p l =>
      rw [List.mapIdx_cons, pointers]
      congr 1
      exact ih l (Nat.succ.inj hl)

end

/-! ## One batch among others -/

def Mem.data (m : Mem) (x : Ref × Field) : Option Addr := (m.batch x.1).data x.2

/-- Every live block has one owner, the batches but `r` are those of `s`, and `K` holds of `r`. -/
structure At (r : Ref) (s : Ref → UdpSendBatch) (K : UdpSendBatch → Prop) (m : Mem) : Prop where
  held : Held m.heap m.data
  others : ∀ q, q ≠ r → m.batch q = s q
  this : K (m.batch r)

section
variable {α : Type} {cfg : Config} {r q : Ref} {s : Ref → UdpSendBatch}
  {K K' L : UdpSendBatch → Prop} {m : Mem} {ds : List Datagram}

theorem At.weaken (h : At r s K m) (hK : ∀ b, K b → K' b) : At r s K' m :=
  ⟨h.held, h.others, hK _ h.this⟩

theorem data_update {h : Heap} {b : UdpSendBatch} {field : Field} {new : Option Addr}
    (hb : b.data = Function.update (m.batch r).data field new) :
    Mem.data ⟨h, Function.update m.batch r b⟩ = Function.update m.data (r, field) new := by
  funext x
  obtain ⟨q, f⟩ := x
  show (Function.update m.batch r b q).data f = _
  by_cases hq : q = r
  · subst hq
    rw [Function.update_self, hb]
    by_cases hf : f = field
    · rw [hf, Function.update_self, Function.update_self]
    · rw [Function.update_of_ne hf, Function.update_of_ne fun h => hf (Prod.mk.inj h).2]
      rfl
  · rw [Function.update_of_ne hq, Function.update_of_ne fun h => hq (Prod.mk.inj h).1]
    rfl

theorem Part.exec_run (p : Part α) (f : Vec α → Cmd Fault Heap (Vec α)) :
    exec (p.run r f) m =
      match exec (f (p.get (m.batch r))) m.heap with
      | (.ok v, h) => (.ok (), ⟨h, Function.update m.batch r (p.set (m.batch r) v)⟩)
      | (.error e, h) => (.error e, { m with heap := h }) := rfl

/-- a vector of `r` is replaced -/
theorem At.set {p : Part α} {h : Heap} {v : Vec α} (hm : At r s K m)
    (hc : Change m.heap h (p.get (m.batch r)).data v.data) (hv : K' (p.set (m.batch r) v)) :
    At r s K' ⟨h, Function.update m.batch r (p.set (m.batch r) v)⟩ := by
  refine ⟨?_, ?_, ?_⟩
  · rw [data_update (p.data_set _ _)]
    rw [← p.data_get] at hc
    exact Held.change (i := (r, p.field)) hm.held hc
  · intro q hq
    dsimp only
    rw [Function.update_of_ne hq]
    exact hm.others q hq
  · dsimp only
    rw [Function.update_self]
    exact hv

theorem At.live {p : Part α} (hm : At r s K m) (a : Addr)
    (ha : (p.get (m.batch r)).data = some a) : m.heap.live a = true := by
  rw [← p.data_get] at ha
  exact (hm.held.live a).mpr ⟨(r, p.field), ha⟩

/-- the rule for an operation of one vector -/
theorem Part.run_triple {p : Part α} {f : Vec α → Cmd Fault Heap (Vec α)}
    (hf : ∀ b, K b → Does (f (p.get b)) (p.get b).data fun v => K' (p.set b v))
    (hL : ∀ b, K b → L b) : Triple (At r s K) (p.run r f) (fun _ => At r s K') (At r s L) := by
  intro m hm
  rcases hf _ hm.this m.heap hm.live with ⟨v, h, hex, hc, hv⟩ | ⟨e, h, hex, hl⟩
  · exact .inl ⟨(), _, by rw [p.exec_run, hex], hm.set hc hv⟩
  · refine .inr ⟨e, { m with heap := h }, by rw [p.exec_run, hex], ?_, hm.others, hL _ hm.this⟩
    refine ⟨fun a => ?_, hm.held.single⟩
    rw [hl]
    exact hm.held.live a

/-- and for one that stays in its block: it does not throw -/
theorem Part.run_pure {p : Part α} {f : Vec α → Cmd Fault Heap (Vec α)} {E : Mem → Prop}
    (hf : ∀ b, K b → ∃ v, f (p.get b) = pure v ∧ v.data = (p.get b).data ∧ K' (p.set b v)) :
    Triple (At r s K) (p.run r f) (fun _ => At r s K') E := by
  intro m hm
  obtain ⟨v, hv, hd, hK⟩ := hf _ hm.this
  have hex : exec (f (p.get (m.batch r))) m.heap = (.ok v, m.heap) := by
    rw [hv]
    rfl
  refine .inl ⟨(), _, by rw [p.exec_run, hex], hm.set ?_ hK⟩
  rw [hd]
  exact .refl hm.live rfl

/-- what is read of a batch -/
theorem batch_triple {E : Mem → Prop} :
    Triple (At r s K) (batch r) (fun b => At r s fun b' => K b' ∧ b' = b) E :=
  Triple.read fun _ hm => ⟨hm.held, hm.others, hm.this, rfl⟩

theorem checkCount_triple {n : Nat} (hL : ∀ b, K b → L b) :
    Triple (At r s K) (checkCount cfg n) (fun _ => At r s fun b => K b ∧ n < 2 ^ cfg.countBits)
      (At r s L) := by
  unfold checkCount
  split
  · exact Triple.throw fun m hm => hm.weaken hL
  · rename_i hn
    exact Triple.pure fun m hm => hm.weaken fun b hb => ⟨hb, Nat.lt_of_not_le hn⟩

/-- the vectors hold the same elements -/
theorem Entries.congr {data : Option Addr} {b b' : UdpSendBatch} (h : Entries cfg data b ds)
    (hs : b'.bufferStarts.items = b.bufferStarts.items)
    (hc : b'.bufferCounts.items = b.bufferCounts.items)
    (ha : b'.addresses.items = b.addresses.items)
    (hp : b'.bufferArrays.items = b.bufferArrays.items) : Entries cfg data b' ds where
  bufferStarts := hs.trans h.bufferStarts
  bufferCounts := hc.trans h.bufferCounts
  addresses := ha.trans h.addresses
  bufferArrays := hp.trans h.bufferArrays
  fits := h.fits
  count := h.count

/-- room for `n` elements more -/
def Free (n : Nat) (v : Vec α) : Prop := v.items.length + n ≤ v.capacity

theorem pushBack_free {v : Vec α} {x : α} (h : Free 1 v) :
    ∃ v', v.pushBack x = pure v' ∧ v'.data = v.data ∧ v'.items = v.items ++ [x] :=
  ⟨_, insert_room (by rw [List.length_append]; exact h), rfl, rfl⟩

theorem resize_free {v : Vec α} {n : Nat} {x : α} (h : n ≤ v.capacity) :
    ∃ v', v.resize n x = pure v' ∧ v'.data = v.data ∧ v'.items.length = n := by
  unfold Vec.resize
  split
  · rename_i hn
    exact ⟨_, rfl, rfl, List.length_take_of_le hn⟩
  · rename_i hn
    have hlen : (v.items ++ List.replicate (n - v.items.length) x).length = n := by
      rw [List.length_append, List.length_replicate]
      omega
    exact ⟨_, insert_room (by omega), rfl, hlen⟩

/-! ## The operations -/

theorem rebuildBufferPointers_triple (ds : List Datagram) {E : Mem → Prop}
    (hK : ∀ b, K b → b.bufferStarts.items = offsets 0 ds ∧
      b.bufferCounts.items = ds.map (·.buffers.length) ∧ ds.length ≤ b.bufferArrays.capacity)
    (hK' : ∀ b v, K b → v.items = pointers b.rawBuffers.data 0 ds →
      K' { b with bufferArrays := v }) :
    Triple (At r s K) (rebuildBufferPointers r) (fun _ => At r s K') E := by
  unfold rebuildBufferPointers
  refine batch_triple.bind fun b => ?_
  refine Triple.bind (Q := fun _ => At r s fun b' => K b ∧ ∃ v : Vec Ptr,
    v.items.length = ds.length ∧ b' = { b with bufferArrays := v }) ?_ fun _ => ?_
  · refine Part.run_pure ?_
    intro b' hb
    obtain ⟨hb, heq⟩ := hb
    subst heq
    obtain ⟨hs, hc, hcap⟩ := hK _ hb
    rw [← offsets_length (o := 0), ← hs] at hcap
    obtain ⟨v, hv, hd, hlen⟩ := resize_free (x := none) hcap
    refine ⟨v, hv, hd, hb, v, ?_, rfl⟩
    rw [hlen, hs, offsets_length]
  · refine Part.run_pure ?_
    rintro _ ⟨hb, v, hlen, rfl⟩
    obtain ⟨hs, hc, -⟩ := hK _ hb
    refine ⟨assignPointers b v, rfl, rfl, hK' b _ hb ?_⟩
    show v.items.mapIdx _ = _
    rw [hs, hc]
    exact mapIdx_bufferPointer v.items hlen

/-- room in the vectors with one element for each datagram -/
def Reserved (i j k l : Nat) (b : UdpSendBatch) : Prop :=
  Free i b.bufferStarts ∧ Free j b.bufferCounts ∧ Free k b.addresses ∧ Free l b.bufferArrays

/-- a vector has more room, and holds the same -/
theorem reserve_free {v : Vec α} {n : Nat} :
    Does (v.reserve (v.items.length + n)) v.data fun v' => v'.items = v.items ∧ Free n v' := by
  refine (reserve_does v _).weaken fun v' hv => ⟨hv.1, ?_⟩
  unfold Free
  rw [hv.1]
  exact hv.2.1

theorem Shows.setStarts {b : UdpSendBatch} {v : Vec Nat} (h : Shows cfg ds b)
    (hv : v.items = b.bufferStarts.items) : Shows cfg ds { b with bufferStarts := v } :=
  ⟨h.toEntries.congr hv rfl rfl rfl, h.rawBuffers⟩

theorem Shows.setCounts {b : UdpSendBatch} {v : Vec Nat} (h : Shows cfg ds b)
    (hv : v.items = b.bufferCounts.items) : Shows cfg ds { b with bufferCounts := v } :=
  ⟨h.toEntries.congr rfl hv rfl rfl, h.rawBuffers⟩

theorem Shows.setAddresses {b : UdpSendBatch} {v : Vec SockAddr} (h : Shows cfg ds b)
    (hv : v.items = b.addresses.items) : Shows cfg ds { b with addresses := v } :=
  ⟨h.toEntries.congr rfl rfl hv rfl, h.rawBuffers⟩

theorem Shows.setArrays {b : UdpSendBatch} {v : Vec Ptr} (h : Shows cfg ds b)
    (hv : v.items = b.bufferArrays.items) : Shows cfg ds { b with bufferArrays := v } :=
  ⟨h.toEntries.congr rfl rfl rfl hv, h.rawBuffers⟩

theorem Shows.reserved {b : UdpSendBatch} : Reserved 0 0 0 0 b :=
  ⟨b.bufferStarts.room, b.bufferCounts.room, b.addresses.room, b.bufferArrays.room⟩

theorem reserveEntry_triple {n : Nat} :
    Triple (At r s (Shows cfg ds)) (reserveEntry cfg r n)
      (fun _ => At r s fun b => (Shows cfg ds b ∧ Reserved 1 1 1 1 b) ∧
        n < 2 ^ cfg.countBits ∧ ds.length + 1 < 2 ^ cfg.countBits)
      (At r s (Shows cfg ds)) := by
  unfold reserveEntry
  refine (checkCount_triple fun b hb => hb).bind fun _ => batch_triple.bind fun b₀ => ?_
  refine (checkCount_triple fun b hb => hb.1.1).bind fun _ => ?_
  have hlen : ∀ b, (((Shows cfg ds b ∧ n < 2 ^ cfg.countBits) ∧ b = b₀) ∧
      b₀.bufferCounts.items.length + 1 < 2 ^ cfg.countBits) →
      n < 2 ^ cfg.countBits ∧ ds.length + 1 < 2 ^ cfg.countBits := by
    rintro b ⟨⟨⟨hb, hn⟩, rfl⟩, hlt⟩
    rw [hb.bufferCounts, List.length_map] at hlt
    exact ⟨hn, hlt⟩
  refine Triple.bind (Q := fun _ => At r s fun b => (Shows cfg ds b ∧ Reserved 1 0 0 0 b) ∧
    n < 2 ^ cfg.countBits ∧ ds.length + 1 < 2 ^ cfg.countBits) ?_ fun _ => ?_
  · refine Part.run_triple (fun b hb => reserve_free.weaken fun v hv => ?_) fun b hb => hb.1.1.1
    exact ⟨⟨hb.1.1.1.setStarts hv.1, hv.2, Shows.reserved.2⟩, hlen b hb⟩
  refine Triple.bind (Q := fun _ => At r s fun b => (Shows cfg ds b ∧ Reserved 1 1 0 0 b) ∧
    n < 2 ^ cfg.countBits ∧ ds.length + 1 < 2 ^ cfg.countBits) ?_ fun _ => ?_
  · refine Part.run_triple (fun b hb => reserve_free.weaken fun v hv => ?_) fun b hb => hb.1.1
    obtain ⟨⟨hb, h1, h2, h3⟩, hn⟩ := hb
    exact ⟨⟨hb.setCounts hv.1, h1, hv.2, h3⟩, hn⟩
  refine Triple.bind (Q := fun _ => At r s fun b => (Shows cfg ds b ∧ Reserved 1 1 1 0 b) ∧
    n < 2 ^ cfg.countBits ∧ ds.length + 1 < 2 ^ cfg.countBits) ?_ fun _ => ?_
  · refine Part.run_triple (fun b hb => reserve_free.weaken fun v hv => ?_) fun b hb => hb.1.1
    obtain ⟨⟨hb, h1, h2, h3, h4⟩, hn⟩ := hb
    exact ⟨⟨hb.setAddresses hv.1, h1, h2, hv.2, h4⟩, hn⟩
  · refine Part.run_triple (fun b hb => reserve_free.weaken fun v hv => ?_) fun b hb => hb.1.1
    obtain ⟨⟨hb, h1, h2, h3, h4⟩, hn⟩ := hb
    exact ⟨⟨hb.setArrays hv.1, h1, h2, h3, hv.2⟩, hn⟩

/-- the elements of the five vectors -/
def Lists (R : List Buf) (S C : List Nat) (A : List SockAddr) (P : List Ptr) (b : UdpSendBatch) :
    Prop :=
  b.rawBuffers.items = R ∧ b.bufferStarts.items = S ∧ b.bufferCounts.items = C ∧
    b.addresses.items = A ∧ b.bufferArrays.items = P

theorem shows_of_lists {b : UdpSendBatch} (h : Lists (descriptors ds) (offsets 0 ds)
      (ds.map (·.buffers.length)) (ds.map (·.address)) (pointers b.rawBuffers.data 0 ds) b)
    (hfits : ∀ d ∈ ds, d.buffers.length < 2 ^ cfg.countBits)
    (hcount : ds.length < 2 ^ cfg.countBits) : Shows cfg ds b := by
  obtain ⟨h1, h2, h3, h4, h5⟩ := h
  exact ⟨⟨h2, h3, h4, h5, hfits, hcount⟩, h1⟩

/-- the descriptors are there, and `data` is the block from before they came -/
structure Appended (cfg : Config) (data : Option Addr) (ds : List Datagram) (buffers : List Buf)
    (b : UdpSendBatch) : Prop where
  rawBuffers : b.rawBuffers.items = descriptors ds ++ buffers
  entries : Entries cfg data b ds
  reserved : Reserved 1 1 1 1 b
  fits : buffers.length < 2 ^ cfg.countBits
  count : ds.length + 1 < 2 ^ cfg.countBits

/-- Nothing throws any more: there is room for the new elements. -/
theorem appendDatagram_triple (data : Option Addr) {buffers : List Buf} {address : SockAddr}
    {flag : Bool} {E : Mem → Prop} :
    Triple (At r s fun b => Appended cfg data ds buffers b ∧ flag = (b.rawBuffers.data != data))
      (appendDatagram cfg r (descriptors ds).length buffers.length address flag)
      (fun _ => At r s (Shows cfg (ds ++ [⟨buffers, address⟩]))) E := by
  obtain ⟨d, hd⟩ : ∃ d : Datagram, d = ⟨buffers, address⟩ := ⟨_, rfl⟩
  have hR : descriptors ds ++ buffers = descriptors (ds ++ [d]) := by rw [descriptors_snoc, hd]
  have hS : offsets 0 ds ++ [(descriptors ds).length] = offsets 0 (ds ++ [d]) := by
    rw [offsets_snoc, Nat.zero_add]
  have hC : ds.map (·.buffers.length) ++ [buffers.length] =
      (ds ++ [d]).map (·.buffers.length) := by
    rw [List.map_append, hd]
    rfl
  have hA : ds.map (·.address) ++ [address] = (ds ++ [d]).map (·.address) := by
    rw [List.map_append, hd]
    rfl
  refine Triple.given (p := (∀ x ∈ ds ++ [d], x.buffers.length < 2 ^ cfg.countBits) ∧
    (ds ++ [d]).length < 2 ^ cfg.countBits) ?_ fun ⟨hfits, hcount⟩ => ?_
  · rintro m ⟨-, -, h, -⟩
    refine ⟨fun x hx => ?_, by rw [List.length_append]; exact h.count⟩
    rcases List.mem_append.mp hx with hx | hx
    · exact h.entries.fits x hx
    · rw [List.mem_singleton.mp hx, hd]
      exact h.fits
  have hnarrow : narrow cfg buffers.length = buffers.length := by
    refine Nat.mod_eq_of_lt ?_
    have hmem := hfits d (List.mem_append_right _ (List.mem_singleton.mpr rfl))
    rw [hd] at hmem
    exact hmem
  rw [← hd]
  unfold appendDatagram
  refine Triple.bind (Q := fun _ => At r s fun b => Lists (descriptors (ds ++ [d]))
    (offsets 0 (ds ++ [d])) (ds.map (·.buffers.length)) (ds.map (·.address)) (pointers data 0 ds) b ∧
    Reserved 0 1 1 1 b ∧ flag = (b.rawBuffers.data != data)) ?_ fun _ => ?_
  · refine Part.run_pure fun b ⟨h, hflag⟩ => ?_
    obtain ⟨f1, f2⟩ := h.reserved
    obtain ⟨v, hv, hdata, hitems⟩ := pushBack_free f1
    refine ⟨v, hv, hdata, ⟨h.rawBuffers.trans hR, ?_, h.entries.bufferCounts, h.entries.addresses,
      h.entries.bufferArrays⟩, ⟨v.room, f2⟩, hflag⟩
    rw [← hS, ← h.entries.bufferStarts]
    exact hitems
  refine Triple.bind (Q := fun _ => At r s fun b => Lists (descriptors (ds ++ [d]))
    (offsets 0 (ds ++ [d])) ((ds ++ [d]).map (·.buffers.length)) (ds.map (·.address))
    (pointers data 0 ds) b ∧ Reserved 0 0 1 1 b ∧ flag = (b.rawBuffers.data != data)) ?_ fun _ => ?_
  · refine Part.run_pure fun b ⟨⟨l1, l2, l3, l4⟩, ⟨f1, f2, f3⟩, hflag⟩ => ?_
    obtain ⟨v, hv, hdata, hitems⟩ := pushBack_free f2
    refine ⟨v, hv, hdata, ⟨l1, l2, ?_, l4⟩, ⟨f1, v.room, f3⟩, hflag⟩
    rw [← hC, ← l3]
    rw [hnarrow] at hitems
    exact hitems
  refine Triple.bind (Q := fun _ => At r s fun b => Lists (descriptors (ds ++ [d]))
    (offsets 0 (ds ++ [d])) ((ds ++ [d]).map (·.buffers.length)) ((ds ++ [d]).map (·.address))
    (pointers data 0 ds) b ∧ Reserved 0 0 0 1 b ∧ flag = (b.rawBuffers.data != data)) ?_ fun _ => ?_
  · refine Part.run_pure fun b ⟨⟨l1, l2, l3, l4, l5⟩, ⟨f1, f2, f3, f4⟩, hflag⟩ => ?_
    obtain ⟨v, hv, hdata, hitems⟩ := pushBack_free f3
    refine ⟨v, hv, hdata, ⟨l1, l2, l3, ?_, l5⟩, ⟨f1, f2, v.room, f4⟩, hflag⟩
    rw [← hA, ← l4]
    exact hitems
  cases flag with
  | true =>
    refine rebuildBufferPointers_triple (ds ++ [d]) ?_ ?_
    · rintro b ⟨⟨l1, l2, l3, l4, l5⟩, ⟨f1, f2, f3, f4⟩, hflag⟩
      refine ⟨l2, l3, ?_⟩
      unfold Free at f4
      rw [l5, pointers_length] at f4
      rw [List.length_append]
      exact f4
    · rintro b v ⟨⟨l1, l2, l3, l4, l5⟩, -, -⟩ hv
      exact shows_of_lists ⟨l1, l2, l3, l4, hv⟩ hfits hcount
  | false =>
    refine batch_triple.bind fun b₀ => Part.run_pure ?_
    rintro b ⟨⟨⟨l1, l2, l3, l4, l5⟩, ⟨f1, f2, f3, f4⟩, hflag⟩, rfl⟩
    have hsame : b.rawBuffers.data = data := by simpa using hflag.symm
    obtain ⟨v, hv, hdata, hitems⟩ := pushBack_free f4
    refine ⟨v, hv, hdata, shows_of_lists ⟨l1, l2, l3, l4, ?_⟩ hfits hcount⟩
    show v.items = pointers b.rawBuffers.data 0 (ds ++ [d])
    rw [hitems, l5, hsame, pointers_snoc, Nat.zero_add, hd]

/-- more descriptors in the same block -/
theorem Appended.push {data : Option Addr} {done l : List Buf} {b : UdpSendBatch} {v : Vec Buf}
    (h : Appended cfg data ds done b) (hv : v.items = b.rawBuffers.items ++ l)
    (hfits : (done ++ l).length < 2 ^ cfg.countBits) :
    Appended cfg data ds (done ++ l) { b with rawBuffers := v } where
  rawBuffers := by
    rw [← List.append_assoc, ← h.rawBuffers]
    exact hv
  entries := h.entries.congr rfl rfl rfl rfl
  reserved := h.reserved
  fits := hfits
  count := h.count

/-- one `push_back` after the other -/
theorem pushAll_triple {data : Option Addr} (done l : List Buf) {E : Mem → Prop}
    (hfits : (done ++ l).length < 2 ^ cfg.countBits) :
    Triple (At r s fun b => Appended cfg data ds done b ∧ Free l.length b.rawBuffers)
      (l.forM fun buffer => Part.rawBuffers.run r (·.pushBack buffer))
      (fun _ => At r s (Appended cfg data ds (done ++ l))) E := by
  induction l generalizing done with
  | nil =>
    rw [List.append_nil]
    exact Triple.pure fun m hm => hm.weaken fun b hb => hb.1
  | cons x l ih =>
    have hassoc : done ++ x :: l = done ++ [x] ++ l := by simp
    rw [hassoc] at hfits ⊢
    have hone : (done ++ [x]).length < 2 ^ cfg.countBits := by
      rw [List.length_append] at hfits
      omega
    refine Triple.bind (Q := fun _ => At r s fun b => Appended cfg data ds (done ++ [x]) b ∧
      Free l.length b.rawBuffers) ?_ fun _ => ih _ hfits
    refine Part.run_pure fun b ⟨h, hfree⟩ => ?_
    unfold Free at hfree
    rw [List.length_cons] at hfree
    have hroom : (b.rawBuffers.items ++ [x]).length ≤ b.rawBuffers.capacity := by
      rw [List.length_append, List.length_singleton]
      omega
    refine ⟨b.rawBuffers.store _ hroom, insert_room hroom, rfl, h.push rfl hone, ?_⟩
    show (b.rawBuffers.items ++ [x]).length + l.length ≤ b.rawBuffers.capacity
    rw [List.length_append, List.length_singleton]
    omega

/-- all at once -/
theorem insert_triple {data : Option Addr} {l : List Buf} {E : Mem → Prop}
    (hfits : l.length < 2 ^ cfg.countBits) :
    Triple (At r s fun b => Appended cfg data ds [] b ∧ Free l.length b.rawBuffers)
      (Part.rawBuffers.run r (·.insert l)) (fun _ => At r s (Appended cfg data ds l)) E := by
  refine Part.run_pure fun b ⟨h, hfree⟩ => ?_
  have hroom : (b.rawBuffers.items ++ l).length ≤ b.rawBuffers.capacity := by
    rw [List.length_append]
    exact hfree
  exact ⟨b.rawBuffers.store _ hroom, insert_room hroom, rfl, h.push rfl hfits⟩

/-- A datagram more, or nothing. -/
theorem appendBy_triple {buffers : List Buf} {address : SockAddr} {push : M Unit}
    (hpush : ∀ data, buffers.length < 2 ^ cfg.countBits →
      Triple (At r s fun b => Appended cfg data ds [] b ∧ Free buffers.length b.rawBuffers) push
        (fun _ => At r s (Appended cfg data ds buffers)) (At r s (Shows cfg ds))) :
    Triple (At r s (Shows cfg ds)) (appendBy cfg r buffers.length address push)
      (fun _ => At r s (Shows cfg (ds ++ [⟨buffers, address⟩]))) (At r s (Shows cfg ds)) := by
  unfold appendBy
  refine reserveEntry_triple.bind fun _ => batch_triple.bind fun before => ?_
  refine Triple.given (p := buffers.length < 2 ^ cfg.countBits) (fun m hm => hm.this.1.2.1)
    fun hn => ?_
  refine Triple.bind (Q := fun _ => At r s fun b =>
    Appended cfg before.rawBuffers.data ds [] b ∧ Free buffers.length b.rawBuffers) ?_ fun _ => ?_
  · refine Part.run_triple (fun b hb => reserve_free.weaken fun v hv => ?_) fun b hb => hb.1.1.1
    obtain ⟨⟨⟨hb, hres⟩, -, hcount⟩, rfl⟩ := hb
    refine ⟨⟨?_, hb.toEntries.congr rfl rfl rfl rfl, hres, Nat.two_pow_pos _, hcount⟩, hv.2⟩
    rw [List.append_nil, ← hb.rawBuffers]
    exact hv.1
  refine batch_triple.bind fun reserved => ?_
  refine Triple.given (p := reserved.rawBuffers.items.length = (descriptors ds).length) ?_
    fun hfirst => ?_
  · rintro m ⟨-, -, ⟨h, -⟩, rfl⟩
    rw [h.rawBuffers, List.append_nil]
  rw [hfirst]
  refine ((hpush before.rawBuffers.data hn).weaken (fun m hm => hm.weaken fun b hb => hb.1)
    (fun _ m hm => hm) fun m hm => hm).bind fun _ => ?_
  refine batch_triple.bind fun b₀ => ?_
  refine (appendDatagram_triple before.rawBuffers.data).weaken (fun m hm => hm.weaken ?_) (fun _ m hm => hm) fun m hm => hm
  rintro b ⟨hb, rfl⟩
  exact ⟨hb, rfl⟩

theorem appendViews_triple {buffers : List Buf} {address : SockAddr} :
    Triple (At r s (Shows cfg ds)) (appendViews cfg r buffers address)
      (fun _ => At r s (Shows cfg (ds ++ [⟨buffers, address⟩]))) (At r s (Shows cfg ds)) :=
  appendBy_triple fun _ hn => pushAll_triple [] buffers hn

theorem appendNative_triple {buffers : List Buf} {address : SockAddr} :
    Triple (At r s (Shows cfg ds)) (appendNative cfg r buffers address)
      (fun _ => At r s (Shows cfg (ds ++ [⟨buffers, address⟩]))) (At r s (Shows cfg ds)) :=
  appendBy_triple fun _ hn => insert_triple hn

theorem addBytes_triple {base : Option Nat} {length : Nat} {address : SockAddr} :
    Triple (At r s (Shows cfg ds)) (addBytes cfg r base length address)
      (fun _ => At r s (Shows cfg (ds ++ [⟨[⟨base, length⟩], address⟩])))
      (At r s (Shows cfg ds)) := by
  unfold addBytes
  split
  · exact Triple.throw fun m hm => hm
  · exact appendNative_triple

/-- More room, and nothing else. -/
theorem reserve_triple {datagramCount bufferCount : Nat} :
    Triple (At r s (Shows cfg ds)) (reserve cfg r datagramCount bufferCount)
      (fun _ => At r s (Shows cfg ds)) (At r s (Shows cfg ds)) := by
  unfold reserve
  refine (checkCount_triple fun b hb => hb).bind fun _ => ?_
  refine (checkCount_triple fun b hb => hb.1).bind fun _ => ?_
  refine Triple.bind (Q := fun _ => At r s (Shows cfg ds)) ?_ fun _ => ?_
  · exact Part.run_triple (fun b hb => (reserve_does _ _).weaken fun v hv =>
      hb.1.1.setStarts hv.1) fun b hb => hb.1.1
  refine Triple.bind (Q := fun _ => At r s (Shows cfg ds)) ?_ fun _ => ?_
  · exact Part.run_triple (fun b hb => (reserve_does _ _).weaken fun v hv => hb.setCounts hv.1)
      fun b hb => hb
  refine Triple.bind (Q := fun _ => At r s (Shows cfg ds)) ?_ fun _ => ?_
  · exact Part.run_triple (fun b hb => (reserve_does _ _).weaken fun v hv => hb.setAddresses hv.1)
      fun b hb => hb
  refine Triple.bind (Q := fun _ => At r s (Shows cfg ds)) ?_ fun _ => ?_
  · exact Part.run_triple (fun b hb => (reserve_does _ _).weaken fun v hv => hb.setArrays hv.1)
      fun b hb => hb
  refine batch_triple.bind fun before => ?_
  refine Triple.bind (Q := fun _ => At r s fun b => b.rawBuffers.items = descriptors ds ∧
    Entries cfg before.rawBuffers.data b ds) ?_ fun _ => ?_
  · refine Part.run_triple (fun b hb => (reserve_does _ _).weaken fun v hv => ?_) fun b hb => hb.1
    obtain ⟨hb, rfl⟩ := hb
    exact ⟨hv.1.trans hb.rawBuffers, hb.toEntries.congr rfl rfl rfl rfl⟩
  refine batch_triple.bind fun b₀ => ?_
  split
  · refine rebuildBufferPointers_triple ds ?_ ?_
    · rintro b ⟨⟨-, h⟩, -⟩
      refine ⟨h.bufferStarts, h.bufferCounts, ?_⟩
      rw [← pointers_length (o := 0), ← h.bufferArrays]
      exact b.bufferArrays.room
    · rintro b v ⟨⟨hr, h⟩, -⟩ hv
      exact ⟨⟨h.bufferStarts, h.bufferCounts, h.addresses, hv, h.fits, h.count⟩, hr⟩
  · rename_i hsame
    refine Triple.pure fun m hm => hm.weaken ?_
    rintro b ⟨⟨hr, h⟩, rfl⟩
    have hsame : b.rawBuffers.data = before.rawBuffers.data := by simpa using hsame
    rw [← hsame] at h
    exact ⟨h, hr⟩

end

end SendBatch
