import Mathlib.Algebra.Group.Nat.Defs
import Uvpp.Machine.Run
import Uvpp.Machine.Storage
import Uvpp.Core.Errno

/-!
# `udp_send_batch` and `send_many_now`

The batch of datagrams of `handles/udp.hpp`: five vectors side by side, one of which caches pointers
into another one.

* `UdpSendBatch`, `Part`     the batch and its vectors;
* `append`, `reserve`, ...   its operations; each allocation can fail, and then they throw;
* `Act`, `step`              batches that are made, filled, copied, moved and destroyed;
* `sendManyNow`              what is submitted to libuv.

A batch of the program is `Ref.owner i`; `Ref.copy` is the local batch of the copy assignment.  Those
that do not exist are empty.
-/

namespace SendBatch
open Errno Throwing Storage

structure Config where
  /-- the width of `unsigned int` -/
  countBits : Nat
  /-- the width of the native length type -/
  lengthBits : Nat

/-- a `uv_buf_t` -/
structure Buf where
  base : Option Nat
  len : Nat
deriving DecidableEq

/-- a `uv_buf_t *`: a block and an index, or null -/
abbrev Ptr := Option (Addr × Nat)

/-- a `sockaddr *` of the program -/
abbrev SockAddr := Option Nat

inductive Field where
  | rawBuffers
  | bufferStarts
  | bufferCounts
  | addresses
  | bufferArrays
deriving DecidableEq

structure UdpSendBatch where
  rawBuffers : Vec Buf := {}
  bufferStarts : Vec Nat := {}
  bufferCounts : Vec Nat := {}
  addresses : Vec SockAddr := {}
  bufferArrays : Vec Ptr := {}

/-- `data()` of the vectors -/
def UdpSendBatch.data (b : UdpSendBatch) : Field → Option Addr
  | .rawBuffers => b.rawBuffers.data
  | .bufferStarts => b.bufferStarts.data
  | .bufferCounts => b.bufferCounts.data
  | .addresses => b.addresses.data
  | .bufferArrays => b.bufferArrays.data

/-- One of the vectors. -/
structure Part (α : Type) where
  field : Field
  get : UdpSendBatch → Vec α
  set : UdpSendBatch → Vec α → UdpSendBatch
  data_get : ∀ b, b.data field = (get b).data
  data_set : ∀ b v, (set b v).data = Function.update b.data field v.data

namespace Part

def rawBuffers : Part Buf :=
  ⟨.rawBuffers, (·.rawBuffers), fun b v => { b with rawBuffers := v }, fun _ => rfl,
    fun _ _ => by funext f; cases f <;> rfl⟩

def bufferStarts : Part Nat :=
  ⟨.bufferStarts, (·.bufferStarts), fun b v => { b with bufferStarts := v }, fun _ => rfl,
    fun _ _ => by funext f; cases f <;> rfl⟩

def bufferCounts : Part Nat :=
  ⟨.bufferCounts, (·.bufferCounts), fun b v => { b with bufferCounts := v }, fun _ => rfl,
    fun _ _ => by funext f; cases f <;> rfl⟩

def addresses : Part SockAddr :=
  ⟨.addresses, (·.addresses), fun b v => { b with addresses := v }, fun _ => rfl,
    fun _ _ => by funext f; cases f <;> rfl⟩

def bufferArrays : Part Ptr :=
  ⟨.bufferArrays, (·.bufferArrays), fun b v => { b with bufferArrays := v }, fun _ => rfl,
    fun _ _ => by funext f; cases f <;> rfl⟩

end Part

inductive Ref where
  | owner (i : Nat)
  | copy
deriving DecidableEq

structure Mem where
  heap : Heap := {}
  batch : Ref → UdpSendBatch := fun _ => {}

abbrev M := Cmd Fault Mem

/-- an operation of one vector -/
def Part.run {α : Type} (p : Part α) (r : Ref) (f : Vec α → Cmd Fault Heap (Vec α)) : M Unit :=
  fun m =>
    match exec (f (p.get (m.batch r))) m.heap with
    | (.ok v, h) => (.ok (), ⟨h, Function.update m.batch r (p.set (m.batch r) v)⟩)
    | (.error e, h) => (.error e, { m with heap := h })

/-! ## The operations -/

def batch (r : Ref) : M UdpSendBatch := do return (← get).batch r

def checkCount (cfg : Config) (count : Nat) : M Unit :=
  if 2 ^ cfg.countBits ≤ count then throw .lengthError else pure ()

/-- `narrow_buffer_count_unchecked` -/
def narrow (cfg : Config) (count : Nat) : Nat := count % 2 ^ cfg.countBits

/-- `data` is that of `raw_buffers_` -/
def bufferPointer (data : Option Addr) (first count : Nat) : Ptr :=
  if count = 0 then none else data.map (·, first)

/-- all elements of `v` are assigned, by their index -/
def assignPointers (b : UdpSendBatch) (v : Vec Ptr) : Vec Ptr :=
  v.store
    (v.items.mapIdx fun index _ => bufferPointer b.rawBuffers.data
      (b.bufferStarts.items.getD index 0) (b.bufferCounts.items.getD index 0))
    (by rw [List.length_mapIdx]; exact v.room)

def rebuildBufferPointers (r : Ref) : M Unit := do
  let b ← batch r
  Part.bufferArrays.run r (·.resize b.bufferStarts.items.length none)
  Part.bufferArrays.run r fun v => pure (assignPointers b v)

def appendDatagram (cfg : Config) (r : Ref) (first count : Nat) (address : SockAddr)
    (bufferStorageReallocated : Bool) : M Unit := do
  Part.bufferStarts.run r (·.pushBack first)
  Part.bufferCounts.run r (·.pushBack (narrow cfg count))
  Part.addresses.run r (·.pushBack address)
  if bufferStorageReallocated then rebuildBufferPointers r
  else
    let b ← batch r
    Part.bufferArrays.run r (·.pushBack (bufferPointer b.rawBuffers.data first count))

/-- the checks and the first reservations of both `append` -/
def reserveEntry (cfg : Config) (r : Ref) (count : Nat) : M Unit := do
  checkCount cfg count
  let b ← batch r
  checkCount cfg (b.bufferCounts.items.length + 1)
  Part.bufferStarts.run r fun v => v.reserve (v.items.length + 1)
  Part.bufferCounts.run r fun v => v.reserve (v.items.length + 1)
  Part.addresses.run r fun v => v.reserve (v.items.length + 1)
  Part.bufferArrays.run r fun v => v.reserve (v.items.length + 1)

/-- both `append`; `push` adds the descriptors -/
def appendBy (cfg : Config) (r : Ref) (count : Nat) (address : SockAddr) (push : M Unit) :
    M Unit := do
  reserveEntry cfg r count
  let before ← batch r
  Part.rawBuffers.run r fun v => v.reserve (v.items.length + count)
  let reserved ← batch r
  push
  let b ← batch r
  appendDatagram cfg r reserved.rawBuffers.items.length count address
    (b.rawBuffers.data != before.rawBuffers.data)

/-- `append` of a span of `buffer_view` -/
def appendViews (cfg : Config) (r : Ref) (buffers : List Buf) (address : SockAddr) : M Unit :=
  appendBy cfg r buffers.length address
    (buffers.forM fun buffer => Part.rawBuffers.run r (·.pushBack buffer))

/-- `append` of a span of `uv_buf_t` -/
def appendNative (cfg : Config) (r : Ref) (buffers : List Buf) (address : SockAddr) : M Unit :=
  appendBy cfg r buffers.length address (Part.rawBuffers.run r (·.insert buffers))

/-- `add` of a span of bytes -/
def addBytes (cfg : Config) (r : Ref) (base : Option Nat) (length : Nat) (address : SockAddr) :
    M Unit :=
  if 2 ^ cfg.lengthBits ≤ length then throw .lengthError
  else appendNative cfg r [⟨base, length⟩] address

def reserve (cfg : Config) (r : Ref) (datagramCount bufferCount : Nat) : M Unit := do
  checkCount cfg datagramCount
  checkCount cfg bufferCount
  Part.bufferStarts.run r (·.reserve datagramCount)
  Part.bufferCounts.run r (·.reserve datagramCount)
  Part.addresses.run r (·.reserve datagramCount)
  Part.bufferArrays.run r (·.reserve datagramCount)
  let before ← batch r
  Part.rawBuffers.run r (·.reserve bufferCount)
  let b ← batch r
  if b.rawBuffers.data != before.rawBuffers.data then rebuildBufferPointers r else pure ()

namespace Mem

def clear (r : Ref) (m : Mem) : Mem :=
  let b := m.batch r
  let cleared : UdpSendBatch :=
    ⟨b.rawBuffers.clear, b.bufferStarts.clear, b.bufferCounts.clear, b.addresses.clear,
      b.bufferArrays.clear⟩
  { m with batch := Function.update m.batch r cleared }

/-- the destructor -/
def destroy (r : Ref) (m : Mem) : Mem :=
  let b := m.batch r
  { heap := release b.rawBuffers.data (release b.bufferStarts.data (release b.bufferCounts.data
      (release b.addresses.data (release b.bufferArrays.data m.heap))))
    batch := Function.update m.batch r {} }

def swap (r s : Ref) (m : Mem) : Mem :=
  { m with batch := Function.update (Function.update m.batch r (m.batch s)) s (m.batch r) }

/-- the move constructor; the vectors of the source are empty after it -/
def moveConstruct (r s : Ref) (m : Mem) : Mem :=
  { m with batch := Function.update (Function.update m.batch r (m.batch s)) s {} }

end Mem

/-- the copy constructor; when it throws, the members that exist are destroyed -/
def copyConstruct (r other : Ref) : M Unit :=
  unwind (do
    let b ← batch other
    Part.rawBuffers.run r fun _ => Vec.build b.rawBuffers.items
    Part.bufferStarts.run r fun _ => Vec.build b.bufferStarts.items
    Part.bufferCounts.run r fun _ => Vec.build b.bufferCounts.items
    Part.addresses.run r fun _ => Vec.build b.addresses.items
    Part.bufferArrays.run r fun _ => Vec.build (List.replicate b.bufferArrays.items.length none)
    rebuildBufferPointers r) (Mem.destroy r)

def copyAssign (r other : Ref) : M Unit :=
  if r = other then pure ()
  else do
    copyConstruct .copy other
    modify (Mem.swap r .copy)
    modify (Mem.destroy .copy)

def moveAssign (r other : Ref) : M Unit :=
  if r = other then pure () else modify (Mem.swap r other)

/-! ## Programs -/

inductive Act where
  | create (i : Nat)
  | add (i : Nat) (buffers : List Buf) (address : SockAddr)
  | addBytes (i : Nat) (base : Option Nat) (length : Nat) (address : SockAddr)
  | reserve (i datagramCount bufferCount : Nat)
  | clear (i : Nat)
  /-- batch `i` is made from batch `j` -/
  | copyConstruct (i j : Nat)
  | moveConstruct (i j : Nat)
  | copyAssign (i j : Nat)
  | moveAssign (i j : Nat)
  | destroy (i : Nat)
deriving DecidableEq

namespace Act

def run (cfg : Config) : Act → M Unit
  | create _ => pure ()
  | add i buffers address => appendViews cfg (.owner i) buffers address
  | addBytes i base length address => SendBatch.addBytes cfg (.owner i) base length address
  | reserve i datagramCount bufferCount =>
    SendBatch.reserve cfg (.owner i) datagramCount bufferCount
  | clear i => modify (Mem.clear (.owner i))
  | copyConstruct i j => SendBatch.copyConstruct (.owner i) (.owner j)
  | moveConstruct i j => modify (Mem.moveConstruct (.owner i) (.owner j))
  | copyAssign i j => SendBatch.copyAssign (.owner i) (.owner j)
  | moveAssign i j => SendBatch.moveAssign (.owner i) (.owner j)
  | destroy i => modify (Mem.destroy (.owner i))

/-- the batches that the act uses exist, and the one that it makes does not -/
def allowed (alive : Nat → Bool) : Act → Bool
  | create i => !alive i
  | add i _ _ | addBytes i _ _ _ | reserve i _ _ | clear i | destroy i => alive i
  | copyConstruct i j | moveConstruct i j => !alive i && alive j
  | copyAssign i j | moveAssign i j => alive i && alive j

/-- the batches after the act returned -/
def lives (alive : Nat → Bool) : Act → Nat → Bool
  | create i | copyConstruct i _ | moveConstruct i _ => Function.update alive i true
  | destroy i => Function.update alive i false
  | _ => alive

end Act

structure World where
  mem : Mem := {}
  alive : Nat → Bool := fun _ => false
  /-- the acts, and whether they returned -/
  log : List (Act × Bool) := []

/-- an act, with what the allocations in it return -/
def step (cfg : Config) (w : World) (x : Act × List (Option Addr)) : Option World :=
  if x.1.allowed w.alive then
    match exec (x.1.run cfg) { w.mem with heap := { w.mem.heap with answers := x.2 } } with
    | (.ok _, m) => some ⟨m, x.1.lives w.alive, w.log ++ [(x.1, true)]⟩
    | (.error _, m) => some ⟨m, w.alive, w.log ++ [(x.1, false)]⟩
  else none

def sys (cfg : Config) : Sys World (Act × List (Option Addr)) := ⟨{}, step cfg⟩

/-! ## Sending -/

/-- what `view` shows of one datagram -/
structure Entry where
  buffers : Ptr
  count : Nat
  address : SockAddr
deriving DecidableEq

/-- `udp_send_batch_view` -/
structure View where
  count : Nat
  buffers : Vec Ptr
  bufferCounts : Vec Nat
  addresses : Vec SockAddr

def UdpSendBatch.view (cfg : Config) (b : UdpSendBatch) : View :=
  ⟨narrow cfg b.bufferArrays.items.length, b.bufferArrays, b.bufferCounts, b.addresses⟩

/-- the elements of the three arrays at one index -/
def View.entryAt (v : View) (index : Nat) : Option Entry :=
  match v.buffers.items[index]?, v.bufferCounts.items[index]?, v.addresses.items[index]? with
  | some p, some n, some a => some ⟨p, n, a⟩
  | _, _, _ => none

/-- the descriptors behind a pointer; what is not in the storage of this batch cannot be read -/
def UdpSendBatch.read (b : UdpSendBatch) (p : Addr × Nat) (count : Nat) : Option (List Buf) :=
  if b.rawBuffers.data = some p.1 ∧ p.2 + count ≤ b.rawBuffers.items.length then
    some ((b.rawBuffers.items.drop p.2).take count)
  else none

def validNativeBuffers (cfg : Config) (b : UdpSendBatch) (e : Entry) : Option Bool :=
  match e.buffers with
  | none => some false
  | some p =>
    if e.count = 0 || 2 ^ cfg.countBits ≤ e.count then some false
    else (b.read p e.count).map (·.all fun x => x.len = 0 || x.base.isSome)

/-- the loop over the entries, up to the first invalid one -/
def allValid (cfg : Config) (b : UdpSendBatch) : List Entry → Option Bool
  | [] => some true
  | e :: es =>
    match validNativeBuffers cfg b e with
    | some true => allValid cfg b es
    | r => r

/-- the index is past the end, the rest is longer than `INT_MAX`, or an array is null -/
def View.rejects (cfg : Config) (v : View) (first : Nat) : Bool :=
  v.count ≤ first || 2 ^ (cfg.countBits - 1) ≤ v.count - first || v.buffers.data.isNone ||
    v.bufferCounts.data.isNone || v.addresses.data.isNone

/-- the loop over the rest, and the call of libuv -/
def submit (cfg : Config) (b : UdpSendBatch) (first : Nat) : Option (Except Int (List Entry)) := do
  let entries ←
    (List.range' first ((b.view cfg).count - first)).mapM (b.view cfg).entryAt
  let valid ← allValid cfg b entries
  return if valid then .ok entries else .error einval

/-- The entries that `uv_udp_try_send2` gets, or the error without a call; nothing if memory is read
that is not there. -/
def sendManyNow (cfg : Config) (ready : Bool) (b : UdpSendBatch) (first : Nat) :
    Option (Except Int (List Entry)) :=
  if !ready then some (.error ebadf)
  else if (b.view cfg).rejects cfg first then some (.error einval)
  else submit cfg b first

/-- A caller that goes on after the datagrams that were sent.  The list holds what the calls of
`uv_udp_try_send2` return: an error, or how many of the first entries were sent. -/
def sendLoop (cfg : Config) (b : UdpSendBatch) : List Int → Nat → Option (List Entry × Nat)
  | [], first => some ([], first)
  | n :: ns, first =>
    match sendManyNow cfg true b first with
    | none => none
    | some (.error _) => some ([], first)
    | some (.ok entries) =>
      let sent := entries.take n.toNat
      (sendLoop cfg b ns (first + sent.length)).map fun x => (sent ++ x.1, x.2)

end SendBatch
