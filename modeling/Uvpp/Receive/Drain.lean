import Mathlib.Data.List.Nodup
import Uvpp.Receive.Model

/-!
# The loop over the pending handles

* `Haul`             what the loop has taken over after some rounds;
* `adoptLoop_some`   the loop ends: every round that goes on takes an entry from the queue;
* `Exit`             how it ends: with an empty queue, with a failure before or after the next
                     connection is initialised;
* `adoptLoop_exit`   there is no other way.
-/

namespace Receive
open Errno

namespace World
variable {w w' : World} {adopted : Bool} {r : Round} {rounds : Nat → Round}

/-! ## Termination -/

/-- a round that goes on took the first entry of the queue -/
theorem adoptRound_pending (h : w.adoptRound adopted r = (w', none)) :
    w'.pending.length < w.pending.length := by
  unfold adoptRound at h
  split at h
  · cases h
  split at h
  · cases h
  rename_i p rest hp
  dsimp only at h
  split at h
  · cases h
  split at h
  · cases h
  unfold adoptNext at h
  split at h
  · cases h
  unfold acceptInto at h
  split at h
  · cases h
  dsimp only at h
  split at h
  · cases h
  · cases h
    rw [hp]
    exact Nat.lt_succ_self _

theorem adoptLoop_some {fuel : Nat} (hfuel : w.pending.length < fuel) :
    ∃ x, adoptLoop fuel rounds w adopted = some x := by
  induction fuel generalizing w adopted rounds with
  | zero => cases hfuel
  | succ fuel ih =>
    unfold adoptLoop
    cases hr : w.adoptRound adopted (rounds 0) with
    | mk v b =>
      cases b with
      | some b => exact ⟨_, rfl⟩
      | none =>
        have hlt := adoptRound_pending hr
        exact ih (by omega)

/-- more rounds than needed change nothing -/
theorem adoptLoop_mono {fuel : Nat} {x : World × Bool}
    (h : adoptLoop fuel rounds w adopted = some x) (n : Nat) :
    adoptLoop (fuel + n) rounds w adopted = some x := by
  induction fuel generalizing w adopted rounds with
  | zero => cases h
  | succ fuel ih =>
    rw [Nat.succ_add]
    unfold adoptLoop at h ⊢
    cases hr : w.adoptRound adopted (rounds 0) with
    | mk v b =>
      rw [hr] at h
      cases b with
      | some b => exact h
      | none => exact ih h

end World

/-! ## What the loop does -/

/-- the two events of a handle that is taken over -/
def taken (x : Handle × Pending) : List Event := [.initialised x.1, .accepted x.1 x.2]

/-- The fields that the loop changes; `pairs` are the connections with the entries they got. -/
structure Haul where
  pairs : List (Handle × Pending)
  rest : List Pending
  capacity : Nat
  incoming : Option Handle
  next : Handle
  code : Int

def Haul.handles (d : Haul) : List Handle := d.pairs.map Prod.fst

def World.hauled (w : World) (d : Haul) : World :=
  { w with
    code := d.code
    pending := d.rest
    capacity := d.capacity
    incoming := d.incoming
    received := d.handles
    conn := fun h => if h ∈ d.handles then { initialized := true } else {}
    next := d.next
    log := w.log ++ d.pairs.flatMap taken }

structure Haul.Ok (w : World) (d : Haul) : Prop where
  queue : w.pending = d.pairs.map Prod.snd ++ d.rest
  tcp : ∀ x ∈ d.pairs, x.2.tcp = true
  nodup : d.handles.Nodup
  old : ∀ h ∈ d.handles, h < d.next
  incoming : ∀ h, d.incoming = some h → h < d.next ∧ h ∉ d.handles

/-- How the loop ends after the rounds of `d`. -/
inductive Exit (w : World) (d : Haul) : World → Bool → Prop
  | drained (hrest : d.rest = []) :
      Exit w d { w.hauled d with code := 0 } (decide (d.pairs ≠ []))
  | failed (x : Failure) (code : Int) (capacity : Nat) (incoming : Option Handle) (next : Handle)
      (hx : ∀ h, x ≠ .accept h) (hcode : code < 0) (hin : ∀ h, incoming = some h → h ∉ d.handles) :
      Exit w d
        { w.hauled d with
          code := code, closePipe := true, capacity := capacity, incoming := incoming, next := next
          log := w.log ++ d.pairs.flatMap taken ++ [.failed x] } true
  | unaccepted (h : Handle) (code : Int) (capacity : Nat) (next : Handle) (hh : h ∉ d.handles)
      (hcode : code < 0) :
      Exit w d
        { w.hauled d with
          code := code, closePipe := true, capacity := capacity, incoming := some h, next := next
          conn := Function.update (w.hauled d).conn h { initialized := true }
          log := w.log ++ d.pairs.flatMap taken ++ [.initialised h, .failed (.accept h)] } true

section
variable {w w' : World} {d : Haul} {r : Round} {rounds : Nat → Round}

/-- one entry more -/
def Haul.add (d : Haul) (h : Handle) (p : Pending) (rest : List Pending) (capacity : Nat)
    (next : Handle) (code : Int) : Haul :=
  { pairs := d.pairs ++ [(h, p)], rest := rest, capacity := capacity, incoming := none, next := next
    code := code }

theorem Haul.handles_add {h : Handle} {p : Pending} {rest : List Pending} {capacity : Nat}
    {next : Handle} {code : Int} :
    (d.add h p rest capacity next code).handles = d.handles ++ [h] := by
  simp [Haul.add, Haul.handles]

theorem Haul.Ok.add (hd : d.Ok w) {h : Handle} {p : Pending} {rest : List Pending}
    {capacity : Nat} {next : Handle} {code : Int} (hrest : d.rest = p :: rest)
    (hp : p.tcp = true) (hh : h ∉ d.handles) (hlt : h < next) (hle : d.next ≤ next) :
    (d.add h p rest capacity next code).Ok w where
  queue := by
    rw [hd.queue, hrest]
    simp [Haul.add]
  tcp x hx := by
    rcases List.mem_append.mp hx with hx | hx
    · exact hd.tcp x hx
    · rw [List.mem_singleton.mp hx]
      exact hp
  nodup := by
    rw [Haul.handles_add, List.nodup_append]
    refine ⟨hd.nodup, List.nodup_singleton h, ?_⟩
    intro a ha b hb hab
    rw [List.mem_singleton.mp hb] at hab
    exact hh (hab ▸ ha)
  old g hg := by
    rw [Haul.handles_add] at hg
    rcases List.mem_append.mp hg with hg | hg
    · exact Nat.lt_of_lt_of_le (hd.old g hg) hle
    · rw [List.mem_singleton.mp hg]
      exact hlt
  incoming g hg := by cases hg

/-- a connection more is initialised and has its entry -/
theorem hauled_add {h : Handle} {p : Pending} {rest : List Pending} {capacity : Nat}
    {next : Handle} {code : Int} :
    w.hauled (d.add h p rest capacity next code) = { w.hauled d with
      code := code, pending := rest, capacity := capacity, incoming := none, next := next
      received := d.handles ++ [h]
      conn := Function.update (w.hauled d).conn h { initialized := true }
      log := w.log ++ d.pairs.flatMap taken ++ [.initialised h, .accepted h p] } := by
  have hconn : (w.hauled (d.add h p rest capacity next code)).conn =
      Function.update (w.hauled d).conn h { initialized := true } := by
    funext g
    show (if g ∈ (d.add h p rest capacity next code).handles then _ else _) = _
    rw [Haul.handles_add]
    by_cases hg : g = h
    · subst hg
      simp
    · rw [Function.update_of_ne hg]
      simp [World.hauled, hg]
  have hlog : (w.hauled (d.add h p rest capacity next code)).log =
      w.log ++ d.pairs.flatMap taken ++ [.initialised h, .accepted h p] := by
    simp [World.hauled, Haul.add, taken]
  rw [← hconn, ← hlog, ← Haul.handles_add]
  rfl

/-- `uv_tcp_init` and `uv_accept` on a connection that is new to the loop -/
theorem acceptInto_exit {h : Handle} {p : Pending} {rest : List Pending} {capacity : Nat}
    {next : Handle} (hh : h ∉ d.handles) (hcap : d.handles.length < capacity) :
    (∃ v, World.acceptInto { w.hauled d with capacity := capacity, incoming := none, next := next }
        h p rest r = (v, some true) ∧ Exit w d v true) ∨
      ∃ code, World.acceptInto { w.hauled d with
        capacity := capacity, incoming := none, next := next } h p rest r =
          (w.hauled (d.add h p rest capacity next code), none) := by
  unfold World.acceptInto
  split
  · rename_i hinit
    refine .inl ⟨_, rfl, ?_⟩
    exact Exit.failed (w := w) (d := d) .init r.init capacity (some h) next nofun hinit
      fun g hg => Option.some.inj hg ▸ hh
  · dsimp only [World.setConn, World.emit]
    have hconn : (w.hauled d).conn h = {} := by simp [World.hauled, hh]
    split
    · rename_i haccept
      refine .inl ⟨_, rfl, ?_⟩
      have hexit := Exit.unaccepted (w := w) (d := d) h r.accept capacity next hh haccept
      simpa [World.fail, World.emit, World.hauled, hconn, hh] using hexit
    · refine .inr ⟨r.accept, ?_⟩
      have hroom : ¬ capacity ≤ d.handles.length := by omega
      rw [hauled_add]
      simp [World.hauled, hroom, hh]

/-- the next connection is new to the loop -/
theorem candidate_eq (hd : d.Ok w) (capacity : Nat) (allocates : Bool) :
    World.candidate { w.hauled d with capacity := capacity } allocates = none ∨
      ∃ h next, World.candidate { w.hauled d with capacity := capacity } allocates =
          some ({ w.hauled d with capacity := capacity, incoming := none, next := next }, h) ∧
        h ∉ d.handles ∧ h < next ∧ d.next ≤ next := by
  unfold World.candidate
  cases hin : d.incoming with
  | some h =>
    obtain ⟨hlt, hh⟩ := hd.incoming h hin
    exact .inr ⟨h, d.next, by simp [World.hauled, hin], hh, hlt, Nat.le_refl _⟩
  | none =>
    cases allocates with
    | false => exact .inl (by simp [World.hauled, hin])
    | true =>
      refine .inr ⟨d.next, d.next + 1, by simp [World.hauled, hin], fun hmem => ?_,
        Nat.lt_succ_self _, Nat.le_succ _⟩
      exact Nat.lt_irrefl _ (hd.old d.next hmem)

theorem adoptNext_exit (hd : d.Ok w) {p : Pending} {rest : List Pending} {capacity : Nat}
    (hrest : d.rest = p :: rest) (hp : p.tcp = true) (hcap : d.handles.length < capacity) :
    (∃ v, World.adoptNext { w.hauled d with capacity := capacity } p rest r = (v, some true) ∧
        Exit w d v true) ∨
      ∃ d', d'.Ok w ∧ d'.pairs ≠ [] ∧
        World.adoptNext { w.hauled d with capacity := capacity } p rest r =
          (w.hauled d', none) := by
  unfold World.adoptNext
  rcases candidate_eq hd capacity r.allocates with hnone | ⟨h, next, hsome, hh, hlt, hle⟩
  · rw [hnone]
    refine .inl ⟨_, rfl, ?_⟩
    exact Exit.failed (w := w) (d := d) .allocate enomem capacity d.incoming d.next nofun
      (by decide) fun h hin => (hd.incoming h hin).2
  · rw [hsome]
    rcases acceptInto_exit (r := r) hh hcap with hex | ⟨code, heq⟩
    · exact .inl hex
    · refine .inr ⟨_, hd.add hrest hp hh hlt hle, ?_, heq⟩
      simp [Haul.add]

theorem adoptRound_exit (hd : d.Ok w) :
    (∃ v b, (w.hauled d).adoptRound (decide (d.pairs ≠ [])) r = (v, some b) ∧ Exit w d v b) ∨
      ∃ d', d'.Ok w ∧ d'.pairs ≠ [] ∧
        (w.hauled d).adoptRound (decide (d.pairs ≠ [])) r = (w.hauled d', none) := by
  have hfail : ∀ x code, (∀ h, x ≠ .accept h) → code < 0 →
      Exit w d ((w.hauled d).fail x code) true := fun x code hx hcode =>
    Exit.failed (w := w) (d := d) x code d.capacity d.incoming d.next hx hcode
      fun h hin => (hd.incoming h hin).2
  unfold World.adoptRound
  split
  · exact .inl ⟨_, _, rfl, hfail .count _ nofun (by omega)⟩
  split
  · rename_i hrest
    exact .inl ⟨_, _, rfl, .drained hrest⟩
  rename_i p rest hrest
  dsimp only
  split
  · exact .inl ⟨_, _, rfl, hfail .kind _ nofun (by decide)⟩
  rename_i hp
  have hp : p.tcp = true := by simpa using hp
  split
  · exact .inl ⟨_, _, rfl, hfail .reserve _ nofun (by decide)⟩
  have hcap : d.handles.length < max d.capacity (d.handles.length + (rest.length + 1)) := by omega
  exact (adoptNext_exit hd hrest hp hcap).imp (fun ⟨v, heq, hex⟩ => ⟨v, true, heq, hex⟩) id

/-- The loop, from any haul on: the induction is on the rounds. -/
theorem hauled_exit {fuel : Nat} {b : Bool} (hd : d.Ok w)
    (h : World.adoptLoop fuel rounds (w.hauled d) (decide (d.pairs ≠ [])) = some (w', b)) :
    ∃ d', d'.Ok w ∧ Exit w d' w' b := by
  induction fuel generalizing d rounds with
  | zero => cases h
  | succ fuel ih =>
    unfold World.adoptLoop at h
    rcases adoptRound_exit (r := rounds 0) hd with ⟨v, b', heq, hexit⟩ | ⟨d', hd', hne, heq⟩
    · rw [heq] at h
      cases h
      exact ⟨d, hd, hexit⟩
    · rw [heq] at h
      have htrue : decide (d'.pairs ≠ []) = true := decide_eq_true hne
      rw [← htrue] at h
      exact ih hd' h

/-- an operation that has taken nothing over -/
structure Clean (w : World) : Prop where
  received : w.received = []
  conn : ∀ h, w.conn h = {}
  incoming : ∀ h, w.incoming = some h → h < w.next

theorem adoptPendingTcp_exit {b : Bool} (hw : Clean w)
    (h : w.adoptPendingTcp rounds = some (w', b)) : ∃ d, d.Ok w ∧ Exit w d w' b := by
  obtain ⟨d, hd⟩ : ∃ d : Haul, d = ⟨[], w.pending, w.capacity, w.incoming, w.next, w.code⟩ :=
    ⟨_, rfl⟩
  have hok : d.Ok w := by
    rw [hd]
    exact ⟨rfl, nofun, List.nodup_nil, nofun, fun h hin => ⟨hw.incoming h hin, nofun⟩⟩
  have hsame : w.hauled d = w := by
    have hconn : (w.hauled d).conn = w.conn := by
      funext h
      rw [hw.conn h, hd]
      rfl
    have hlog : (w.hauled d).log = w.log := by
      rw [hd]
      exact List.append_nil _
    have hrec : (w.hauled d).received = w.received := by
      rw [hw.received, hd]
      rfl
    calc w.hauled d
        = { w with
            conn := (w.hauled d).conn, log := (w.hauled d).log
            received := (w.hauled d).received } := by rw [hd]; rfl
      _ = w := by rw [hconn, hlog, hrec]
  have h' : World.adoptLoop (w.pending.length + 1) rounds (w.hauled d) (decide (d.pairs ≠ [])) =
      some (w', b) := by
    rw [hsame, hd]
    exact h
  exact hauled_exit hok h'

end

end Receive
