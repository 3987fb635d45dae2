import Mathlib.Algebra.Group.Nat.Defs
import Mathlib.Order.Lattice

/-!
# The options of a raw process

`raw::process_options` of `handles/process.hpp` and what `submit_spawn` makes of them for `uv_spawn`.
A `char *` is the text that C code reads there; of the overloads for lvalues and rvalues there is one.
A call may throw where it allocates, and `none` is undefined behaviour.

* `Setter.apply`            the functions that set the members, one after the other;
* `Setter.thrown`           what one of them leaves when it throws;
* `ProcessOptions.native`   `uv_process_options_t`: vectors of pointers that end with a null;
* `Plan`                    what a caller asks for: an environment or none, a descriptor table, a set
                            of flags;
* `Shows`                   what libuv reads is the plan;
* `options_shown`           for all calls in any order.
-/

namespace RawProcess

abbrev Bytes := List UInt8

/-- `c_str()`, as a C function reads it -/
def cStr (s : Bytes) : Bytes := s.takeWhile (· ≠ 0)

inductive StdioData where
  | none
  | fd (fd : Int)
  | stream (stream : Nat)
deriving DecidableEq

/-- `uv_stdio_container_t`; all zero it is `UV_IGNORE` -/
structure StdioContainer where
  flags : Nat := 0
  data : StdioData := .none
deriving DecidableEq

namespace ProcessStdio

def ignore : StdioContainer := {}
def inheritFd (fd : Int) : StdioContainer := { flags := 0x02, data := .fd fd }
def inheritStream (stream : Nat) : StdioContainer := { flags := 0x04, data := .stream stream }
def createPipe (stream flags : Nat) : StdioContainer := { flags := 0x01 ||| flags, data := .stream stream }
def readablePipe (stream : Nat) : StdioContainer := createPipe stream 0x10
def writablePipe (stream : Nat) : StdioContainer := createPipe stream 0x20
def duplexPipe (stream : Nat) : StdioContainer := createPipe stream (0x10 ||| 0x20)

end ProcessStdio

/-- `uv_process_flags`, by the number of the bit -/
inductive Flag where
  | setuid
  | setgid
  | windowsVerbatimArguments
  | detached
  | windowsHide
  | windowsHideConsole
  | windowsHideGui
  | windowsFilePathExactName
deriving DecidableEq

def Flag.bit : Flag → Nat
  | .setuid => 0
  | .setgid => 1
  | .windowsVerbatimArguments => 2
  | .detached => 3
  | .windowsHide => 4
  | .windowsHideConsole => 5
  | .windowsHideGui => 6
  | .windowsFilePathExactName => 7

structure ProcessOptions where
  file : Bytes
  arguments : List Bytes := []
  inheritParentEnvironment : Bool := true
  environment : List Bytes := []
  workingDirectory : Bytes := []
  flags : BitVec 32 := 0
  uid : Nat := 0
  gid : Nat := 0
  stdioEntries : List StdioContainer := []

inductive Setter where
  | arg (value : Bytes)
  | args (values : List Bytes)
  | cwd (path : Bytes)
  | inheritEnvironment
  | emptyEnvironment
  | env (entry : Bytes)
  | envPair (key value : Bytes)
  | stdio (entries : List StdioContainer)
  | setStdio (fd : UInt64) (entry : StdioContainer)
  | inheritStdio
  | setUid (value : Nat)
  | setGid (value : Nat)
  | processFlag (f : Flag) (enable : Bool)

namespace Setter

def ignoreStdin : Setter := .setStdio 0 ProcessStdio.ignore
def ignoreStdout : Setter := .setStdio 1 ProcessStdio.ignore
def ignoreStderr : Setter := .setStdio 2 ProcessStdio.ignore
def inheritStdin : Setter := .setStdio 0 (ProcessStdio.inheritFd 0)
def inheritStdout : Setter := .setStdio 1 (ProcessStdio.inheritFd 1)
def inheritStderr : Setter := .setStdio 2 (ProcessStdio.inheritFd 2)
def pipeStdin (stream : Nat) : Setter := .setStdio 0 (ProcessStdio.readablePipe stream)
def pipeStdout (stream : Nat) : Setter := .setStdio 1 (ProcessStdio.writablePipe stream)
def pipeStderr (stream : Nat) : Setter := .setStdio 2 (ProcessStdio.writablePipe stream)
def detached : Bool → Setter := .processFlag .detached
def windowsVerbatimArguments : Bool → Setter := .processFlag .windowsVerbatimArguments
def windowsHide : Bool → Setter := .processFlag .windowsHide
def windowsHideConsole : Bool → Setter := .processFlag .windowsHideConsole
def windowsHideGui : Bool → Setter := .processFlag .windowsHideGui
def windowsFilePathExactName : Bool → Setter := .processFlag .windowsFilePathExactName

end Setter

namespace ProcessOptions

def setProcessFlag (o : ProcessOptions) (f : Flag) (enable : Bool) : ProcessOptions :=
  if enable then { o with flags := o.flags ||| BitVec.twoPow 32 f.bit }
  else { o with flags := o.flags &&& ~~~BitVec.twoPow 32 f.bit }

/-- `resize`; the new entries are all zero -/
def resize (l : List StdioContainer) (n : Nat) : List StdioContainer :=
  l.take n ++ List.replicate (n - l.length) ProcessStdio.ignore

/-- `fd + 1` is a `std::size_t`, and nothing checks the index -/
def setStdio (o : ProcessOptions) (fd : UInt64) (entry : StdioContainer) : Option ProcessOptions :=
  let entries := if o.stdioEntries.length ≤ fd.toNat then resize o.stdioEntries (fd + 1).toNat
    else o.stdioEntries
  if fd.toNat < entries.length then some { o with stdioEntries := entries.set fd.toNat entry }
  else none

/-- the calls in `inherit_stdio`: an index and a descriptor -/
def inherited : List (UInt64 × Int) := [(0, 0), (1, 1), (2, 2)]

/-- the first `n` of them -/
def inheritStdio (o : ProcessOptions) (n : Nat) : Option ProcessOptions :=
  (inherited.take n).foldlM (fun o d => o.setStdio d.1 (ProcessStdio.inheritFd d.2)) o

def addEnvironment (o : ProcessOptions) (entry : Bytes) : ProcessOptions :=
  { o with inheritParentEnvironment := false, environment := o.environment ++ [entry] }

end ProcessOptions

namespace Setter

def apply (o : ProcessOptions) : Setter → Option ProcessOptions
  | .arg value => some { o with arguments := o.arguments ++ [value] }
  | .args values => some { o with arguments := o.arguments ++ values }
  | .cwd path => some { o with workingDirectory := path }
  | .inheritEnvironment => some { o with inheritParentEnvironment := true, environment := [] }
  | .emptyEnvironment => some { o with inheritParentEnvironment := false, environment := [] }
  | .env entry => some (o.addEnvironment entry)
  | .envPair key value => some (o.addEnvironment (key ++ [61] ++ value))
  | .stdio entries => some { o with stdioEntries := entries }
  | .setStdio fd entry => o.setStdio fd entry
  | .inheritStdio => o.inheritStdio 3
  | .setUid value => some ({ o with uid := value }.setProcessFlag .setuid true)
  | .setGid value => some ({ o with gid := value }.setProcessFlag .setgid true)
  | .processFlag f enable => some (o.setProcessFlag f enable)

/-- The call throws after `n` allocations.  `assign` may have freed the old entries by then; the
functions that are `noexcept` return. -/
def thrown (o : ProcessOptions) (n : Nat) : Setter → Option ProcessOptions
  | .arg _ | .cwd _ | .setStdio .. => some o
  -- the first allocation is that of `reserve`
  | .args values => some { o with arguments := o.arguments ++ values.take (n - 1) }
  | .env _ | .envPair .. => some { o with inheritParentEnvironment := false }
  | .stdio _ => some (if n = 0 then o else { o with stdioEntries := [] })
  | .inheritStdio => o.inheritStdio n
  | s => s.apply o

/-- the index plus one is a `std::size_t` too -/
def InRange : Setter → Prop
  | .setStdio fd _ => fd ≠ 18446744073709551615
  | _ => True

end Setter

structure SetterCall where
  setter : Setter
  /-- after how many allocations it throws -/
  throws : Option Nat := none

def SetterCall.apply (o : ProcessOptions) (c : SetterCall) : Option ProcessOptions :=
  match c.throws with
  | some n => c.setter.thrown o n
  | none => c.setter.apply o

/-- `uv_process_options_t`; a null pointer is `none` -/
structure NativeOptions where
  file : Bytes
  args : List (Option Bytes)
  env : Option (List (Option Bytes))
  cwd : Option Bytes
  flags : BitVec 32
  stdioCount : Int
  stdio : Option (List StdioContainer)
  uid : Nat
  gid : Nat
deriving DecidableEq

/-- the pointers and the null behind them -/
def pointers (l : List Bytes) : List (Option Bytes) := l.map (some ∘ cStr) ++ [none]

/-- the part of `submit_spawn` before the call -/
def ProcessOptions.native (o : ProcessOptions) : NativeOptions :=
  let args := pointers (o.file :: o.arguments)
  let env := if o.inheritParentEnvironment then [] else pointers o.environment
  { file := cStr o.file
    args := args
    env := if env.isEmpty then none else some env
    cwd := if o.workingDirectory.isEmpty then none else some (cStr o.workingDirectory)
    flags := o.flags
    stdioCount := (BitVec.ofNat 32 o.stdioEntries.length).toInt
    stdio := if o.stdioEntries.isEmpty then none else some o.stdioEntries
    uid := o.uid
    gid := o.gid }

/-! ## what is asked for -/

structure Plan where
  arguments : List Bytes := []
  /-- `none` is the environment of the parent -/
  environment : Option (List Bytes) := none
  workingDirectory : Bytes := []
  stdio : Nat → StdioContainer := fun _ => ProcessStdio.ignore
  /-- the first descriptor that is not passed -/
  count : Nat := 0
  flags : Flag → Bool := fun _ => false
  uid : Nat := 0
  gid : Nat := 0

namespace Plan

def connect (p : Plan) (fd : Nat) (entry : StdioContainer) : Plan :=
  { p with stdio := Function.update p.stdio fd entry, count := max p.count (fd + 1) }

def inheritStdio (p : Plan) (n : Nat) : Plan :=
  (ProcessOptions.inherited.take n).foldl
    (fun p d => p.connect d.1.toNat (ProcessStdio.inheritFd d.2)) p

def add (p : Plan) (entry : Bytes) : Plan :=
  { p with environment := some (p.environment.getD [] ++ [entry]) }

def apply (p : Plan) : Setter → Plan
  | .arg value => { p with arguments := p.arguments ++ [value] }
  | .args values => { p with arguments := p.arguments ++ values }
  | .cwd path => { p with workingDirectory := path }
  | .inheritEnvironment => { p with environment := none }
  | .emptyEnvironment => { p with environment := some [] }
  | .env entry => p.add entry
  | .envPair key value => p.add (key ++ [61] ++ value)
  | .stdio entries =>
    { p with stdio := fun fd => entries.getD fd ProcessStdio.ignore, count := entries.length }
  | .setStdio fd entry => p.connect fd.toNat entry
  | .inheritStdio => p.inheritStdio 3
  | .setUid value => { p with uid := value, flags := Function.update p.flags .setuid true }
  | .setGid value => { p with gid := value, flags := Function.update p.flags .setgid true }
  | .processFlag f enable => { p with flags := Function.update p.flags f enable }

/-- What is left of a call that throws: the arguments before the one that failed, an environment of
the child's own, possibly an empty table. -/
def thrown (p : Plan) (n : Nat) : Setter → Plan
  | .arg _ | .cwd _ | .setStdio .. => p
  | .args values => { p with arguments := p.arguments ++ values.take (n - 1) }
  | .env _ | .envPair .. => { p with environment := some (p.environment.getD []) }
  | .stdio _ => if n = 0 then p else { p with stdio := fun _ => ProcessStdio.ignore, count := 0 }
  | .inheritStdio => p.inheritStdio n
  | s => p.apply s

def call (p : Plan) (c : SetterCall) : Plan :=
  match c.throws with
  | some n => p.thrown n c.setter
  | none => p.apply c.setter

end Plan

/-- the texts up to the null -/
def readStrings : List (Option Bytes) → List Bytes
  | some s :: l => s :: readStrings l
  | _ => []

/-- What libuv reads in the options: the child has this command line, this environment if the
parent has `parent`, these descriptors. -/
structure Shows (n : NativeOptions) (path : Bytes) (p : Plan) : Prop where
  file : n.file = cStr path
  argv : readStrings n.args = cStr path :: p.arguments.map cStr
  environ : ∀ parent, (n.env.map readStrings).getD parent =
    (p.environment.map fun l => l.map cStr).getD parent
  cwd : n.cwd = if p.workingDirectory = [] then none else some (cStr p.workingDirectory)
  stdio : n.stdioCount = p.count ∧ (n.stdio.getD []).length = p.count ∧
    ∀ fd, (n.stdio.getD []).getD fd ProcessStdio.ignore = p.stdio fd
  flags : ∀ f : Flag, n.flags.getLsbD f.bit = p.flags f
  ids : n.uid = p.uid ∧ n.gid = p.gid

section
variable {file : Bytes} {o : ProcessOptions} {p : Plan}

theorem readStrings_pointers (l : List Bytes) : readStrings (pointers l) = l.map cStr := by
  induction l with
  | nil => rfl
  | cons s l ih =>
    show cStr s :: readStrings (pointers l) = _
    rw [ih]
    rfl

theorem Flag.bit_lt (f : Flag) : f.bit < 32 := by cases f <;> decide

theorem Flag.bit_inj {f g : Flag} (h : f.bit = g.bit) : f = g := by
  cases f <;> cases g <;> first | rfl | cases h

/-- the members of the options, and what was asked for -/
structure Encodes (file : Bytes) (o : ProcessOptions) (p : Plan) : Prop where
  file : o.file = file
  arguments : o.arguments = p.arguments
  environment : p.environment = if o.inheritParentEnvironment then none else some o.environment
  /-- so that the first entry after `inherit_environment` starts a new list -/
  fresh : o.inheritParentEnvironment = true → o.environment = []
  cwd : o.workingDirectory = p.workingDirectory
  count : o.stdioEntries.length = p.count
  stdio : ∀ fd, o.stdioEntries.getD fd ProcessStdio.ignore = p.stdio fd
  flags : ∀ f : Flag, o.flags.getLsbD f.bit = p.flags f
  ids : o.uid = p.uid ∧ o.gid = p.gid

theorem Encodes.make (file : Bytes) : Encodes file { file := file } {} where
  file := rfl
  arguments := rfl
  environment := rfl
  fresh _ := rfl
  cwd := rfl
  count := rfl
  stdio _ := rfl
  flags f := by
    show (0#32).getLsbD f.bit = false
    simp
  ids := ⟨rfl, rfl⟩

theorem setProcessFlag_flags (f g : Flag) (enable : Bool) :
    (o.setProcessFlag f enable).flags.getLsbD g.bit =
      if g = f then enable else o.flags.getLsbD g.bit := by
  have hg := g.bit_lt
  unfold ProcessOptions.setProcessFlag
  by_cases hgf : g = f
  · subst hgf
    cases enable <;> simp [hg]
  · have hne : g.bit ≠ f.bit := fun h => hgf (Flag.bit_inj h)
    cases enable <;> simp [hg, hgf, hne]

theorem Encodes.setProcessFlag (h : Encodes file o p) (f : Flag) (enable : Bool) :
    Encodes file (o.setProcessFlag f enable) { p with flags := Function.update p.flags f enable } := by
  have hflags : ∀ g : Flag, (o.setProcessFlag f enable).flags.getLsbD g.bit =
      Function.update p.flags f enable g := by
    intro g
    rw [setProcessFlag_flags, h.flags g, Function.update_apply]
  unfold ProcessOptions.setProcessFlag at hflags ⊢
  cases enable <;> exact { h with flags := hflags }

theorem resize_length (l : List StdioContainer) (n : Nat) :
    (ProcessOptions.resize l n).length = n := by
  unfold ProcessOptions.resize
  rw [List.length_append, List.length_take, List.length_replicate]
  omega

/-- the new entries are ignored ones -/
theorem resize_getD {l : List StdioContainer} {n : Nat} (h : l.length ≤ n) (g : Nat) :
    (ProcessOptions.resize l n).getD g ProcessStdio.ignore = l.getD g ProcessStdio.ignore := by
  unfold ProcessOptions.resize
  rw [List.take_of_length_le h, List.getD_eq_getElem?_getD, List.getD_eq_getElem?_getD,
    List.getElem?_append]
  split
  · rfl
  · rw [List.getElem?_eq_none (l := l) (by omega), List.getElem?_replicate]
    split <;> rfl

theorem succ_toNat {fd : UInt64} (h : fd ≠ 18446744073709551615) :
    (fd + 1).toNat = fd.toNat + 1 := by
  have hne : fd.toNat ≠ 18446744073709551615 := fun he => h (UInt64.toNat_inj.mp he)
  have hlt := fd.toNat_lt
  rw [UInt64.toNat_add]
  exact Nat.mod_eq_of_lt (by show fd.toNat + 1 < _; omega)

theorem setStdio_entries {fd : UInt64} (h : fd ≠ 18446744073709551615) (entry : StdioContainer) :
    ∃ l : List StdioContainer,
      o.setStdio fd entry = some { o with stdioEntries := l.set fd.toNat entry } ∧
      l.length = max o.stdioEntries.length (fd.toNat + 1) ∧
      ∀ g, l.getD g ProcessStdio.ignore = o.stdioEntries.getD g ProcessStdio.ignore := by
  unfold ProcessOptions.setStdio
  rw [succ_toNat h]
  by_cases hl : o.stdioEntries.length ≤ fd.toNat
  · refine ⟨ProcessOptions.resize o.stdioEntries (fd.toNat + 1), ?_, ?_,
      resize_getD (Nat.le_succ_of_le hl)⟩
    · simp only [hl, if_true, resize_length, Nat.lt_succ_self]
    · rw [resize_length]
      omega
  · refine ⟨o.stdioEntries, ?_, by omega, fun _ => rfl⟩
    simp only [hl, if_false]
    exact if_pos (by omega)

theorem Encodes.setStdio (h : Encodes file o p) {fd : UInt64} (hfd : fd ≠ 18446744073709551615)
    (entry : StdioContainer) :
    ∃ o', o.setStdio fd entry = some o' ∧ Encodes file o' (p.connect fd.toNat entry) := by
  obtain ⟨l, hl, hlen, hget⟩ := setStdio_entries (o := o) hfd entry
  have hstdio : ∀ g, (l.set fd.toNat entry).getD g ProcessStdio.ignore =
      Function.update p.stdio fd.toNat entry g := by
    intro g
    rw [Function.update_apply, ← h.stdio g, ← hget g, List.getD_eq_getElem?_getD,
      List.getD_eq_getElem?_getD, List.getElem?_set]
    by_cases hg : g = fd.toNat
    · subst hg
      rw [if_pos rfl, if_pos (by omega), if_pos rfl]
      rfl
    · rw [if_neg fun he => hg he.symm, if_neg hg]
  refine ⟨_, hl, { h with count := ?_, stdio := hstdio }⟩
  rw [List.length_set, hlen, h.count]
  rfl

theorem Encodes.inheritStdio (h : Encodes file o p) (n : Nat) :
    ∃ o', o.inheritStdio n = some o' ∧ Encodes file o' (p.inheritStdio n) := by
  unfold ProcessOptions.inheritStdio Plan.inheritStdio
  have hthree : ∀ d ∈ ProcessOptions.inherited, d.1 ≠ 18446744073709551615 := by decide
  have hall : ∀ d ∈ ProcessOptions.inherited.take n, d.1 ≠ 18446744073709551615 :=
    fun d hd => hthree d (List.mem_of_mem_take hd)
  generalize ProcessOptions.inherited.take n = ds at hall ⊢
  induction ds generalizing o p with
  | nil => exact ⟨o, rfl, h⟩
  | cons d ds ih =>
    rw [List.forall_mem_cons] at hall
    obtain ⟨o1, ho, h1⟩ := h.setStdio hall.1 (ProcessStdio.inheritFd d.2)
    obtain ⟨o2, ho2, h2⟩ := ih h1 hall.2
    refine ⟨o2, ?_, h2⟩
    rw [List.foldlM_cons, ho]
    exact ho2

theorem Encodes.environment_getD (h : Encodes file o p) : p.environment.getD [] = o.environment := by
  rw [h.environment]
  cases hi : o.inheritParentEnvironment with
  | true => exact (h.fresh hi).symm
  | false => rfl

theorem Encodes.addEnvironment (h : Encodes file o p) (entry : Bytes) :
    Encodes file (o.addEnvironment entry) (p.add entry) :=
  { h with
    environment := congrArg (fun l => some (l ++ [entry])) h.environment_getD
    fresh := fun hi => by cases hi }

theorem Encodes.apply (h : Encodes file o p) {s : Setter} (hs : s.InRange) :
    ∃ o', s.apply o = some o' ∧ Encodes file o' (p.apply s) := by
  cases s with
  | arg value => exact ⟨_, rfl, { h with arguments := congrArg (· ++ [value]) h.arguments }⟩
  | args values => exact ⟨_, rfl, { h with arguments := congrArg (· ++ values) h.arguments }⟩
  | cwd path => exact ⟨_, rfl, { h with cwd := rfl }⟩
  | inheritEnvironment | emptyEnvironment =>
    exact ⟨_, rfl, { h with environment := rfl, fresh := fun _ => rfl }⟩
  | env entry => exact ⟨_, rfl, h.addEnvironment entry⟩
  | envPair key value => exact ⟨_, rfl, h.addEnvironment _⟩
  | stdio entries => exact ⟨_, rfl, { h with count := rfl, stdio := fun _ => rfl }⟩
  | setStdio fd entry => exact h.setStdio hs entry
  | inheritStdio => exact h.inheritStdio 3
  | setUid value =>
    have huid : Encodes file { o with uid := value } { p with uid := value } :=
      { h with ids := ⟨rfl, h.ids.2⟩ }
    exact ⟨_, rfl, huid.setProcessFlag .setuid true⟩
  | setGid value =>
    have hgid : Encodes file { o with gid := value } { p with gid := value } :=
      { h with ids := ⟨h.ids.1, rfl⟩ }
    exact ⟨_, rfl, hgid.setProcessFlag .setgid true⟩
  | processFlag f enable => exact ⟨_, rfl, h.setProcessFlag f enable⟩

theorem Encodes.thrown (h : Encodes file o p) {s : Setter} (hs : s.InRange) (n : Nat) :
    ∃ o', s.thrown o n = some o' ∧ Encodes file o' (p.thrown n s) := by
  cases s with
  | arg | cwd | setStdio => exact ⟨o, rfl, h⟩
  | args values =>
    exact ⟨_, rfl, { h with arguments := congrArg (· ++ values.take (n - 1)) h.arguments }⟩
  | env | envPair =>
    exact ⟨_, rfl, { h with
      environment := congrArg some h.environment_getD
      fresh := fun hi => by cases hi }⟩
  | stdio entries =>
    refine ⟨_, rfl, ?_⟩
    unfold Plan.thrown
    split
    · exact h
    · exact { h with count := rfl, stdio := fun _ => rfl }
  | inheritStdio => exact h.inheritStdio n
  | inheritEnvironment | emptyEnvironment | setUid | setGid | processFlag => exact h.apply hs

theorem Encodes.call (h : Encodes file o p) {c : SetterCall} (hc : c.setter.InRange) :
    ∃ o', c.apply o = some o' ∧ Encodes file o' (p.call c) := by
  unfold SetterCall.apply Plan.call
  split
  · exact h.thrown hc _
  · exact h.apply hc

theorem Encodes.calls (h : Encodes file o p) {cs : List SetterCall} (hc : ∀ c ∈ cs, c.setter.InRange) :
    ∃ o', cs.foldlM SetterCall.apply o = some o' ∧ Encodes file o' (cs.foldl Plan.call p) := by
  induction cs generalizing o p with
  | nil => exact ⟨o, rfl, h⟩
  | cons c cs ih =>
    rw [List.forall_mem_cons] at hc
    obtain ⟨o1, ho, h1⟩ := h.call hc.1
    obtain ⟨o2, ho2, h2⟩ := ih h1 hc.2
    refine ⟨o2, ?_, h2⟩
    rw [List.foldlM_cons, ho]
    exact ho2

theorem Encodes.shows (h : Encodes file o p) (hl : o.stdioEntries.length ≤ 2 ^ 31 - 1) :
    Shows o.native file p where
  file := congrArg cStr h.file
  argv := by
    show readStrings (pointers (o.file :: o.arguments)) = _
    rw [readStrings_pointers, h.arguments, h.file]
    rfl
  environ parent := by
    rw [h.environment]
    unfold ProcessOptions.native
    cases hi : o.inheritParentEnvironment with
    | true => rfl
    | false =>
      have hne : (pointers o.environment).isEmpty = false := by simp [pointers]
      simp only [Bool.false_eq_true, if_false, hne]
      exact congrArg (fun l => (some l).getD parent) (readStrings_pointers o.environment)
  cwd := by
    rw [← h.cwd]
    unfold ProcessOptions.native
    cases o.workingDirectory <;> rfl
  stdio := by
    have hentries : o.native.stdio.getD [] = o.stdioEntries := by
      unfold ProcessOptions.native
      cases o.stdioEntries <;> rfl
    have hcount : (BitVec.ofNat 32 o.stdioEntries.length).toNat = o.stdioEntries.length :=
      Nat.mod_eq_of_lt (by omega)
    refine ⟨?_, ?_, ?_⟩
    · show (BitVec.ofNat 32 o.stdioEntries.length).toInt = _
      rw [BitVec.toInt_eq_toNat_of_lt (by omega), hcount, h.count]
    · rw [hentries, h.count]
    · rw [hentries]
      exact h.stdio
  flags := h.flags
  ids := h.ids

end

/-- an entry of the environment that throws, two arguments of three, and the fourth descriptor -/
def threwTwice : List SetterCall :=
  [⟨.inheritEnvironment, none⟩, ⟨.env [65], some 0⟩, ⟨.args [[66], [67], [68]], some 3⟩,
    ⟨.setStdio 3 (ProcessStdio.inheritFd 7), none⟩]

/-- For the largest index the table is emptied and the write goes behind its end. -/
theorem setStdio_wraps (o : ProcessOptions) (entry : StdioContainer)
    (h : o.stdioEntries.length < 2 ^ 64) : o.setStdio 18446744073709551615 entry = none := by
  have hl : o.stdioEntries.length ≤ (18446744073709551615 : UInt64).toNat := by
    show _ ≤ 18446744073709551615
    omega
  unfold ProcessOptions.setStdio
  simp only [hl, if_true, resize_length]
  rfl

end RawProcess
