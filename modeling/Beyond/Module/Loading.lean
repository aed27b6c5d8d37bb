import Mathlib.Data.List.Nodup
import Beyond.Base.Hex
import Beyond.Base.Ledger
import Beyond.Base.Platform
import Beyond.Base.Run

/-!
# Loading of the modules

`Authenticator`, `Discovery::Runtime`, `Inference::Peer` and `Inference::Runtime` each hold an `impl`
that opens the library of a module, makes the module and passes all calls on to it.  The four of them
share the process, and one library may be opened for several objects.

A run stops at the first fault: a null pointer that is dereferenced, an object that is used after its
release, or code that is run after its library was closed.  A runtime that has an emulator is destroyed
without waiting for the emulator's worker, which may go on in the module afterwards.
-/

namespace Beyond
namespace Module
namespace Loading

open Bytes

inductive Kind
  | authenticator
  | discovery
  | peer
  | runtime
  deriving DecidableEq, Repr

/-- `TYPE_AUTHENTICATOR` and so on. -/
def Kind.type : Kind → Bytes
  | .authenticator => ascii "authenticator"
  | .discovery => ascii "discovery"
  | .peer => ascii "peer"
  | .runtime => ascii "runtime"

/-- `beyond_argument`; the words that it counts are there. -/
structure Argument where
  argc : Int
  argv : Option (List (Option Bytes))
  counted : ∀ words, argv = some words → argc ≤ words.length

inductive Checked
  | refused
  | fault
  | name (name : Bytes)
  deriving DecidableEq, Repr

/-- The check at the begin of `Create`. -/
def check (kind : Kind) : Option Argument → Checked
  | none => .refused
  | some arg =>
      if arg.argc < 1 then .refused
      else
        match arg.argv with
        | none =>
            -- `Authenticator::impl::Create` looks at `argv[0]` and not at `argv`.
            if kind = .authenticator then .fault else .refused
        | some words =>
            match words.head? with
            | some (some name) => .name name
            | _ => .refused

/-! ## The name of the file -/

/-- `FilenameFormat`, in front of `%s` and behind it. -/
def before : Bytes := ascii "libbeyond-"

def after : Bytes := ascii ".so"

def library (name : Bytes) : Bytes := before ++ name ++ after

/-- `int namelen`: the length of the format with its `%s`, and of the name, less one. -/
def namelen (name : Bytes) : Int :=
  ((before.length + 2 + after.length + name.length - 1 : Nat) : Int).bmod (2 ^ 32)

/-- `snprintf(filename, namelen, FilenameFormat, argv[0])`; a text that is too long for its result is
an error. -/
def filename (name : Bytes) : Option Bytes :=
  if (library name).length < 2 ^ 31 then
    some (Hex.snprintf (namelen name % 2 ^ 64).toNat (library name))
  else none

theorem length_library (name : Bytes) : (library name).length = name.length + 13 := by
  have hbefore : before.length = 10 := by decide
  have hafter : after.length = 3 := by decide
  rw [library, List.length_append, List.length_append, hbefore, hafter]
  omega

theorem namelen_eq (name : Bytes) :
    namelen name = ((name.length + 14 : Nat) : Int).bmod (2 ^ 32) := by
  have hlength : before.length + 2 + after.length + name.length - 1 = name.length + 14 := by
    have hbefore : before.length = 10 := by decide
    have hafter : after.length = 3 := by decide
    rw [hbefore, hafter]
    omega
  exact congrArg (fun n : Nat => (n : Int).bmod (2 ^ 32)) hlength

/-- The buffer has room for the name, however long it is. -/
theorem filename_whole {name file : Bytes} (h : filename name = some file) : file = library name := by
  unfold filename at h
  split at h
  · rename_i hlt
    have hroom : (library name).length ≤ (namelen name % 2 ^ 64).toNat - 1 := by
      rw [length_library] at hlt ⊢
      rw [namelen_eq, Int.bmod_def]
      -- The longest name gives `-2 ^ 31`, which is a large `size_t`.
      split <;> omega
    exact (Option.some.inj h).symm.trans (List.take_of_length_le hroom)
  · cases h

/-! ## Objects -/

/-- What the calls of an object are passed on to. -/
inductive Receiver
  | module
  | emulator (block : Nat)
  deriving DecidableEq, Repr

/-- An `impl` with its library and its module; only a runtime has an `async` of its own. -/
structure Impl where
  kind : Kind
  object : Nat
  file : Bytes
  module : Nat
  async : Option Receiver
  deriving DecidableEq, Repr

inductive Method
  | getModuleName
  | getModuleType
  | other
  deriving DecidableEq, Repr

namespace Impl

def receiver (i : Impl) : Method → Option Receiver
  | .getModuleName | .getModuleType => some .module
  | .other => i.async

def emulator (i : Impl) : List Nat :=
  match i.async with
  | some (.emulator block) => [block]
  | _ => []

/-- What belongs to an object, in the order in which it is released. -/
def blocks (i : Impl) : List Nat := i.emulator ++ [i.module, i.object]

end Impl

/-! ## The process -/

structure State where
  memory : Ledger
  /-- How often each library is open. -/
  opened : Bytes → Nat
  impls : List Impl
  /-- The runtimes that were destroyed and had an emulator.  Its worker was asked to stop. -/
  left : List Impl
  fault : Bool

namespace State

def init : State := ⟨.empty, fun _ => 0, [], [], false⟩

variable (s : State)

def alloc : State := { s with memory := s.memory.alloc }

def free (a : Nat) : State := { s with memory := s.memory.free a }

def dlopen (file : Bytes) : State :=
  { s with opened := Function.update s.opened file (s.opened file + 1) }

def dlclose (file : Bytes) : State :=
  { s with opened := Function.update s.opened file (s.opened file - 1) }

def damaged : State := { s with fault := true }

/-- The code of a library runs. -/
def enter (file : Bytes) : State := if 0 < s.opened file then s else s.damaged

/-- An object is read. -/
def touch (a : Nat) : State :=
  if a < s.memory.allocated ∧ s.memory.releases a = 0 then s else s.damaged

/-- A member function of a module. -/
def callModule (file : Bytes) (module : Nat) : State := (s.touch module).enter file

/-- The object with an address. -/
def find (object : Nat) : Option Impl := s.impls.find? fun i => i.object = object

end State

open State

/-! ## `Create` -/

/-- What `main` gives: the answers of the new module to `GetModuleType` and `GetHandle`, and whether the
emulator can be built if it needs one. -/
structure Made where
  type : Option Bytes
  handle : Int
  emulator : Bool

/-- How the calls of a `Create` end that can fail. -/
structure Outcomes where
  new : Bool
  malloc : Bool
  snprintf : Bool
  dlopen : Bool
  dlsym : Bool
  main : Option Made

/-- `delete impl` when the library is open. -/
def deleteOpened (impl : Nat) (file : Bytes) (s : State) : State := (s.dlclose file).free impl

/-- What there is to call for a module that is of the right type. -/
def attach (kind : Kind) (impl : Nat) (file : Bytes) (module : Nat) (made : Made) (s : State) :
    State :=
  let keep (s : State) (async : Option Receiver) : State :=
    { s with impls := ⟨kind, impl, file, module, async⟩ :: s.impls }
  match kind with
  | .runtime =>
      let s := s.callModule file module
      if made.handle = -Errno.ENOTSUP then
        if made.emulator then keep s.alloc (some (.emulator s.memory.allocated)) else keep s none
      else keep s (some .module)
  | _ => keep s (some .module)

/-- From `dlsym` on. -/
def start (kind : Kind) (o : Outcomes) (impl : Nat) (file : Bytes) (s : State) : Option Nat × State :=
  if o.dlsym then
    let s := s.enter file
    match o.main with
    | none => (none, deleteOpened impl file s)
    | some made =>
        let module := s.memory.allocated
        let s := s.alloc.callModule file module
        if made.type = some kind.type then (some impl, attach kind impl file module made s)
        else (none, deleteOpened impl file ((s.callModule file module).free module))
  else (none, deleteOpened impl file s)

/-- From `malloc` on. -/
def load (kind : Kind) (o : Outcomes) (name : Bytes) (impl : Nat) (s : State) : Option Nat × State :=
  if o.malloc then
    let buffer := s.memory.allocated
    let s := s.alloc
    match if o.snprintf then filename name else none with
    | none => (none, (s.free buffer).free impl)
    | some file =>
        let s := s.free buffer
        if o.dlopen then start kind o impl file (s.dlopen file) else (none, s.free impl)
  else (none, s.free impl)

/-- `Create` of the four classes. -/
def create (kind : Kind) (arg : Option Argument) (o : Outcomes) (s : State) : Option Nat × State :=
  match check kind arg with
  | .refused => (none, s)
  | .fault => (none, s.damaged)
  | .name name => if o.new then load kind o name s.memory.allocated s.alloc else (none, s)

/-! ## Calls and `Destroy` -/

def call (object : Nat) (m : Method) (s : State) : State :=
  match s.find object with
  | none => s.damaged
  | some i =>
      match i.receiver m with
      | none => s.damaged
      | some .module => s.callModule i.file i.module
      | some (.emulator block) => (s.touch block).callModule i.file i.module

/-- The emulator is destroyed first, then the module, then the library is closed. -/
def destroy (object : Nat) (s : State) : State :=
  match s.find object with
  | none => s.damaged
  | some i =>
      let s := { s with impls := s.impls.erase i }
      let s := match i.async with
        -- `Async::Destroy` calls `Stop` and deletes the emulator; nobody joins its thread.
        | some (.emulator block) => { (s.touch block).free block with left := i :: s.left }
        | _ => s
      deleteOpened i.object i.file ((s.callModule i.file i.module).free i.module)

/-- The worker of an emulator goes on in a command: it uses the emulator and runs the module. -/
def work (object : Nat) (s : State) : Option State :=
  match (s.impls ++ s.left).find? fun i => i.object = object with
  | none => none
  | some i =>
      match i.async with
      | some (.emulator block) => some ((s.touch block).callModule i.file i.module)
      | _ => none

inductive Action
  | create (kind : Kind) (arg : Option Argument) (o : Outcomes)
  | call (object : Nat) (m : Method)
  | destroy (object : Nat)
  | work (object : Nat)

def step (s : State) (a : Action) : Option State :=
  if s.fault then none
  else
    match a with
    | .create kind arg o => some (create kind arg o s).2
    | .call object m => some (call object m s)
    | .destroy object => some (destroy object s)
    | .work object => work object s

/-- The caller gives an authenticator a list of words, uses only what it was given and has not
destroyed, and asks nothing of a runtime that has no emulator and needs one; and no worker goes on
when its runtime has been destroyed. -/
def Sound (s : State) : Action → Prop
  | .create kind arg _ => check kind arg ≠ .fault
  | .call object m => ∃ i, s.find object = some i ∧ i.receiver m ≠ none
  | .destroy object => s.find object ≠ none
  | .work object => s.find object ≠ none

/-! ## What the process holds -/

/-- Each of the objects `impls` has what belongs to it, and a call that is under way has `blocks` and
`files` besides. -/
structure Holds (impls : List Impl) (blocks : List Nat) (files : List Bytes) (s : State) : Prop where
  objects : s.impls = impls
  memory : s.memory.Balanced (blocks ++ impls.flatMap Impl.blocks)
  opened : ∀ file, s.opened file = files.count file + impls.countP (·.file = file)
  /-- The emulators of the runtimes that are left were deleted. -/
  left : ∀ i ∈ s.left, ∃ block, i.async = some (.emulator block) ∧ s.memory.releases block ≠ 0
  fault : s.fault = false

/-- Between two calls. -/
def Inv (s : State) : Prop := Holds s.impls [] [] s

namespace Holds

variable {impls : List Impl} {blocks : List Nat} {files : List Bytes} {s : State} {a : Nat}
  {file : Bytes}

theorem inv (h : Holds impls [] [] s) : Inv s := by
  cases h.objects
  exact h

theorem alloc (h : Holds impls blocks files s) :
    Holds impls (s.memory.allocated :: blocks) files s.alloc :=
  ⟨h.objects, h.memory.alloc, h.opened, h.left, h.fault⟩

theorem free (h : Holds impls (a :: blocks) files s) : Holds impls blocks files (s.free a) where
  objects := h.objects
  memory := h.memory.free
  opened := h.opened
  left i hi := by
    rcases h.left i hi with ⟨block, hasync, hreleased⟩
    have hle := s.memory.releases_le_free a block
    exact ⟨block, hasync, fun hnone => hreleased (Nat.le_zero.1 (hnone ▸ hle))⟩
  fault := h.fault

/-- A runtime is left when its emulator is deleted. -/
theorem leave {i : Impl} {block : Nat} (h : Holds impls (block :: blocks) files s)
    (hasync : i.async = some (.emulator block)) :
    Holds impls blocks files { s.free block with left := i :: s.left } where
  objects := h.objects
  memory := h.memory.free
  opened := h.opened
  left j hj := by
    rcases List.mem_cons.1 hj with rfl | hj
    · exact ⟨block, hasync, by simp [State.free]⟩
    · exact h.free.left j hj
  fault := h.fault

theorem dlopen (h : Holds impls blocks files s) :
    Holds impls blocks (file :: files) (s.dlopen file) where
  objects := h.objects
  memory := h.memory
  left := h.left
  fault := h.fault
  opened g := by
    have hg := h.opened g
    rw [State.dlopen, List.count_cons]
    by_cases heq : g = file
    · subst heq
      simp only [Function.update_self, beq_self_eq_true, if_true]
      omega
    · rw [beq_false_of_ne (Ne.symm heq)]
      simpa [heq] using hg

theorem dlclose (h : Holds impls blocks (file :: files) s) :
    Holds impls blocks files (s.dlclose file) where
  objects := h.objects
  memory := h.memory
  left := h.left
  fault := h.fault
  opened g := by
    have hg := h.opened g
    rw [List.count_cons] at hg
    rw [State.dlclose]
    by_cases heq : g = file
    · subst heq
      simp only [beq_self_eq_true, if_true] at hg
      simp only [Function.update_self]
      omega
    · rw [beq_false_of_ne (Ne.symm heq)] at hg
      simpa [heq] using hg

/-- Open libraries can run. -/
theorem enter (h : Holds impls blocks files s)
    (hfile : file ∈ files ∨ ∃ i ∈ impls, i.file = file) : s.enter file = s := by
  refine if_pos ?_
  rw [h.opened]
  rcases hfile with hfile | ⟨i, hi, hfile⟩
  · exact Nat.add_pos_left (List.count_pos_iff.2 hfile) _
  · exact Nat.add_pos_right _ (List.countP_pos_iff.2 ⟨i, hi, by simpa using hfile⟩)

theorem touch (h : Holds impls blocks files s)
    (ha : a ∈ blocks ∨ ∃ i ∈ impls, a ∈ i.blocks) : s.touch a = s := by
  refine if_pos (h.memory.live ?_)
  rcases ha with ha | hi
  · exact List.mem_append_left _ ha
  · exact List.mem_append_right _ (List.mem_flatMap.2 hi)

theorem callModule (h : Holds impls blocks files s)
    (hfile : file ∈ files ∨ ∃ i ∈ impls, i.file = file)
    (ha : a ∈ blocks ∨ ∃ i ∈ impls, a ∈ i.blocks) : s.callModule file a = s := by
  rw [State.callModule, h.touch ha, h.enter hfile]

theorem deleteOpened (h : Holds impls (a :: blocks) (file :: files) s) :
    Holds impls blocks files (deleteOpened a file s) :=
  h.dlclose.free

/-- What a call has made becomes an object. -/
theorem keep {i : Impl} (h : Holds impls i.blocks [i.file] s) :
    Holds (i :: impls) [] [] { s with impls := i :: s.impls } where
  objects := congrArg (i :: ·) h.objects
  memory := h.memory
  left := h.left
  fault := h.fault
  opened g := by
    have hg := h.opened g
    rw [List.count_singleton] at hg
    simpa [List.countP_cons, Nat.add_comm] using hg

/-- An object is taken out before what belongs to it is released. -/
theorem take {i : Impl} (h : Holds impls [] [] s) (hi : i ∈ impls) :
    Holds (impls.erase i) i.blocks [i.file] { s with impls := s.impls.erase i } where
  objects := by rw [h.objects]
  memory := h.memory.perm ((List.perm_cons_erase hi).flatMap_right Impl.blocks)
  left := h.left
  fault := h.fault
  opened g := by
    have hcount := (List.perm_cons_erase hi).countP_eq fun j => j.file = g
    have hg := h.opened g
    rw [hcount, List.countP_cons] at hg
    rw [List.count_singleton]
    simpa [Nat.add_comm] using hg

end Holds

theorem find_some {s : State} {object : Nat} {i : Impl} (h : s.find object = some i) :
    i ∈ s.impls ∧ i.object = object :=
  ⟨List.mem_of_find?_eq_some h, by simpa using List.find?_some h⟩

theorem objects_nodup {s : State} (h : Inv s) : (s.impls.map Impl.object).Nodup := by
  have hblocks : (s.impls.flatMap Impl.blocks).Nodup := h.memory.nodup
  rw [List.Nodup, List.pairwise_map]
  refine (List.nodup_flatMap.1 hblocks).2.imp fun {i j} hdisjoint heq => ?_
  have hi : i.object ∈ i.blocks := by simp [Impl.blocks]
  have hj : i.object ∈ j.blocks := by simp [Impl.blocks, heq]
  exact hdisjoint hi hj

theorem find_of_mem {s : State} {i : Impl} (h : Inv s) (hi : i ∈ s.impls) :
    s.find i.object = some i := by
  cases hfind : s.find i.object with
  | none =>
      have hnone := List.find?_eq_none.1 hfind i hi
      simp at hnone
  | some j =>
      rcases find_some hfind with ⟨hj, heq⟩
      exact congrArg some (List.inj_on_of_nodup_map (objects_nodup h) hj hi heq)

/-! ## The registry -/

/-- Everything from `dlsym` on goes well. -/
def Started (kind : Kind) (o : Outcomes) : Prop :=
  o.dlsym = true ∧ o.main.bind Made.type = some kind.type

instance (kind : Kind) (o : Outcomes) : Decidable (Started kind o) :=
  inferInstanceAs (Decidable (_ ∧ _))

/-- Everything from `malloc` on goes well. -/
def Loaded (kind : Kind) (o : Outcomes) (name : Bytes) : Prop :=
  o.malloc = true ∧ o.snprintf = true ∧ (library name).length < 2 ^ 31 ∧ o.dlopen = true ∧
    Started kind o

instance (kind : Kind) (o : Outcomes) (name : Bytes) : Decidable (Loaded kind o name) :=
  inferInstanceAs (Decidable (_ ∧ _))

/-- A runtime without an asynchronous mode whose emulator cannot be built. -/
def Unattached (kind : Kind) (made : Made) : Prop :=
  kind = .runtime ∧ made.handle = -Errno.ENOTSUP ∧ made.emulator = false

/-- The library of the object that `Create` is to give, if everything goes well. -/
def wanted (kind : Kind) (arg : Option Argument) (o : Outcomes) : Option Bytes :=
  match check kind arg with
  | .name name => if o.new = true ∧ Loaded kind o name then some (library name) else none
  | _ => none

/-- What an action does to the objects that the callers have. -/
inductive Effect (impls : List Impl) : Action → List Impl → Prop
  | made {kind : Kind} {arg : Option Argument} {o : Outcomes} {i : Impl}
      (hwanted : wanted kind arg o = some i.file) (hkind : i.kind = kind) :
      Effect impls (.create kind arg o) (i :: impls)
  | refused {kind : Kind} {arg : Option Argument} {o : Outcomes}
      (hwanted : wanted kind arg o = none) :
      Effect impls (.create kind arg o) impls
  | called {object : Nat} {m : Method} : Effect impls (.call object m) impls
  | destroyed {i : Impl} (hi : i ∈ impls) : Effect impls (.destroy i.object) (impls.erase i)
  | worked {object : Nat} : Effect impls (.work object) impls

section Create

variable {impls : List Impl} {s : State} {kind : Kind} {o : Outcomes} {impl module : Nat}
  {file : Bytes} {made : Made}

theorem attach_holds (kind : Kind) (made : Made) (h : Holds impls [module, impl] [file] s) :
    ∃ async, (async = none ↔ Unattached kind made) ∧
      Holds (⟨kind, impl, file, module, async⟩ :: impls) [] []
        (attach kind impl file module made s) := by
  have hplain : ∀ async, (∀ block, async ≠ some (.emulator block)) →
      Holds (⟨kind, impl, file, module, async⟩ :: impls) [] []
        { s with impls := ⟨kind, impl, file, module, async⟩ :: s.impls } := by
    intro async hasync
    apply Holds.keep (i := ⟨kind, impl, file, module, async⟩)
    have hemulator : Impl.emulator ⟨kind, impl, file, module, async⟩ = [] := by
      unfold Impl.emulator
      split
      · rename_i block heq
        exact absurd heq (hasync block)
      · rfl
    rwa [Impl.blocks, hemulator]
  unfold attach Unattached
  cases kind with
  | runtime =>
      have hcall : s.callModule file module = s :=
        h.callModule (.inl (List.mem_singleton_self _)) (.inl List.mem_cons_self)
      simp only [hcall]
      split
      · rename_i hhandle
        split
        · rename_i hemulator
          exact ⟨some (.emulator s.memory.allocated), by simp [hemulator], h.alloc.keep⟩
        · rename_i hemulator
          exact ⟨none, by simpa [hhandle] using hemulator, hplain none fun _ => by simp⟩
      · rename_i hhandle
        exact ⟨some .module, by simp [hhandle], hplain _ fun _ => by simp⟩
  | _ => exact ⟨some .module, by simp, hplain _ fun _ => by simp⟩

theorem start_made (h : Holds impls [impl] [file] s) (hstarted : Started kind o) :
    ∃ i, (start kind o impl file s).1 = some i.object ∧ i.kind = kind ∧ i.file = file ∧
      (i.async = none ↔ ∃ made, o.main = some made ∧ Unattached kind made) ∧
      Holds (i :: impls) [] [] (start kind o impl file s).2 := by
  rcases hstarted with ⟨hdlsym, hmain⟩
  rcases Option.bind_eq_some_iff.1 hmain with ⟨made, hmade, htype⟩
  have hfile : file ∈ [file] ∨ ∃ i ∈ impls, i.file = file := .inl (List.mem_singleton_self _)
  have hcall := h.alloc.callModule hfile (.inl List.mem_cons_self)
  have henter := h.enter hfile
  rcases attach_holds kind made h.alloc with ⟨async, hasync, hholds⟩
  refine ⟨⟨kind, impl, file, s.memory.allocated, async⟩, ?_⟩
  rw [start, if_pos hdlsym]
  simp only [henter, hmade, hcall, if_pos htype]
  exact ⟨trivial, trivial, trivial, by simpa using hasync, hholds⟩

theorem start_refused (h : Holds impls [impl] [file] s) (hstarted : ¬ Started kind o) :
    (start kind o impl file s).1 = none ∧ Holds impls [] [] (start kind o impl file s).2 := by
  have hfile : file ∈ [file] ∨ ∃ i ∈ impls, i.file = file := .inl (List.mem_singleton_self _)
  have hcall := h.alloc.callModule hfile (.inl List.mem_cons_self)
  unfold start
  split
  · rename_i hdlsym
    rw [h.enter hfile]
    split
    · exact ⟨rfl, h.deleteOpened⟩
    · -- a module of another type is destroyed before its library is closed
      rename_i made hmade
      have htype : made.type ≠ some kind.type := by
        intro htype
        exact hstarted ⟨hdlsym, by rw [hmade, Option.bind_some, htype]⟩
      simp only [hcall, if_neg htype]
      exact ⟨trivial, h.alloc.free.deleteOpened⟩
  · exact ⟨rfl, h.deleteOpened⟩

theorem load_made {name : Bytes} (h : Holds impls [impl] [] s) (hloaded : Loaded kind o name) :
    ∃ i, (load kind o name impl s).1 = some i.object ∧ i.kind = kind ∧ i.file = library name ∧
      (i.async = none ↔ ∃ made, o.main = some made ∧ Unattached kind made) ∧
      Holds (i :: impls) [] [] (load kind o name impl s).2 := by
  rcases hloaded with ⟨hmalloc, hsnprintf, hlength, hdlopen, hstarted⟩
  have hname : filename name = some (library name) := by
    have hsome : ∃ file, filename name = some file := ⟨_, if_pos hlength⟩
    rcases hsome with ⟨file, hfile⟩
    rw [hfile, filename_whole hfile]
  rw [load, if_pos hmalloc]
  simp only [hsnprintf, if_true, hname, hdlopen]
  exact start_made h.alloc.free.dlopen hstarted

theorem load_refused {name : Bytes} (h : Holds impls [impl] [] s) (hloaded : ¬ Loaded kind o name) :
    (load kind o name impl s).1 = none ∧ Holds impls [] [] (load kind o name impl s).2 := by
  unfold load
  split
  · rename_i hmalloc
    dsimp only
    split
    · exact ⟨rfl, h.alloc.free.free⟩
    · rename_i file hname
      split at hname
      · rename_i hsnprintf
        have hlength : (library name).length < 2 ^ 31 := by
          by_contra hlong
          rw [filename, if_neg hlong] at hname
          cases hname
        split
        · rename_i hdlopen
          exact start_refused h.alloc.free.dlopen fun hstarted =>
            hloaded ⟨hmalloc, hsnprintf, hlength, hdlopen, hstarted⟩
        · exact ⟨rfl, h.alloc.free.free⟩
      · cases hname
  · exact ⟨rfl, h.free⟩

/-- `Create` gives an object when there is everything that it wants, and otherwise leaves nothing. -/
theorem create_cases {arg : Option Argument} (h : Inv s) (hcheck : check kind arg ≠ .fault) :
    (wanted kind arg o = none ∧ (create kind arg o s).1 = none ∧
        Holds s.impls [] [] (create kind arg o s).2) ∨
      ∃ i, wanted kind arg o = some i.file ∧ (create kind arg o s).1 = some i.object ∧
        i.kind = kind ∧ (i.async = none ↔ ∃ made, o.main = some made ∧ Unattached kind made) ∧
        Holds (i :: s.impls) [] [] (create kind arg o s).2 := by
  cases hname : check kind arg with
  | fault => exact absurd hname hcheck
  | refused =>
      rw [create, wanted, hname]
      exact .inl ⟨rfl, rfl, h⟩
  | name name =>
      rw [create, wanted, hname]
      dsimp only
      by_cases hnew : o.new = true
      · rw [if_pos hnew]
        by_cases hloaded : Loaded kind o name
        · rw [if_pos ⟨hnew, hloaded⟩]
          rcases load_made h.alloc hloaded with ⟨i, hsome, hkind, hfile, hasync, hholds⟩
          exact .inr ⟨i, congrArg some hfile.symm, hsome, hkind, hasync, hholds⟩
        · rw [if_neg fun hall => hloaded hall.2]
          rcases load_refused h.alloc hloaded with ⟨hnone, hholds⟩
          exact .inl ⟨rfl, hnone, hholds⟩
      · rw [if_neg hnew, if_neg fun hall => hnew hall.1]
        exact .inl ⟨rfl, rfl, h⟩

theorem create_effect {arg : Option Argument} (h : Inv s) (hcheck : check kind arg ≠ .fault) :
    Inv (create kind arg o s).2 ∧
      Effect s.impls (.create kind arg o) (create kind arg o s).2.impls ∧
      ((create kind arg o s).1 = none ↔ wanted kind arg o = none) := by
  rcases create_cases (o := o) h hcheck with
    ⟨hwanted, hnone, hholds⟩ | ⟨i, hwanted, hsome, hkind, -, hholds⟩
  · refine ⟨hholds.inv, ?_, iff_of_true hnone hwanted⟩
    rw [hholds.objects]
    exact .refused hwanted
  · refine ⟨hholds.inv, ?_, by simp [hsome, hwanted]⟩
    rw [hholds.objects]
    exact .made hwanted hkind

end Create

/-! ## Steps -/

section Steps

variable {s s' : State} {a : Action}

theorem call_same {object : Nat} {m : Method} {i : Impl} (h : Inv s) (hi : s.find object = some i)
    (hreceiver : i.receiver m ≠ none) : call object m s = s := by
  have hmem := (find_some hi).1
  have hmodule : s.callModule i.file i.module = s :=
    h.callModule (.inr ⟨i, hmem, rfl⟩) (.inr ⟨i, hmem, by simp [Impl.blocks]⟩)
  rw [call, hi]
  dsimp only
  split
  · rename_i hnone
    exact absurd hnone hreceiver
  · exact hmodule
  · rename_i block hblock
    have hasync : i.async = some (.emulator block) := by
      cases m with
      | other => exact hblock
      | _ => cases hblock
    have hemulator : block ∈ i.blocks := by simp [Impl.blocks, Impl.emulator, hasync]
    rw [h.touch (.inr ⟨i, hmem, hemulator⟩), hmodule]

/-- The worker of a runtime that is there finds what it uses. -/
theorem work_same {object : Nat} (h : Inv s) (hfind : s.find object ≠ none)
    (hwork : work object s = some s') : s' = s := by
  rcases Option.ne_none_iff_exists'.1 hfind with ⟨i, hi⟩
  have hmem := (find_some hi).1
  have hmodule : s.callModule i.file i.module = s :=
    h.callModule (.inr ⟨i, hmem, rfl⟩) (.inr ⟨i, hmem, by simp [Impl.blocks]⟩)
  have hfirst : (s.impls ++ s.left).find? (fun i => i.object = object) = some i := by
    rw [List.find?_append, show s.impls.find? (fun i => i.object = object) = some i from hi]
    rfl
  unfold work at hwork
  rw [hfirst] at hwork
  dsimp only at hwork
  split at hwork
  · rename_i block hasync
    have hemulator : block ∈ i.blocks := by simp [Impl.blocks, Impl.emulator, hasync]
    rw [h.touch (.inr ⟨i, hmem, hemulator⟩), hmodule] at hwork
    exact (Option.some.inj hwork).symm
  · cases hwork

theorem destroy_holds {object : Nat} {i : Impl} (h : Inv s) (hi : s.find object = some i) :
    Holds (s.impls.erase i) [] [] (destroy object s) := by
  rcases find_some hi with ⟨hmem, rfl⟩
  have htaken := h.take hmem
  have hfile : i.file ∈ [i.file] ∨ ∃ j ∈ s.impls.erase i, j.file = i.file :=
    .inl (List.mem_singleton_self _)
  -- behind the emulator the module and the object are left
  have hrest : ∀ {t}, Holds (s.impls.erase i) [i.module, i.object] [i.file] t →
      Holds (s.impls.erase i) [] []
        (deleteOpened i.object i.file ((t.callModule i.file i.module).free i.module)) := by
    intro t ht
    rw [ht.callModule hfile (.inl List.mem_cons_self)]
    exact ht.free.deleteOpened
  rw [destroy, hi]
  dsimp only
  split
  · rename_i block hasync
    have hemulator : i.emulator = [block] := by rw [Impl.emulator, hasync]
    rw [Impl.blocks, hemulator] at htaken
    rw [htaken.touch (.inl List.mem_cons_self)]
    exact hrest (htaken.leave hasync)
  · rename_i hasync
    have hemulator : i.emulator = [] := by
      unfold Impl.emulator
      split
      · rename_i block heq
        exact absurd heq (hasync block)
      · rfl
    rw [Impl.blocks, hemulator] at htaken
    exact hrest htaken

theorem step_some (h : step s a = some s') : s.fault = false := by
  by_contra hfault
  unfold step at h
  rw [if_pos (by simpa using hfault)] at h
  cases h

/-- What a sound action does. -/
theorem step_effect (hs : Inv s) (ha : Sound s a) (hstep : step s a = some s') :
    Inv s' ∧ Effect s.impls a s'.impls := by
  have hfault : ¬ s.fault = true := by simp [step_some hstep]
  unfold step at hstep
  rw [if_neg hfault] at hstep
  cases a with
  | create kind arg o =>
      cases hstep
      have heffect := create_effect (o := o) hs ha
      exact ⟨heffect.1, heffect.2.1⟩
  | call object m =>
      cases hstep
      rcases ha with ⟨i, hi, hreceiver⟩
      rw [call_same hs hi hreceiver]
      exact ⟨hs, .called⟩
  | destroy object =>
      cases hstep
      rcases Option.ne_none_iff_exists'.1 ha with ⟨i, hi⟩
      have hholds := destroy_holds hs hi
      rcases find_some hi with ⟨hmem, rfl⟩
      refine ⟨hholds.inv, ?_⟩
      rw [hholds.objects]
      exact .destroyed hmem
  | work object =>
      rw [work_same hs ha hstep]
      exact ⟨hs, .worked⟩

/-! A fault stays. -/

end Steps

/-! ## Runs -/

/-- `Create` answers null exactly when something is missing. -/
def Answered (s : State) : Action → Prop
  | .create kind arg o => (create kind arg o s).1 = none ↔ wanted kind arg o = none
  | _ => True

def Action.makes : Action → Bool
  | .create kind arg o => (wanted kind arg o).isSome
  | _ => false

def Action.destroys : Action → Bool
  | .destroy _ => true
  | _ => false

theorem init_inv : Inv .init where
  objects := rfl
  memory := .empty
  opened _ := rfl
  left _ hi := absurd hi List.not_mem_nil
  fault := rfl

theorem preserved : Run.Preserved step Sound Inv := fun _ _ _ hs ha hstep =>
  (step_effect hs ha hstep).1

/-- Sound actions lead from the one state to the other. -/
def Reaches (s s' : State) : Prop := ∃ as, Run.exec step s as = some s' ∧ Run.Along step Sound s as

theorem Reaches.refl (s : State) : Reaches s s := ⟨[], rfl, trivial⟩

theorem Reaches.step {s s' : State} {a : Action} (ha : Sound s a)
    (hstep : Loading.step s a = some s') : Reaches s s' :=
  ⟨[a], Run.exec_cons_some.2 ⟨s', hstep, rfl⟩, Run.along_of_step ha hstep trivial⟩

theorem Reaches.trans {s s' s'' : State} (h : Reaches s s') (h' : Reaches s' s'') :
    Reaches s s'' := by
  rcases h with ⟨as, hexec, hsound⟩
  rcases h' with ⟨bs, hexec', hsound'⟩
  refine ⟨as ++ bs, ?_, Run.along_append.2 ⟨hsound, fun t ht => ?_⟩⟩
  · rw [Run.exec_append, hexec]
    exact hexec'
  · cases Option.some.inj (hexec.symm.trans ht)
    exact hsound'

theorem Reaches.create {s : State} {kind : Kind} {arg : Option Argument} {o : Outcomes}
    (hs : s.fault = false) (hcheck : check kind arg ≠ .fault) :
    Reaches s (Loading.create kind arg o s).2 := by
  refine .step (a := .create kind arg o) hcheck ?_
  unfold Loading.step
  rw [if_neg (by simp [hs])]

theorem Reaches.destroy {s : State} {object : Nat} (hs : s.fault = false)
    (hfind : s.find object ≠ none) : Reaches s (Loading.destroy object s) := by
  refine .step (a := .destroy object) hfind ?_
  unfold Loading.step
  rw [if_neg (by simp [hs])]

theorem Reaches.inv {s s' : State} (h : Reaches s s') (hs : Inv s) : Inv s' := by
  rcases h with ⟨as, hexec, hsound⟩
  exact Run.exec_invariant preserved hs hsound hexec

theorem answered {s : State} {a : Action} (hs : Inv s) (ha : Sound s a) : Answered s a := by
  cases a with
  | create kind arg o => exact (create_effect hs ha).2.2
  | _ => exact trivial

/-- One action more or less. -/
theorem Effect.length {impls impls' : List Impl} {a : Action} (h : Effect impls a impls') :
    impls'.length + (if a.destroys then 1 else 0) = impls.length + if a.makes then 1 else 0 := by
  cases h with
  | made hwanted hkind => simp [Action.makes, Action.destroys, hwanted]
  | refused hwanted => simp [Action.makes, Action.destroys, hwanted]
  | called => rfl
  | destroyed hi =>
      have hpos := List.length_pos_of_mem hi
      have hlength := List.length_erase_of_mem hi
      simp only [Action.makes, Action.destroys, if_true, Bool.false_eq_true, if_false]
      omega
  | worked => rfl

theorem Effect.origin {impls impls' : List Impl} {a : Action} {i : Impl} (h : Effect impls a impls')
    (hi : i ∈ impls') :
    i ∈ impls ∨ ∃ arg o, a = .create i.kind arg o ∧ wanted i.kind arg o = some i.file := by
  cases h with
  | made hwanted hkind =>
      cases hkind
      rcases List.mem_cons.1 hi with rfl | hi
      · exact .inr ⟨_, _, rfl, hwanted⟩
      · exact .inl hi
  | destroyed => exact .inl (List.mem_of_mem_erase hi)
  | _ => exact .inl hi

theorem Effect.worked_eq {impls impls' : List Impl} {object : Nat}
    (h : Effect impls (.work object) impls') : impls' = impls := by
  cases h
  rfl

/-- The library is there, and its module has no asynchronous mode. -/
def synchronous : Outcomes :=
  ⟨true, true, true, true, true, some ⟨some (ascii "runtime"), -Errno.ENOTSUP, true⟩⟩

end Loading
end Module
end Beyond
