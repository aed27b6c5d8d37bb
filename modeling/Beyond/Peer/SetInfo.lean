import Beyond.Base.Bytes
import Beyond.Base.Heap
import Beyond.Base.Hex
import Beyond.Base.Platform
import Beyond.Base.Run
import Beyond.Peer.Credential

/-!
# Setting the info of a peer

`Peer::SetInfo` copies the info of the caller text by text and array by array, gives back what it has
copied when an allocation fails, and replaces the info that the peer had.  The same routine releases
an info that is partly built and one that is whole.  A block of the heap is known by its number.
-/

namespace Beyond
namespace Peer
namespace SetInfo

open Errno
open Heap (Ending ending ending_append)

/-! ## The info of the caller -/

/-- `beyond_peer_info_runtime`; a device is its name pointer. -/
structure Runtime where
  name : Option Bytes
  devices : List (Option Bytes)
  deriving DecidableEq, Repr

/-- `beyond_peer_info`. -/
structure Info where
  name : Option Bytes
  host : Option Bytes
  port0 : UInt16
  port1 : UInt16
  freeMemory : UInt64
  freeStorage : UInt64
  uuid : Vector UInt8 uuidLen
  runtimes : List Runtime
  deriving DecidableEq

/-! ## The info of the peer -/

/-- A runtime of the peer; `devices` is an array of names. -/
structure RuntimeCell where
  name : Option (Block Bytes) := none
  countOfDevices : Nat := 0
  devices : Option (Block (List (Option (Block Bytes)))) := none
  deriving DecidableEq, Repr

/-- A `beyond_peer_info` that `calloc` made; `uuid` is the text in the field. -/
structure Stored where
  address : Nat
  name : Option (Block Bytes) := none
  host : Option (Block Bytes) := none
  port0 : UInt16 := 0
  port1 : UInt16 := 0
  freeMemory : UInt64 := 0
  freeStorage : UInt64 := 0
  uuid : Bytes := []
  countOfRuntimes : Nat := 0
  runtimes : Option (Block (List RuntimeCell)) := none
  deriving DecidableEq, Repr

/-- What a call does that the language leaves undefined. -/
inductive Fault
  | nullText
  | outOfBounds
  deriving DecidableEq, Repr

/-- The elements of an array; a null pointer has none. -/
def elements {α : Type*} (array : Option (Block (List α))) : List α :=
  match array with
  | none => []
  | some block => block.contents

/-! ## Releasing an info -/

/-- `free`, which ignores a null pointer. -/
def freeBlock {α : Type*} (l : Ledger) (block : Option (Block α)) : Ledger :=
  match block with
  | none => l
  | some block => l.free block.address

/-- A loop over the first `n` elements of an array. -/
def forEach {α : Type*} (release : Ledger → α → Except Fault Ledger) :
    Nat → List α → Ledger → Except Fault Ledger
  | 0, _, l => .ok l
  | _ + 1, [], _ => .error .outOfBounds
  | n + 1, x :: xs, l =>
      match release l x with
      | .error e => .error e
      | .ok l => forEach release n xs l

/-- The body of the loop in `ResetRuntime`. -/
def resetCell (l : Ledger) (c : RuntimeCell) : Except Fault Ledger :=
  match forEach (fun l name => .ok (freeBlock l name)) c.countOfDevices (elements c.devices)
      (freeBlock l c.name) with
  | .error e => .error e
  | .ok l => .ok (freeBlock l c.devices)

def resetRuntime (l : Ledger) (runtimes : Option (Block (List RuntimeCell))) (countOfRuntimes : Nat) :
    Except Fault Ledger :=
  match forEach resetCell countOfRuntimes (elements runtimes) l with
  | .error e => .error e
  | .ok l => .ok (freeBlock l runtimes)

def resetInfo (l : Ledger) (info : Option Stored) : Except Fault Ledger :=
  match info with
  | none => .ok l
  | some info =>
      match resetRuntime l info.runtimes info.countOfRuntimes with
      | .error e => .error e
      | .ok l => .ok ((freeBlock l info.host).free info.address)

/-! ## Copying an info -/

/-- `strdup`, which reads its argument before it allocates. -/
def strdup (fails : Nat → Bool) (h : Heap) (text : Option Bytes) :
    Except Fault (Heap × Option (Block Bytes)) :=
  match text with
  | none => .error .nullText
  | some text =>
      let made := h.alloc fails
      .ok (made.1, made.2.map fun address => ⟨address, Bytes.cstring text⟩)

/-- The loop over the devices of a runtime.  The cells behind a name that could not be copied keep the
null pointers of `calloc`; the flag tells whether the loop came to its end. -/
def copyDevices (fails : Nat → Bool) (h : Heap) :
    List (Option Bytes) → Except Fault (Heap × List (Option (Block Bytes)) × Bool)
  | [] => .ok (h, [], true)
  | name :: names =>
      match strdup fails h name with
      | .error e => .error e
      | .ok (h, none) => .ok (h, none :: names.map fun _ => none, false)
      | .ok (h, some copy) =>
          match copyDevices fails h names with
          | .error e => .error e
          | .ok (h, cells, done) => .ok (h, some copy :: cells, done)

/-- The body of the loop over the runtimes. -/
def copyRuntime (fails : Nat → Bool) (h : Heap) (r : Runtime) :
    Except Fault (Heap × RuntimeCell × Bool) :=
  match strdup fails h r.name with
  | .error e => .error e
  | .ok (h, none) => .ok (h, {}, false)
  | .ok (h, some name) =>
      let made := h.alloc fails
      match made.2 with
      | none => .ok (made.1, { name := some name }, false)
      | some address =>
          -- The count is stored before the first name is copied.
          match copyDevices fails made.1 r.devices with
          | .error e => .error e
          | .ok (h, cells, done) =>
              .ok (h, ⟨some name, r.devices.length, some ⟨address, cells⟩⟩, done)

def copyRuntimes (fails : Nat → Bool) (h : Heap) :
    List Runtime → Except Fault (Heap × List RuntimeCell × Bool)
  | [] => .ok (h, [], true)
  | r :: rs =>
      match copyRuntime fails h r with
      | .error e => .error e
      | .ok (h, cell, false) => .ok (h, cell :: rs.map fun _ => {}, false)
      | .ok (h, cell, true) =>
          match copyRuntimes fails h rs with
          | .error e => .error e
          | .ok (h, cells, done) => .ok (h, cell :: cells, done)

/-- The part of `SetInfo` that fills in the runtimes. -/
def fillRuntimes (fails : Nat → Bool) (h : Heap) (new : Stored) (runtimes : List Runtime) :
    Except Fault (Heap × Stored × Bool) :=
  if runtimes = [] then .ok (h, new, true)
  else
    let made := h.alloc fails
    match made.2 with
    | none => .ok (made.1, new, false)
    | some address =>
        match copyRuntimes fails made.1 runtimes with
        | .error e => .error e
        | .ok (h, cells, done) =>
            .ok (h, { new with
              countOfRuntimes := runtimes.length
              runtimes := some ⟨address, cells⟩ }, done)

/-- The new info as it is before its runtimes are filled in. -/
def newInfo (address hostAddress : Nat) (host : Bytes) (arg : Info) : Stored where
  address := address
  host := some ⟨hostAddress, Bytes.cstring host⟩
  port0 := arg.port0
  uuid := Hex.snprintf uuidLen (Bytes.cstring arg.uuid.toList)

/-- The part of `SetInfo` in front of the swap; the heap comes back without an info when an allocation
fails. -/
def build (fails : Nat → Bool) (h : Heap) (host : Bytes) (arg : Info) :
    Except Fault (Heap × Option Stored) :=
  let first := h.alloc fails
  match first.2 with
  | none => .ok (first.1, none)
  | some address =>
      let second := first.1.alloc fails
      match second.2 with
      | none => .ok (second.1.free address, none)
      | some hostAddress =>
          -- `snprintf` reads the uuid up to a null byte.
          if 0 ∈ arg.uuid.toList then
            match fillRuntimes fails second.1 (newInfo address hostAddress host arg) arg.runtimes with
            | .error e => .error e
            | .ok (h, new, true) =>
                .ok (h, some { new with
                  freeMemory := arg.freeMemory
                  freeStorage := arg.freeStorage })
            | .ok (h, new, false) =>
                match resetInfo h.ledger (some new) with
                | .error e => .error e
                | .ok l => .ok ({ h with ledger := l }, none)
          else .error .outOfBounds

/-! ## `SetInfo` -/

/-- Which of its two contexts a peer was created with. -/
inductive Role
  | server
  | client
  deriving DecidableEq, Repr

/-- `published` counts the `PEER_INFO_UPDATED` events. -/
structure State where
  ledger : Ledger
  info : Option Stored
  published : Nat

/-- `PublishEventData`; an `errno` stands for an event that could not be made or written. -/
def publish (s : State) (failure : Option Int) : Int × State :=
  match failure with
  | some errno => (-errno, s)
  | none => (0, { s with published := s.published + 1 })

/-- The result of `SetInfo` and what it leaves. -/
def setInfo (role : Role) (fails : Nat → Bool) (failure : Option Int) (s : State) (arg : Info) :
    Except Fault (Int × State) :=
  match arg.host with
  | none => .ok (-EINVAL, s)
  | some host =>
      if arg.port0 = 0 ∧ role = .client then .ok (-EINVAL, s)
      else
        match build fails (.start s.ledger) host arg with
        | .error e => .error e
        | .ok (h, none) => .ok (-ENOMEM, { s with ledger := h.ledger })
        | .ok (h, some new) =>
            match resetInfo h.ledger s.info with
            | .error e => .error e
            | .ok l =>
                let told := publish { s with ledger := l, info := some new } failure
                if told.1 < 0 then .ok told else .ok (0, told.2)

/-! ## What an info holds -/

def addresses {α : Type*} (block : Option (Block α)) : List Nat :=
  match block with
  | none => []
  | some block => [block.address]

/-- The blocks of a runtime, in the order in which they are released. -/
def RuntimeCell.blocks (c : RuntimeCell) : List Nat :=
  addresses c.name ++ (elements c.devices).flatMap addresses ++ addresses c.devices

/-- The blocks of an info in the order in which they are released, and its name behind them. -/
def Stored.blocks (i : Stored) : List Nat :=
  (elements i.runtimes).flatMap RuntimeCell.blocks ++ addresses i.runtimes ++ addresses i.host ++
    [i.address] ++ addresses i.name

def infoBlocks (info : Option Stored) : List Nat :=
  match info with
  | none => []
  | some info => info.blocks

/-- The counter of a runtime is the length of its array. -/
def RuntimeCell.Shaped (c : RuntimeCell) : Prop := c.countOfDevices = (elements c.devices).length

/-- The counters are the lengths of the arrays, and there is no name. -/
structure Stored.Shaped (i : Stored) : Prop where
  count : i.countOfRuntimes = (elements i.runtimes).length
  cells : ∀ c ∈ elements i.runtimes, c.Shaped
  nameless : i.name = none

/-- What holds of a peer between two calls. -/
structure State.Valid (s : State) : Prop where
  balanced : s.ledger.Balanced (infoBlocks s.info)
  shaped : ∀ i, s.info = some i → i.Shaped

/-- A peer between two calls. -/
structure Idle extends State where
  valid : toState.Valid

/-! ## What the release routine does -/

theorem freeBlock_eq {α : Type*} (l : Ledger) (block : Option (Block α)) :
    freeBlock l block = l.freeAll (addresses block) := by
  cases block with
  | none => rfl
  | some block => rfl

/-- A loop over all the elements of an array releases what each of them holds. -/
theorem forEach_ok {α : Type*} {release : Ledger → α → Except Fault Ledger} {held : α → List Nat}
    {xs : List α} (h : ∀ x ∈ xs, ∀ l, release l x = .ok (l.freeAll (held x))) (l : Ledger) :
    forEach release xs.length xs l = .ok (l.freeAll (xs.flatMap held)) := by
  induction xs generalizing l with
  | nil => rfl
  | cons x xs ih =>
      have hrest := ih (fun y hy => h y (List.mem_cons_of_mem _ hy)) (l.freeAll (held x))
      simp only [List.length_cons, forEach, h x List.mem_cons_self, List.flatMap_cons,
        Ledger.freeAll_append]
      exact hrest

theorem resetCell_ok {c : RuntimeCell} (hc : c.Shaped) (l : Ledger) :
    resetCell l c = .ok (l.freeAll c.blocks) := by
  have hdevices : forEach (fun l name => .ok (freeBlock l name)) (elements c.devices).length
      (elements c.devices) (freeBlock l c.name) =
        .ok ((freeBlock l c.name).freeAll ((elements c.devices).flatMap addresses)) :=
    forEach_ok (fun name _ l => by rw [freeBlock_eq]) _
  unfold resetCell
  rw [hc, hdevices]
  simp only [RuntimeCell.blocks, Ledger.freeAll_append, freeBlock_eq]

theorem resetInfo_ok {info : Option Stored} (hinfo : ∀ i, info = some i → i.Shaped) (l : Ledger) :
    resetInfo l info = .ok (l.freeAll (infoBlocks info)) := by
  cases info with
  | none => rfl
  | some i =>
      have hi := hinfo i rfl
      have hcells := forEach_ok (fun c hc l => resetCell_ok (hi.cells c hc) l) l
      simp only [resetInfo, resetRuntime, hi.count, hcells, infoBlocks, Stored.blocks, hi.nameless,
        Ledger.freeAll_append, freeBlock_eq, addresses, Ledger.freeAll_cons, Ledger.freeAll_nil]

/-! ## Where copying ends -/

/-- The requests for a runtime; one for a text that is not there cannot be read. -/
def Runtime.requests (r : Runtime) : List Bool :=
  r.name.isNone :: false :: r.devices.map Option.isNone

/-- The requests for the array of the runtimes and for what is in it. -/
def requests (runtimes : List Runtime) : List Bool :=
  if runtimes = [] then [] else false :: runtimes.flatMap Runtime.requests

/-! ## What the copying leaves -/

/-- What a copying that makes `n` requests leaves: blocks that the routine above can release, and the
whole copy if it comes to its end. -/
inductive Copies {α : Type*} (h : Heap) (n : Nat) (blocks : α → List Nat) (shaped whole : α → Prop) :
    Ending → Except Fault (Heap × α × Bool) → Prop
  | unreadable (e : Fault) : Copies h n blocks shaped whole .unreadable (.error e)
  | refused {h' : Heap} {x : α} (hgrown : h.ledger.Grown h'.ledger (blocks x)) (hshaped : shaped x) :
      Copies h n blocks shaped whole .refused (.ok (h', x, false))
  | whole {h' : Heap} {x : α} (hgrown : h.ledger.Grown h'.ledger (blocks x)) (hshaped : shaped x)
      (hattempts : h'.attempts = h.attempts + n) (hwhole : whole x) :
      Copies h n blocks shaped whole .whole (.ok (h', x, true))

theorem strdup_of_fails {fails : Nat → Bool} {h : Heap} (hfails : fails h.attempts = true)
    (text : Bytes) : strdup fails h (some text) = .ok (⟨h.ledger, h.attempts + 1⟩, none) := by
  simp only [strdup, Heap.alloc_of_fails hfails, Option.map_none]

theorem strdup_of_not_fails {fails : Nat → Bool} {h : Heap} (hfails : fails h.attempts = false)
    (text : Bytes) :
    strdup fails h (some text) = .ok (⟨h.ledger.alloc, h.attempts + 1⟩,
      some ⟨h.ledger.allocated, Bytes.cstring text⟩) := by
  simp only [strdup, Heap.alloc_of_not_fails hfails, Option.map_some]

/-- The text of a pointer. -/
def textOf (text : Option (Block Bytes)) : Option Bytes := text.map Block.contents

theorem flatMap_addresses_none {α β : Type*} (xs : List α) :
    (xs.map fun _ => (none : Option (Block β))).flatMap addresses = [] := by
  induction xs with
  | nil => rfl
  | cons x xs ih => exact ih

theorem copyDevices_spec (fails : Nat → Bool) (h : Heap) (names : List (Option Bytes)) :
    Copies h names.length (List.flatMap addresses) (fun cells => cells.length = names.length)
      (fun cells => cells.map textOf = names.map (Option.map Bytes.cstring))
      (ending fails h.attempts (names.map Option.isNone)) (copyDevices fails h names) := by
  induction names generalizing h with
  | nil => exact .whole (.refl _) rfl rfl rfl
  | cons name names ih =>
      cases name with
      | none => exact .unreadable .nullText
      | some text =>
          cases hfails : fails h.attempts with
          | true =>
              have hend : ending fails h.attempts ((some text :: names).map Option.isNone) = .refused := by
                simp [ending, hfails]
              rw [hend, copyDevices, strdup_of_fails hfails]
              -- The cells behind it keep the null pointers of `calloc`.
              refine .refused ?_ (by simp)
              rw [List.flatMap_cons, flatMap_addresses_none]
              exact .refl _
          | false =>
              have hend : ending fails h.attempts ((some text :: names).map Option.isNone) =
                  ending fails (h.attempts + 1) (names.map Option.isNone) := by
                simp [ending, hfails]
              rw [hend, copyDevices, strdup_of_not_fails hfails]
              have hgrown : h.ledger.Grown h.ledger.alloc [h.ledger.allocated] := .alloc _
              have hrest := ih ⟨h.ledger.alloc, h.attempts + 1⟩
              dsimp only at hrest ⊢
              generalize copyDevices fails ⟨h.ledger.alloc, h.attempts + 1⟩ names = result at hrest ⊢
              generalize ending fails (h.attempts + 1) (names.map Option.isNone) = e at hrest ⊢
              cases hrest with
              | unreadable e => exact .unreadable e
              | refused hmore hlength => exact .refused (hgrown.trans hmore) (by simpa using hlength)
              | whole hmore hlength hattempts htexts =>
                  refine .whole (hgrown.trans hmore) (by simpa using hlength) ?_ ?_
                  · rw [hattempts, List.length_cons, Nat.add_right_comm, Nat.add_assoc]
                  · rw [List.map_cons, List.map_cons, htexts]
                    rfl

/-- The name of a runtime and the names of its devices. -/
def Runtime.texts (r : Runtime) : Option Bytes × List (Option Bytes) :=
  (r.name.map Bytes.cstring, r.devices.map (Option.map Bytes.cstring))

def RuntimeCell.texts (c : RuntimeCell) : Option Bytes × List (Option Bytes) :=
  (textOf c.name, ((elements c.devices).take c.countOfDevices).map textOf)

theorem copyRuntime_spec (fails : Nat → Bool) (h : Heap) (r : Runtime) :
    Copies h r.requests.length RuntimeCell.blocks RuntimeCell.Shaped (fun c => c.texts = r.texts)
      (ending fails h.attempts r.requests) (copyRuntime fails h r) := by
  rcases r with ⟨name, devices⟩
  cases name with
  | none => exact .unreadable .nullText
  | some name =>
      let h₁ : Heap := ⟨h.ledger.alloc, h.attempts + 1⟩
      let h₂ : Heap := ⟨h₁.ledger.alloc, h₁.attempts + 1⟩
      have hname : h.ledger.Grown h₁.ledger [h.ledger.allocated] := .alloc _
      have harray : h₁.ledger.Grown h₂.ledger [h₁.ledger.allocated] := .alloc _
      by_cases hfails : fails h.attempts = true
      · have hend : ending fails h.attempts (Runtime.requests ⟨some name, devices⟩) = .refused := by
          simp [ending, Runtime.requests, hfails]
        rw [hend, copyRuntime, strdup_of_fails hfails]
        exact .refused (.refl _) rfl
      · rw [Bool.not_eq_true] at hfails
        by_cases hfails' : fails (h.attempts + 1) = true
        · have hend : ending fails h.attempts (Runtime.requests ⟨some name, devices⟩) = .refused := by
            simp [ending, Runtime.requests, hfails, hfails']
          rw [hend, copyRuntime, strdup_of_not_fails hfails]
          have hrefused := Heap.alloc_of_fails (h := h₁) hfails'
          simp only [h₁] at hrefused
          simp only [hrefused]
          exact .refused (hname) rfl
        · rw [Bool.not_eq_true] at hfails'
          have hend : ending fails h.attempts (Runtime.requests ⟨some name, devices⟩) =
              ending fails (h.attempts + 1 + 1) (devices.map Option.isNone) := by
            simp [ending, Runtime.requests, hfails, hfails']
          rw [hend, copyRuntime, strdup_of_not_fails hfails]
          have hmade := Heap.alloc_of_not_fails (h := h₁) hfails'
          have hdevices := copyDevices_spec fails h₂ devices
          simp only [h₁, h₂] at hmade hdevices
          simp only [hmade]
          -- The array of the devices is released behind them.
          have hperm : ∀ names : List Nat,
              ([h.ledger.allocated] ++ ([h₁.ledger.allocated] ++ names)).Perm
                ([h.ledger.allocated] ++ names ++ [h₁.ledger.allocated]) := by
            intro names
            rw [List.append_assoc]
            exact List.perm_append_comm.append_left _
          generalize copyDevices fails ⟨h.ledger.alloc.alloc, h.attempts + 1 + 1⟩ devices = result
            at hdevices ⊢
          generalize ending fails (h.attempts + 1 + 1) (devices.map Option.isNone) = e
            at hdevices ⊢
          cases hdevices with
          | unreadable e => exact .unreadable e
          | refused hmore hlength =>
              exact .refused ((hname.trans (harray.trans hmore)).perm (hperm _)) hlength.symm
          | whole hmore hlength hattempts htexts =>
              refine .whole ((hname.trans (harray.trans hmore)).perm (hperm _)) hlength.symm ?_ ?_
              · rw [hattempts, Runtime.requests]
                simp only [List.length_cons, List.length_map]
                omega
              · simp only [RuntimeCell.texts, Runtime.texts, elements, ← hlength, List.take_length, htexts]
                rfl

theorem flatMap_blocks_empty {α : Type*} (xs : List α) :
    (xs.map fun _ => ({} : RuntimeCell)).flatMap RuntimeCell.blocks = [] := by
  induction xs with
  | nil => rfl
  | cons x xs ih => exact ih

/-- An array of runtimes that can be released: it has `n` cells. -/
def ShapedCells (n : Nat) (cells : List RuntimeCell) : Prop :=
  cells.length = n ∧ ∀ c ∈ cells, c.Shaped

theorem ShapedCells.cons {n : Nat} {c : RuntimeCell} {cells : List RuntimeCell} (hc : c.Shaped)
    (hcells : ShapedCells n cells) : ShapedCells (n + 1) (c :: cells) :=
  ⟨congrArg Nat.succ hcells.1, List.forall_mem_cons.2 ⟨hc, hcells.2⟩⟩

theorem shapedCells_empty {α : Type*} (xs : List α) :
    ShapedCells xs.length (xs.map fun _ => ({} : RuntimeCell)) := by
  refine ⟨List.length_map _, fun c hc => ?_⟩
  rcases List.mem_map.1 hc with ⟨x, -, rfl⟩
  rfl

theorem copyRuntimes_spec (fails : Nat → Bool) (h : Heap) (runtimes : List Runtime) :
    Copies h (runtimes.flatMap Runtime.requests).length (List.flatMap RuntimeCell.blocks)
      (ShapedCells runtimes.length)
      (fun cells => cells.map RuntimeCell.texts = runtimes.map Runtime.texts)
      (ending fails h.attempts (runtimes.flatMap Runtime.requests))
      (copyRuntimes fails h runtimes) := by
  induction runtimes generalizing h with
  | nil => exact .whole (.refl _) (shapedCells_empty ([] : List Runtime)) rfl rfl
  | cons r rs ih =>
      have hfirst := copyRuntime_spec fails h r
      rw [List.flatMap_cons, ending_append, List.length_append]
      unfold copyRuntimes
      generalize copyRuntime fails h r = result at hfirst ⊢
      generalize ending fails h.attempts r.requests = e at hfirst ⊢
      cases hfirst with
      | unreadable e => exact .unreadable e
      | @refused h₁ cell hgrown hshaped =>
          -- The cell may be filled in part; those behind it are empty.
          refine .refused ?_ (.cons hshaped (shapedCells_empty rs))
          rw [List.flatMap_cons, flatMap_blocks_empty, List.append_nil]
          exact hgrown
      | @whole h₁ cell hgrown hshaped hattempts htexts =>
          have hrest := ih h₁
          rw [hattempts] at hrest
          simp only [if_true]
          generalize copyRuntimes fails h₁ rs = result at hrest ⊢
          generalize ending fails (h.attempts + r.requests.length) (rs.flatMap Runtime.requests) = e
            at hrest ⊢
          cases hrest with
          | unreadable e => exact .unreadable e
          | refused hmore hcells => exact .refused (hgrown.trans hmore) (.cons hshaped hcells)
          | whole hmore hcells hattempts' htexts' =>
              refine .whole (hgrown.trans hmore) (.cons hshaped hcells) ?_ ?_
              · rw [hattempts', hattempts, Nat.add_assoc]
              · rw [List.map_cons, List.map_cons, htexts, htexts']

/-! ## What a new info is made of -/

/-- The contents of an info: texts, numbers and the texts of its runtimes. -/
structure Contents where
  name : Option Bytes
  host : Option Bytes
  port0 : UInt16
  port1 : UInt16
  freeMemory : UInt64
  freeStorage : UInt64
  uuid : Bytes
  runtimes : List (Option Bytes × List (Option Bytes))
  deriving DecidableEq, Repr

def Info.contents (i : Info) : Contents where
  name := i.name.map Bytes.cstring
  host := i.host.map Bytes.cstring
  port0 := i.port0
  port1 := i.port1
  freeMemory := i.freeMemory
  freeStorage := i.freeStorage
  uuid := Bytes.cstring i.uuid.toList
  runtimes := i.runtimes.map Runtime.texts

def Stored.contents (i : Stored) : Contents where
  name := textOf i.name
  host := textOf i.host
  port0 := i.port0
  port1 := i.port1
  freeMemory := i.freeMemory
  freeStorage := i.freeStorage
  uuid := i.uuid
  runtimes := ((elements i.runtimes).take i.countOfRuntimes).map RuntimeCell.texts

/-- A text that ends inside the field is copied whole. -/
theorem snprintf_uuid {uuid : Vector UInt8 uuidLen} (h : 0 ∈ uuid.toList) :
    Hex.snprintf uuidLen (Bytes.cstring uuid.toList) = Bytes.cstring uuid.toList := by
  apply List.take_of_length_le
  have hlt := Bytes.length_cstring_lt h
  rw [Vector.length_toList] at hlt
  exact Nat.le_sub_one_of_lt hlt

/-- What a copied info lacks: the name and the second port. -/
def Info.carried (i : Info) : Contents := { i.contents with name := none, port1 := 0 }

theorem Info.carried_eq_contents_iff (i : Info) :
    i.carried = i.contents ↔ i.name = none ∧ i.port1 = 0 := by
  rcases i with ⟨name, host, port0, port1, freeMemory, freeStorage, uuid, runtimes⟩
  cases name with
  | none => simp [carried, contents, eq_comm]
  | some name => simp [carried, contents]

/-- The runtimes of an info and what is in them. -/
def Stored.runtimeBlocks (i : Stored) : List Nat :=
  (elements i.runtimes).flatMap RuntimeCell.blocks ++ addresses i.runtimes

/-- An info that differs from `new` in its runtimes only, which can be released. -/
def FilledFrom (new i : Stored) : Prop :=
  ∃ runtimes, i = { new with countOfRuntimes := (elements runtimes).length, runtimes := runtimes } ∧
    ∀ c ∈ elements runtimes, c.Shaped

theorem fillRuntimes_spec (fails : Nat → Bool) (h : Heap) {new : Stored} (hcount : new.countOfRuntimes = 0)
    (hnone : new.runtimes = none) (runtimes : List Runtime) :
    Copies h (requests runtimes).length Stored.runtimeBlocks (FilledFrom new)
      (fun i => i.contents.runtimes = runtimes.map Runtime.texts)
      (ending fails h.attempts (requests runtimes)) (fillRuntimes fails h new runtimes) := by
  have hempty : new.runtimeBlocks = [] := by simp [Stored.runtimeBlocks, hnone, elements, addresses]
  have hself : FilledFrom new new := by
    refine ⟨none, ?_, fun c hc => absurd hc List.not_mem_nil⟩
    rcases new with ⟨⟩
    cases hcount
    cases hnone
    rfl
  by_cases hruntimes : runtimes = []
  · subst hruntimes
    refine .whole ?_ hself rfl ?_
    · rw [hempty]
      exact .refl _
    · simp [Stored.contents, hnone, elements]
  · have hrequests : requests runtimes = false :: runtimes.flatMap Runtime.requests := if_neg hruntimes
    rw [fillRuntimes, if_neg hruntimes, hrequests]
    by_cases hfails : fails h.attempts = true
    · have hend : ending fails h.attempts (false :: runtimes.flatMap Runtime.requests) = .refused := by
        simp [ending, hfails]
      rw [hend, Heap.alloc_of_fails hfails]
      refine .refused ?_ hself
      rw [hempty]
      exact .refl _
    · rw [Bool.not_eq_true] at hfails
      have hend : ending fails h.attempts (false :: runtimes.flatMap Runtime.requests) =
          ending fails (h.attempts + 1) (runtimes.flatMap Runtime.requests) := by
        simp [ending, hfails]
      rw [hend, Heap.alloc_of_not_fails hfails]
      have hgrown : h.ledger.Grown h.ledger.alloc [h.ledger.allocated] := .alloc _
      have hcells := copyRuntimes_spec fails ⟨h.ledger.alloc, h.attempts + 1⟩ runtimes
      dsimp only at hcells ⊢
      generalize copyRuntimes fails ⟨h.ledger.alloc, h.attempts + 1⟩ runtimes = result at hcells ⊢
      generalize ending fails (h.attempts + 1) (runtimes.flatMap Runtime.requests) = e at hcells ⊢
      cases hcells with
      | unreadable e => exact .unreadable e
      | @refused h₁ cells hmore hshaped =>
          -- The array is allocated in front of its elements and released behind them.
          refine .refused ((hgrown.trans hmore).perm List.perm_append_comm) ?_
          exact ⟨some ⟨h.ledger.allocated, cells⟩, by rw [← hshaped.1]; rfl, hshaped.2⟩
      | @whole h₁ cells hmore hshaped hattempts htexts =>
          refine .whole ((hgrown.trans hmore).perm List.perm_append_comm) ?_ ?_ ?_
          · exact ⟨some ⟨h.ledger.allocated, cells⟩, by rw [← hshaped.1]; rfl, hshaped.2⟩
          · rw [hattempts, List.length_cons, Nat.add_right_comm, Nat.add_assoc]
          · simp only [Stored.contents, elements, ← hshaped.1, List.take_length, htexts]

section Filled

variable {address hostAddress : Nat} {host : Bytes} {arg : Info} {i : Stored}

/-- The info, its host and what was filled in make an info that can be released. -/
theorem FilledFrom.grown (hfilled : FilledFrom (newInfo address hostAddress host arg) i)
    {l l' : Ledger} (hgrown : l.Grown l' ([address] ++ [hostAddress] ++ i.runtimeBlocks)) :
    i.Shaped ∧ l.Grown l' i.blocks := by
  rcases hfilled with ⟨runtimes, rfl, hshaped⟩
  refine ⟨⟨rfl, hshaped, rfl⟩, hgrown.perm ?_⟩
  generalize hi : { newInfo address hostAddress host arg with
    countOfRuntimes := (elements runtimes).length, runtimes := runtimes } = i
  have hblocks : i.blocks = i.runtimeBlocks ++ ([hostAddress] ++ [address]) := by
    subst hi
    simp [Stored.blocks, Stored.runtimeBlocks, newInfo, addresses]
  calc List.Perm ([address] ++ [hostAddress] ++ i.runtimeBlocks)
          (i.runtimeBlocks ++ ([address] ++ [hostAddress])) := List.perm_append_comm
      List.Perm _ (i.runtimeBlocks ++ ([hostAddress] ++ [address])) :=
          List.perm_append_comm.append_left _
      _ = i.blocks := hblocks.symm

theorem FilledFrom.contents (hfilled : FilledFrom (newInfo address hostAddress host arg) i)
    (hhost : arg.host = some host) (huuid : 0 ∈ arg.uuid.toList)
    (htexts : i.contents.runtimes = arg.runtimes.map Runtime.texts) :
    { i with freeMemory := arg.freeMemory, freeStorage := arg.freeStorage }.contents = arg.carried := by
  rcases hfilled with ⟨runtimes, rfl, -⟩
  have huuid' := snprintf_uuid huuid
  simp only [Stored.contents] at htexts
  simp only [Stored.contents, Info.carried, Info.contents, newInfo, huuid', hhost, htexts]
  rfl

end Filled

/-- How the building of a new info ends: the info and its host come first, then the uuid is read, and
then the runtimes are copied. -/
def Info.ending (fails : Nat → Bool) (arg : Info) : Ending :=
  if fails 0 = true ∨ fails 1 = true then .refused
  else if 0 ∈ arg.uuid.toList then Heap.ending fails 2 (requests arg.runtimes)
  else .unreadable

/-- What `build` leaves. -/
inductive Built (l : Ledger) (arg : Info) : Ending → Except Fault (Heap × Option Stored) → Prop
  | unreadable (e : Fault) : Built l arg .unreadable (.error e)
  | refused {h : Heap} (hbalanced : ∀ held, l.Balanced held → h.ledger.Balanced held) :
      Built l arg .refused (.ok (h, none))
  | whole {h : Heap} {new : Stored} (hgrown : l.Grown h.ledger new.blocks)
      (hshaped : new.Shaped) (hcontents : new.contents = arg.carried) :
      Built l arg .whole (.ok (h, some new))

theorem build_spec (fails : Nat → Bool) (l : Ledger) {host : Bytes} {arg : Info}
    (hhost : arg.host = some host) :
    Built l arg (arg.ending fails) (build fails (.start l) host arg) := by
  unfold build Info.ending
  by_cases hfirst : fails 0 = true
  · rw [if_pos (Or.inl hfirst), Heap.alloc_of_fails (h := .start l) hfirst]
    exact .refused fun held hheld => hheld
  · rw [Bool.not_eq_true] at hfirst
    rw [Heap.alloc_of_not_fails (h := .start l) hfirst]
    dsimp only
    let h₁ : Heap := ⟨l.alloc, 1⟩
    let h₂ : Heap := ⟨l.alloc.alloc, 2⟩
    by_cases hsecond : fails 1 = true
    · have hrefused := Heap.alloc_of_fails (h := h₁) hsecond
      simp only [h₁] at hrefused
      rw [if_pos (Or.inr hsecond)]
      simp only [Heap.start, Nat.zero_add, hrefused]
      -- Without its host the info is released at once.
      exact .refused fun held hheld => hheld.alloc.free
    · rw [Bool.not_eq_true] at hsecond
      have hmade := Heap.alloc_of_not_fails (h := h₁) hsecond
      simp only [h₁] at hmade
      rw [if_neg (by simp [hfirst, hsecond])]
      simp only [Heap.start, Nat.zero_add, hmade]
      by_cases huuid : 0 ∈ arg.uuid.toList
      · rw [if_pos huuid, if_pos huuid]
        have hblock : l.Grown h₁.ledger [l.allocated] := .alloc _
        have hhostBlock : h₁.ledger.Grown h₂.ledger [l.alloc.allocated] := .alloc _
        have hnew : (newInfo l.allocated l.alloc.allocated host arg).countOfRuntimes = 0 := rfl
        have hfill := fillRuntimes_spec fails h₂ hnew rfl arg.runtimes
        simp only [h₂] at hfill
        generalize fillRuntimes fails ⟨l.alloc.alloc, 2⟩
          (newInfo l.allocated l.alloc.allocated host arg) arg.runtimes = result at hfill ⊢
        generalize Heap.ending fails 2 (requests arg.runtimes) = e at hfill ⊢
        have hgrown := hblock.trans hhostBlock
        cases hfill with
        | unreadable e => exact .unreadable e
        | @refused h₃ i hmore hfilled =>
            rcases hfilled.grown (hgrown.trans hmore) with ⟨hshaped, hblocks⟩
            have hreset : ∀ i', some i = some i' → i'.Shaped := fun _ hi => Option.some.inj hi ▸ hshaped
            dsimp only
            -- What was filled in so far goes through the release routine.
            rw [resetInfo_ok hreset]
            rw [← List.append_nil i.blocks] at hblocks
            exact .refused fun held hheld => hblocks.freeAll.balanced hheld
        | @whole h₃ i hmore hfilled hattempts htexts =>
            rcases hfilled.grown (hgrown.trans hmore) with ⟨hshaped, hblocks⟩
            exact .whole hblocks ⟨hshaped.count, hshaped.cells, hshaped.nameless⟩
              (hfilled.contents hhost huuid htexts)
      · rw [if_neg huuid, if_neg huuid]
        exact .unreadable .outOfBounds

/-! ## All or nothing -/

/-- A failed call leaves the info and releases what it has allocated. -/
structure Nothing (s s' : State) : Prop where
  info : s'.info = s.info
  balanced : s'.ledger.Balanced (infoBlocks s.info)

/-- A successful call leaves a deep copy of its argument, and one event; the blocks that it held before
are released once. -/
structure All (s : State) (arg : Info) (s' : State) (new : Stored) : Prop where
  info : s'.info = some new
  equal : new.contents = arg.contents
  fresh : ∀ b ∈ new.blocks, s.ledger.allocated ≤ b
  balanced : s'.ledger.Balanced new.blocks
  released : ∀ b ∈ infoBlocks s.info, s'.ledger.releases b = 1
  published : s'.published = s.published + 1

def AllOrNothing (s : State) (arg : Info) (result : Except Fault (Int × State)) : Prop :=
  match result with
  | .error _ => False
  | .ok (ret, s') => (ret < 0 → Nothing s s') ∧ (ret = 0 → ∃ new, All s arg s' new)

/-- The port of a client has to be given, and so has the host. -/
def Refused (role : Role) (arg : Info) : Prop := arg.host = none ∨ (arg.port0 = 0 ∧ role = .client)

/-- Either the call stops at a failed allocation, or it copies everything, and then its event is
published and the argument has nothing but what is copied. -/
def Sound (fails : Nat → Bool) (failure : Option Int) (arg : Info) : Prop :=
  match arg.ending fails with
  | .refused => True
  | .unreadable => False
  | .whole => failure = none ∧ arg.name = none ∧ arg.port1 = 0

/-- What is left of a call that replaced the info. -/
theorem replaced {s : State} (hs : s.Valid) {h : Heap} {new : Stored}
    (hgrown : s.ledger.Grown h.ledger new.blocks) :
    (h.ledger.freeAll (infoBlocks s.info)).Balanced new.blocks ∧
      ∀ b ∈ infoBlocks s.info, (h.ledger.freeAll (infoBlocks s.info)).releases b = 1 := by
  have hboth := hgrown.balanced hs.balanced
  have hbalanced := (hboth.perm List.perm_append_comm).freeAll
  refine ⟨hbalanced, fun b hb => hbalanced.released ?_ ?_⟩
  · rw [Ledger.allocated_freeAll]
    exact (hboth.live (List.mem_append_right _ hb)).1
  · -- A block of the new info was not there before.
    intro hnew
    have hlt := (hs.balanced.live hb).1
    exact Nat.not_le_of_lt hlt (hgrown.recent b hnew)

/-- A call that replaced the info and published the event did all that it has to, up to the fields that
are not copied. -/
theorem all_iff {s : State} (hs : s.Valid) {h : Heap} {new : Stored} {arg : Info}
    (hgrown : s.ledger.Grown h.ledger new.blocks) (hcontents : new.contents = arg.carried) :
    (∃ new', All s arg ⟨h.ledger.freeAll (infoBlocks s.info), some new, s.published + 1⟩ new') ↔
      arg.name = none ∧ arg.port1 = 0 := by
  rw [← Info.carried_eq_contents_iff]
  constructor
  · rintro ⟨new', hall⟩
    cases Option.some.inj hall.info
    exact hcontents.symm.trans hall.equal
  · intro hcarried
    rcases replaced hs hgrown with ⟨hbalanced, hreleased⟩
    exact ⟨new, rfl, hcontents.trans hcarried, hgrown.recent, hbalanced, hreleased, rfl⟩

/-- The new info is not the one that was there before. -/
theorem not_nothing {s s' : State} (hs : s.Valid) {h : Heap} {new : Stored}
    (hgrown : s.ledger.Grown h.ledger new.blocks) (hnew : s'.info = some new) :
    ¬ Nothing s s' := by
  intro hnothing
  have haddress : new.address ∈ new.blocks := by simp [Stored.blocks]
  have hold : infoBlocks s.info = new.blocks := by rw [← hnothing.info, hnew]; rfl
  have hlt := (hs.balanced.live (hold ▸ haddress)).1
  exact Nat.not_le_of_lt hlt (hgrown.recent _ haddress)

theorem allOrNothing_told {s : State} {arg : Info} {told : Int × State} :
    AllOrNothing s arg (if told.1 < 0 then .ok told else .ok (0, told.2)) ↔
      (told.1 < 0 → Nothing s told.2) ∧ (0 ≤ told.1 → ∃ new, All s arg told.2 new) := by
  by_cases hneg : told.1 < 0
  · have hne : told.1 ≠ 0 := Int.ne_of_lt hneg
    simp [AllOrNothing, hneg, hne, Int.not_le.2 hneg]
  · simp [AllOrNothing, hneg, Int.not_lt.1 hneg]

theorem setInfo_all_or_nothing_iff (role : Role) (fails : Nat → Bool) (failure : Option Int)
    (s : Idle) (arg : Info) :
    AllOrNothing s.toState arg (setInfo role fails failure s.toState arg) ↔
      Refused role arg ∨ Sound fails failure arg := by
  rcases s with ⟨s, hs⟩
  have hnothing : Nothing s s := ⟨rfl, hs.balanced⟩
  unfold setInfo Refused
  cases hhost : arg.host with
  | none => simp [AllOrNothing, hnothing, EINVAL]
  | some host =>
      by_cases hport : arg.port0 = 0 ∧ role = .client
      · simp [AllOrNothing, hport, hnothing, EINVAL]
      · have hbuilt := build_spec fails s.ledger hhost
        simp only [reduceCtorEq, hport, or_self, false_or, if_false, Sound]
        generalize build fails (.start s.ledger) host arg = result at hbuilt ⊢
        generalize arg.ending fails = e at hbuilt ⊢
        cases hbuilt with
        | unreadable e => exact Iff.rfl
        | @refused h hbalanced =>
            have hleft : Nothing s { s with ledger := h.ledger } := ⟨rfl, hbalanced _ hs.balanced⟩
            simp [AllOrNothing, hleft, ENOMEM]
        | @whole h new hgrown hshaped hcontents =>
            dsimp only
            rw [resetInfo_ok hs.shaped]
            dsimp only
            rw [allOrNothing_told]
            cases failure with
            | none => simpa [publish] using all_iff hs hgrown hcontents
            | some errno =>
                refine iff_of_false ?_ fun h => Option.some_ne_none _ h.1
                rintro ⟨hneg, hnonneg⟩
                rcases Int.lt_or_le (-errno) 0 with hlt | hge
                · exact not_nothing hs hgrown rfl (hneg hlt)
                · -- A failure without an error code is taken for a success.
                  rcases hnonneg hge with ⟨new', hall⟩
                  exact Nat.succ_ne_self _ hall.published.symm

/-- An info with a name; nothing fails. -/
def named : Info where
  name := some [0x61]
  host := some [0x62]
  port0 := 1
  port1 := 0
  freeMemory := 0
  freeStorage := 0
  uuid := Vector.replicate uuidLen 0
  runtimes := []

/-- A peer that has no info yet. -/
def Idle.new : Idle := ⟨⟨.empty, none, 0⟩, .empty, fun _ h => absurd h.symm (Option.some_ne_none _)⟩

theorem setInfo_drops_name :
    ¬ AllOrNothing Idle.new.toState named (setInfo .server (fun _ => false) none Idle.new.toState named) := by
  rintro ⟨-, hzero⟩
  rcases hzero rfl with ⟨new, hall⟩
  cases hall.info
  have hname : (none : Option Bytes) = some _ := congrArg Contents.name hall.equal
  exact Option.some_ne_none _ hname.symm

/-! ## Any number of calls -/

/-- What one call is given: its argument, the allocations that fail, and the failure of its event. -/
structure Call where
  fails : Nat → Bool
  failure : Option Int
  arg : Info

def step (role : Role) (s : State) (c : Call) : Option State :=
  match setInfo role c.fails c.failure s c.arg with
  | .error _ => none
  | .ok (_, s') => some s'

theorem valid_publish {s : State} (hs : s.Valid) (failure : Option Int) :
    (publish s failure).2.Valid := by
  cases failure with
  | none => exact ⟨hs.balanced, hs.shaped⟩
  | some errno => exact hs

/-- Whatever fails, a call that returns leaves an info that the next call can release. -/
theorem setInfo_valid {role : Role} {fails : Nat → Bool} {failure : Option Int} {s s' : State}
    {arg : Info} {ret : Int} (hs : s.Valid)
    (hreturn : setInfo role fails failure s arg = .ok (ret, s')) : s'.Valid := by
  unfold setInfo at hreturn
  cases hhost : arg.host with
  | none =>
      rw [hhost] at hreturn
      cases hreturn
      exact hs
  | some host =>
      have hbuilt := build_spec fails s.ledger hhost
      simp only [hhost] at hreturn
      by_cases hport : arg.port0 = 0 ∧ role = .client
      · rw [if_pos hport] at hreturn
        cases hreturn
        exact hs
      · rw [if_neg hport] at hreturn
        generalize build fails (.start s.ledger) host arg = result at hbuilt hreturn
        generalize arg.ending fails = e at hbuilt
        cases hbuilt with
        | unreadable e => cases hreturn
        | refused hbalanced =>
            cases hreturn
            exact ⟨hbalanced _ hs.balanced, hs.shaped⟩
        | @whole h new hgrown hshaped hcontents =>
            have hvalid : State.Valid ⟨h.ledger.freeAll (infoBlocks s.info), some new, s.published⟩ :=
              ⟨(replaced hs hgrown).1, fun i hi => Option.some.inj hi ▸ hshaped⟩
            have htold := valid_publish hvalid failure
            simp only [resetInfo_ok hs.shaped] at hreturn
            generalize publish ⟨h.ledger.freeAll (infoBlocks s.info), some new, s.published⟩ failure = told
              at htold hreturn
            split at hreturn
            · cases hreturn
              exact htold
            · cases hreturn
              exact htold

theorem valid_step {role : Role} {s s' : State} {c : Call} (hs : s.Valid)
    (hstep : step role s c = some s') : s'.Valid := by
  unfold step at hstep
  split at hstep
  · cases hstep
  · next hreturn =>
      cases hstep
      exact setInfo_valid hs hreturn

/-- Between any two calls on a peer its info is the only thing that it holds. -/
theorem valid_run {role : Role} {s s' : State} {calls : List Call} (hs : s.Valid)
    (hrun : Run.exec (step role) s calls = some s') : s'.Valid :=
  Run.exec_preserved (fun _ _ _ hs hstep => valid_step hs hstep) hs hrun

end SetInfo
end Peer
end Beyond
