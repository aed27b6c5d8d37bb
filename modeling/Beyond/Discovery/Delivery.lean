import Beyond.Base.Bytes
import Beyond.Base.Ledger
import Beyond.Base.Platform
import Beyond.Base.Run

/-!
# Discovery events on their way to the application

`DiscoveryClient` and `DiscoveryServer` pack what `NsdManager` tells them into a record and write its
pointer to a non-blocking pipe.  `Discovery::Runtime::impl` fetches the record, makes one of its own
from it and gives the first one back to the module.

The records carry the blocks that they were allocated in.  The type of an event is part of the shape
of its record, since `DiscoveryServer` makes `REGISTERED` only and `DiscoveryClient` never does.
-/

namespace Beyond
namespace Discovery
namespace Delivery

open Errno Bytes

/-- The null byte is included. -/
def BEYOND_UUID_LEN : Nat := 37

def HOST_LEN : Nat := 32

/-! ## Records -/

/-- A string that `malloc` or `new` has made room for. -/
structure Text where
  block : Nat
  bytes : Bytes
  deriving DecidableEq, Repr

/-- A `sockaddr_in`. -/
structure IPv4 where
  a : UInt8
  b : UInt8
  c : UInt8
  d : UInt8
  deriving DecidableEq, Repr

/-- What `inet_ntop` prints. -/
def IPv4.printed (address : IPv4) : Bytes :=
  decimal address.a.toNat ++ 0x2e :: (decimal address.b.toNat ++ 0x2e ::
    (decimal address.c.toNat ++ 0x2e :: decimal address.d.toNat))

/-- The `BEYOND_EVENT_TYPE_DISCOVERY_*` of a client. -/
inductive ClientType
  | discovered
  | removed
  | error
  deriving DecidableEq, Repr

structure DiscoveryInfo where
  name : Bytes
  address : IPv4
  port : UInt16
  uuid : Bytes
  deriving DecidableEq, Repr

/-- A call of `onServiceRegistered` or `onServiceDiscovered`. -/
inductive Raised
  | registered (name : Bytes)
  | client (type : ClientType) (info : DiscoveryInfo)
  deriving DecidableEq, Repr

structure ServerEventData where
  block : Nat
  name : Option Text
  deriving DecidableEq, Repr

/-- `address` is `none` as long as it is filled with zeros. -/
structure ClientEventData where
  block : Nat
  name : Option Text
  address : Option IPv4
  port : UInt16
  uuid : Bytes
  deriving DecidableEq, Repr

/-- The `EventData` of a module. -/
inductive ModuleEvent
  | server (block : Nat) (data : ServerEventData)
  | client (block : Nat) (type : ClientType) (data : ClientEventData)
  deriving DecidableEq, Repr

/-- `beyond_peer_info`; `port` is its `port[0]`. -/
structure PeerInfo where
  block : Nat
  name : Text
  port : UInt16
  uuid : Bytes
  deriving DecidableEq, Repr

/-- The `EventData` of `Discovery::Runtime::impl`; the infos of `DISCOVERED` events have a host. -/
inductive RuntimeEvent
  | registered (block : Nat) (name : Text)
  | discovered (block : Nat) (info : PeerInfo) (host : Text)
  | removed (block : Nat) (info : PeerInfo)
  deriving DecidableEq, Repr

/-- What the application reads in an event. -/
inductive Content
  | registered (name : Bytes)
  | discovered (name host : Bytes) (port : UInt16) (uuid : Bytes)
  | removed (name : Bytes)
  | error (name : Bytes)
  deriving DecidableEq, Repr

def RuntimeEvent.content : RuntimeEvent → Content
  | .registered _ name => .registered name.bytes
  | .discovered _ info host => .discovered info.name.bytes host.bytes info.port info.uuid
  | .removed _ info => .removed info.name.bytes

/-! ## State -/

/-- The results of the calls in a callback of a module. -/
structure RaiseResults where
  event : Bool
  data : Bool
  name : Bool
  write : Bool
  deriving DecidableEq, Repr

/-- The results of the calls in `FetchEventData`; `ntop` is the `errno` of an `inet_ntop` that fails. -/
structure FetchResults where
  event : Bool
  info : Bool
  host : Bool
  name : Bool
  ntop : Option Nat
  deriving DecidableEq, Repr

/-- Which module is loaded. -/
inductive Module
  | client
  | server
  deriving DecidableEq, Repr

/-- `written` are the events whose write succeeded; `answers` are the fetches that took a record off
the pipe, with the results of their calls. -/
structure State where
  module : Module
  /-- `DiscoveryServer::info.name`. -/
  infoName : Bytes
  ledger : Ledger
  pipe : List ModuleEvent
  /-- The events that the application has not destroyed yet. -/
  events : List RuntimeEvent
  written : List Raised
  answers : List (FetchResults × Except Int Content)
  fault : Bool

def State.start (module : Module) (infoName : Bytes) : State where
  module := module
  infoName := infoName
  ledger := .empty
  pipe := []
  events := []
  written := []
  answers := []
  fault := false

inductive Act
  | onServiceDiscovered (event : ClientType) (info : DiscoveryInfo) (m : RaiseResults)
  | onServiceRegistered (serviceName : Bytes) (m : RaiseResults)
  | fetchEventData (m : FetchResults)
  /-- The application destroys its event number `k`, or a null pointer. -/
  | destroyEventData (k : Option Nat)
  deriving DecidableEq, Repr

/-! ## The modules -/

def strdup (l : Ledger) (ok : Bool) (text : Bytes) : Ledger × Option Text :=
  if ok then (l.alloc, some ⟨l.allocated, cstring text⟩) else (l, none)

/-- What `snprintf` puts into a `char[BEYOND_UUID_LEN]`. -/
def printUuid (text : Bytes) : Bytes := (cstring text).take (BEYOND_UUID_LEN - 1)

/-- `newEventData`: the blocks of the event and of its data. -/
def newEventData (l : Ledger) (m : RaiseResults) : Ledger × Option (Nat × Nat) :=
  if m.event = false then (l, none)
  else if m.data = false then (l.alloc.free l.allocated, none)
  else (l.alloc.alloc, some (l.allocated, l.allocated + 1))

def fillClientData (block : Nat) (name : Option Text) (info : DiscoveryInfo) :
    ClientType → ClientEventData
  | .discovered => ⟨block, name, some info.address, info.port, printUuid info.uuid⟩
  | .removed | .error => ⟨block, name, none, 0, []⟩

def freeName (l : Ledger) : Option Text → Ledger
  | none => l
  | some name => l.free name.block

/-- `DestroyEventData` of the modules. -/
def ModuleEvent.destroy (l : Ledger) : ModuleEvent → Ledger
  | .server block data => ((freeName l data.name).free data.block).free block
  | .client block .discovered data => ((freeName l data.name).free data.block).free block
  | .client block .removed data => ((freeName l data.name).free data.block).free block
  -- The switch has no case for this type.
  | .client block .error _ => l.free block

def onServiceDiscovered (s : State) (event : ClientType) (info : DiscoveryInfo)
    (m : RaiseResults) : State :=
  match newEventData s.ledger m with
  | (l, none) => { s with ledger := l }
  | (l, some (block, data)) =>
      let name := strdup l m.name info.name
      if m.write then
        { s with
          ledger := name.1
          pipe := s.pipe ++ [.client block event (fillClientData data name.2 info event)]
          written := s.written ++ [.client event info] }
      else { s with ledger := name.1 }

/-- A service that was renamed is known by its new name. -/
def renamed (s : State) (serviceName : Bytes) : State :=
  if serviceName ≠ s.infoName then { s with infoName := serviceName } else s

def onServiceRegistered (s : State) (serviceName : Bytes) (m : RaiseResults) : State :=
  let s := renamed s serviceName
  match newEventData s.ledger m with
  | (l, none) => { s with ledger := l }
  | (l, some (block, data)) =>
      let name := strdup l m.name s.infoName
      let event := ModuleEvent.server block ⟨data, name.2⟩
      if m.write then
        { s with
          ledger := name.1
          pipe := s.pipe ++ [event]
          written := s.written ++ [.registered serviceName] }
      else { s with ledger := event.destroy name.1 }

/-! ## The runtime -/

def inet_ntop (m : FetchResults) (address : Option IPv4) : Except Nat Bytes :=
  match m.ntop, address with
  | some errno, _ => .error errno
  | none, none => .error 97 -- `EAFNOSUPPORT`
  | none, some address =>
      if address.printed.length < HOST_LEN then .ok address.printed
      else .error 28 -- `ENOSPC`

/-- The case for `REGISTERED`; `block` is the new event.  A `strdup` of a null pointer has no
result. -/
def fetchRegistered (l : Ledger) (m : FetchResults) (block : Nat) (data : ServerEventData) :
    Option (Ledger × Except Int RuntimeEvent) :=
  match data.name with
  | none => none
  | some name =>
      if m.name then some (l.alloc, .ok (.registered block ⟨l.allocated, name.bytes⟩))
      else some (l.free block, .error (-ENOMEM))

def fetchDiscovered (l : Ledger) (m : FetchResults) (block : Nat) (data : ClientEventData) :
    Option (Ledger × Except Int RuntimeEvent) :=
  if m.info = false then some (l.free block, .error (-ENOMEM))
  else
    let info := l.allocated
    let l := l.alloc
    if m.host = false then some ((l.free info).free block, .error (-ENOMEM))
    else
      let host := l.allocated
      let l := l.alloc
      match data.name with
      | none => none
      | some name =>
          -- The host is not released here, and the name is not in the next branch.
          if m.name = false then some ((l.free info).free block, .error (-ENOMEM))
          else
            let duplicate := l.allocated
            let l := l.alloc
            match inet_ntop m data.address with
            | .error errno => some (((l.free host).free info).free block, .error (-errno))
            | .ok printed =>
                some (l, .ok (.discovered block
                  ⟨info, ⟨duplicate, name.bytes⟩, data.port, printUuid data.uuid⟩ ⟨host, printed⟩))

def fetchRemoved (l : Ledger) (m : FetchResults) (block : Nat) (data : ClientEventData) :
    Option (Ledger × Except Int RuntimeEvent) :=
  if m.info = false then some (l.free block, .error (-ENOMEM))
  else
    let info := l.allocated
    let l := l.alloc
    match data.name with
    | none => none
    | some name =>
        if m.name = false then some ((l.free info).free block, .error (-ENOMEM))
        else
          some (l.alloc, .ok (.removed block ⟨info, ⟨l.allocated, name.bytes⟩, 0, []⟩))

/-- The switch of `FetchEventData`. -/
def repack (l : Ledger) (m : FetchResults) (block : Nat) :
    ModuleEvent → Option (Ledger × Except Int RuntimeEvent)
  | .server _ data => fetchRegistered l m block data
  | .client _ .discovered data => fetchDiscovered l m block data
  | .client _ .removed data => fetchRemoved l m block data
  -- The default of the switch.
  | .client _ .error _ => some (l.free block, .error (-EFAULT))

/-- A fetch that has taken a record off the pipe returns. -/
def State.answer (s : State) (m : FetchResults) (result : Except Int RuntimeEvent) : State :=
  { s with
    events := match result with
      | .ok event => s.events ++ [event]
      | .error _ => s.events
    answers := s.answers ++ [(m, result.map RuntimeEvent.content)] }

/-- `FetchEventData` of the runtime.  A read of the empty pipe fails with `EAGAIN`. -/
def fetchEventData (s : State) (m : FetchResults) : State :=
  match s.pipe with
  | [] => s
  | subData :: pipe =>
      let s := { s with pipe := pipe }
      if m.event = false then
        { s with ledger := subData.destroy s.ledger }.answer m (.error (-ENOMEM))
      else
        match repack s.ledger.alloc m s.ledger.allocated subData with
        | none => { s with fault := true }
        | some (l, result) => { s with ledger := subData.destroy l }.answer m result

/-- `DestroyEventData` of the runtime. -/
def RuntimeEvent.destroy (l : Ledger) : RuntimeEvent → Ledger
  | .registered block name => (l.free name.block).free block
  | .discovered block info host =>
      (((l.free info.name.block).free host.block).free info.block).free block
  | .removed block info => ((l.free info.name.block).free info.block).free block

def destroyEventData (s : State) (k : Nat) (event : RuntimeEvent) : State :=
  { s with ledger := event.destroy s.ledger, events := s.events.eraseIdx k }

/-- Names come from C strings, and the application destroys what it has. -/
def step (s : State) (a : Act) : Option State :=
  if s.fault then none
  else
    match a with
    | .onServiceDiscovered event info m =>
        if s.module = .client ∧ 0 ∉ info.name then some (onServiceDiscovered s event info m)
        else none
    | .onServiceRegistered serviceName m =>
        if s.module = .server ∧ 0 ∉ serviceName then some (onServiceRegistered s serviceName m)
        else none
    | .fetchEventData m => some (fetchEventData s m)
    | .destroyEventData none => some s
    | .destroyEventData (some k) => (s.events[k]?).map (destroyEventData s k)

/-! ## Specification -/

/-- The event that the application is to get. -/
def Raised.content : Raised → Content
  | .registered name => .registered name
  | .client .discovered info =>
      .discovered info.name info.address.printed info.port (info.uuid.take (BEYOND_UUID_LEN - 1))
  | .client .removed info => .removed info.name
  | .client .error info => .error info.name

/-- A call that the delivery of the event needs has failed. -/
def Excused (m : FetchResults) : Raised → Prop
  | .registered _ => m.event = false ∨ m.name = false
  | .client .discovered _ =>
      m.event = false ∨ m.info = false ∨ m.host = false ∨ m.name = false ∨ m.ntop ≠ none
  | .client .removed _ => m.event = false ∨ m.info = false ∨ m.name = false
  | .client .error _ => m.event = false

/-- A fetch has delivered the event, or returned a negative code for a failure. -/
def Answers : FetchResults × Except Int Content → Raised → Prop
  | (_, .ok content), event => content = event.content
  | (m, .error ret), event => ret < 0 ∧ Excused m event

def Text.blocks (name : Option Text) : List Nat := (name.map Text.block).toList

def ModuleEvent.blocks : ModuleEvent → List Nat
  | .server block data => Text.blocks data.name ++ [data.block, block]
  | .client block _ data => Text.blocks data.name ++ [data.block, block]

def RuntimeEvent.blocks : RuntimeEvent → List Nat
  | .registered block name => [name.block, block]
  | .discovered block info host => [info.name.block, host.block, info.block, block]
  | .removed block info => [info.name.block, info.block, block]

/-- The blocks of the records in the pipe and of the events of the application. -/
def State.held (s : State) : List Nat :=
  s.pipe.flatMap ModuleEvent.blocks ++ s.events.flatMap RuntimeEvent.blocks

structure Sound (s : State) : Prop where
  safe : s.fault = false
  /-- The fetches have answered the events that were written first, in order. -/
  answered : List.Forall₂ Answers s.answers (s.written.take s.answers.length)
  /-- There is a record for each of the others. -/
  pending : s.pipe.length = (s.written.drop s.answers.length).length
  released : s.ledger.Balanced s.held

/-- The event whose record is next in the pipe. -/
def State.next (s : State) : Option Raised := s.written[s.answers.length]?

/-- What a fetch can do with a record without a defect. -/
def Deliverable (m : FetchResults) (uuid : Bytes) : ModuleEvent → Prop
  | .server _ data => m.event = true → data.name ≠ none
  | .client _ .discovered data =>
      m.event = true → m.info = true → m.host = true →
        data.name ≠ none ∧ m.name = true ∧ m.ntop = none ∧ 0 ∉ uuid.take (BEYOND_UUID_LEN - 1)
  | .client _ .removed data => m.event = true → m.info = true → data.name ≠ none
  | .client _ .error _ => False

instance Deliverable.decidable (m : FetchResults) (uuid : Bytes) :
    ∀ sub, Decidable (Deliverable m uuid sub)
  | .server _ data => inferInstanceAs (Decidable (m.event = true → data.name ≠ none))
  | .client _ .discovered data =>
      inferInstanceAs (Decidable (m.event = true → m.info = true → m.host = true →
        data.name ≠ none ∧ m.name = true ∧ m.ntop = none ∧ 0 ∉ uuid.take (BEYOND_UUID_LEN - 1)))
  | .client _ .removed data =>
      inferInstanceAs (Decidable (m.event = true → m.info = true → data.name ≠ none))
  | .client _ .error _ => isFalse id

def Raised.uuid : Raised → Bytes
  | .registered _ => []
  | .client _ info => info.uuid

/-- The write of a client succeeds when there is an event to write; a fetch finds a record that is
not an error and that has a name, and gets over its last two calls if it comes to them for a
`DISCOVERED`, whose uuid has no null byte inside. -/
def Keeps (s : State) : Act → Prop
  | .onServiceDiscovered _ _ m => m.event = true → m.data = true → m.write = true
  | .onServiceRegistered _ _ => True
  | .fetchEventData m =>
      ∀ subData ∈ s.pipe.head?, ∀ event ∈ s.next, Deliverable m event.uuid subData
  | .destroyEventData _ => True

instance Keeps.decidable (s : State) : ∀ a, Decidable (Keeps s a)
  | .onServiceDiscovered _ _ m =>
      inferInstanceAs (Decidable (m.event = true → m.data = true → m.write = true))
  | .fetchEventData m =>
      inferInstanceAs (Decidable
        (∀ subData ∈ s.pipe.head?, ∀ event ∈ s.next, Deliverable m event.uuid subData))
  | .onServiceRegistered .. | .destroyEventData _ => isTrue trivial

/-! ## Records and what they hold -/

section Records

variable {l : Ledger} {held : List Nat}

theorem freeName_balanced {name : Option Text} (h : l.Balanced (Text.blocks name ++ held)) :
    (freeName l name).Balanced held := by
  cases name with
  | none => exact h
  | some name => exact Ledger.Balanced.free h

theorem strdup_balanced (h : l.Balanced held) (ok : Bool) (text : Bytes) :
    (strdup l ok text).1.Balanced (Text.blocks (strdup l ok text).2 ++ held) := by
  cases ok with
  | false => exact h
  | true => exact h.alloc

/-- The blocks that `DestroyEventData` of the client does not release. -/
def ModuleEvent.kept : ModuleEvent → List Nat
  | .client _ .error data => Text.blocks data.name ++ [data.block]
  | .server .. | .client _ .discovered _ | .client _ .removed _ => []

theorem ModuleEvent.destroy_balanced {e : ModuleEvent} (h : l.Balanced (e.blocks ++ held)) :
    (e.destroy l).Balanced (e.kept ++ held) := by
  -- The name, the data and the event are released in the order in which they are listed.
  have hall : ∀ {name : Option Text} {data block : Nat},
      l.Balanced (Text.blocks name ++ [data, block] ++ held) →
        (((freeName l name).free data).free block).Balanced held := by
    intro name data block h
    rw [List.append_assoc] at h
    exact (freeName_balanced h).free.free
  cases e with
  | server block data => exact hall h
  | client block type data =>
      cases type with
      | discovered => exact hall h
      | removed => exact hall h
      | error =>
          refine Ledger.Balanced.free (h.congr fun a => ?_)
          simp only [blocks, kept, List.count_append, List.count_cons, List.count_nil]
          omega

theorem RuntimeEvent.destroy_balanced {e : RuntimeEvent} (h : l.Balanced (e.blocks ++ held)) :
    (e.destroy l).Balanced held := by
  cases e with
  | registered block name => exact h.free.free
  | discovered block info host => exact h.free.free.free.free
  | removed block info => exact h.free.free.free

/-! ## What a fetch makes of a record -/

theorem length_decimal_byte (b : UInt8) : (decimal b.toNat).length ≤ 3 := by
  rw [decimal, List.length_map, Nat.length_toDigits_le_iff (by decide) (by decide)]
  have hlt : b.toNat < 256 := b.toNat_lt
  omega

/-- The buffer for the host is large enough. -/
theorem IPv4.length_printed (address : IPv4) : address.printed.length < HOST_LEN := by
  have ha := length_decimal_byte address.a
  have hb := length_decimal_byte address.b
  have hc := length_decimal_byte address.c
  have hd := length_decimal_byte address.d
  simp only [printed, List.length_append, List.length_cons, HOST_LEN]
  omega

theorem inet_ntop_some {m : FetchResults} (address : IPv4) (hntop : m.ntop = none) :
    inet_ntop m (some address) = .ok address.printed := by
  simp [inet_ntop, hntop, address.length_printed]

theorem inet_ntop_error {m : FetchResults} {errno : Nat} (address : Option IPv4)
    (hntop : m.ntop = some errno) : inet_ntop m address = .error errno := by
  simp [inet_ntop, hntop]

/-- The record was made from this event. -/
def Carries : ModuleEvent → Raised → Prop
  | .server _ data, .registered name => ∀ text ∈ data.name, text.bytes = name
  | .client _ type data, .client type' info =>
      type = type' ∧ (∀ text ∈ data.name, text.bytes = info.name) ∧
        (type = .discovered →
          data.address = some info.address ∧ data.port = info.port ∧
            data.uuid = printUuid info.uuid)
  | _, _ => False

/-- The blocks of what a fetch returns. -/
def newBlocks : Except Int RuntimeEvent → List Nat
  | .ok event => event.blocks
  | .error _ => []

/-- The switch goes well exactly if `P`. -/
def Outcome (held : List Nat) (m : FetchResults) (event : Raised) (P : Prop) :
    Option (Ledger × Except Int RuntimeEvent) → Prop
  | none => ¬ P
  | some (l, result) =>
      ∃ lost, l.Balanced (lost ++ (newBlocks result ++ held)) ∧
        (lost = [] ∧ Answers (m, result.map RuntimeEvent.content) event ↔ P)

theorem ENOMEM_neg : -ENOMEM < 0 := by decide

variable {m : FetchResults} {block : Nat}

/-- An allocation fails, and everything that was made before is released. -/
theorem Outcome.failed {event : Raised} {P : Prop} (h : l.Balanced held)
    (hexcused : Excused m event) (hP : P) :
    Outcome held m event P (some (l, .error (-ENOMEM))) :=
  ⟨[], h, iff_of_true ⟨rfl, ENOMEM_neg, hexcused⟩ hP⟩

theorem fetchRegistered_outcome {data : ServerEventData} {name : Bytes}
    (h : l.Balanced (block :: held)) (hname : ∀ text ∈ data.name, text.bytes = name) :
    Outcome held m (.registered name) (data.name ≠ none) (fetchRegistered l m block data) := by
  unfold fetchRegistered
  cases hdata : data.name with
  | none => simp [Outcome]
  | some text =>
      have htext : text.bytes = name := hname text hdata
      by_cases hm : m.name = true
      · simp only [if_pos hm]
        exact ⟨[], h.alloc, iff_of_true ⟨rfl, congrArg Content.registered htext⟩ (by simp)⟩
      · simp only [if_neg hm]
        exact .failed h.free (.inr (by simpa using hm)) (by simp)

theorem fetchRemoved_outcome {data : ClientEventData} {info : DiscoveryInfo}
    (h : l.Balanced (block :: held)) (hname : ∀ text ∈ data.name, text.bytes = info.name) :
    Outcome held m (.client .removed info) (m.info = true → data.name ≠ none)
      (fetchRemoved l m block data) := by
  unfold fetchRemoved
  by_cases hinfo : m.info = false
  · rw [if_pos hinfo]
    exact .failed h.free (.inr (.inl hinfo)) (by simp [hinfo])
  · rw [if_neg hinfo]
    cases hdata : data.name with
    | none => simpa [Outcome] using hinfo
    | some text =>
        have htext : text.bytes = info.name := hname text hdata
        by_cases hm : m.name = false
        · simp only [if_pos hm]
          exact .failed h.alloc.free.free (.inr (.inr hm)) (by simp)
        · simp only [if_neg hm]
          exact ⟨[], h.alloc.alloc, iff_of_true ⟨rfl, congrArg Content.removed htext⟩ (by simp)⟩

/-- A printed uuid is the beginning of the uuid if no null byte is inside. -/
theorem printUuid_eq_take_iff (uuid : Bytes) :
    printUuid (printUuid uuid) = uuid.take (BEYOND_UUID_LEN - 1) ↔
      0 ∉ uuid.take (BEYOND_UUID_LEN - 1) := by
  have hcut : printUuid uuid = cstring (uuid.take (BEYOND_UUID_LEN - 1)) := List.take_takeWhile
  have hagain : printUuid (printUuid uuid) = printUuid uuid := by
    rw [hcut, printUuid, cstring_cstring, ← hcut, printUuid, List.take_take, Nat.min_self]
  rw [hagain, hcut]
  constructor
  · intro heq hmem
    exact zero_not_mem_cstring _ (heq ▸ hmem)
  · exact cstring_eq_self

theorem fetchDiscovered_outcome {data : ClientEventData} {info : DiscoveryInfo}
    (h : l.Balanced (block :: held)) (hname : ∀ text ∈ data.name, text.bytes = info.name)
    (haddress : data.address = some info.address) (hport : data.port = info.port)
    (huuid : data.uuid = printUuid info.uuid) :
    Outcome held m (.client .discovered info)
      (m.info = true → m.host = true → data.name ≠ none ∧ m.name = true ∧ m.ntop = none ∧
        0 ∉ info.uuid.take (BEYOND_UUID_LEN - 1))
      (fetchDiscovered l m block data) := by
  unfold fetchDiscovered
  by_cases hinfo : m.info = false
  · rw [if_pos hinfo]
    exact .failed h.free (.inr (.inl hinfo)) (by simp [hinfo])
  · rw [if_neg hinfo]
    by_cases hhost : m.host = false
    · rw [if_pos hhost]
      exact .failed h.alloc.free.free (.inr (.inr (.inl hhost))) (by simp [hhost])
    · simp only [if_neg hhost]
      rw [Bool.not_eq_false] at hinfo hhost
      cases hdata : data.name with
      | none => simp [Outcome, hinfo, hhost]
      | some text =>
          have htext : text.bytes = info.name := hname text hdata
          by_cases hm : m.name = false
          · -- The block of the host is lost.
            simp only [if_pos hm]
            refine ⟨[l.allocated + 1], ?_, by simp [hinfo, hhost, hm]⟩
            refine Ledger.Balanced.free (Ledger.Balanced.free (h.alloc.alloc.congr fun a => ?_))
            simp only [newBlocks, List.nil_append, List.cons_append, List.count_cons,
              Ledger.allocated_alloc]
            omega
          · simp only [if_neg hm]
            rw [Bool.not_eq_false] at hm
            cases hn : m.ntop with
            | some errno =>
                -- The block of the name is lost.
                simp only [inet_ntop_error data.address hn]
                refine ⟨[l.allocated + 1 + 1], ?_, by simp [hinfo, hhost]⟩
                refine Ledger.Balanced.free (Ledger.Balanced.free (Ledger.Balanced.free
                  (h.alloc.alloc.alloc.congr fun a => ?_)))
                simp only [newBlocks, List.nil_append, List.cons_append, List.count_cons,
                  Ledger.allocated_alloc]
                omega
            | none =>
                simp only [haddress, inet_ntop_some info.address hn]
                refine ⟨[], h.alloc.alloc.alloc, ?_⟩
                simp [Answers, Except.map, RuntimeEvent.content, Raised.content, htext, hport,
                  huuid, hinfo, hhost, hm, printUuid_eq_take_iff]

theorem repack_outcome {sub : ModuleEvent} {event : Raised} (h : l.Balanced (block :: held))
    (hcarries : Carries sub event) (hm : m.event = true) :
    Outcome held m event (Deliverable m event.uuid sub) (repack l m block sub) := by
  cases sub with
  | server b data =>
      cases event with
      | registered name => simpa [Deliverable, repack, hm] using fetchRegistered_outcome h hcarries
      | client type info => exact hcarries.elim
  | client b type data =>
      cases event with
      | registered name => exact hcarries.elim
      | client type' info =>
          rcases hcarries with ⟨rfl, hname, hdata⟩
          cases type with
          | discovered =>
              rcases hdata rfl with ⟨haddress, hport, huuid⟩
              simpa [Deliverable, repack, hm, Raised.uuid] using
                fetchDiscovered_outcome h hname haddress hport huuid
          | removed => simpa [Deliverable, repack, hm] using fetchRemoved_outcome h hname
          | error => exact ⟨[], h.free, by simp [Answers, Excused, Except.map, Deliverable, hm]⟩

theorem Deliverable.kept {sub : ModuleEvent} {uuid : Bytes} (h : Deliverable m uuid sub) :
    sub.kept = [] := by
  cases sub with
  | server b data => rfl
  | client b type data =>
      cases type with
      | discovered => rfl
      | removed => rfl
      | error => exact h.elim

/-- Without a new event the record is only given back. -/
theorem deliverable_of_no_event {sub : ModuleEvent} {uuid : Bytes} (hm : m.event = false) :
    Deliverable m uuid sub ↔ sub.kept = [] := by
  constructor
  · exact Deliverable.kept
  · cases sub with
    | server b data => simp [Deliverable, hm]
    | client b type data =>
        cases type with
        | discovered => simp [Deliverable, hm]
        | removed => simp [Deliverable, hm]
        | error => simp [ModuleEvent.kept]

theorem excused_of_no_event {event : Raised} (hm : m.event = false) : Excused m event := by
  cases event with
  | registered name => exact .inl hm
  | client type info =>
      cases type with
      | discovered => exact .inl hm
      | removed => exact .inl hm
      | error => exact hm

end Records

/-! ## The invariant -/

variable {s s' : State}

/-- The records in the pipe were made from the events that are not answered yet. -/
def Linked (s : State) : Prop :=
  List.Forall₂ Carries s.pipe (s.written.drop s.answers.length)

theorem Sound.answers_le (hs : Sound s) : s.answers.length ≤ s.written.length := by
  have hlength := hs.answered.length_eq
  rw [List.length_take] at hlength
  omega

theorem sound_start (module : Module) (infoName : Bytes) : Sound (.start module infoName) :=
  ⟨rfl, .nil, rfl, .empty⟩

theorem linked_start (module : Module) (infoName : Bytes) : Linked (.start module infoName) := .nil

/-- Only the ledger matters when nothing is written or fetched. -/
theorem Sound.ledger_iff (hs : Sound s) {l : Ledger} {name : Bytes} :
    Sound { s with infoName := name, ledger := l } ↔ l.Balanced s.held :=
  ⟨fun h => h.released, fun h => ⟨hs.safe, hs.answered, hs.pending, h⟩⟩

/-- A record is written to the pipe. -/
def State.write (s : State) (l : Ledger) (e : ModuleEvent) (event : Raised) : State :=
  { s with ledger := l, pipe := s.pipe ++ [e], written := s.written ++ [event] }

theorem Sound.write (hs : Sound s) {l : Ledger} {e : ModuleEvent} {event : Raised}
    (hl : l.Balanced (e.blocks ++ s.held)) : Sound (s.write l e event) := by
  have hle := hs.answers_le
  refine ⟨hs.safe, ?_, ?_, hl.congr fun a => ?_⟩
  · have htake : (s.written ++ [event]).take s.answers.length =
        s.written.take s.answers.length := List.take_append_of_le_length hle
    exact htake.symm ▸ hs.answered
  · have hpending := hs.pending
    simp only [State.write, List.length_drop, List.length_append, List.length_singleton] at hpending ⊢
    omega
  · simp only [State.held, State.write, List.flatMap_append, List.flatMap_singleton,
      List.count_append]
    omega

theorem Linked.write (hlinked : Linked s) (hs : Sound s) {l : Ledger} {e : ModuleEvent}
    {event : Raised} (he : Carries e event) : Linked (s.write l e event) := by
  have hdrop : (s.written ++ [event]).drop s.answers.length =
      s.written.drop s.answers.length ++ [event] := List.drop_append_of_le_length hs.answers_le
  unfold Linked State.write
  rw [hdrop]
  exact List.rel_append hlinked (.cons he .nil)

/-! ## Raising events -/

theorem newEventData_balanced {l : Ledger} {held : List Nat} {m : RaiseResults}
    (h : l.Balanced held) :
    (∃ l', newEventData l m = (l', none) ∧ (m.event = true → m.data = false) ∧ l'.Balanced held) ∨
    (∃ l' block data, newEventData l m = (l', some (block, data)) ∧ m.event = true ∧
      m.data = true ∧ l'.Balanced (data :: block :: held)) := by
  unfold newEventData
  by_cases hevent : m.event = false
  · rw [if_pos hevent]
    exact .inl ⟨l, rfl, by simp [hevent], h⟩
  · rw [if_neg hevent]
    by_cases hdata : m.data = false
    · rw [if_pos hdata]
      exact .inl ⟨_, rfl, fun _ => hdata, h.alloc.free⟩
    · rw [if_neg hdata]
      exact .inr ⟨_, _, _, rfl, by simpa using hevent, by simpa using hdata, h.alloc.alloc⟩

theorem strdup_bytes {l : Ledger} {ok : Bool} {name : Bytes} (hname : 0 ∉ name) :
    ∀ text ∈ (strdup l ok name).2, text.bytes = name := by
  intro text htext
  cases ok with
  | false => simp [strdup] at htext
  | true =>
      cases Option.mem_some_iff.1 htext
      exact cstring_eq_self hname

theorem carries_fillClientData {type : ClientType} {info : DiscoveryInfo} {block data : Nat}
    {name : Option Text} (hname : ∀ text ∈ name, text.bytes = info.name) :
    Carries (.client block type (fillClientData data name info type)) (.client type info) := by
  cases type with
  | discovered => exact ⟨rfl, hname, fun _ => ⟨rfl, rfl, rfl⟩⟩
  | removed => exact ⟨rfl, hname, nofun⟩
  | error => exact ⟨rfl, hname, nofun⟩

theorem blocks_fillClientData (type : ClientType) (info : DiscoveryInfo) (block data : Nat)
    (name : Option Text) :
    (ModuleEvent.client block type (fillClientData data name info type)).blocks =
      Text.blocks name ++ [data, block] := by
  cases type with
  | discovered => rfl
  | removed => rfl
  | error => rfl

/-- A client that cannot write its event has lost it. -/
theorem onServiceDiscovered_iff (event : ClientType) {info : DiscoveryInfo} (m : RaiseResults)
    (hs : Sound s) (hl : Linked s) (hname : 0 ∉ info.name) :
    (Sound (onServiceDiscovered s event info m) ↔ Keeps s (.onServiceDiscovered event info m)) ∧
      Linked (onServiceDiscovered s event info m) := by
  unfold onServiceDiscovered
  rcases newEventData_balanced (m := m) hs.released with
    ⟨l, hnew, hfailed, hbalanced⟩ | ⟨l, block, data, hnew, hevent, hdata, hbalanced⟩
  · simp only [hnew]
    refine ⟨iff_of_true (hs.ledger_iff.2 hbalanced) fun h h' => ?_, hl⟩
    exact absurd ((hfailed h).symm.trans h') (by simp)
  · simp only [hnew]
    have hdup := strdup_balanced hbalanced m.name info.name
    by_cases hwrite : m.write = true
    · rw [if_pos hwrite]
      refine ⟨iff_of_true (hs.write ?_) fun _ _ => hwrite,
        hl.write hs (carries_fillClientData (strdup_bytes hname))⟩
      rw [blocks_fillClientData, List.append_assoc]
      exact hdup
    · rw [if_neg hwrite]
      refine ⟨hs.ledger_iff.trans ?_, hl⟩
      -- Nobody holds the three blocks any more.
      have hlost : (strdup l m.name info.name).1.Balanced
          (Text.blocks (strdup l m.name info.name).2 ++ [data, block] ++ s.held) := by
        rw [List.append_assoc]
        exact hdup
      rw [hlost.iff_none_lost]
      simp [Keeps, hevent, hdata, hwrite]

theorem renamed_eq (serviceName : Bytes) :
    renamed s serviceName = { s with infoName := serviceName } := by
  unfold renamed
  split
  · rfl
  · rename_i h
    rw [not_not.1 h]

theorem onServiceRegistered_sound {serviceName : Bytes} {m : RaiseResults} (hs : Sound s)
    (hl : Linked s) (hname : 0 ∉ serviceName) :
    Sound (onServiceRegistered s serviceName m) ∧ Linked (onServiceRegistered s serviceName m) := by
  unfold onServiceRegistered
  rw [renamed_eq]
  have hs' : Sound { s with infoName := serviceName } := hs.ledger_iff.2 hs.released
  have hl' : Linked { s with infoName := serviceName } := hl
  rcases newEventData_balanced (m := m) hs.released with
    ⟨l, hnew, -, hbalanced⟩ | ⟨l, block, data, hnew, -, -, hbalanced⟩
  · simp only [hnew]
    exact ⟨hs.ledger_iff.2 hbalanced, hl⟩
  · simp only [hnew]
    have hdup := strdup_balanced hbalanced m.name serviceName
    have hheld : (strdup l m.name serviceName).1.Balanced
        ((ModuleEvent.server block ⟨data, (strdup l m.name serviceName).2⟩).blocks ++ s.held) := by
      rw [ModuleEvent.blocks, List.append_assoc]
      exact hdup
    by_cases hwrite : m.write = true
    · rw [if_pos hwrite]
      exact ⟨hs'.write hheld, hl'.write hs' (strdup_bytes hname)⟩
    · rw [if_neg hwrite]
      exact ⟨hs.ledger_iff.2 (ModuleEvent.destroy_balanced hheld), hl⟩

/-! ## Fetching and destroying -/

/-- The fetch returns, with the blocks in `lost` behind. -/
theorem Sound.answer_iff {sub : ModuleEvent} {pipe : List ModuleEvent} {event : Raised}
    {events : List Raised} {m : FetchResults} {l : Ledger} {lost : List Nat} (hs : Sound s)
    (hpipe : s.pipe = sub :: pipe) (hnext : s.written.drop s.answers.length = event :: events)
    (result : Except Int RuntimeEvent)
    (hl : l.Balanced (lost ++ (newBlocks result ++
      (pipe.flatMap ModuleEvent.blocks ++ s.events.flatMap RuntimeEvent.blocks)))) :
    Sound ({ s with pipe := pipe, ledger := l }.answer m result) ↔
      lost = [] ∧ Answers (m, result.map RuntimeEvent.content) event := by
  have hlength : (s.written.take s.answers.length).length = s.answers.length :=
    hs.answered.length_eq.symm
  have htake : s.written.take (s.answers.length + 1) =
      s.written.take s.answers.length ++ [event] := by
    rw [List.take_add, hnext]
    rfl
  have hheld : l.Balanced
      (lost ++ ({ s with pipe := pipe, ledger := l }.answer m result).held) := by
    refine hl.congr fun a => ?_
    cases result with
    | error ret => simp [State.answer, State.held, newBlocks]
    | ok e =>
        simp only [State.answer, State.held, newBlocks, List.flatMap_append,
          List.flatMap_singleton, List.count_append]
        omega
  constructor
  · intro h
    refine ⟨hheld.iff_none_lost.1 h.released, ?_⟩
    have hanswered := h.answered
    simp only [State.answer, List.length_append, List.length_singleton, htake] at hanswered
    have hlast := List.forall₂_drop_append _ _ _ hanswered
    rw [hlength, List.drop_left] at hlast
    cases hlast with
    | cons h _ => exact h
  · rintro ⟨hlost, hanswer⟩
    refine ⟨hs.safe, ?_, ?_, hheld.iff_none_lost.2 hlost⟩
    · simp only [State.answer, List.length_append, List.length_singleton, htake]
      exact List.rel_append hs.answered (.cons hanswer .nil)
    · have hpending := hs.pending
      rw [hpipe, hnext] at hpending
      simp only [State.answer, List.length_append, List.length_singleton]
      rw [← List.drop_drop, hnext]
      exact Nat.succ.inj hpending

theorem fetchEventData_iff {m : FetchResults} (hs : Sound s) (hl : Linked s) :
    (Sound (fetchEventData s m) ↔ Keeps s (.fetchEventData m)) ∧
      (Sound (fetchEventData s m) → Linked (fetchEventData s m)) := by
  unfold fetchEventData
  cases hpipe : s.pipe with
  | nil => exact ⟨iff_of_true hs (by simp [Keeps, hpipe]), fun _ => hl⟩
  | cons sub pipe =>
      unfold Linked at hl
      rw [hpipe] at hl
      cases hnext : s.written.drop s.answers.length with
      | nil =>
          rw [hnext] at hl
          cases hl
      | cons event events =>
          rw [hnext, List.forall₂_cons] at hl
          rcases hl with ⟨hcarries, hrest⟩
          have hheld := hs.released
          rw [State.held, hpipe, List.flatMap_cons, List.append_assoc] at hheld
          have hkeeps : Keeps s (.fetchEventData m) ↔ Deliverable m event.uuid sub := by
            have hevent : s.next = some event := by
              rw [State.next, ← List.head?_drop, hnext]
              rfl
            simp [Keeps, hpipe, hevent]
          -- The answer takes the record and its event off both lists.
          have hlinked : ∀ l result,
              Linked ({ s with pipe := pipe, ledger := l }.answer m result) := by
            intro l result
            simp only [Linked, State.answer, List.length_append, List.length_singleton]
            rw [← List.drop_drop, hnext]
            exact hrest
          rw [hkeeps]
          by_cases hm : m.event = false
          · simp only [if_pos hm]
            refine ⟨?_, fun _ => hlinked _ _⟩
            have hdestroyed := ModuleEvent.destroy_balanced hheld
            rw [hs.answer_iff hpipe hnext (.error (-ENOMEM)) hdestroyed,
              deliverable_of_no_event hm]
            exact and_iff_left ⟨ENOMEM_neg, excused_of_no_event hm⟩
          · simp only [if_neg hm]
            rw [Bool.not_eq_false] at hm
            have houtcome := repack_outcome hheld.alloc hcarries hm
            cases hrepack : repack s.ledger.alloc m s.ledger.allocated sub with
            | none =>
                rw [hrepack] at houtcome
                have hfault : ¬ Sound { s with pipe := pipe, fault := true } :=
                  fun h => absurd h.safe (by simp)
                exact ⟨iff_of_false hfault houtcome, fun h => absurd h hfault⟩
            | some fetched =>
                rcases fetched with ⟨l, result⟩
                rw [hrepack] at houtcome
                rcases houtcome with ⟨lost, hbalanced, hiff⟩
                refine ⟨?_, fun _ => hlinked _ _⟩
                have hdestroyed : (sub.destroy l).Balanced (sub.kept ++ lost ++ (newBlocks result ++
                    (pipe.flatMap ModuleEvent.blocks ++ s.events.flatMap RuntimeEvent.blocks))) := by
                  rw [List.append_assoc]
                  refine ModuleEvent.destroy_balanced (hbalanced.congr fun a => ?_)
                  simp only [List.count_append]
                  omega
                rw [hs.answer_iff hpipe hnext result hdestroyed, List.append_eq_nil_iff, and_assoc, hiff]
                exact ⟨And.right, fun h => ⟨h.kept, h⟩⟩

theorem destroyEventData_sound {k : Nat} {event : RuntimeEvent} (hs : Sound s)
    (hk : s.events[k]? = some event) : Sound (destroyEventData s k event) := by
  refine ⟨hs.safe, hs.answered, hs.pending, RuntimeEvent.destroy_balanced (hs.released.congr ?_)⟩
  intro a
  rcases List.getElem?_eq_some_iff.1 hk with ⟨hlt, rfl⟩
  have hperm : s.events.Perm (s.events[k] :: s.events.eraseIdx k) :=
    (List.getElem_cons_eraseIdx_perm hlt).symm
  have hcount := (hperm.flatMap_right RuntimeEvent.blocks).count_eq a
  simp only [State.held, destroyEventData, List.count_append, List.flatMap_cons] at hcount ⊢
  omega

/-! ## Runs -/

theorem step_iff {a : Act} (hs : Sound s) (hl : Linked s) (h : step s a = some s') :
    (Sound s' ↔ Keeps s a) ∧ (Sound s' → Linked s') := by
  unfold step at h
  rw [hs.safe, if_neg Bool.false_ne_true] at h
  cases a with
  | onServiceDiscovered event info m =>
      simp only at h
      split at h
      · rename_i hguard
        cases h
        have hstep := onServiceDiscovered_iff event m hs hl hguard.2
        exact ⟨hstep.1, fun _ => hstep.2⟩
      · cases h
  | onServiceRegistered serviceName m =>
      simp only at h
      split at h
      · rename_i hguard
        cases h
        have hstep := onServiceRegistered_sound (m := m) hs hl hguard.2
        exact ⟨iff_of_true hstep.1 trivial, fun _ => hstep.2⟩
      · cases h
  | fetchEventData m =>
      cases h
      exact fetchEventData_iff hs hl
  | destroyEventData k =>
      cases k with
      | none =>
          cases h
          exact ⟨iff_of_true hs trivial, fun _ => hl⟩
      | some k =>
          rcases Option.map_eq_some_iff.1 h with ⟨event, hevent, rfl⟩
          exact ⟨iff_of_true (destroyEventData_sound hs hevent) trivial, fun _ => hl⟩

/-- `P` holds after the step, if it can be made. -/
def After (P : State → Prop) (s : State) (a : Act) : Prop := ∀ s', step s a = some s' → P s'

/-- In every run the events are conserved up to the first step that does not meet the condition, and
no longer behind that step. -/
theorem events_conserved (module : Module) (infoName : Bytes) (as : List Act)
    (h : Run.exec step (.start module infoName) as = some s) :
    Run.Along step (After Sound) (.start module infoName) as ↔
      Run.Along step Keeps (.start module infoName) as := by
  have hkept : Run.Preserved step Keeps fun s => Sound s ∧ Linked s := by
    rintro s a s' ⟨hs, hl⟩ hkeeps hstep
    have hiff := step_iff hs hl hstep
    have hs' := hiff.1.2 hkeeps
    exact ⟨hs', hiff.2 hs'⟩
  refine Run.along_iff_of_invariant hkept ?_
    ⟨sound_start module infoName, linked_start module infoName⟩ h
  rintro s a s' ⟨hs, hl⟩ hstep
  rw [← (step_iff hs hl hstep).1]
  constructor
  · intro hafter
    exact hafter s' hstep
  · intro hs' t ht
    cases Option.some.inj (hstep.symm.trans ht)
    exact hs'

def raised : RaiseResults := ⟨true, true, true, true⟩

def fetched : FetchResults := ⟨true, true, true, true, none⟩

def service : DiscoveryInfo := ⟨ascii "BeyonD", ⟨10, 0, 0, 7⟩, 3000, ascii "a1"⟩

/-- A service is found, and the event for it is fetched and destroyed. -/
def discoveredRun : List Act :=
  [.onServiceDiscovered .discovered service raised, .fetchEventData fetched,
    .destroyEventData (some 0)]

theorem discovered_delivered :
    (∃ s, Run.exec step (.start .client []) discoveredRun = some s ∧ s.held = [] ∧
      s.answers = [(fetched,
        .ok (.discovered (ascii "BeyonD") (ascii "10.0.0.7") 3000 (ascii "a1")))]) ∧
    Run.Along step (After Sound) (.start .client []) discoveredRun := by
  refine ⟨⟨_, rfl, rfl, rfl⟩, (events_conserved .client [] discoveredRun rfl).2 ?_⟩
  decide

/-- A service cannot be resolved, and the event for it is fetched. -/
def errorRun : List Act :=
  [.onServiceDiscovered .error service raised, .fetchEventData fetched]

theorem error_lost :
    (∃ s, Run.exec step (.start .client []) errorRun = some s ∧ s.held = [] ∧
      s.answers = [(fetched, .error (-EFAULT))] ∧ s.ledger.allocated = 4 ∧
      s.ledger.releases 1 = 0 ∧ s.ledger.releases 2 = 0) ∧
    ¬ Run.Along step (After Sound) (.start .client []) errorRun := by
  refine ⟨⟨_, rfl, rfl, rfl, rfl, rfl, rfl⟩, fun h => ?_⟩
  have hs := (h.2 _ rfl).1 _ rfl
  exact absurd (hs.released.released (by decide : 1 < 4) (by decide)) (by decide)

end Delivery
end Discovery
end Beyond
