import Mathlib.Data.List.Lex
import Mathlib.Data.List.Sort
import Beyond.Base.Latest
import Beyond.Discovery.Delivery
import Beyond.Discovery.Lookups

/-!
# From a server's items to the application of a client

`DiscoveryServer` announces its name, its port and its items when it is activated; `DiscoveryClient`
looks the service up and hands what it is told to its application.  Any number of servers and a client
run here on a network that answers for what was announced to it, in any order, several times or never.

A `std::string` is a `String` of characters below 256 in `NsdManager`, and its bytes elsewhere.
-/

namespace Beyond
namespace Discovery
namespace Network

open Delivery (IPv4 Content RaiseResults FetchResults printUuid)
open NsdManager (DiscoveryEvent LoopResults)
open Bytes Errno

/-! ## Strings -/

def text (b : Bytes) : String := String.ofList (b.map fun c => Char.ofNat c.toNat)

theorem ascii_text (b : Bytes) : ascii (text b) = b := by
  have hchar : ∀ c : UInt8, UInt8.ofNat (Char.ofNat c.toNat).toNat = c := by
    intro c
    have hlt := c.toNat_lt
    have hvalid : c.toNat.isValidChar := .inl (by omega)
    have hchar : (Char.ofNat c.toNat).toNat = c.toNat := by
      rw [Char.ofNat, dif_pos hvalid]
      rfl
    rw [hchar, UInt8.ofNat_toNat]
  simp [ascii, text, Function.comp_def, hchar]

def uuidKey : Bytes := ascii "uuid"

def lower (c : UInt8) : UInt8 := if 0x41 ≤ c ∧ c ≤ 0x5a then c + 0x20 else c

/-- Keys are compared without regard to case. -/
def folded (key : Bytes) : Bytes := key.map lower

/-! ## Items -/

/-- The order of `std::string`. -/
def keyLe (a b : Bytes × Bytes) : Prop := a.1.map UInt8.toNat ≤ b.1.map UInt8.toNat

instance : DecidableRel keyLe := fun a b =>
  inferInstanceAs (Decidable (a.1.map UInt8.toNat ≤ b.1.map UInt8.toNat))

instance : Std.Total keyLe := ⟨fun a b => le_total (a.1.map UInt8.toNat) (b.1.map UInt8.toNat)⟩

instance : IsTrans (Bytes × Bytes) keyLe := ⟨fun _ _ _ hab hbc =>
  le_trans (α := List ℕ) hab hbc⟩

/-- `DiscoveryInfo::valueMap`. -/
structure ValueMap where
  entries : List (Bytes × Bytes)
  sorted : entries.Pairwise keyLe
  nodup : (entries.map Prod.fst).Nodup

namespace ValueMap

def empty : ValueMap := ⟨[], .nil, .nil⟩

variable (m : ValueMap)

def keys : List Bytes := m.entries.map Prod.fst

def insert (key value : Bytes) (h : key ∉ m.keys) : ValueMap where
  entries := m.entries.orderedInsert keyLe (key, value)
  sorted := m.sorted.orderedInsert _ _
  nodup := by
    have hperm := (List.perm_orderedInsert keyLe (key, value) m.entries).map Prod.fst
    exact hperm.nodup_iff.2 (List.nodup_cons.2 ⟨h, m.nodup⟩)

def erase (key : Bytes) : ValueMap where
  entries := m.entries.filter fun e => e.1 ≠ key
  sorted := m.sorted.filter _
  nodup := m.nodup.sublist (List.filter_sublist.map _)

/-- `DiscoveryInfo::setValue`. -/
def setValue (key value : Bytes) : Int × ValueMap :=
  if h : key ∈ m.keys then (-EEXIST, m) else (0, m.insert key value h)

/-- `DiscoveryInfo::removeValue`. -/
def removeValue (key : Bytes) : Int × ValueMap :=
  if key ∈ m.keys then (0, m.erase key) else (-EINVAL, m)

end ValueMap

/-! ## TXT records -/

/-- `TXTRecordCreate`, `TXTRecordSetValue`, which may fail, and `TXTRecordGetValuePtr`. -/
structure TxtLibrary (τ : Type*) where
  create : τ
  setValue : τ → Bytes → Bytes → Option τ
  getValuePtr : τ → Bytes → Option Bytes

/-- A value replaces what the key had, in any case, and leaves the others alone. -/
structure TxtLibrary.Lawful {τ : Type*} (lib : TxtLibrary τ) : Prop where
  create : ∀ key, lib.getValuePtr lib.create key = none
  same : ∀ t t' key key' value, lib.setValue t key value = some t' → folded key' = folded key →
    lib.getValuePtr t' key' = some value
  other : ∀ t t' key key' value, lib.setValue t key value = some t' → folded key' ≠ folded key →
    lib.getValuePtr t' key' = lib.getValuePtr t key'

variable {τ ι : Type*}

/-- The loop over the values, up to one that cannot be set: the record, and the result of each call. -/
def TxtLibrary.setValues (lib : TxtLibrary τ) : τ → List (Bytes × Bytes) → τ × List Bool
  | txt, [] => (txt, [])
  | txt, (key, value) :: entries =>
      match lib.setValue txt key value with
      | none => (txt, [false])
      | some txt' => ((lib.setValues txt' entries).1, true :: (lib.setValues txt' entries).2)

/-! ## Servers and the network -/

/-- What a call of `DNSServiceRegister` announces, or a reply to it, which may have another name. -/
structure Announcement (ι : Type*) where
  server : ι
  name : Bytes
  port : UInt16
  items : ValueMap

namespace Announcement

variable (a : Announcement ι)

/-- The value of the last item with the key. -/
def uuid : Option Bytes :=
  latest (a.items.entries.map fun e => if folded e.1 = folded uuidKey then some e.2 else none)

end Announcement

/-- `DiscoveryServer`; the name is `infoName` of its events. -/
structure Server where
  nsd : NsdManager.State IPv4
  events : Delivery.State
  port : UInt16
  valueMap : ValueMap
  /-- What the daemon was asked to register. -/
  registration : Option (UInt16 × ValueMap)

def Server.create (name : Bytes) (port : UInt16) : Server :=
  ⟨.start, .start .server name, port, .empty, none⟩

/-- `htons`. -/
def htons (port : UInt16) : Nat := port.toNat % 256 * 256 + port.toNat / 256

structure State (ι : Type*) where
  server : ι → Server
  /-- Everything that was ever announced. -/
  announced : List (Announcement ι)
  client : NsdManager.State IPv4
  events : Delivery.State

inductive ServerAct
  | setItem (key : Option Bytes) (value : Bytes) (valueSize : UInt8)
  | removeItem (key : Option Bytes)
  | activate (register : Option Int) (c : LoopResults)
  | deactivate
  | destroy
  | register_reply (r : Nat) (name : String) (m : RaiseResults)
  | fetchEventData (m : FetchResults)
  | destroyEventData (k : Option Nat)

inductive Act (ι : Type*)
  | server (i : ι) (a : ServerAct)
  /-- A call of `DiscoveryClient`, or a reply to it. -/
  | client (a : NsdManager.Act IPv4) (m : RaiseResults)
  | fetchEventData (m : FetchResults)
  | destroyEventData (k : Option Nat)

/-! ## Steps of a server -/

def setItem (s : Server) (key : Option Bytes) (value : Bytes) (valueSize : UInt8) : Int × Server :=
  match key with
  | none => (-EINVAL, s)
  | some key =>
      let (ret, valueMap) := s.valueMap.setValue key (value.take valueSize.toNat)
      (ret, { s with valueMap := valueMap })

def removeItem (s : Server) (key : Option Bytes) : Int × Server :=
  match key with
  | none => (-EINVAL, s)
  | some key =>
      let (ret, valueMap) := s.valueMap.removeValue key
      (ret, { s with valueMap := valueMap })

/-- `Activate`, and what is announced by it. -/
def activate (lib : TxtLibrary τ) (i : ι) (s : Server) (register : Option Int) (c : LoopResults) :
    Option (Server × List (Announcement ι)) :=
  let txtRecord := (lib.setValues lib.create s.valueMap.entries).2
  match NsdManager.step s.nsd (.registerService true txtRecord register c) with
  | none => none
  | some nsd =>
      if s.nsd.svc = none ∧ txtRecord.all id ∧ register.isSome then
        some ({ s with nsd := nsd, registration := some (s.port, s.valueMap) },
          [⟨i, s.events.infoName, s.port, s.valueMap⟩])
      else some ({ s with nsd := nsd }, [])

/-- The service may have got another name. -/
def register_reply (i : ι) (s : Server) (r : Nat) (name : String) (m : RaiseResults) :
    Option (Server × List (Announcement ι)) :=
  match NsdManager.step s.nsd (.register_reply r name),
      Delivery.step s.events (.onServiceRegistered (ascii name) m), s.registration with
  | some nsd, some events, some (port, items) =>
      some ({ s with nsd := nsd, events := events }, [⟨i, ascii name, port, items⟩])
  | _, _, _ => none

def serverStep (lib : TxtLibrary τ) (i : ι) (s : Server) :
    ServerAct → Option (Server × List (Announcement ι))
  | .setItem key value valueSize => some ((setItem s key value valueSize).2, [])
  | .removeItem key => some ((removeItem s key).2, [])
  | .activate register c => activate lib i s register c
  | .deactivate =>
      (NsdManager.step s.nsd .unregisterService).map fun nsd => ({ s with nsd := nsd }, [])
  | .destroy => (NsdManager.step s.nsd .destroy).map fun nsd => ({ s with nsd := nsd }, [])
  | .register_reply r name m => register_reply i s r name m
  | .fetchEventData m =>
      (Delivery.step s.events (.fetchEventData m)).map fun events => ({ s with events := events }, [])
  | .destroyEventData k =>
      (Delivery.step s.events (.destroyEventData k)).map fun events =>
        ({ s with events := events }, [])

/-! ## Steps of the system -/

/-- The calls of `DiscoveryClient` and the replies to them. -/
def ofClient : NsdManager.Act IPv4 → Bool
  | .discoverServices cb _ _ => cb
  | .stopServiceDiscovery => true
  | .discover_reply _ _ _ _ _ => true
  | .resolve_reply _ _ _ _ _ => true
  | .addrinfo_reply _ _ => true
  | .destroy => true
  | .registerService _ _ _ _ => false
  | .unregisterService => false
  | .register_reply _ _ => false

def clientType : DiscoveryEvent → Delivery.ClientType
  | .discovered => .discovered
  | .removed => .removed
  | .error => .error

/-- The info as `onServiceDiscovered` gets it; it reads the address of a `DISCOVERED` only. -/
def given (info : NsdManager.DiscoveryInfo IPv4) : Delivery.DiscoveryInfo :=
  ⟨ascii info.name, info.address.getD ⟨0, 0, 0, 0⟩, UInt16.ofNat info.port, ascii info.uuid⟩

def clientStep (s : State ι) (a : NsdManager.Act IPv4) (m : RaiseResults) : Option (State ι) :=
  match NsdManager.step s.client a with
  | none => none
  | some client =>
      match client.published.drop s.client.published.length with
      | [] => some { s with client := client }
      | .info event info :: _ =>
          (Delivery.step s.events (.onServiceDiscovered (clientType event) (given info) m)).map
            fun events => { s with client := client, events := events }
      | .registered _ :: _ => none

def step [DecidableEq ι] (lib : TxtLibrary τ) (s : State ι) : Act ι → Option (State ι)
  | .server i a =>
      (serverStep lib i (s.server i) a).map fun (server, announced) =>
        { s with
          server := Function.update s.server i server
          announced := s.announced ++ announced }
  | .client a m => if ofClient a then clientStep s a m else none
  | .fetchEventData m =>
      (Delivery.step s.events (.fetchEventData m)).map fun events => { s with events := events }
  | .destroyEventData k =>
      (Delivery.step s.events (.destroyEventData k)).map fun events => { s with events := events }

def State.start (name : ι → Bytes) (port : ι → UInt16) : State ι :=
  ⟨fun i => .create (name i) (port i), [], .start, .start .client []⟩

/-! ## The property -/

/-- The network answers for what was announced to it under the name that it is asked for. -/
def TruthfulReply (lib : TxtLibrary τ) (host : ι → IPv4) (announced : List (Announcement ι))
    (client : NsdManager.State IPv4) : NsdManager.Act IPv4 → Prop
  | .discover_reply _ _ serviceName _ _ => ∃ a ∈ announced, a.name = ascii serviceName
  | .resolve_reply r uuid opaqueport _ _ =>
      ∀ info, client.lookup (client.ref r).context = some info →
        ∃ a ∈ announced, a.name = ascii info.name ∧ opaqueport = htons a.port ∧
          uuid = (lib.getValuePtr (lib.setValues lib.create a.items.entries).1 uuidKey).map text
  | .addrinfo_reply r address =>
      ∀ info, client.lookup (client.ref r).context = some info →
        ∃ a ∈ announced, a.name = ascii info.name ∧ address = some (host a.server)
  | _ => True

def Truthful (lib : TxtLibrary τ) (host : ι → IPv4) (s : State ι) : Act ι → Prop
  | .client a _ => TruthfulReply lib host s.announced s.client a
  | _ => True

/-- What the application of the client was told. -/
def State.told (s : State ι) : List Content :=
  s.events.answers.filterMap fun answer => answer.2.toOption

/-- All that an event says was announced under its name: the port, the uuid as far as there is one, and
the address of a server. -/
def Announced (host : ι → IPv4) (announced : List (Announcement ι)) : Content → Prop
  | .discovered name address port uuid =>
      ∃ a ∈ announced, a.name = name ∧ a.port = port ∧
        (∀ value, (uuidKey, value) ∈ a.items.entries → uuid = printUuid value) ∧
        (∃ c ∈ announced, c.name = name ∧ uuid = printUuid (c.uuid.getD [])) ∧
        ∃ b ∈ announced, b.name = name ∧ address = (host b.server).printed
  | .removed name => ∃ a ∈ announced, a.name = name
  | .registered _ => False
  | .error _ => False

/-! ## Keys -/

theorem le_lower (c : UInt8) : c.toNat ≤ (lower c).toNat := by
  unfold lower
  split
  · rename_i hc
    have hle : c.toNat ≤ 90 := hc.2
    rw [UInt8.toNat_add]
    simp
    omega
  · exact le_rfl

/-- Small letters come behind the large ones. -/
theorem le_folded (key : Bytes) : key.map UInt8.toNat ≤ (folded key).map UInt8.toNat := by
  induction key with
  | nil => exact le_rfl
  | cons c key ih =>
      rw [folded, List.map_cons, List.map_cons, List.map_cons]
      rcases Nat.lt_or_eq_of_le (le_lower c) with hlt | heq
      · exact le_of_lt (List.cons_lt_cons_iff.2 (.inl hlt))
      · exact heq ▸ List.cons_le_cons _ ih

namespace Announcement

variable {a : Announcement ι}

/-- An item with the key itself is the last one with that key in any case. -/
theorem uuid_item {value : Bytes} (h : (uuidKey, value) ∈ a.items.entries) : a.uuid = some value := by
  rcases List.append_of_mem h with ⟨before, after, heq⟩
  have hsorted := a.items.sorted
  have hnodup := a.items.nodup
  rw [heq] at hsorted hnodup
  have hafter : ∀ e ∈ after, folded e.1 ≠ folded uuidKey := by
    intro e he hfolded
    have hle : uuidKey.map UInt8.toNat ≤ e.1.map UInt8.toNat :=
      (List.pairwise_cons.1 (List.pairwise_append.1 hsorted).2.1).1 e he
    have hge : e.1.map UInt8.toNat ≤ uuidKey.map UInt8.toNat := by
      have hkey := le_folded e.1
      rwa [hfolded] at hkey
    have hkey : e.1 = uuidKey :=
      List.map_injective_iff.2 (fun _ _ => UInt8.toNat_inj.1) (le_antisymm hge hle)
    simp only [List.map_append, List.map_cons] at hnodup
    have hnot := (List.nodup_cons.1 (List.nodup_append.1 hnodup).2.1).1
    exact hnot (hkey ▸ List.mem_map_of_mem he)
  have hnone : latest (after.map fun e =>
      if folded e.1 = folded uuidKey then some e.2 else none) = none := by
    refine latest_eq_none_iff.2 fun u hu => ?_
    rcases List.mem_map.1 hu with ⟨e, he, rfl⟩
    exact if_neg (hafter e he)
  rw [uuid, heq, List.map_append, latest_append, List.map_cons, latest_cons, hnone]
  simp

end Announcement

/-- What `TXTRecordGetValuePtr` finds in a record is the last value for the key. -/
theorem getValuePtr_setValues {lib : TxtLibrary τ} (hlib : lib.Lawful) (key : Bytes)
    {entries : List (Bytes × Bytes)} {txt : τ} (h : (lib.setValues txt entries).2.all id = true) :
    lib.getValuePtr (lib.setValues txt entries).1 key =
      (latest (entries.map fun e => if folded e.1 = folded key then some e.2 else none)).or
        (lib.getValuePtr txt key) := by
  induction entries generalizing txt with
  | nil => simp [TxtLibrary.setValues]
  | cons e entries ih =>
      cases hset : lib.setValue txt e.1 e.2 with
      | none => simp [TxtLibrary.setValues, hset] at h
      | some txt' =>
          simp only [TxtLibrary.setValues, hset, List.all_cons, id, Bool.true_and] at h ⊢
          rw [ih h, List.map_cons, latest_cons, Option.or_assoc]
          congr 1
          by_cases hkey : folded e.1 = folded key
          · rw [if_pos hkey, hlib.same txt txt' e.1 key e.2 hset hkey.symm]
            rfl
          · rw [if_neg hkey, hlib.other txt txt' e.1 key e.2 hset (Ne.symm hkey)]
            rfl

/-! ## Events of the client -/

section Events

open Delivery

/-- What a fetch makes of a record. -/
def content : ModuleEvent → Option Content
  | .server _ data => data.name.map fun name => .registered name.bytes
  | .client _ .discovered data =>
      match data.name, data.address with
      | some name, some address =>
          some (.discovered name.bytes address.printed data.port (printUuid data.uuid))
      | _, _ => none
  | .client _ .removed data => data.name.map fun name => .removed name.bytes
  | .client _ .error _ => none

/-- Whatever the application was told or is going to be told meets `P`. -/
structure Holds (P : Content → Prop) (s : Delivery.State) : Prop where
  pipe : ∀ e ∈ s.pipe, ∀ c ∈ content e, P c
  told : ∀ answer ∈ s.answers, ∀ c ∈ answer.2.toOption, P c

variable {P Q : Content → Prop} {s s' : Delivery.State}

theorem Holds.mono (hs : Holds P s) (h : ∀ c, P c → Q c) : Holds Q s :=
  ⟨fun e he c hc => h c (hs.pipe e he c hc), fun answer ha c hc => h c (hs.told answer ha c hc)⟩

theorem inet_ntop_ok {m : FetchResults} {address : Option IPv4} {printed : Bytes}
    (h : inet_ntop m address = .ok printed) : ∃ a, address = some a ∧ printed = a.printed := by
  unfold inet_ntop at h
  split at h
  · cases h
  · cases h
  · rename_i a _
    split at h
    · cases h
      exact ⟨a, rfl, rfl⟩
    · cases h

theorem fetchDiscovered_content {l l' : Ledger} {m : FetchResults} {block : Nat}
    {data : ClientEventData} {event : RuntimeEvent}
    (h : fetchDiscovered l m block data = some (l', .ok event)) (b : Nat) :
    content (.client b .discovered data) = some event.content := by
  unfold fetchDiscovered at h
  split at h
  · cases h
  · simp only at h
    split at h
    · cases h
    · split at h
      · cases h
      · rename_i name hname
        split at h
        · cases h
        · split at h
          · cases h
          · rename_i printed hprinted
            cases h
            rcases inet_ntop_ok hprinted with ⟨a, haddress, rfl⟩
            simp [content, hname, haddress, RuntimeEvent.content]

theorem repack_content {l l' : Ledger} {m : FetchResults} {block : Nat} {e : ModuleEvent}
    {event : RuntimeEvent} (h : repack l m block e = some (l', .ok event)) :
    content e = some event.content := by
  cases e with
  | server b data =>
      simp only [repack, fetchRegistered] at h
      split at h
      · cases h
      · rename_i name hname
        split at h
        · cases h
          simp [content, hname, RuntimeEvent.content]
        · cases h
  | client b type data =>
      cases type with
      | discovered => exact fetchDiscovered_content h b
      | removed =>
          simp only [repack, fetchRemoved] at h
          split at h
          · cases h
          · split at h
            · cases h
            · rename_i name hname
              split at h
              · cases h
              · cases h
                simp [content, hname, RuntimeEvent.content]
      | error => cases h

theorem holds_fetch (hs : Holds P s) (m : FetchResults) : Holds P (fetchEventData s m) := by
  unfold fetchEventData
  split
  · exact hs
  · rename_i e pipe hpipe
    have hrest : ∀ e' ∈ pipe, ∀ c ∈ content e', P c := fun e' he' =>
      hs.pipe e' (hpipe ▸ List.mem_cons_of_mem e he')
    have htold : ∀ result : Except Int RuntimeEvent, (∀ event, result = .ok event → P event.content) →
        ∀ answer ∈ s.answers ++ [(m, result.map RuntimeEvent.content)], ∀ c ∈ answer.2.toOption,
          P c := by
      intro result hresult answer hanswer c hc
      rcases List.mem_append.1 hanswer with hold | hnew
      · exact hs.told answer hold c hc
      · cases List.mem_singleton.1 hnew
        cases result with
        | error ret => cases hc
        | ok event =>
            cases hc
            exact hresult event rfl
    simp only
    split
    · exact ⟨hrest, htold _ nofun⟩
    · split
      · exact ⟨hrest, hs.told⟩
      · rename_i l result hrepack
        refine ⟨hrest, htold result ?_⟩
        rintro event rfl
        exact hs.pipe e (hpipe ▸ List.mem_cons_self) _ (repack_content hrepack)

theorem holds_destroy (hs : Holds P s) {k : Option Nat}
    (h : Delivery.step s (.destroyEventData k) = some s') : Holds P s' := by
  unfold Delivery.step at h
  split at h
  · cases h
  · cases k with
    | none =>
        cases h
        exact hs
    | some k =>
        rcases Option.map_eq_some_iff.1 h with ⟨event, -, rfl⟩
        exact ⟨hs.pipe, hs.told⟩

theorem printUuid_again (uuid : Bytes) : printUuid (printUuid uuid) = printUuid uuid := by
  have hcut : printUuid uuid = cstring (uuid.take (BEYOND_UUID_LEN - 1)) := List.take_takeWhile
  rw [hcut, printUuid, cstring_cstring, ← hcut, printUuid, List.take_take, Nat.min_self]

/-- What `onServiceDiscovered` is given, as the application is to be told of it. -/
def shown (event : ClientType) (info : Delivery.DiscoveryInfo) : Option Content :=
  match event with
  | .discovered => some (.discovered info.name info.address.printed info.port (printUuid info.uuid))
  | .removed => some (.removed info.name)
  | .error => none

theorem content_fillClientData {type : ClientType} {info : Delivery.DiscoveryInfo} {block data : Nat}
    {name : Option Text} (hname : ∀ text ∈ name, text.bytes = info.name) :
    ∀ c ∈ content (.client block type (fillClientData data name info type)),
      shown type info = some c := by
  intro c hc
  cases name with
  | none => cases type <;> simp [content, fillClientData] at hc
  | some text =>
      have htext : text.bytes = info.name := hname text rfl
      cases type with
      | discovered =>
          cases hc
          simp [shown, htext, fillClientData, printUuid_again]
      | removed =>
          cases hc
          simp [shown, htext]
      | error => cases hc

theorem holds_raise (hs : Holds P s) {event : ClientType} {info : Delivery.DiscoveryInfo}
    {m : RaiseResults} (hP : ∀ c, shown event info = some c → P c)
    (h : Delivery.step s (.onServiceDiscovered event info m) = some s') : Holds P s' := by
  unfold Delivery.step at h
  split at h
  · cases h
  · simp only at h
    split at h
    · rename_i hname
      cases h
      unfold onServiceDiscovered
      split
      · exact ⟨hs.pipe, hs.told⟩
      · simp only
        split
        · refine ⟨fun e he c hc => ?_, hs.told⟩
          rcases List.mem_append.1 he with hold | hnew
          · exact hs.pipe e hold c hc
          · cases List.mem_singleton.1 hnew
            exact hP c (content_fillClientData (strdup_bytes hname.2) c hc)
        · exact ⟨hs.pipe, hs.told⟩
    · cases h

end Events

/-! ## Lookups of the client -/

section Lookups

open NsdManager (Looking Told told_step)

variable {lib : TxtLibrary τ} {host : ι → IPv4} {announced : List (Announcement ι)}
  {client client' : NsdManager.State IPv4}

/-- A uuid was announced under the name. -/
def Known (announced : List (Announcement ι)) (info : NsdManager.DiscoveryInfo IPv4) : Prop :=
  ascii info.uuid = [] ∨
    ∃ c ∈ announced, c.name = ascii info.name ∧ c.uuid = some (ascii info.uuid)

/-- The port and the uuid were announced under the name. -/
def Resolved (announced : List (Announcement ι)) (info : NsdManager.DiscoveryInfo IPv4) : Prop :=
  ∃ a ∈ announced, a.name = ascii info.name ∧ info.port = a.port.toNat ∧
    (∀ value, (uuidKey, value) ∈ a.items.entries → ascii info.uuid = value) ∧
    ∃ c ∈ announced, c.name = ascii info.name ∧ ascii info.uuid = c.uuid.getD []

/-- Every announcement has its record. -/
def Recorded (lib : TxtLibrary τ) (items : ValueMap) : Prop :=
  (lib.setValues lib.create items.entries).2.all id = true

theorem ntohs_htons (port : UInt16) : NsdManager.ntohs (htons port) = port.toNat := by
  have hlt := port.toNat_lt
  have hhigh : htons port % 256 = port.toNat / 256 := by
    unfold htons
    omega
  have hlow : htons port / 256 = port.toNat % 256 := by
    rw [htons, Nat.add_comm, Nat.add_mul_div_right _ _ (by decide),
      Nat.div_eq_of_lt (by omega), Nat.zero_add]
  rw [NsdManager.ntohs, hhigh, hlow, Nat.mod_mod]
  omega

theorem recorded_uuid (hlib : lib.Lawful) {a : Announcement ι} (ha : Recorded lib a.items) :
    lib.getValuePtr (lib.setValues lib.create a.items.entries).1 uuidKey = a.uuid := by
  rw [getValuePtr_setValues hlib uuidKey ha, hlib.create, Option.or_none]
  rfl

/-- A reply brings the port, and the uuid if the service has one. -/
theorem resolved_of_reply {info : NsdManager.DiscoveryInfo IPv4} (hknown : Known announced info)
    {a : Announcement ι} (ha : a ∈ announced) (hname : a.name = ascii info.name) :
    Known announced { info with
        uuid := (a.uuid.map text).getD info.uuid, port := NsdManager.ntohs (htons a.port) } ∧
      Resolved announced { info with
        uuid := (a.uuid.map text).getD info.uuid, port := NsdManager.ntohs (htons a.port) } := by
  cases huuid : a.uuid with
  | none =>
      refine ⟨hknown, a, ha, hname, ntohs_htons a.port, fun value hvalue => ?_, ?_⟩
      · rw [Announcement.uuid_item hvalue] at huuid
        cases huuid
      · rcases hknown with hempty | ⟨c, hc, hcname, hcuuid⟩
        · exact ⟨a, ha, hname, by rw [huuid]; exact hempty⟩
        · exact ⟨c, hc, hcname, by rw [hcuuid]; rfl⟩
  | some uuid =>
      have hsame : ascii (text uuid) = uuid := ascii_text uuid
      refine ⟨.inr ⟨a, ha, hname, huuid.trans (congrArg some hsame.symm)⟩, a, ha, hname,
        ntohs_htons a.port, fun value hvalue => ?_, a, ha, hname, ?_⟩
      · rw [Announcement.uuid_item hvalue] at huuid
        exact hsame.trans (Option.some.inj huuid).symm
      · rw [huuid]
        exact hsame

structure Lookups (announced : List (Announcement ι)) (client : NsdManager.State IPv4) : Prop where
  looking : Looking client
  known : ∀ d info, client.lookup d = some info → Known announced info
  asked : ∀ r d info, client.asking r = some d → client.lookup d = some info →
    Resolved announced info

theorem Lookups.ended (hs : Lookups announced client) (hlooking : Looking client') {d : Nat}
    (hlookup : client'.lookup = Function.update client.lookup d none)
    (hasking : ∀ r e, client'.asking r = some e → e ≠ d → client.asking r = some e) :
    Lookups announced client' := by
  have hold : ∀ e info, client'.lookup e = some info → e ≠ d ∧ client.lookup e = some info := by
    intro e info he
    by_cases hed : e = d
    · rw [hlookup, hed, Function.update_self] at he
      cases he
    · exact ⟨hed, by rwa [hlookup, Function.update_of_ne hed] at he⟩
  refine ⟨hlooking, fun e info he => hs.known e info (hold e info he).2, fun r e info hr he => ?_⟩
  rcases hold e info he with ⟨hne, he⟩
  exact hs.asked r e info (hasking r e hr hne) he

theorem Lookups.same (hs : Lookups announced client) (hlooking : Looking client')
    (hlookup : client'.lookup = client.lookup) (hasking : client'.asking = client.asking) :
    Lookups announced client' :=
  ⟨hlooking, hlookup ▸ hs.known, hlookup ▸ hasking ▸ hs.asked⟩

theorem asking_update {r e q d : Nat} (hr : Function.update client.asking q (some d) r = some e)
    (hne : e ≠ d) : client.asking r = some e := by
  by_cases hq : r = q
  · rw [hq, Function.update_self] at hr
    exact absurd (Option.some.inj hr).symm hne
  · rwa [Function.update_of_ne hq] at hr

theorem asking_lt (hs : Looking client) {r e : Nat} (h : client.asking r = some e) :
    e < client.created := by
  unfold NsdManager.State.asking at h
  split at h
  · rename_i hr
    cases h
    exact hs.shape.context r hr.1
  · cases h

theorem lookups_told (hlib : lib.Lawful) (hrecorded : ∀ a ∈ announced, Recorded lib a.items)
    {a : NsdManager.Act IPv4} (hs : Lookups announced client) (hlooking : Looking client')
    (htold : Told client client' a) (htrue : TruthfulReply lib host announced client a) :
    Lookups announced client' := by
  cases htold with
  | quiet _ _ hlookup hasking => exact hs.same hlooking hlookup hasking
  | started hlookup hasking =>
      refine ⟨hlooking, fun d info hd => ?_, fun r d info hr hd => ?_⟩
      · by_cases hnew : d = client.created
        · rw [hlookup, hnew, Function.update_self] at hd
          cases hd
          exact .inl rfl
        · exact hs.known d info (by rwa [hlookup, Function.update_of_ne hnew] at hd)
      · rw [hasking] at hr
        have hlt := asking_lt hs.looking hr
        exact hs.asked r d info hr (by rwa [hlookup, Function.update_of_ne hlt.ne] at hd)
  | failed hlookup hasking => exact hs.same hlooking hlookup hasking
  | removed hlookup hasking => exact hs.same hlooking hlookup hasking
  | resolved info hfound hlookup hasking =>
      rename_i q _ _ _ _ _
      rcases htrue info hfound with ⟨a, ha, hname, hport, huuid⟩
      rw [recorded_uuid hlib (hrecorded a ha)] at huuid
      have hreply := resolved_of_reply (hs.known _ info hfound) ha hname
      rw [← hport, ← huuid] at hreply
      refine ⟨hlooking, fun d info' hd => ?_, fun r d info' hr hd => ?_⟩
      · by_cases hnew : d = (client.ref q).context
        · rw [hlookup, hnew, Function.update_self] at hd
          cases hd
          exact hreply.1
        · exact hs.known d info' (by rwa [hlookup, Function.update_of_ne hnew] at hd)
      · by_cases hnew : d = (client.ref q).context
        · rw [hlookup, hnew, Function.update_self] at hd
          cases hd
          exact hreply.2
        · rw [hasking] at hr
          rw [hlookup, Function.update_of_ne hnew] at hd
          exact hs.asked r d info' (asking_update hr hnew) hd
  | unresolved info _ hlookup hasking =>
      refine hs.ended hlooking hlookup fun r e hr hne => ?_
      rcases hasking with hsame | hnew
      · rwa [hsame] at hr
      · exact asking_update (hnew ▸ hr) hne
  | discovered info _ _ hlookup hasking =>
      exact hs.ended hlooking hlookup fun r e hr _ => by rwa [hasking] at hr
  | registered hlookup hasking => exact hs.same hlooking hlookup hasking

/-- What the user of the client is told was announced. -/
theorem announced_told {a : NsdManager.Act IPv4} (hs : Lookups announced client)
    (htold : Told client client' a) (htrue : TruthfulReply lib host announced client a)
    {event : DiscoveryEvent} {info : NsdManager.DiscoveryInfo IPv4}
    (hpublished : client'.published = client.published ++ [.info event info]) (c : Content)
    (hc : shown (clientType event) (given info) = some c) : Announced host announced c := by
  have hlast : ∀ p, client'.published = client.published ++ [p] → p = .info event info := by
    intro p hp
    have heq := List.append_cancel_left (hp.symm.trans hpublished)
    exact List.head_eq_of_cons_eq heq
  have hsome : client'.published ≠ client.published := by
    rw [hpublished]
    simp
  cases htold with
  | quiet _ _ _ _ hsame => exact absurd hsame hsome
  | started _ _ hsame => exact absurd hsame hsome
  | failed _ _ hp =>
      cases hlast _ hp
      cases hc
  | removed _ _ hp =>
      cases hlast _ hp
      cases hc
      exact htrue
  | resolved _ _ _ _ hsame => exact absurd hsame hsome
  | unresolved _ _ _ _ hp =>
      cases hlast _ hp
      cases hc
  | discovered info' hasked hfound _ _ hp =>
      cases hlast _ hp
      cases hc
      rcases hs.asked _ _ info' hasked hfound with ⟨a, ha, hname, hport, huuid, c, hc, hcname, hcuuid⟩
      rcases htrue info' hfound with ⟨b, hb, hbname, rfl⟩
      refine ⟨a, ha, hname, ?_, fun value hvalue => ?_, ⟨c, hc, hcname, ?_⟩, b, hb, hbname, rfl⟩
      · simp [given, hport]
      · exact congrArg printUuid (huuid value hvalue)
      · exact congrArg printUuid hcuuid
  | registered _ _ hp => cases hlast _ hp

end Lookups

/-! ## Steps and runs -/

section Runs

open NsdManager (Looking Told told_step)

variable {lib : TxtLibrary τ} {host : ι → IPv4} {s s' : State ι}

structure Inv (lib : TxtLibrary τ) (host : ι → IPv4) (s : State ι) : Prop where
  recorded : ∀ a ∈ s.announced, Recorded lib a.items
  registered : ∀ i port items, (s.server i).registration = some (port, items) → Recorded lib items
  lookups : Lookups s.announced s.client
  events : Holds (Announced host s.announced) s.events

theorem clientStep_cases {a : NsdManager.Act IPv4} {m : RaiseResults}
    (h : clientStep s a m = some s') : ∃ client events, NsdManager.step s.client a = some client ∧
      s' = { s with client := client, events := events } ∧
      (events = s.events ∨ ∃ event info rest,
        client.published.drop s.client.published.length = .info event info :: rest ∧
        Delivery.step s.events (.onServiceDiscovered (clientType event) (given info) m) =
          some events) := by
  unfold clientStep at h
  split at h
  · cases h
  · rename_i client hclient
    split at h
    · cases h
      exact ⟨client, s.events, hclient, rfl, .inl rfl⟩
    · rename_i event info rest hdrop
      rcases Option.map_eq_some_iff.1 h with ⟨events, hevents, rfl⟩
      exact ⟨client, events, hclient, rfl, .inr ⟨event, info, rest, hdrop, hevents⟩⟩
    · cases h

theorem bound_of_ofClient {a : NsdManager.Act IPv4} (h : ofClient a = true) : a.Bound := by
  cases a <;> first | exact h | trivial

theorem inv_client (hlib : lib.Lawful) {a : NsdManager.Act IPv4} {m : RaiseResults}
    (hs : Inv lib host s) (hof : ofClient a = true)
    (htrue : TruthfulReply lib host s.announced s.client a) (h : clientStep s a m = some s')
    (hfaults : s'.client.faults = []) : Inv lib host s' := by
  rcases clientStep_cases h with ⟨client, events, hclient, rfl, hevents⟩
  rcases told_step hs.lookups.looking (bound_of_ofClient hof) hclient hfaults with
    ⟨htold, hlooking⟩
  refine ⟨hs.recorded, hs.registered,
    lookups_told hlib hs.recorded hs.lookups hlooking htold htrue, ?_⟩
  rcases hevents with rfl | ⟨event, info, rest, hdrop, hraise⟩
  · exact hs.events
  · refine holds_raise hs.events (announced_told hs.lookups htold htrue ?_) hraise
    rcases htold.published with hsame | ⟨p, hp⟩
    · rw [hsame, List.drop_length] at hdrop
      cases hdrop
    · rw [hp, List.drop_left] at hdrop
      rw [hp, List.head_eq_of_cons_eq hdrop]

theorem Announced.mono {announced announced' : List (Announcement ι)}
    (h : ∀ a ∈ announced, a ∈ announced') (c : Content) (hc : Announced host announced c) :
    Announced host announced' c := by
  cases c with
  | discovered name address port uuid =>
      rcases hc with ⟨a, ha, hname, hport, huuid, ⟨c, hc, hcuuid⟩, b, hb, hhost⟩
      exact ⟨a, h a ha, hname, hport, huuid, ⟨c, h c hc, hcuuid⟩, b, h b hb, hhost⟩
  | removed name =>
      rcases hc with ⟨a, ha, hname⟩
      exact ⟨a, h a ha, hname⟩
  | registered name => exact hc
  | error name => exact hc

/-- More is announced. -/
theorem Lookups.mono {announced announced' : List (Announcement ι)}
    {client : NsdManager.State IPv4} (h : ∀ a ∈ announced, a ∈ announced')
    (hs : Lookups announced client) : Lookups announced' client := by
  refine ⟨hs.looking, fun d info hd => ?_, fun r d info hr hd => ?_⟩
  · rcases hs.known d info hd with hempty | ⟨c, hc, hcuuid⟩
    · exact .inl hempty
    · exact .inr ⟨c, h c hc, hcuuid⟩
  · rcases hs.asked r d info hr hd with ⟨a, ha, hname, hport, huuid, c, hc, hcuuid⟩
    exact ⟨a, h a ha, hname, hport, huuid, c, h c hc, hcuuid⟩

/-- A server announces what it could make a record of. -/
theorem recorded_serverStep {i : ι} {server server' : Server} {a : ServerAct}
    {announced : List (Announcement ι)}
    (hs : ∀ port items, server.registration = some (port, items) → Recorded lib items)
    (h : serverStep lib i server a = some (server', announced)) :
    (∀ a ∈ announced, Recorded lib a.items) ∧
      ∀ port items, server'.registration = some (port, items) → Recorded lib items := by
  cases a with
  | setItem key value valueSize =>
      cases h
      refine ⟨nofun, ?_⟩
      cases key with
      | none => exact hs
      | some key => exact hs
  | removeItem key =>
      cases h
      refine ⟨nofun, ?_⟩
      cases key with
      | none => exact hs
      | some key => exact hs
  | activate register c =>
      simp only [serverStep, activate] at h
      split at h
      · cases h
      · split at h
        · rename_i hregistered
          cases h
          refine ⟨fun a ha => ?_, fun port items hitems => ?_⟩
          · cases List.mem_singleton.1 ha
            exact hregistered.2.1
          · cases hitems
            exact hregistered.2.1
        · cases h
          exact ⟨nofun, hs⟩
  | deactivate =>
      rcases Option.map_eq_some_iff.1 h with ⟨nsd, -, heq⟩
      cases heq
      exact ⟨nofun, hs⟩
  | destroy =>
      rcases Option.map_eq_some_iff.1 h with ⟨nsd, -, heq⟩
      cases heq
      exact ⟨nofun, hs⟩
  | register_reply r name m =>
      simp only [serverStep, register_reply] at h
      split at h
      · rename_i port items _ _ hregistration
        cases h
        refine ⟨fun a ha => ?_, hs⟩
        cases List.mem_singleton.1 ha
        exact hs port items hregistration
      · cases h
  | fetchEventData m =>
      rcases Option.map_eq_some_iff.1 h with ⟨events, -, heq⟩
      cases heq
      exact ⟨nofun, hs⟩
  | destroyEventData k =>
      rcases Option.map_eq_some_iff.1 h with ⟨events, -, heq⟩
      cases heq
      exact ⟨nofun, hs⟩

theorem inv_server [DecidableEq ι] {i : ι} {a : ServerAct} {server : Server}
    {announced : List (Announcement ι)} (hs : Inv lib host s)
    (h : serverStep lib i (s.server i) a = some (server, announced)) :
    Inv lib host { s with
      server := Function.update s.server i server
      announced := s.announced ++ announced } := by
  rcases recorded_serverStep (hs.registered i) h with ⟨hnew, hregistered⟩
  have hmore : ∀ a ∈ s.announced, a ∈ s.announced ++ announced := fun a ha =>
    List.mem_append_left _ ha
  refine ⟨fun a ha => ?_, fun j port items hj => ?_, hs.lookups.mono hmore,
    hs.events.mono (Announced.mono hmore)⟩
  · rcases List.mem_append.1 ha with hold | hnew'
    · exact hs.recorded a hold
    · exact hnew a hnew'
  · by_cases hij : j = i
    · subst hij
      simp only [Function.update_self] at hj
      exact hregistered port items hj
    · simp only [Function.update_of_ne hij] at hj
      exact hs.registered j port items hj

theorem inv_start (name : ι → Bytes) (port : ι → UInt16) : Inv lib host (State.start name port) := by
  refine ⟨nofun, fun i port items h => ?_, ⟨NsdManager.looking_start, nofun, nofun⟩, nofun, nofun⟩
  cases h

theorem inv_step [DecidableEq ι] (hlib : lib.Lawful) {a : Act ι} (hs : Inv lib host s)
    (htrue : Truthful lib host s a) (h : step lib s a = some s') (hfaults : s'.client.faults = []) :
    Inv lib host s' := by
  cases a with
  | server i a =>
      rcases Option.map_eq_some_iff.1 h with ⟨⟨server, announced⟩, hserver, rfl⟩
      exact inv_server hs hserver
  | client a m =>
      simp only [step] at h
      split at h
      · rename_i hof
        exact inv_client hlib hs hof htrue h hfaults
      · cases h
  | fetchEventData m =>
      rcases Option.map_eq_some_iff.1 h with ⟨events, hevents, rfl⟩
      refine ⟨hs.recorded, hs.registered, hs.lookups, ?_⟩
      unfold Delivery.step at hevents
      split at hevents
      · cases hevents
      · cases hevents
        exact holds_fetch hs.events m
  | destroyEventData k =>
      rcases Option.map_eq_some_iff.1 h with ⟨events, hevents, rfl⟩
      exact ⟨hs.recorded, hs.registered, hs.lookups, holds_destroy hs.events hevents⟩

theorem client_step [DecidableEq ι] {a : Act ι} (h : step lib s a = some s') :
    s'.client = s.client ∨ ∃ b, NsdManager.step s.client b = some s'.client := by
  cases a with
  | server i a =>
      rcases Option.map_eq_some_iff.1 h with ⟨⟨server, announced⟩, -, rfl⟩
      exact .inl rfl
  | client a m =>
      simp only [step] at h
      split at h
      · rcases clientStep_cases h with ⟨client, events, hclient, rfl, -⟩
        exact .inr ⟨a, hclient⟩
      · cases h
  | fetchEventData m =>
      rcases Option.map_eq_some_iff.1 h with ⟨events, -, rfl⟩
      exact .inl rfl
  | destroyEventData k =>
      rcases Option.map_eq_some_iff.1 h with ⟨events, -, rfl⟩
      exact .inl rfl

/-- In every run of any number of servers, a client and its application on a truthful network, up to
the first fault of the client: all that the application is told of a service has been announced under
its name. -/
theorem application_told [DecidableEq ι] (lib : TxtLibrary τ) (host : ι → IPv4) (name : ι → Bytes)
    (port : ι → UInt16) (acts : List (Act ι)) (s : State ι) (hlib : lib.Lawful)
    (hexec : Run.exec (step lib) (State.start name port) acts = some s)
    (htrue : Run.Along (step lib) (Truthful lib host) (State.start name port) acts)
    (hfaults : s.client.faults = []) : ∀ c ∈ s.told, Announced host s.announced c := by
  have hkept : Run.Preserved (step lib) (Truthful lib host) fun s : State ι =>
      NsdManager.Shape s.client ∧ (s.client.faults = [] → Inv lib host s) := by
    rintro s a s' ⟨hshape, hs⟩ htrue hstep
    rcases client_step hstep with hsame | ⟨b, hb⟩
    · refine ⟨hsame ▸ hshape, fun hfaults => inv_step hlib (hs ?_) htrue hstep hfaults⟩
      rwa [hsame] at hfaults
    · have heffect := NsdManager.effect_step hshape hb
      refine ⟨heffect.shape, fun hfaults => inv_step hlib (hs ?_) htrue hstep hfaults⟩
      exact List.prefix_nil.1 (hfaults ▸ heffect.faults)
  have hinv := (Run.exec_invariant hkept ⟨NsdManager.shape_start, fun _ => inv_start name port⟩
    htrue hexec).2 hfaults
  intro c hc
  rcases List.mem_filterMap.1 hc with ⟨answer, hanswer, hcontent⟩
  exact hinv.events.told answer hanswer c hcontent

end Runs

/-! ## A lamp -/

/-- Records as lists of folded keys, each with its value; a key is not empty and has no `=`. -/
def txtLists : TxtLibrary (List (Bytes × Bytes)) where
  create := []
  setValue txt key value :=
    if key = [] ∨ 0x3d ∈ key then none
    else some ((folded key, value) :: txt.filter fun e => e.1 ≠ folded key)
  getValuePtr txt key := txt.lookup (folded key)

theorem lookup_filter {key key' : Bytes} (hkey : key' ≠ key) (txt : List (Bytes × Bytes)) :
    (txt.filter fun e => e.1 ≠ key).lookup key' = txt.lookup key' := by
  induction txt with
  | nil => rfl
  | cons e txt ih =>
      rcases e with ⟨k, value⟩
      by_cases hk : k = key
      · have hne : (key' == k) = false := by simpa [hk] using hkey
        rw [List.filter_cons_of_neg (by simpa using hk), ih, List.lookup_cons, hne]
      · rw [List.filter_cons_of_pos (by simpa using hk), List.lookup_cons, List.lookup_cons, ih]

theorem txtLists_lawful : txtLists.Lawful := by
  constructor
  · exact fun key => rfl
  · intro t t' key key' value hset hkey
    simp only [txtLists] at hset ⊢
    split at hset
    · cases hset
    · cases hset
      simp [hkey]
  · intro t t' key key' value hset hkey
    simp only [txtLists] at hset ⊢
    split at hset
    · cases hset
    · cases hset
      have hne : (folded key' == folded key) = false := by simpa using hkey
      rw [List.lookup_cons, hne, lookup_filter hkey]

/-- A server with a uuid is activated, found by the client and told of to its application. -/
def lampRun : List (Act Unit) :=
  [.server () (.setItem (some uuidKey) (ascii "a1") 2),
    .server () (.activate (some 3) NsdManager.started),
    .client (.discoverServices true (some 3) NsdManager.started) Delivery.raised,
    .client (.discover_reply 0 true "lamp" (some 4) none) Delivery.raised,
    .client (.resolve_reply 1 (some "a1") (htons 3000) (some 5) none) Delivery.raised,
    .client (.addrinfo_reply 2 (some ⟨10, 0, 0, 7⟩)) Delivery.raised,
    .fetchEventData Delivery.fetched]

theorem lampRun_told :
    ∃ s, Run.exec (step txtLists) (State.start (fun _ => ascii "lamp") fun _ => 3000) lampRun =
        some s ∧
      s.told = [.discovered (ascii "lamp") (ascii "10.0.0.7") 3000 (ascii "a1")] ∧
      ∀ c ∈ s.told, Announced (fun _ => ⟨10, 0, 0, 7⟩) s.announced c := by
  refine ⟨_, rfl, rfl, application_told txtLists (fun _ => ⟨10, 0, 0, 7⟩) (fun _ => ascii "lamp")
    (fun _ => 3000) lampRun _ txtLists_lawful rfl ?_ rfl⟩
  refine Run.along_of_step trivial rfl (Run.along_of_step trivial rfl
    (Run.along_of_step trivial rfl (Run.along_of_step ?_ rfl (Run.along_of_step ?_ rfl
      (Run.along_of_step ?_ rfl (Run.along_of_step trivial rfl trivial))))))
  · exact ⟨_, List.mem_cons_self, rfl⟩
  · rintro info hinfo
    cases hinfo
    exact ⟨_, List.mem_cons_self, rfl, rfl, rfl⟩
  · rintro info hinfo
    cases hinfo
    exact ⟨_, List.mem_cons_self, rfl, rfl⟩

end Network
end Discovery
end Beyond
