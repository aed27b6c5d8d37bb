import Beyond.Peer.GrpcServer

/-!
# Peer information over the wire

`GrpcServer::GetInfo` sends the runtimes of the server with their devices, and `GrpcClient::GetInfo`
builds the list anew: one array for the runtimes and one for the devices of each runtime.  An array
is modelled by its cells, so that a write behind its end can be seen.

The names travel as `string`s of proto3.  A message with a `string` that is not UTF-8 does not parse,
and the call fails on the client with a status of its stub.
-/

namespace Beyond
namespace Peer

open Errno

/-! ## Arrays -/

/-- A write to one cell of an array. -/
def storeAt {α : Type*} (cells : List α) (i : Nat) (x : α) : Except Fault (List α) :=
  if i < cells.length then .ok (cells.set i x) else .error .outOfBounds

/-- The first `n` cells as a reader sees them; `none` if one of them is not there or holds nothing. -/
def readArray {α β : Type*} (f : α → Option β) : Nat → List α → Option (List β)
  | 0, _ => some []
  | _ + 1, [] => none
  | n + 1, x :: cells =>
      match f x, readArray f n cells with
      | some y, some ys => some (y :: ys)
      | _, _ => none

section Arrays

variable {α β : Type*}

theorem storeAt_append {done zeros : List α} {z x : α} {i : Nat} (hi : done.length = i) :
    storeAt (done ++ z :: zeros) i x = .ok (done ++ x :: zeros) := by
  subst hi
  simp [storeAt]

theorem storeAt_end {done : List α} {x : α} {i : Nat} (hi : done.length = i) :
    storeAt done i x = .error .outOfBounds := by
  simp [storeAt, hi]

theorem readArray_append {f : α → Option β} {cells : List α} {ys : List β} (rest : List α)
    (h : List.Forall₂ (fun x y => f x = some y) cells ys) :
    readArray f ys.length (cells ++ rest) = some ys := by
  induction h with
  | nil => rfl
  | cons hx _ ih => simp [readArray, hx, ih]

end Arrays

/-! ## Decoder -/

namespace GrpcClient

open GrpcServer

/-- `beyond_peer_info_runtime`; a device is its name pointer. -/
structure InfoRuntime where
  name : Option Bytes := none
  countOfDevices : Nat := 0
  devices : Option (List (Option Bytes)) := none
  deriving DecidableEq, Repr

/-- What `GetInfo` writes of the client's `beyond_peer_info`. -/
structure ClientInfo where
  runtimes : Option (List InfoRuntime)
  countOfRuntimes : Nat
  freeMemory : UInt64
  freeStorage : UInt64
  deriving DecidableEq, Repr

/-- The allocations of one call: the `errno` of those that fail. -/
structure Memory where
  runtimes : Option Int
  name : Nat → Option Int
  devices : Nat → Option Int
  device : Nat → Nat → Option Int

/-- `strdup` of a text of the message. -/
def strdup (errno : Option Int) (text : Bytes) : Option Bytes :=
  match errno with
  | some _ => none
  | none => some (Bytes.cstring text)

/-- The loop over the devices of runtime `i`, from device `j` on.  A failed `strdup` has stored its
null pointer before it is noticed. -/
def decodeDevices (m : Memory) (i : Nat) :
    Nat → List Bytes → List (Option Bytes) → Except Fault (Except Int (List (Option Bytes)))
  | _, [], cells => .ok (.ok cells)
  | j, device :: rest, cells =>
      match storeAt cells j (strdup (m.device i j) device) with
      | .error e => .error e
      | .ok cells =>
          match m.device i j with
          | some errno => .ok (.error (-errno))
          | none => decodeDevices m i (j + 1) rest cells

/-- `runtimes->count_of_devices`. -/
def countOfFirst : List InfoRuntime → Nat
  | [] => 0
  | rt :: _ => rt.countOfDevices

/-- The body of the loop over the runtimes. -/
def decodeRuntime (m : Memory) (i : Nat) (r : RuntimeInfo) (runtimes : List InfoRuntime) :
    Except Fault (Except Int (List InfoRuntime)) :=
  match storeAt runtimes i ⟨strdup (m.name i) r.name, r.devices.length, none⟩ with
  | .error e => .error e
  | .ok runtimes =>
      match m.name i with
      | some errno => .ok (.error (-errno))
      | none =>
          if r.devices.length = 0 then .ok (.ok runtimes)
          else
            match m.devices i with
            | some errno => .ok (.error (-errno))
            | none =>
                -- The array is as long as the one of the first runtime.
                match decodeDevices m i 0 r.devices
                    (List.replicate (countOfFirst runtimes) none) with
                | .error e => .error e
                | .ok (.error ret) => .ok (.error ret)
                | .ok (.ok cells) =>
                    .ok (.ok (runtimes.modify i fun rt => { rt with devices := some cells }))

def decodeRuntimes (m : Memory) :
    Nat → List RuntimeInfo → List InfoRuntime → Except Fault (Except Int (List InfoRuntime))
  | _, [], runtimes => .ok (.ok runtimes)
  | i, r :: rest, runtimes =>
      match decodeRuntime m i r runtimes with
      | .error e => .error e
      | .ok (.error ret) => .ok (.error ret)
      | .ok (.ok runtimes) => decodeRuntimes m (i + 1) rest runtimes

/-- `GrpcClient::GetInfo`: the returned code and the client's info behind the call. -/
def getInfo (m : Memory) (answer : Answer) (info : ClientInfo) :
    Except Fault (Int × ClientInfo) :=
  match answer.status.code, answer.response with
  | .ok, .info freeMemory freeStorage runtimes =>
      if runtimes.length = 0 then .ok (0, ⟨none, 0, freeMemory, freeStorage⟩)
      else
        match m.runtimes with
        | some errno => .ok (-errno, info)
        | none =>
            match decodeRuntimes m 0 runtimes (List.replicate runtimes.length {}) with
            | .error e => .error e
            | .ok (.error ret) => .ok (ret, info)
            | .ok (.ok decoded) =>
                .ok (0, ⟨some decoded, runtimes.length, freeMemory, freeStorage⟩)
  | _, _ => .ok (-EFAULT, info)

/-! ## What a reader of the decoded list sees -/

def InfoRuntime.read (rt : InfoRuntime) : Option RuntimeInfo :=
  match rt.name, readArray id rt.countOfDevices (rt.devices.getD []) with
  | some name, some devices => some ⟨name, devices⟩
  | _, _ => none

def ClientInfo.read (info : ClientInfo) : Option (List RuntimeInfo) :=
  readArray InfoRuntime.read info.countOfRuntimes (info.runtimes.getD [])

/-- The allocations that runtime `i` needs succeed. -/
def Memory.Enough (m : Memory) (i : Nat) (r : RuntimeInfo) : Prop :=
  m.name i = none ∧
    (r.devices ≠ [] → m.devices i = none ∧ ∀ j < r.devices.length, m.device i j = none)

/-- The allocations that the runtimes need from number `i` on succeed. -/
def Memory.EnoughFrom (m : Memory) : Nat → List RuntimeInfo → Prop
  | _, [] => True
  | i, r :: rest => m.Enough i r ∧ m.EnoughFrom (i + 1) rest

def Memory.EnoughFor (m : Memory) (runtimes : List RuntimeInfo) : Prop :=
  (runtimes ≠ [] → m.runtimes = none) ∧ m.EnoughFrom 0 runtimes

/-! ## One array of devices -/

theorem strdup_none (text : Bytes) : strdup none text = some (Bytes.cstring text) := rfl

theorem decodeDevices_cons (m : Memory) {i j : Nat} {d : Bytes} {ds : List Bytes}
    {done zeros : List (Option Bytes)} {z : Option Bytes} (hj : done.length = j) :
    decodeDevices m i j (d :: ds) (done ++ z :: zeros) =
      match m.device i j with
      | some errno => .ok (.error (-errno))
      | none => decodeDevices m i (j + 1) ds (done ++ some (Bytes.cstring d) :: zeros) := by
  rw [decodeDevices, storeAt_append hj]
  cases hm : m.device i j <;> simp [strdup]

/-- With room for all devices and memory for their names, each gets the name of the message. -/
theorem decodeDevices_ok {m : Memory} {i j : Nat} {ds : List Bytes}
    (done zeros : List (Option Bytes)) (hj : done.length = j) (hroom : ds.length ≤ zeros.length)
    (hm : ∀ k < j + ds.length, m.device i k = none) :
    decodeDevices m i j ds (done ++ zeros) =
      .ok (.ok (done ++ (ds.map (fun d => some (Bytes.cstring d)) ++ zeros.drop ds.length))) := by
  induction ds generalizing j done zeros with
  | nil => simp [decodeDevices]
  | cons d ds ih =>
      cases zeros with
      | nil => simp at hroom
      | cons z zeros =>
          have hlen : ds.length ≤ zeros.length := by simpa using hroom
          rw [decodeDevices_cons m hj, hm j (by simp)]
          have hrest := ih (done ++ [some (Bytes.cstring d)]) zeros (j := j + 1) (by simp [hj]) hlen
            (by
              intro k hk
              exact hm k (by simp; omega))
          simpa using hrest

theorem decodeDevices_failed {m : Memory} {i j : Nat} {ds : List Bytes}
    (done zeros : List (Option Bytes)) (hj : done.length = j) (hroom : ds.length ≤ zeros.length)
    (hm : ∃ k, j ≤ k ∧ k < j + ds.length ∧ m.device i k ≠ none) :
    ∃ ret, decodeDevices m i j ds (done ++ zeros) = .ok (.error ret) := by
  induction ds generalizing j done zeros with
  | nil =>
      rcases hm with ⟨k, hjk, hk, -⟩
      simp at hk
      omega
  | cons d ds ih =>
      cases zeros with
      | nil => simp at hroom
      | cons z zeros =>
          rw [decodeDevices_cons m hj]
          cases hd : m.device i j with
          | some errno => exact ⟨-errno, rfl⟩
          | none =>
              rcases hm with ⟨k, hjk, hk, hfail⟩
              -- The allocation that fails is a later one.
              have hne : k ≠ j := fun h => hfail (h ▸ hd)
              have hlen : ds.length ≤ zeros.length := by simpa using hroom
              have hrest := ih (done ++ [some (Bytes.cstring d)]) zeros (j := j + 1) (by simp [hj])
                hlen ⟨k, by omega, by simp at hk; omega, hfail⟩
              simpa using hrest

theorem decodeDevices_outOfBounds {m : Memory} {i j : Nat} {ds : List Bytes}
    (done zeros : List (Option Bytes)) (hj : done.length = j) (hroom : zeros.length < ds.length)
    (hm : ∀ k < j + ds.length, m.device i k = none) :
    decodeDevices m i j ds (done ++ zeros) = .error .outOfBounds := by
  induction ds generalizing j done zeros with
  | nil => simp at hroom
  | cons d ds ih =>
      cases zeros with
      | nil => simp [decodeDevices, storeAt_end hj]
      | cons z zeros =>
          have hlen : zeros.length < ds.length := by simpa using hroom
          rw [decodeDevices_cons m hj, hm j (by simp)]
          have hrest := ih (done ++ [some (Bytes.cstring d)]) zeros (j := j + 1) (by simp [hj]) hlen
            (by
              intro k hk
              exact hm k (by simp; omega))
          simpa using hrest

/-! ## One runtime -/

/-- The device count that sizes the arrays: that of the first runtime, whether it was decoded before
or is the one being decoded. -/
def arrayLength (done : List InfoRuntime) (r : RuntimeInfo) : Nat :=
  match done with
  | rt :: _ => rt.countOfDevices
  | [] => r.devices.length

theorem countOfFirst_append (done zeros : List InfoRuntime) (r : RuntimeInfo) (name : Option Bytes) :
    countOfFirst (done ++ ⟨name, r.devices.length, none⟩ :: zeros) = arrayLength done r := by
  cases done <;> rfl

/-- The texts of a message, cut at a zero byte as `c_str()` does. -/
def cut (r : RuntimeInfo) : RuntimeInfo := ⟨Bytes.cstring r.name, r.devices.map Bytes.cstring⟩

section Runtime

variable {m : Memory} {i : Nat} {r : RuntimeInfo} {done : List InfoRuntime} {z : InfoRuntime}
  (zeros : List InfoRuntime)

theorem modify_append (hi : done.length = i) (f : InfoRuntime → InfoRuntime) :
    (done ++ z :: zeros).modify i f = done ++ f z :: zeros := by
  induction done generalizing i with
  | nil =>
      subst hi
      rfl
  | cons rt done ih =>
      subst hi
      have hrest := ih rfl
      simpa using hrest

theorem decodeRuntime_eq (hi : done.length = i) :
    decodeRuntime m i r (done ++ z :: zeros) =
      match m.name i with
      | some errno => .ok (.error (-errno))
      | none =>
          if r.devices.length = 0 then
            .ok (.ok (done ++ ⟨some (Bytes.cstring r.name), 0, none⟩ :: zeros))
          else
            match m.devices i with
            | some errno => .ok (.error (-errno))
            | none =>
                match decodeDevices m i 0 r.devices (List.replicate (arrayLength done r) none) with
                | .error e => .error e
                | .ok (.error ret) => .ok (.error ret)
                | .ok (.ok cells) =>
                    .ok (.ok (done ++
                      ⟨some (Bytes.cstring r.name), r.devices.length, some cells⟩ :: zeros)) := by
  rw [decodeRuntime, storeAt_append hi]
  cases hname : m.name i with
  | some errno => rfl
  | none =>
      simp only [strdup_none, countOfFirst_append, modify_append zeros hi]
      split
      · rename_i hzero
        rw [hzero]
      · rfl

theorem decodeRuntime_ok (hi : done.length = i) (hfits : r.devices.length ≤ arrayLength done r)
    (hm : m.Enough i r) :
    ∃ rt, decodeRuntime m i r (done ++ z :: zeros) = .ok (.ok (done ++ rt :: zeros)) ∧
      rt.read = some (cut r) ∧ rt.countOfDevices = r.devices.length := by
  rw [decodeRuntime_eq zeros hi, hm.1]
  by_cases hzero : r.devices.length = 0
  · refine ⟨⟨some (Bytes.cstring r.name), 0, none⟩, by simp [hzero], ?_, hzero.symm⟩
    have hnil : r.devices = [] := List.length_eq_zero_iff.1 hzero
    simp [InfoRuntime.read, readArray, cut, hnil]
  · have hne : r.devices ≠ [] := fun h => hzero (by simp [h])
    have hmem := hm.2 hne
    have hcells := decodeDevices_ok [] (List.replicate (arrayLength done r) none) (j := 0) rfl
      (by simpa using hfits) (by simpa using hmem.2)
    rw [List.nil_append] at hcells
    refine ⟨⟨some (Bytes.cstring r.name), r.devices.length,
      some (r.devices.map (fun d => some (Bytes.cstring d)) ++
        List.replicate (arrayLength done r - r.devices.length) none)⟩, ?_, ?_, rfl⟩
    · simp [hzero, hmem.1, hcells]
    · have hnames : List.Forall₂ (fun x y => id x = some y)
          (r.devices.map fun d => some (Bytes.cstring d)) (r.devices.map Bytes.cstring) := by
        simp [List.forall₂_map_left_iff, List.forall₂_map_right_iff, List.forall₂_same]
      have hread := readArray_append
        (List.replicate (arrayLength done r - r.devices.length) none) hnames
      rw [List.length_map] at hread
      simp [InfoRuntime.read, hread, cut]

theorem decodeRuntime_failed (hi : done.length = i) (hfits : r.devices.length ≤ arrayLength done r)
    (hm : ¬ m.Enough i r) :
    ∃ ret, decodeRuntime m i r (done ++ z :: zeros) = .ok (.error ret) := by
  rw [decodeRuntime_eq zeros hi]
  cases hname : m.name i with
  | some errno => exact ⟨-errno, rfl⟩
  | none =>
      -- The name was copied, so it is the devices that are missing something.
      have hdevices : r.devices ≠ [] ∧
          (m.devices i = none → ∃ j < r.devices.length, m.device i j ≠ none) := by
        simpa [Memory.Enough, hname] using hm
      have hzero : ¬ r.devices.length = 0 := fun h => hdevices.1 (List.length_eq_zero_iff.1 h)
      rw [if_neg hzero]
      cases harray : m.devices i with
      | some errno => exact ⟨-errno, rfl⟩
      | none =>
          rcases hdevices.2 harray with ⟨k, hk, hfail⟩
          have hcells := decodeDevices_failed [] (List.replicate (arrayLength done r) none) (j := 0)
            rfl (by simpa using hfits) ⟨k, by omega, by omega, hfail⟩
          rcases hcells with ⟨ret, hret⟩
          rw [List.nil_append] at hret
          exact ⟨ret, by simp [hret]⟩

theorem decodeRuntime_outOfBounds (hi : done.length = i)
    (hlong : arrayLength done r < r.devices.length) (hm : m.Enough i r) :
    decodeRuntime m i r (done ++ z :: zeros) = .error .outOfBounds := by
  have hne : r.devices ≠ [] := by
    intro h
    simp [h] at hlong
  have hmem := hm.2 hne
  have hcells := decodeDevices_outOfBounds [] (List.replicate (arrayLength done r) none) (j := 0)
    rfl (by simpa using hlong) (by simpa using hmem.2)
  rw [List.nil_append] at hcells
  rw [decodeRuntime_eq zeros hi, hm.1]
  simp [hne, hmem.1, hcells]

end Runtime

/-! ## All runtimes -/

theorem arrayLength_append {done : List InfoRuntime} {rt : InfoRuntime} {r r' : RuntimeInfo}
    (h : rt.countOfDevices = r.devices.length) :
    arrayLength (done ++ [rt]) r' = arrayLength done r := by
  cases done with
  | nil => simpa [arrayLength] using h
  | cons first done => rfl

section Runtimes

variable {m : Memory} {i c : Nat} {rs : List RuntimeInfo} (done zeros : List InfoRuntime)

theorem decodeRuntimes_ok (hi : done.length = i) (hzeros : zeros.length = rs.length)
    (hc : ∀ r ∈ rs.head?, arrayLength done r = c) (hfits : ∀ r ∈ rs, r.devices.length ≤ c)
    (hm : m.EnoughFrom i rs) :
    ∃ rts, decodeRuntimes m i rs (done ++ zeros) = .ok (.ok (done ++ rts)) ∧
      List.Forall₂ (fun rt r => InfoRuntime.read rt = some r) rts (rs.map cut) := by
  induction rs generalizing i done zeros with
  | nil =>
      have hnil : zeros = [] := List.length_eq_zero_iff.1 hzeros
      exact ⟨[], by simp [decodeRuntimes, hnil], .nil⟩
  | cons r rs ih =>
      cases zeros with
      | nil => simp at hzeros
      | cons z zeros =>
          have hcr : arrayLength done r = c := hc r (by simp)
          rcases decodeRuntime_ok zeros (z := z) hi (hcr ▸ hfits r (by simp)) hm.1 with
            ⟨rt, hstep, hread, hcount⟩
          have hrest := ih (done ++ [rt]) zeros (i := i + 1) (by simp [hi])
            (by simpa using hzeros)
            (fun r' _ => (arrayLength_append hcount).trans hcr)
            (fun r' hr' => hfits r' (List.mem_cons_of_mem r hr')) hm.2
          rcases hrest with ⟨rts, hloop, hrts⟩
          refine ⟨rt :: rts, ?_, .cons hread hrts⟩
          rw [decodeRuntimes, hstep]
          simpa using hloop

theorem decodeRuntimes_failed (hi : done.length = i) (hzeros : zeros.length = rs.length)
    (hc : ∀ r ∈ rs.head?, arrayLength done r = c) (hfits : ∀ r ∈ rs, r.devices.length ≤ c)
    (hm : ¬ m.EnoughFrom i rs) :
    ∃ ret, decodeRuntimes m i rs (done ++ zeros) = .ok (.error ret) := by
  induction rs generalizing i done zeros with
  | nil => exact absurd trivial hm
  | cons r rs ih =>
      cases zeros with
      | nil => simp at hzeros
      | cons z zeros =>
          have hcr : arrayLength done r = c := hc r (by simp)
          have hfit : r.devices.length ≤ arrayLength done r := hcr ▸ hfits r (by simp)
          by_cases hr : m.Enough i r
          · -- This runtime is decoded, and a later one runs out of memory.
            rcases decodeRuntime_ok zeros (z := z) hi hfit hr with
              ⟨rt, hstep, -, hcount⟩
            have hrest := ih (done ++ [rt]) zeros (i := i + 1) (by simp [hi])
              (by simpa using hzeros)
              (fun r' _ => (arrayLength_append hcount).trans hcr)
              (fun r' hr' => hfits r' (List.mem_cons_of_mem r hr')) (fun h => hm ⟨hr, h⟩)
            rcases hrest with ⟨ret, hloop⟩
            refine ⟨ret, ?_⟩
            rw [decodeRuntimes, hstep]
            simpa using hloop
          · rcases decodeRuntime_failed zeros (z := z) hi hfit hr with ⟨ret, hstep⟩
            exact ⟨ret, by rw [decodeRuntimes, hstep]⟩

theorem decodeRuntimes_outOfBounds (hi : done.length = i) (hzeros : zeros.length = rs.length)
    (hc : ∀ r ∈ rs.head?, arrayLength done r = c) (hlong : ∃ r ∈ rs, c < r.devices.length)
    (hm : m.EnoughFrom i rs) :
    decodeRuntimes m i rs (done ++ zeros) = .error .outOfBounds := by
  induction rs generalizing i done zeros with
  | nil => simp at hlong
  | cons r rs ih =>
      cases zeros with
      | nil => simp at hzeros
      | cons z zeros =>
          have hcr : arrayLength done r = c := hc r (by simp)
          by_cases hr : r.devices.length ≤ c
          · rcases decodeRuntime_ok zeros (z := z) hi (hcr ▸ hr) hm.1 with
              ⟨rt, hstep, -, hcount⟩
            have hlater : ∃ r' ∈ rs, c < r'.devices.length := by
              rcases hlong with ⟨r', hr', hlt⟩
              rcases List.mem_cons.1 hr' with rfl | htail
              · omega
              · exact ⟨r', htail, hlt⟩
            have hrest := ih (done ++ [rt]) zeros (i := i + 1) (by simp [hi])
              (by simpa using hzeros)
              (fun r' _ => (arrayLength_append hcount).trans hcr) hlater hm.2
            rw [decodeRuntimes, hstep]
            simpa using hrest
          · have hlt : arrayLength done r < r.devices.length := by omega
            rw [decodeRuntimes, decodeRuntime_outOfBounds zeros hi hlt hm.1]

end Runtimes

end GrpcClient

/-! ## Main result -/

/-- A name of the server's info: a C string. -/
structure Name where
  text : Bytes
  noZero : 0 ∉ text

/-- A runtime of the server's info. -/
structure HostedRuntime where
  name : Name
  devices : List Name

namespace HostedRuntime

def toInfo (rt : HostedRuntime) : GrpcServer.RuntimeInfo :=
  ⟨rt.name.text, rt.devices.map Name.text⟩

theorem cstring_text (name : Name) : Bytes.cstring name.text = name.text :=
  Bytes.cstring_eq_self name.noZero

theorem cut_toInfo (rt : HostedRuntime) : GrpcClient.cut rt.toInfo = rt.toInfo := by
  simp [GrpcClient.cut, toInfo, cstring_text]

end HostedRuntime

open GrpcServer GrpcClient

/-- The `string`s of a runtime in the message. -/
def strings (r : RuntimeInfo) : List Bytes := r.name :: r.devices

/-- What the client's stub makes of an answer. -/
def received (answer : Answer) : Answer :=
  match answer.response with
  | .info _ _ runtimes =>
      if ∀ text ∈ runtimes.flatMap strings, Bytes.IsUtf8 text then answer
      -- The client looks at nothing of this status but that it is not `OK`.
      else ⟨⟨.internal, ""⟩, .info 0 0 []⟩
  | _ => answer

/-- The answer of the server's handler, given to the client's decoder. -/
def fetchInfo (srv : Server) (env : Env) (m : Memory) (info : ClientInfo) :
    Except Fault (Int × ClientInfo) :=
  match GrpcServer.getInfo srv env with
  | .error e => .error e
  | .ok (_, answer) => GrpcClient.getInfo m (received answer) info

section Fetched

variable (srv : Server) (env : Env) (m : Memory) (prev : ClientInfo) {info : PeerInfo}

theorem fetchInfo_parsed (h : ∀ text ∈ info.runtimes.flatMap strings, Bytes.IsUtf8 text) :
    fetchInfo { srv with info := some info } env m prev =
      GrpcClient.getInfo m ⟨.OK, .info env.freeMemory env.freeStorage info.runtimes⟩ prev := by
  simp only [fetchInfo, GrpcServer.getInfo, received, if_pos h]

theorem fetchInfo_refused (h : ¬ ∀ text ∈ info.runtimes.flatMap strings, Bytes.IsUtf8 text) :
    fetchInfo { srv with info := some info } env m prev = .ok (-EFAULT, prev) := by
  simp only [fetchInfo, GrpcServer.getInfo, received, if_neg h, GrpcClient.getInfo]

end Fetched

/-- With memory for everything the client has the server's list, without it what it had before; in
no case does it write outside its arrays. -/
structure InfoSurvives (runtimes : List RuntimeInfo) (m : Memory) (prev : ClientInfo)
    (result : Except Fault (Int × ClientInfo)) : Prop where
  inBounds : result ≠ .error .outOfBounds
  copied : m.EnoughFor runtimes → ∃ info, result = .ok (0, info) ∧ info.read = some runtimes
  kept : ¬ m.EnoughFor runtimes → ∃ ret, result = .ok (ret, prev)

/-- No runtime has more devices than the first. -/
def FirstIsLargest (runtimes : List RuntimeInfo) : Prop :=
  ∀ first ∈ runtimes.head?, ∀ r ∈ runtimes, r.devices.length ≤ first.devices.length

theorem InfoSurvives.of_copied {runtimes : List RuntimeInfo} {m : Memory} {prev info : ClientInfo}
    (hm : m.EnoughFor runtimes) (hread : info.read = some runtimes) :
    InfoSurvives runtimes m prev (.ok (0, info)) :=
  ⟨nofun, fun _ => ⟨info, rfl, hread⟩, fun h => absurd hm h⟩

theorem InfoSurvives.of_kept {runtimes : List RuntimeInfo} {m : Memory} {prev : ClientInfo}
    (hm : ¬ m.EnoughFor runtimes) (ret : Int) :
    InfoSurvives runtimes m prev (.ok (ret, prev)) :=
  ⟨nofun, fun h => absurd h hm, fun _ => ⟨ret, rfl⟩⟩

section Decoded

variable {m : Memory} {prev : ClientInfo} {freeMemory freeStorage : UInt64} {first : RuntimeInfo}
  {rest : List RuntimeInfo}

theorem getInfo_cons (hm : m.runtimes = none) :
    GrpcClient.getInfo m ⟨.OK, .info freeMemory freeStorage (first :: rest)⟩ prev =
      match decodeRuntimes m 0 (first :: rest) (List.replicate (rest.length + 1) {}) with
      | .error e => .error e
      | .ok (.error ret) => .ok (ret, prev)
      | .ok (.ok decoded) => .ok (0, ⟨some decoded, rest.length + 1, freeMemory, freeStorage⟩) := by
  simp [GrpcClient.getInfo, Status.OK, hm]

theorem getInfo_survives (hcut : ∀ r ∈ first :: rest, cut r = r)
    (hfits : FirstIsLargest (first :: rest)) :
    InfoSurvives (first :: rest) m prev
      (GrpcClient.getInfo m ⟨.OK, .info freeMemory freeStorage (first :: rest)⟩ prev) := by
  have hle : ∀ r ∈ first :: rest, r.devices.length ≤ first.devices.length := hfits first rfl
  have hhead : ∀ r ∈ (first :: rest).head?, arrayLength [] r = first.devices.length := by
    simp [arrayLength]
  cases harray : m.runtimes with
  | some errno =>
      have hm : ¬ m.EnoughFor (first :: rest) := by
        intro h
        simp [h.1 (by simp)] at harray
      simpa [GrpcClient.getInfo, Status.OK, harray] using InfoSurvives.of_kept hm (-errno)
  | none =>
      rw [getInfo_cons harray]
      by_cases hm : m.EnoughFrom 0 (first :: rest)
      · rcases decodeRuntimes_ok [] (List.replicate (rest.length + 1) {}) (i := 0) rfl
          (by simp) hhead hle hm with ⟨rts, hloop, hrts⟩
        rw [List.nil_append, List.nil_append] at hloop
        rw [hloop]
        refine InfoSurvives.of_copied ⟨fun _ => harray, hm⟩ ?_
        have hall : (first :: rest).map cut = first :: rest := by
          simpa using List.map_congr_left (g := id) hcut
        rw [hall] at hrts
        simpa [ClientInfo.read] using readArray_append [] hrts
      · rcases decodeRuntimes_failed [] (List.replicate (rest.length + 1) {}) (i := 0) rfl
          (by simp) hhead hle hm with ⟨ret, hloop⟩
        rw [List.nil_append] at hloop
        rw [hloop]
        exact InfoSurvives.of_kept (fun h => hm h.2) ret

/-- Memory that never runs out. -/
def Memory.plenty : Memory := ⟨none, fun _ => none, fun _ => none, fun _ _ => none⟩

theorem enoughFrom_plenty (i : Nat) (rs : List RuntimeInfo) : Memory.plenty.EnoughFrom i rs := by
  induction rs generalizing i with
  | nil => trivial
  | cons r rs ih => exact ⟨⟨rfl, fun _ => ⟨rfl, fun _ _ => rfl⟩⟩, ih (i + 1)⟩

theorem getInfo_outOfBounds (h : ¬ FirstIsLargest (first :: rest)) :
    GrpcClient.getInfo Memory.plenty ⟨.OK, .info freeMemory freeStorage (first :: rest)⟩ prev =
      .error .outOfBounds := by
  have hlong : ∃ r ∈ first :: rest, first.devices.length < r.devices.length := by
    simpa [FirstIsLargest] using h
  have hloop := decodeRuntimes_outOfBounds [] (List.replicate (rest.length + 1) {}) (i := 0) rfl
    (by simp) (by simp [arrayLength]) hlong (enoughFrom_plenty 0 (first :: rest))
  rw [List.nil_append] at hloop
  rw [getInfo_cons rfl, hloop]

end Decoded

/-- A message that does not parse leaves the client with what it had, also where there is memory. -/
theorem refused_lost {runtimes : List RuntimeInfo} {prev : ClientInfo} :
    ¬ InfoSurvives runtimes Memory.plenty prev (.ok (-EFAULT, prev)) := by
  intro h
  rcases h.copied ⟨fun _ => rfl, enoughFrom_plenty 0 runtimes⟩ with ⟨info, heq, -⟩
  cases heq

/-- The list survives, for every outcome of the allocations and whatever the client had before,
exactly when all names are UTF-8 and the first runtime has the most devices. -/
theorem info_survives_iff (srv : Server) (env : Env) (uuid : Uuid) (freeMemory freeStorage : UInt64)
    (runtimes : List HostedRuntime) :
    (∀ (m : Memory) (prev : ClientInfo),
      InfoSurvives (runtimes.map HostedRuntime.toInfo) m prev
        (fetchInfo { srv with
          info := some ⟨uuid, runtimes.map HostedRuntime.toInfo, freeMemory, freeStorage⟩ }
          env m prev)) ↔
      (∀ text ∈ (runtimes.map HostedRuntime.toInfo).flatMap strings, Bytes.IsUtf8 text) ∧
        FirstIsLargest (runtimes.map HostedRuntime.toInfo) := by
  have hcut : ∀ r ∈ runtimes.map HostedRuntime.toInfo, cut r = r := by
    simp [HostedRuntime.cut_toInfo]
  generalize hinfo : PeerInfo.mk uuid (runtimes.map HostedRuntime.toInfo) freeMemory freeStorage = info
  have hruntimes : info.runtimes = runtimes.map HostedRuntime.toInfo := by rw [← hinfo]
  rw [← hruntimes] at hcut ⊢
  by_cases hutf8 : ∀ text ∈ info.runtimes.flatMap strings, Bytes.IsUtf8 text
  · simp only [fetchInfo_parsed srv env _ _ hutf8]
    rw [and_iff_right hutf8]
    cases hall : info.runtimes with
    | nil =>
        refine ⟨fun _ => by simp [FirstIsLargest], fun _ m prev => ?_⟩
        exact InfoSurvives.of_copied ⟨nofun, trivial⟩ rfl
    | cons first rest =>
        rw [hall] at hcut
        constructor
        · intro h
          by_contra hlong
          exact (h Memory.plenty ⟨none, 0, 0, 0⟩).inBounds (getInfo_outOfBounds hlong)
        · intro hfits m prev
          exact getInfo_survives hcut hfits
  · simp only [fetchInfo_refused srv env _ _ hutf8]
    exact ⟨fun h => absurd (h Memory.plenty ⟨none, 0, 0, 0⟩) refused_lost,
      fun h => absurd h.1 hutf8⟩

/-- A server whose second runtime has one device more than its first. -/
def unevenInfo : PeerInfo :=
  { uuid := .twoBytes
    runtimes :=
      [⟨Bytes.ascii "tensorflow-lite", [Bytes.ascii "--cpu"]⟩,
        ⟨Bytes.ascii "snpe", [Bytes.ascii "--gpu", Bytes.ascii "--dsp"]⟩]
    freeMemory := 0
    freeStorage := 0 }

theorem uneven_overflows :
    ¬ InfoSurvives unevenInfo.runtimes Memory.plenty ⟨none, 0, 0, 0⟩
      (fetchInfo
        { info := some unevenInfo
          storagePath := []
          nextPeerId := 0
          clientMap := ∅
          gst := fun _ => { peerId := [], nonce := 0 }
          count := 0 }
        Env.plain Memory.plenty ⟨none, 0, 0, 0⟩) := by
  intro h
  have hutf8 : ∀ text ∈ unevenInfo.runtimes.flatMap strings, Bytes.IsUtf8 text := by decide
  rw [fetchInfo_parsed ⟨none, [], 0, ∅, fun _ => { peerId := [], nonce := 0 }, 0⟩ _ _ _ hutf8] at h
  exact h.inBounds rfl

end Peer
end Beyond
