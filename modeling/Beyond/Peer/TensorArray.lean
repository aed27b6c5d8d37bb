import Beyond.Peer.Client
import Beyond.Peer.Info

/-!
# Tensor infos over the wire

`GrpcClient::SetRequest` and `GrpcServer::InfoToResponse` write an array of tensor infos into a
message; `GrpcServer::RequestToInfo` and `GrpcClient::GetTensorInfoFromResponse` make an array of a
message, cell by cell, with one block for the dims of each tensor.
-/

namespace Beyond
namespace Peer

open Errno

/-! ## Arrays with the same contents -/

/-- A tensor info with its name as a text; a null pointer is an empty one. -/
def TensorInfo.value (info : TensorInfo) : TensorInfo :=
  { info with name := some (Bytes.cstring (info.name.getD [])) }

/-- The tensor infos of an array. -/
def values (infos : Option (List TensorInfo)) : List TensorInfo :=
  (infos.getD []).map TensorInfo.value

/-- A tensor info as both decoders make it. -/
def GrpcServer.WireTensorInfo.info (i : GrpcServer.WireTensorInfo) : TensorInfo :=
  ⟨i.type, i.size, some (Bytes.cstring i.name), some i.dims⟩

@[simp] theorem TensorInfo.value_value (info : TensorInfo) : info.value.value = info.value := by
  simp [value, Bytes.cstring_cstring]

theorem hasTensorInfo_iff_values {infos : Option (List TensorInfo)} :
    hasTensorInfo infos = true ↔ values infos ≠ [] := by
  rw [← Bool.not_eq_false, hasTensorInfo_eq_false_iff, values, Ne, List.map_eq_nil_iff]

/-! ## Arrays in memory -/

/-- `beyond_tensor_info::dimensions`; a cell that was not written yet holds nothing. -/
structure Dimensions where
  size : Nat
  data : List (Option Int)
  deriving DecidableEq, Repr

/-- The block that both decoders allocate for `n` dims; the struct has room for one of its own. -/
def Dimensions.allocate (n : Nat) : Dimensions := ⟨n, List.replicate (n + 1) none⟩

/-- A cell of a `beyond_tensor_info` array.  A field that was not written yet is `none`. -/
structure InfoCell where
  type : Option Int := none
  size : Option Int := none
  name : Option (Option Bytes) := none
  dims : Option (Option Dimensions) := none
  deriving DecidableEq, Repr

/-- The allocations of one call: the `errno` of those that fail. -/
structure Allocations where
  info : Option Int
  name : Nat → Option Int
  dims : Nat → Option Int

/-- What a reader of a cell sees. -/
def InfoCell.read (c : InfoCell) : Option TensorInfo :=
  match c.type, c.size, c.name, c.dims with
  | some type, some size, some name, some (some dims) =>
      (readArray id dims.size dims.data).map fun data => ⟨type, size, name, some data⟩
  | _, _, _, _ => none

/-- `Peer::Model::FreeTensorInfo` on the first `n` cells. -/
def freeTensorInfo : Nat → List InfoCell → Except Fault (List InfoCell)
  | 0, cells => .ok cells
  | n + 1, cells =>
      match freeTensorInfo n cells with
      | .error e => .error e
      | .ok cells =>
          storeAt cells n { cells.getD n {} with name := some none, dims := some none }

/-! ## Decoders -/

/-- The loop over the dims of one tensor, from number `j` on. -/
def copyDims : Nat → List Int → Dimensions → Except Fault Dimensions
  | _, [], dims => .ok dims
  | j, d :: ds, dims =>
      match storeAt dims.data j (some d) with
      | .error e => .error e
      | .ok data => copyDims (j + 1) ds { dims with data := data }

/-- What is left of an array that is given up at cell `i`, which holds `cell` then. -/
def giveUp (cells : List InfoCell) (i : Nat) (cell : InfoCell) (errno : Int) :
    Except Fault (Except Int (List InfoCell)) :=
  match storeAt cells i cell with
  | .error e => .error e
  | .ok cells =>
      match freeTensorInfo i cells with
      | .error e => .error e
      | .ok _ => .ok (.error (-errno))

/-- The body of the loop over the tensors. -/
def decodeInfo (m : Allocations) (i : Nat) (w : GrpcServer.WireTensorInfo) (cells : List InfoCell) :
    Except Fault (Except Int (List InfoCell)) :=
  let cell : InfoCell := { type := some w.type, size := some w.size }
  match m.name i with
  | some errno => giveUp cells i { cell with name := some none } errno
  | none =>
      match m.dims i with
      | some errno => giveUp cells i { cell with name := some none, dims := some none } errno
      | none =>
          match copyDims 0 w.dims (.allocate w.dims.length) with
          | .error e => .error e
          | .ok dims =>
              match storeAt cells i
                  { cell with name := some (some (Bytes.cstring w.name)), dims := some (some dims) } with
              | .error e => .error e
              | .ok cells => .ok (.ok cells)

def decodeInfos (m : Allocations) :
    Nat → List GrpcServer.WireTensorInfo → List InfoCell → Except Fault (Except Int (List InfoCell))
  | _, [], cells => .ok (.ok cells)
  | i, w :: ws, cells =>
      match decodeInfo m i w cells with
      | .error e => .error e
      | .ok (.error ret) => .ok (.error ret)
      | .ok (.ok cells) => decodeInfos m (i + 1) ws cells

/-- The array that a message is decoded into, or a negative code. -/
def decodeArray (m : Allocations) (wire : List GrpcServer.WireTensorInfo) :
    Except Fault (Except Int (List InfoCell)) :=
  match m.info with
  | some errno => .ok (.error (-errno))
  | none => decodeInfos m 0 wire (List.replicate wire.length {})

/-- `GrpcServer::RequestToInfo`; the handlers take the size from the request. -/
def TensorArray.requestToInfo (m : Allocations) (wire : List GrpcServer.WireTensorInfo) :
    Except Fault (Except Int (List InfoCell)) :=
  decodeArray m wire

/-- `GrpcClient::GetTensorInfoFromResponse`. -/
def TensorArray.getTensorInfoFromResponse (debug : Bool) (m : Allocations)
    (wire : List GrpcServer.WireTensorInfo) : Except Fault (Except Int (List InfoCell)) :=
  if debug ∧ wire = [] then .error .assertion else decodeArray m wire

/-! ## What the decoders make -/

/-- The cell for a tensor of a message. -/
def GrpcServer.WireTensorInfo.cell (w : GrpcServer.WireTensorInfo) : InfoCell :=
  { type := some w.type
    size := some w.size
    name := some (some (Bytes.cstring w.name))
    dims := some (some ⟨w.dims.length, w.dims.map some ++ [none]⟩) }

/-- No allocation fails for a message of `n` tensors. -/
def Allocations.Enough (m : Allocations) (n : Nat) : Prop :=
  m.info = none ∧ ∀ i < n, m.name i = none ∧ m.dims i = none

theorem copyDims_append (ds : List Int) (done zeros : List (Option Int)) {j : Nat} (n : Nat)
    (hj : done.length = j) (hroom : ds.length ≤ zeros.length) :
    copyDims j ds ⟨n, done ++ zeros⟩ =
      .ok ⟨n, done ++ (ds.map some ++ zeros.drop ds.length)⟩ := by
  induction ds generalizing done zeros j with
  | nil => simp [copyDims]
  | cons d ds ih =>
      cases zeros with
      | nil => simp at hroom
      | cons z zeros =>
          have hlength : (done ++ [some d]).length = j + 1 := by simp [hj]
          have hrest := ih (done ++ [some d]) zeros hlength (by simpa using hroom)
          rw [copyDims, storeAt_append hj]
          simpa using hrest

theorem copyDims_allocate (ds : List Int) :
    copyDims 0 ds (.allocate ds.length) = .ok ⟨ds.length, ds.map some ++ [none]⟩ := by
  have h := copyDims_append ds [] (List.replicate (ds.length + 1) none) ds.length rfl (by simp)
  simpa [Dimensions.allocate] using h

theorem freeTensorInfo_ok {n : Nat} {cells : List InfoCell} (h : n ≤ cells.length) :
    ∃ cells', freeTensorInfo n cells = .ok cells' ∧ cells'.length = cells.length := by
  induction n with
  | zero => exact ⟨cells, rfl, rfl⟩
  | succ n ih =>
      rcases ih (Nat.le_of_succ_le h) with ⟨cells', hfree, hlength⟩
      have hlt : n < cells'.length := by omega
      refine ⟨cells'.set n { cells'.getD n {} with name := some none, dims := some none }, ?_, ?_⟩
      · simp only [freeTensorInfo, hfree, storeAt, if_pos hlt]
      · rw [List.length_set, hlength]

theorem giveUp_ok {done zeros : List InfoCell} {z : InfoCell} {i : Nat} (hi : done.length = i)
    (cell : InfoCell) (errno : Int) :
    giveUp (done ++ z :: zeros) i cell errno = .ok (.error (-errno)) := by
  have hle : i ≤ (done ++ cell :: zeros).length := by
    rw [List.length_append, hi]
    exact Nat.le_add_right _ _
  rcases freeTensorInfo_ok hle with ⟨cells', hfree, -⟩
  rw [giveUp, storeAt_append hi]
  simp only [hfree]

/-- One round of the loop stays inside the array, whatever is allocated. -/
theorem decodeInfo_append (m : Allocations) (w : GrpcServer.WireTensorInfo)
    {done zeros : List InfoCell} {z : InfoCell} {i : Nat} (hi : done.length = i) :
    decodeInfo m i w (done ++ z :: zeros) =
      match m.name i, m.dims i with
      | none, none => .ok (.ok (done ++ w.cell :: zeros))
      | some errno, _ => .ok (.error (-errno))
      | none, some errno => .ok (.error (-errno)) := by
  unfold decodeInfo
  cases hname : m.name i with
  | some errno => exact giveUp_ok hi _ errno
  | none =>
      cases hdims : m.dims i with
      | some errno => exact giveUp_ok hi _ errno
      | none =>
          simp only [copyDims_allocate, storeAt_append hi]
          rfl

/-- The loop fails, or it fills the rest of the array. -/
theorem decodeInfos_append (m : Allocations) (ws : List GrpcServer.WireTensorInfo)
    (done zeros : List InfoCell) {i : Nat} (hi : done.length = i)
    (hzeros : zeros.length = ws.length) :
    ((∀ k < i + ws.length, i ≤ k → m.name k = none ∧ m.dims k = none) ∧
        decodeInfos m i ws (done ++ zeros) = .ok (.ok (done ++ ws.map (·.cell)))) ∨
      ∃ ret, decodeInfos m i ws (done ++ zeros) = .ok (.error ret) ∧
        ∃ k < i + ws.length, i ≤ k ∧ ¬ (m.name k = none ∧ m.dims k = none) := by
  induction ws generalizing done zeros i with
  | nil =>
      cases List.length_eq_zero_iff.1 hzeros
      refine .inl ⟨fun k hk hle => ?_, by simp [decodeInfos]⟩
      exact absurd hk (not_lt.2 hle)
  | cons w ws ih =>
      rcases List.exists_cons_of_length_eq_add_one hzeros with ⟨z, zeros, rfl⟩
      have hlength : (done ++ [w.cell]).length = i + 1 := by simp [hi]
      have hrest := ih (done ++ [w.cell]) zeros hlength (by simpa using hzeros)
      have hfail : ¬ (m.name i = none ∧ m.dims i = none) →
          ∃ k < i + (w :: ws).length, i ≤ k ∧ ¬ (m.name k = none ∧ m.dims k = none) :=
        fun h => ⟨i, by simp, le_refl i, h⟩
      rw [decodeInfos, decodeInfo_append m w hi]
      cases hname : m.name i with
      | some errno => exact .inr ⟨-errno, rfl, hfail (by simp [hname])⟩
      | none =>
          cases hdims : m.dims i with
          | some errno => exact .inr ⟨-errno, rfl, hfail (by simp [hdims])⟩
          | none =>
              have hsplit : done ++ w.cell :: zeros = (done ++ [w.cell]) ++ zeros := by simp
              dsimp only
              rw [hsplit]
              rcases hrest with ⟨hall, hok⟩ | ⟨ret, herror, k, hk, hle, hbad⟩
              · refine .inl ⟨fun k hk hle => ?_, by simpa using hok⟩
                rcases Nat.eq_or_lt_of_le hle with rfl | hlt
                · exact ⟨hname, hdims⟩
                · exact hall k (by simpa [Nat.add_assoc, Nat.add_comm 1] using hk) hlt
              · refine .inr ⟨ret, herror, k, ?_, Nat.le_of_succ_le hle, hbad⟩
                simpa [Nat.add_assoc, Nat.add_comm 1] using hk

/-- Whatever is allocated, a message is decoded inside the array: with enough memory into one cell
for each tensor, else into a code. -/
theorem decodeArray_cases (m : Allocations) (wire : List GrpcServer.WireTensorInfo) :
    (m.Enough wire.length ∧ decodeArray m wire = .ok (.ok (wire.map (·.cell)))) ∨
      ¬ m.Enough wire.length ∧ ∃ ret, decodeArray m wire = .ok (.error ret) := by
  unfold decodeArray
  cases hinfo : m.info with
  | some errno => exact .inr ⟨fun h => by simp [Allocations.Enough, hinfo] at h, -errno, rfl⟩
  | none =>
      rcases decodeInfos_append m wire [] (List.replicate wire.length {}) rfl (by simp) with
        ⟨hall, hok⟩ | ⟨ret, herror, k, hk, -, hbad⟩
      · exact .inl ⟨⟨hinfo, fun i hi => hall i (by simpa using hi) (Nat.zero_le i)⟩, hok⟩
      · refine .inr ⟨fun h => hbad (h.2 k (by simpa using hk)), ret, herror⟩

/-! ## What a reader sees -/

theorem read_cell (w : GrpcServer.WireTensorInfo) : w.cell.read = some w.info := by
  have hdata : readArray id w.dims.length (w.dims.map some ++ [none]) = some w.dims := by
    apply readArray_append
    rw [List.forall₂_map_left_iff]
    exact List.forall₂_same.2 fun d _ => rfl
  simp only [InfoCell.read, GrpcServer.WireTensorInfo.cell, hdata, Option.map_some,
    GrpcServer.WireTensorInfo.info]

theorem readArray_cells (wire : List GrpcServer.WireTensorInfo) :
    readArray InfoCell.read wire.length (wire.map (·.cell)) = some (wire.map (·.info)) := by
  have h : List.Forall₂ (fun c i => InfoCell.read c = some i) (wire.map (·.cell))
      (wire.map (·.info)) := by
    rw [List.forall₂_map_left_iff, List.forall₂_map_right_iff]
    exact List.forall₂_same.2 fun w _ => read_cell w
  have hread := readArray_append [] h
  rw [List.append_nil, List.length_map] at hread
  exact hread

namespace Client

open GrpcServer

/-! ## Messages -/

/-- What `SetRequest` writes is read back as it was. -/
theorem values_setRequest {infos : List TensorInfo} {wire : List WireTensorInfo}
    (h : setRequest infos = .ok (.ok wire)) :
    values (some (wire.map WireTensorInfo.info)) = values (some infos) := by
  induction infos generalizing wire with
  | nil =>
      cases h
      rfl
  | cons info infos ih =>
      rcases info with ⟨type, size, name, dims⟩
      unfold setRequest at h
      split at h
      · cases h
      · cases h
      · rename_i d ds hdims
        cases hrest : setRequest infos with
        | error e =>
            rw [hrest] at h
            cases h
        | ok x =>
            rw [hrest] at h
            cases x with
            | error ret => cases h
            | ok rest =>
                cases h
                cases (hdims : dims = some (d :: ds))
                have hih : (rest.map WireTensorInfo.info).map TensorInfo.value =
                  infos.map TensorInfo.value := ih hrest
                simp [values, WireTensorInfo.info, TensorInfo.value, Bytes.cstring_cstring, ← hih]

theorem values_infoToResponse {infos : List TensorInfo} {wire : List WireTensorInfo}
    (h : infoToResponse infos = .ok wire) :
    values (some (wire.map WireTensorInfo.info)) = values (some infos) := by
  induction infos generalizing wire with
  | nil =>
      cases h
      rfl
  | cons info infos ih =>
      rcases info with ⟨type, size, name, dims⟩
      unfold infoToResponse at h
      split at h
      · cases h
      · cases h
      · rename_i dims' rest hdims hrest
        cases h
        cases (hdims : dims = some dims')
        have hih : (rest.map WireTensorInfo.info).map TensorInfo.value =
          infos.map TensorInfo.value := ih hrest
        simp [values, WireTensorInfo.info, TensorInfo.value, Bytes.cstring_cstring, ← hih]

theorem requestToInfo_ok {env : Env} {wire : List WireTensorInfo} {infos : List TensorInfo}
    (h : requestToInfo env wire = .ok infos) :
    infos = wire.map (·.info) := by
  unfold requestToInfo at h
  split at h <;> cases h
  rfl

theorem getTensorInfoFromResponse_ok {debug : Bool} {memory : Option Int}
    {wire : List WireTensorInfo} {infos : List TensorInfo}
    (h : getTensorInfoFromResponse debug memory wire = .ok (.ok infos)) :
    infos = wire.map WireTensorInfo.info := by
  unfold getTensorInfoFromResponse at h
  split at h
  · cases h
  · split at h <;> cases h
    rfl

/-- `SetRequest` takes the tensors that have a dimension. -/
theorem setRequest_cases {infos : List TensorInfo} (hpresent : DimsPresent (some infos)) :
    (∃ info ∈ infos, info.dims = some []) ∧ (∃ ret, setRequest infos = .ok (.error ret)) ∨
      (∀ info ∈ infos, info.dims ≠ some []) ∧ ∃ wire, setRequest infos = .ok (.ok wire) := by
  induction infos with
  | nil => exact .inr ⟨by simp, [], rfl⟩
  | cons info infos ih =>
      have hrest := ih fun i hi => hpresent i (List.mem_cons_of_mem _ hi)
      unfold setRequest
      cases hdims : info.dims with
      | none => exact absurd hdims (hpresent info (by simp))
      | some dims =>
          cases dims with
          | nil => exact .inl ⟨⟨info, by simp, hdims⟩, -EINVAL, rfl⟩
          | cons d ds =>
              rcases hrest with ⟨⟨i, hi, hnil⟩, ret, hret⟩ | ⟨hall, wire, hwire⟩
              · exact .inl ⟨⟨i, List.mem_cons_of_mem _ hi, hnil⟩, ret, by rw [hret]⟩
              · refine .inr ⟨?_, _, by rw [hwire]⟩
                rw [List.forall_mem_cons]
                exact ⟨by simp [hdims], hall⟩

theorem infoToResponse_ok {infos : List TensorInfo} (h : ∀ info ∈ infos, info.dims ≠ none) :
    ∃ wire, infoToResponse infos = .ok wire ∧ (wire = [] ↔ infos = []) := by
  induction infos with
  | nil => exact ⟨[], rfl, by simp⟩
  | cons info infos ih =>
      rcases ih fun i hi => h i (List.mem_cons_of_mem _ hi) with ⟨wire, hwire, -⟩
      cases hdims : info.dims with
      | none => exact absurd hdims (h info List.mem_cons_self)
      | some dims =>
          refine ⟨⟨info.type, info.size, info.name.getD [], dims⟩ :: wire, ?_, by simp⟩
          simp [infoToResponse, hdims, hwire]

end Client

/-! ## Main result -/

/-- The array that a decoder makes of a message holds the given tensor infos, if there is memory for
it; without it there is no array, but no write outside of one either. -/
def Survive (decoder : Allocations → List GrpcServer.WireTensorInfo →
    Except Fault (Except Int (List InfoCell))) (wire : List GrpcServer.WireTensorInfo)
    (infos : List TensorInfo) : Prop :=
  ∀ m : Allocations,
    (¬ m.Enough infos.length ∧ ∃ ret, decoder m wire = .ok (.error ret)) ∨
      ∃ cells decoded, decoder m wire = .ok (.ok cells) ∧
        readArray InfoCell.read infos.length cells = some decoded ∧
        decoded.map TensorInfo.value = infos.map TensorInfo.value

theorem survive_decodeArray {wire : List GrpcServer.WireTensorInfo} {infos : List TensorInfo}
    (h : values (some (wire.map (·.info))) = values (some infos)) :
    Survive decodeArray wire infos := by
  have hvalues : (wire.map (·.info)).map TensorInfo.value = infos.map TensorInfo.value := h
  have hlength : wire.length = infos.length := by simpa using congrArg List.length hvalues
  intro m
  rcases decodeArray_cases m wire with ⟨-, hok⟩ | ⟨hnot, ret, herror⟩
  · refine .inr ⟨_, _, hok, ?_, hvalues⟩
    rw [← hlength]
    exact readArray_cells wire
  · rw [hlength] at hnot
    exact .inl ⟨hnot, ret, herror⟩

/-- The models of the decoders as functions say what a reader of the array sees. -/
theorem read_requestToInfo {env : GrpcServer.Env} {m : Allocations}
    {wire : List GrpcServer.WireTensorInfo} {infos : List TensorInfo} {cells : List InfoCell}
    (hcells : TensorArray.requestToInfo m wire = .ok (.ok cells))
    (hinfos : GrpcServer.requestToInfo env wire = .ok infos) :
    readArray InfoCell.read wire.length cells = some infos := by
  rw [Client.requestToInfo_ok hinfos]
  rcases decodeArray_cases m wire with ⟨-, hok⟩ | ⟨-, ret, herror⟩
  · cases hok.symm.trans hcells
    exact readArray_cells wire
  · cases herror.symm.trans hcells

theorem read_getTensorInfoFromResponse {debug : Bool} {m : Allocations} {memory : Option Int}
    {wire : List GrpcServer.WireTensorInfo} {infos : List TensorInfo} {cells : List InfoCell}
    (hcells : TensorArray.getTensorInfoFromResponse debug m wire = .ok (.ok cells))
    (hinfos : Client.getTensorInfoFromResponse debug memory wire = .ok (.ok infos)) :
    readArray InfoCell.read wire.length cells = some infos := by
  rw [Client.getTensorInfoFromResponse_ok hinfos]
  unfold TensorArray.getTensorInfoFromResponse at hcells
  split at hcells
  · cases hcells
  · rcases decodeArray_cases m wire with ⟨-, hok⟩ | ⟨-, ret, herror⟩
    · cases hok.symm.trans hcells
      exact readArray_cells wire
    · cases herror.symm.trans hcells

/-- Tensor infos survive the wire in both directions, in a debug build and in a release build.  The
client refuses to send an array exactly when one of its tensors has no dimension. -/
theorem tensorInfos_survive (debug : Bool) (infos : List TensorInfo) (hne : infos ≠ [])
    (hpresent : DimsPresent (some infos)) :
    ((∃ ret, Client.setRequest infos = .ok (.error ret)) ↔ ∃ info ∈ infos, info.dims = some []) ∧
      ((∀ info ∈ infos, info.dims ≠ some []) →
        (∃ wire, Client.setRequest infos = .ok (.ok wire) ∧
            Survive TensorArray.requestToInfo wire infos) ∧
          ∃ wire, GrpcServer.infoToResponse infos = .ok wire ∧
            Survive (TensorArray.getTensorInfoFromResponse debug) wire infos) := by
  rcases Client.setRequest_cases hpresent with ⟨⟨info, hinfo, hnil⟩, hret⟩ | ⟨hall, wire, hwire⟩
  · refine ⟨⟨fun _ => ⟨info, hinfo, hnil⟩, fun _ => hret⟩, fun h => ?_⟩
    exact absurd hnil (h info hinfo)
  · refine ⟨⟨?_, fun ⟨info, hinfo, hnil⟩ => absurd hnil (hall info hinfo)⟩, fun _ => ?_⟩
    · rintro ⟨ret, hret⟩
      cases hwire.symm.trans hret
    · refine ⟨⟨wire, hwire, survive_decodeArray (Client.values_setRequest hwire)⟩, ?_⟩
      rcases Client.infoToResponse_ok hpresent with ⟨wire', hwire', hnil⟩
      have hvalues := Client.values_infoToResponse hwire'
      refine ⟨wire', hwire', ?_⟩
      have hdecoder : ∀ m, TensorArray.getTensorInfoFromResponse debug m wire' =
          decodeArray m wire' := fun m => if_neg fun h => hne (hnil.1 h.2)
      intro m
      rw [hdecoder m]
      exact survive_decodeArray hvalues m

/-- A tensor without a name, and one with two dims. -/
def twoInfos : List TensorInfo :=
  [⟨2, 4, none, some [1]⟩, ⟨300, 24, some (Bytes.ascii "input"), some [-1, 6]⟩]

theorem twoInfos_survive :
    ∃ wire, Client.setRequest twoInfos = .ok (.ok wire) ∧
      Survive TensorArray.requestToInfo wire twoInfos :=
  ((tensorInfos_survive false twoInfos (by decide) (by decide)).2 (by decide)).1

end Peer
end Beyond
