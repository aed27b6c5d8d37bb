import Beyond.Base.Heap
import Beyond.Base.Platform
import Beyond.Peer.ModelInfos
import Beyond.Peer.TensorArray

/-!
# Lists of tensor infos

`Peer::Model::DupTensorInfo`, `GrpcServer::RequestToInfo` and `GrpcClient::GetTensorInfoFromResponse`
build a list cell by cell and call `FreeTensorInfo` on what they have when an allocation fails.  A
`Peer::Model` calls it for a list that another one replaces, and for both lists in its destructor.
The routine takes a list of size 0 for no list.
-/

namespace Beyond
namespace Peer
namespace TensorLists

open Errno
open Heap (Ending ending ending_append)
open ModelInfos (Infos Cell infosBlocks)

/-! ## Lists -/

/-- A `beyond_tensor_info` that is filled in. -/
structure Tensor where
  type : Int
  size : Int
  name : Option (Block Bytes)
  dims : Block (List Int)
  deriving DecidableEq, Repr

/-- An array of tensor infos; the cells are those in front of the index that is worked at. -/
abbrev TensorList := Block (List Tensor)

/-- What the allocator knows of a tensor info. -/
def Tensor.cell (t : Tensor) : Cell := ⟨t.name.map Block.address, t.dims.address⟩

def infos (list : TensorList) : Infos := ⟨list.address, list.contents.map Tensor.cell⟩

/-- What a reader of a tensor info sees. -/
def Tensor.read (t : Tensor) : TensorInfo :=
  ⟨t.type, t.size, t.name.map Block.contents, some t.dims.contents⟩

/-- A tensor info with its name as a text. -/
def copied (i : TensorInfo) : TensorInfo := { i with name := i.name.map Bytes.cstring }

inductive Fault
  | nullDims
  | assertion
  deriving DecidableEq, Repr

/-! ## Builders -/

/-- `strdup`; a null name is not copied.  The outer option is the success. -/
def copyName (fails : Nat → Bool) (h : Heap) (name : Option Bytes) :
    Heap × Option (Option (Block Bytes)) :=
  match name with
  | none => (h, some none)
  | some name =>
      let made := h.alloc fails
      (made.1, made.2.map fun address => some ⟨address, Bytes.cstring name⟩)

def freeName (h : Heap) (name : Option (Block Bytes)) : Heap :=
  match name with
  | none => h
  | some name => h.free name.address

/-- The body of the loop over the tensors up to its call of `FreeTensorInfo`. -/
def copyTensor (fails : Nat → Bool) (h : Heap) (i : TensorInfo) :
    Except Fault (Heap × Option Tensor) :=
  let named := copyName fails h i.name
  match named.2, i.dims with
  | none, _ => .ok (named.1, none)
  | some _, none => .error .nullDims
  | some name, some dims =>
      let made := named.1.alloc fails
      match made.2 with
      | none => .ok (freeName made.1 name, none)
      | some address => .ok (made.1, some ⟨i.type, i.size, name, ⟨address, dims⟩⟩)

/-- The loop over the tensors, behind the cells of `list`. -/
def copyTensors (fails : Nat → Bool) (h : Heap) (list : TensorList) :
    List TensorInfo → Except Fault (Heap × Option TensorList)
  | [] => .ok (h, some list)
  | i :: is =>
      match copyTensor fails h i with
      | .error e => .error e
      | .ok (h, none) => .ok ({ h with ledger := ModelInfos.freeTensorInfo h.ledger (infos list) }, none)
      | .ok (h, some t) => copyTensors fails h { list with contents := list.contents ++ [t] } is

/-- The array, and then its cells. -/
def copyList (fails : Nat → Bool) (h : Heap) (src : List TensorInfo) :
    Except Fault (Heap × Option TensorList) :=
  let made := h.alloc fails
  match made.2 with
  | none => .ok (made.1, none)
  | some address => copyTensors fails made.1 ⟨address, []⟩ src

/-- The out parameters of a builder. -/
structure Out where
  info : Option TensorList
  size : Int
  deriving DecidableEq, Repr

/-- What a builder leaves and returns. -/
structure Returned where
  heap : Heap
  out : Out
  ret : Int

/-- The end of a builder: only a list that is complete is handed out. -/
def handOut (out : Out) (set : TensorList → Out) : Heap × Option TensorList → Returned
  | (h, none) => ⟨h, out, -ENOMEM⟩
  | (h, some list) => ⟨h, set list, 0⟩

/-- `Peer::Model::DupTensorInfo`. -/
def dupTensorInfo (fails : Nat → Bool) (h : Heap) (dest : Out) (src : List TensorInfo) :
    Except Fault Returned :=
  (copyList fails h src).map (handOut dest fun list => { dest with info := some list })

/-- `GrpcServer::RequestToInfo`. -/
def requestToInfo (fails : Nat → Bool) (h : Heap) (out : Out)
    (request : List GrpcServer.WireTensorInfo) : Except Fault Returned :=
  (copyList fails h (request.map GrpcServer.WireTensorInfo.info)).map
    (handOut out fun list => { out with info := some list })

/-- `GrpcClient::GetTensorInfoFromResponse`; only a build with assertions checks the size. -/
def getTensorInfoFromResponse (debug : Bool) (fails : Nat → Bool) (h : Heap) (out : Out)
    (tensorInfos : List GrpcServer.WireTensorInfo) : Except Fault Returned :=
  if debug = true ∧ tensorInfos = [] then .error .assertion
  else
    (copyList fails h (tensorInfos.map GrpcServer.WireTensorInfo.info)).map
      (handOut out fun list => ⟨some list, tensorInfos.length⟩)

/-! ## What a builder leaves -/

def Tensor.blocks (t : Tensor) : List Nat := (t.name.map Block.address).toList ++ [t.dims.address]

theorem cell_blocks (t : Tensor) : t.cell.blocks = t.blocks := rfl

/-- The requests for a tensor; its dims are read before they are asked for. -/
def tensorRequests (i : TensorInfo) : List Bool :=
  (i.name.map fun _ => false).toList ++ [i.dims.isNone]

/-- What the copying of one tensor leaves. -/
inductive CopiedTensor (h : Heap) (i : TensorInfo) :
    Ending → Except Fault (Heap × Option Tensor) → Prop
  | unreadable (e : Fault) : CopiedTensor h i .unreadable (.error e)
  | refused {h' : Heap} (hgrown : h.ledger.Grown h'.ledger []) : CopiedTensor h i .refused (.ok (h', none))
  | whole {h' : Heap} {t : Tensor} (hgrown : h.ledger.Grown h'.ledger t.blocks)
      (hattempts : h'.attempts = h.attempts + (tensorRequests i).length)
      (hread : t.read = copied i) : CopiedTensor h i .whole (.ok (h', some t))

theorem copyTensor_spec (fails : Nat → Bool) (h : Heap) (i : TensorInfo) :
    CopiedTensor h i (ending fails h.attempts (tensorRequests i)) (copyTensor fails h i) := by
  rcases i with ⟨type, size, name, dims⟩
  cases name with
  | none =>
      cases dims with
      | none => exact .unreadable .nullDims
      | some dims =>
          cases hdims : fails h.attempts with
          | true =>
              have hend : ending fails h.attempts (tensorRequests ⟨type, size, none, some dims⟩) =
                  .refused := by simp [ending, tensorRequests, hdims]
              simp only [hend, copyTensor, copyName, Heap.alloc_of_fails hdims]
              exact .refused (.refl _)
          | false =>
              have hend : ending fails h.attempts (tensorRequests ⟨type, size, none, some dims⟩) =
                  .whole := by simp [ending, tensorRequests, hdims]
              simp only [hend, copyTensor, copyName, Heap.alloc_of_not_fails hdims]
              exact .whole (.alloc _) rfl rfl
  | some name =>
      let h₁ : Heap := ⟨h.ledger.alloc, h.attempts + 1⟩
      have hnamed : h.ledger.Grown h₁.ledger [h.ledger.allocated] := .alloc _
      cases hname : fails h.attempts with
      | true =>
          have hend : ending fails h.attempts (tensorRequests ⟨type, size, some name, dims⟩) =
              .refused := by simp [ending, tensorRequests, hname]
          simp only [hend, copyTensor, copyName, Heap.alloc_of_fails hname, Option.map_none]
          exact .refused (.refl _)
      | false =>
          cases dims with
          | none =>
              have hend : ending fails h.attempts (tensorRequests ⟨type, size, some name, none⟩) =
                  .unreadable := by simp [ending, tensorRequests, hname]
              simp only [hend, copyTensor, copyName, Heap.alloc_of_not_fails hname, Option.map_some]
              exact .unreadable .nullDims
          | some dims =>
              cases hdims : fails (h.attempts + 1) with
              | true =>
                  have hend : ending fails h.attempts
                      (tensorRequests ⟨type, size, some name, some dims⟩) = .refused := by
                    simp [ending, tensorRequests, hname, hdims]
                  have hrefused := Heap.alloc_of_fails (h := h₁) hdims
                  simp only [h₁] at hrefused
                  simp only [hend, copyTensor, copyName, Heap.alloc_of_not_fails hname,
                    Option.map_some, hrefused]
                  -- The name is released by the builder, since its cell is not counted.
                  have hfreed : h.ledger.Grown (h₁.ledger.freeAll [h.ledger.allocated]) [] :=
                    hnamed.freeAll
                  exact .refused hfreed
              | false =>
                  have hend : ending fails h.attempts
                      (tensorRequests ⟨type, size, some name, some dims⟩) = .whole := by
                    simp [ending, tensorRequests, hname, hdims]
                  have hmade := Heap.alloc_of_not_fails (h := h₁) hdims
                  simp only [h₁] at hmade
                  simp only [hend, copyTensor, copyName, Heap.alloc_of_not_fails hname,
                    Option.map_some, hmade]
                  exact .whole (hnamed.trans (.alloc _)) rfl rfl

def blocks (list : TensorList) : List Nat := (infos list).blocks

theorem blocks_concat (list : TensorList) (t : Tensor) :
    (t.blocks ++ blocks list).Perm (blocks { list with contents := list.contents ++ [t] }) := by
  simp only [blocks, infos, Infos.blocks, List.map_append, List.map_singleton, List.flatMap_append,
    List.flatMap_singleton, cell_blocks, ← List.append_assoc]
  exact (List.perm_append_comm).append_right _

/-- What the copying of a list leaves; `lost` is what is held then and by nobody known. -/
inductive CopiedList (h : Heap) (src : List TensorInfo) (lost : List Nat) :
    Ending → Except Fault (Heap × Option TensorList) → Prop
  | unreadable (e : Fault) : CopiedList h src lost .unreadable (.error e)
  | refused {h' : Heap} (hgrown : h.ledger.Grown h'.ledger lost) :
      CopiedList h src lost .refused (.ok (h', none))
  | whole {h' : Heap} {list : TensorList} (hgrown : h.ledger.Grown h'.ledger (blocks list))
      (hread : list.contents.map Tensor.read = src.map copied) :
      CopiedList h src lost .whole (.ok (h', some list))

/-- `FreeTensorInfo` releases a list that has a cell. -/
theorem freeTensorInfo_grown {h h' : Heap} {list : TensorList} (hcells : list.contents ≠ [])
    (hgrown : h.ledger.Grown h'.ledger (blocks list)) :
    h.ledger.Grown (ModelInfos.freeTensorInfo h'.ledger (infos list)) [] := by
  have hcells' : (infos list).cells ≠ [] := by simpa [infos] using hcells
  rw [← List.append_nil (blocks list)] at hgrown
  rw [ModelInfos.freeTensorInfo, if_neg hcells']
  exact hgrown.freeAll

/-- Behind the first cell nothing is lost. -/
theorem copyTensors_spec (fails : Nat → Bool) {h₀ h : Heap} {list : TensorList}
    {done : List TensorInfo} (src : List TensorInfo) (hcells : list.contents ≠ [])
    (hgrown : h₀.ledger.Grown h.ledger (blocks list)) (hread : list.contents.map Tensor.read = done.map copied) :
    CopiedList h₀ (done ++ src) [] (ending fails h.attempts (src.flatMap tensorRequests))
      (copyTensors fails h list src) := by
  induction src generalizing h list done with
  | nil => exact .whole hgrown (by rw [List.append_nil, hread])
  | cons i is ih =>
      have hfirst := copyTensor_spec fails h i
      rw [List.flatMap_cons, ending_append]
      unfold copyTensors
      generalize copyTensor fails h i = result at hfirst ⊢
      generalize ending fails h.attempts (tensorRequests i) = e at hfirst ⊢
      cases hfirst with
      | unreadable e => exact .unreadable e
      | refused hsame =>
          have hboth := hgrown.trans hsame
          rw [List.append_nil] at hboth
          -- The cells in front of the one that failed are released, and with them the array.
          exact .refused (freeTensorInfo_grown hcells hboth)
      | @whole h' t hmore hattempts hread' =>
          have hboth := (hgrown.trans hmore).perm
            (List.perm_append_comm.trans (blocks_concat list t))
          have hdone : (list.contents ++ [t]).map Tensor.read = (done ++ [i]).map copied := by
            rw [List.map_append, List.map_append, hread, List.map_singleton, hread', List.map_singleton]
          have hrest := ih (by simp) hboth hdone
          rw [hattempts, List.append_assoc] at hrest
          exact hrest

/-- The requests for a list. -/
def listRequests (src : List TensorInfo) : List Bool := false :: src.flatMap tensorRequests

/-- There is room for the array, but not for what its first tensor needs. -/
def FirstRefused (fails : Nat → Bool) (n : Nat) (src : List TensorInfo) : Prop :=
  fails n = false ∧ ∃ i ∈ src.head?, ending fails (n + 1) (tensorRequests i) = .refused

/-- The array is lost when there is no cell in front of the failure. -/
theorem copyList_spec (fails : Nat → Bool) (h : Heap) (src : List TensorInfo) :
    ∃ lost, CopiedList h src lost (ending fails h.attempts (listRequests src)) (copyList fails h src) ∧
      (lost = [] ↔ ¬ FirstRefused fails h.attempts src) := by
  cases hfails : fails h.attempts with
  | true =>
      refine ⟨[], ?_, by simp [FirstRefused, hfails]⟩
      have hend : ending fails h.attempts (listRequests src) = .refused := by
        simp [ending, listRequests, hfails]
      simp only [hend, copyList, Heap.alloc_of_fails hfails]
      exact .refused (.refl _)
  | false =>
      let h₁ : Heap := ⟨h.ledger.alloc, h.attempts + 1⟩
      let array : TensorList := ⟨h.ledger.allocated, []⟩
      have harray : h.ledger.Grown h₁.ledger (blocks array) := .alloc _
      have hend : ending fails h.attempts (listRequests src) =
          ending fails (h.attempts + 1) (src.flatMap tensorRequests) := by
        simp [ending, listRequests, hfails]
      simp only [hend, copyList, Heap.alloc_of_not_fails hfails]
      cases src with
      | nil => exact ⟨[], .whole harray rfl, by simp [FirstRefused]⟩
      | cons i is =>
          have hfirst := copyTensor_spec fails h₁ i
          simp only [h₁] at hfirst
          simp only [FirstRefused, hfails, List.head?_cons, Option.mem_some_iff, exists_eq_left',
            true_and]
          rw [List.flatMap_cons, ending_append]
          unfold copyTensors
          generalize copyTensor fails ⟨h.ledger.alloc, h.attempts + 1⟩ i = result at hfirst ⊢
          generalize ending fails (h.attempts + 1) (tensorRequests i) = e at hfirst ⊢
          cases hfirst with
          | unreadable e => exact ⟨[], .unreadable e, by simp⟩
          | refused hsame =>
              -- The size that the routine is given is 0.
              have hboth := harray.trans hsame
              rw [List.append_nil] at hboth
              exact ⟨blocks array, .refused hboth, by simp [array, blocks, infos, Infos.blocks]⟩
          | @whole h' t hmore hattempts hread =>
              have hboth := (harray.trans hmore).perm
                (List.perm_append_comm.trans (blocks_concat array t))
              have hdone : (array.contents ++ [t]).map Tensor.read = [i].map copied := by
                simp [array, hread]
              have hrest := copyTensors_spec fails is (by simp) hboth hdone
              rw [hattempts] at hrest
              exact ⟨[], hrest, by simp⟩

/-! ## A complete list or nothing -/

/-- A builder returns 0 with a list that equals its source and is made of new blocks, or a negative code
with nothing left behind and its out parameters untouched. -/
def BuildsOrReleases (a : Ledger.Account) (out : Out) (src : List TensorInfo)
    (result : Except Fault Returned) : Prop :=
  match result with
  | .error _ => False
  | .ok r =>
      (r.ret = 0 ∧ ∃ list, r.out.info = some list ∧
        list.contents.map Tensor.read = src.map copied ∧
        (∀ b ∈ blocks list, a.ledger.allocated ≤ b) ∧
        r.heap.ledger.Balanced (blocks list ++ a.held)) ∨
      (r.ret < 0 ∧ r.out = out ∧ r.heap.ledger.Balanced a.held)

/-- No allocation fails, or the array cannot be allocated, or the first that fails is for another tensor
than the first; and dims that are read before that are there. -/
def Releasable (fails : Nat → Bool) (src : List TensorInfo) : Prop :=
  match ending fails 0 (listRequests src) with
  | .whole => True
  | .refused => ¬ FirstRefused fails 0 src
  | .unreadable => False

theorem handOut_iff (fails : Nat → Bool) (a : Ledger.Account) (out : Out) (src : List TensorInfo)
    {set : TensorList → Out} (hset : ∀ list, (set list).info = some list) :
    BuildsOrReleases a out src ((copyList fails (.start a.ledger) src).map (handOut out set)) ↔
      Releasable fails src := by
  rcases copyList_spec fails (.start a.ledger) src with ⟨lost, hcopied, hlost⟩
  unfold Releasable
  simp only [Heap.start] at hcopied hlost
  simp only [Heap.start]
  generalize copyList fails ⟨a.ledger, 0⟩ src = result at hcopied ⊢
  generalize ending fails 0 (listRequests src) = e at hcopied ⊢
  cases hcopied with
  | unreadable e => exact Iff.rfl
  | @refused h' hgrown =>
      have hbalanced := hgrown.balanced a.balanced
      have hnegative : -ENOMEM < 0 := by decide
      -- The ledger is balanced without the lost blocks if there are none.
      simp only [← hlost, ← hbalanced.iff_none_lost]
      constructor
      · rintro (⟨hret, -⟩ | ⟨-, -, hheld⟩)
        · exact absurd hret (Int.ne_of_lt hnegative)
        · exact hheld
      · exact fun hheld => .inr ⟨hnegative, rfl, hheld⟩
  | @whole h' list hgrown hread =>
      exact iff_of_true (.inl ⟨rfl, list, hset list, hread, hgrown.recent,
        hgrown.balanced a.balanced⟩) trivial

/-! ## The lists of a model -/

/-- The arrays without cells: `FreeTensorInfo` passes them by. -/
def passedBy (i : Option Infos) : List Nat :=
  match i with
  | none => []
  | some i => if i.cells = [] then i.blocks else []

/-- A call of `SetInputTensorInfo` or `SetOutputTensorInfo`. -/
structure SetCall where
  side : Side
  list : Option Infos
  deriving DecidableEq, Repr

/-- A sequence of calls on a new model, and its destruction. -/
def lifetime (l : Ledger) (calls : List SetCall) : Ledger :=
  (calls.foldl (fun m c => ModelInfos.Model.set m c.side c.list) ⟨l, fun _ => none⟩).destroy.ledger

/-- Lists that were built and belong to nobody else. -/
structure HandedOver where
  ledger : Ledger
  held : List Nat
  calls : List SetCall
  balanced : ledger.Balanced (calls.flatMap (fun c => infosBlocks c.list) ++ held)

section Lifetime

variable {m : ModelInfos.Model} {side : Side}

/-- Setting a list releases the one that it replaces, or passes it by. -/
theorem set_balanced {rest : List Nat} (new : Option Infos)
    (h : m.ledger.Balanced (infosBlocks (m.slot side) ++ rest)) :
    (m.set side new).ledger.Balanced (passedBy (m.slot side) ++ rest) := by
  unfold ModelInfos.Model.set
  cases hold : m.slot side with
  | none =>
      rw [hold] at h
      exact h
  | some old =>
      rw [hold] at h
      by_cases hcells : old.cells = []
      · simp only [ModelInfos.freeTensorInfo, passedBy, if_pos hcells]
        exact h
      · simp only [passedBy, if_neg hcells]
        exact ModelInfos.freeTensorInfo_balanced h hcells

/-- The two lists of a model, seen from one side. -/
theorem count_slots (f : Option Infos → List Nat) (m : ModelInfos.Model) (side : Side) (b : Nat) :
    (f (m.slot .input) ++ f (m.slot .output)).count b =
      (f (m.slot side)).count b + (f (m.slot side.other)).count b := by
  rw [List.count_append]
  cases side with
  | input => rfl
  | output => exact Nat.add_comm _ _

theorem slot_set_self (m : ModelInfos.Model) (side : Side) (new : Option Infos) :
    (m.set side new).slot side = new := Function.update_self ..

theorem slot_set_other (m : ModelInfos.Model) (side : Side) (new : Option Infos) :
    (m.set side new).slot side.other = m.slot side.other :=
  Function.update_of_ne side.ne_other.symm ..

/-- What nobody releases in the rest of the lifetime of a model. -/
def lost (m : ModelInfos.Model) (calls : List SetCall) : List Nat :=
  passedBy (m.slot .input) ++ passedBy (m.slot .output) ++ calls.flatMap fun c => passedBy c.list

theorem destroy_balanced {rest : List Nat} (h : m.ledger.Balanced (m.held ++ rest)) :
    m.destroy.ledger.Balanced (lost m [] ++ rest) := by
  unfold ModelInfos.Model.held at h
  rw [List.append_assoc] at h
  have hinput := set_balanced none h
  have hswapped : (m.set .input none).ledger.Balanced
      (infosBlocks ((m.set .input none).slot .output) ++ (passedBy (m.slot .input) ++ rest)) := by
    rw [show (m.set .input none).slot .output = m.slot .output from slot_set_other m .input none]
    exact hinput.perm (List.perm_append_comm_assoc ..)
  refine (set_balanced none hswapped).perm ?_
  rw [show (m.set .input none).slot .output = m.slot .output from slot_set_other m .input none]
  simpa [lost] using List.perm_append_comm_assoc ..

/-- At the end of its lifetime a model has released all lists but those without cells. -/
theorem foldl_balanced (calls : List SetCall) {rest : List Nat}
    (h : m.ledger.Balanced (m.held ++ (calls.flatMap (fun c => infosBlocks c.list) ++ rest))) :
    (calls.foldl (fun m c => ModelInfos.Model.set m c.side c.list) m).destroy.ledger.Balanced
      (lost m calls ++ rest) := by
  induction calls generalizing m rest with
  | nil => exact destroy_balanced h
  | cons c calls ih =>
      have hside : m.ledger.Balanced (infosBlocks (m.slot c.side) ++ (infosBlocks (m.slot c.side.other) ++
          (infosBlocks c.list ++ calls.flatMap (fun c => infosBlocks c.list) ++ rest))) := by
        refine h.congr fun b => ?_
        simp only [List.flatMap_cons, List.count_append, m.count_held c.side]
        omega
      -- The list that is replaced is lost if it has no cells, and the rest goes on without it.
      have hset : (m.set c.side c.list).ledger.Balanced ((m.set c.side c.list).held ++
          (calls.flatMap (fun c => infosBlocks c.list) ++ (passedBy (m.slot c.side) ++ rest))) := by
        refine (set_balanced c.list hside).congr fun b => ?_
        rw [List.count_append, (m.set c.side c.list).count_held c.side, slot_set_self, slot_set_other]
        simp only [List.count_append]
        omega
      refine (ih hset).congr fun b => ?_
      simp only [lost, List.flatMap_cons]
      rw [List.count_append, List.count_append, count_slots passedBy m c.side, List.count_append,
        List.count_append, List.count_append, count_slots passedBy _ c.side, slot_set_self,
        slot_set_other, List.count_append]
      omega

theorem allocated_lifetime (calls : List SetCall) (m : ModelInfos.Model) :
    (calls.foldl (fun m c => ModelInfos.Model.set m c.side c.list) m).destroy.ledger.allocated =
      m.ledger.allocated := by
  induction calls generalizing m with
  | nil =>
      calc m.destroy.ledger.allocated
          _ = (m.set .input none).ledger.allocated := (m.set .input none).allocated_set .output none
          _ = m.ledger.allocated := m.allocated_set .input none
  | cons c calls ih => exact (ih _).trans (m.allocated_set c.side c.list)

end Lifetime

/-- Every list that was handed over is released once. -/
def ReleasedOnce (h : HandedOver) : Prop :=
  ∀ c ∈ h.calls, ∀ b ∈ infosBlocks c.list, (lifetime h.ledger h.calls).releases b = 1

theorem releasedOnce_iff (h : HandedOver) :
    ReleasedOnce h ↔ ∀ c ∈ h.calls, ∀ i, c.list = some i → i.cells ≠ [] := by
  have hstart : (⟨h.ledger, fun _ => none⟩ : ModelInfos.Model).ledger.Balanced
      (ModelInfos.Model.held ⟨h.ledger, fun _ => none⟩ ++
        (h.calls.flatMap (fun c => infosBlocks c.list) ++ h.held)) := h.balanced
  have hend := foldl_balanced h.calls hstart
  constructor
  · intro hreleased c hc i hi hcells
    -- The array of a list without cells is passed by.
    have hlost : i.array ∈ h.calls.flatMap fun c => passedBy c.list := by
      refine List.mem_flatMap.2 ⟨c, hc, ?_⟩
      simp [hi, passedBy, hcells, Infos.blocks]
    have hzero := (hend.live (List.mem_append_left _ (List.mem_append_right _ hlost))).2
    have hone := hreleased c hc i.array (by simp [hi, infosBlocks, Infos.blocks])
    exact absurd (hone.symm.trans hzero) Nat.one_ne_zero
  · intro hcells c hc b hb
    -- Otherwise nothing is lost, and none of the lists is held at the end.
    have hnone : lost ⟨h.ledger, fun _ => none⟩ h.calls = [] := by
      simp only [lost, passedBy, List.nil_append, List.flatMap_eq_nil_iff]
      intro c hc
      cases hlist : c.list with
      | none => rfl
      | some i => exact if_neg (hcells c hc i hlist)
    rw [hnone, List.nil_append] at hend
    have hmem : b ∈ h.calls.flatMap fun c => infosBlocks c.list := List.mem_flatMap.2 ⟨c, hc, hb⟩
    refine hend.released ?_ fun hheld => ?_
    · have hlive := (h.balanced.live (List.mem_append_left _ hmem)).1
      exact Nat.lt_of_lt_of_eq hlive (allocated_lifetime h.calls ⟨h.ledger, fun _ => none⟩).symm
    · exact (List.nodup_append.1 h.balanced.nodup).2.2 b hmem b hheld rfl

/-! ## All places together -/

theorem lists_released_iff (fails : Nat → Bool) (a : Ledger.Account) (out : Out)
    (src : List TensorInfo) (wire : List GrpcServer.WireTensorInfo) (debug : Bool) (h : HandedOver) :
    (BuildsOrReleases a out src (dupTensorInfo fails (.start a.ledger) out src) ↔
      Releasable fails src) ∧
    (BuildsOrReleases a out (wire.map GrpcServer.WireTensorInfo.info)
        (requestToInfo fails (.start a.ledger) out wire) ↔
      Releasable fails (wire.map GrpcServer.WireTensorInfo.info)) ∧
    (BuildsOrReleases a out (wire.map GrpcServer.WireTensorInfo.info)
        (getTensorInfoFromResponse debug fails (.start a.ledger) out wire) ↔
      ¬ (debug = true ∧ wire = []) ∧ Releasable fails (wire.map GrpcServer.WireTensorInfo.info)) ∧
    (ReleasedOnce h ↔ ∀ c ∈ h.calls, ∀ i, c.list = some i → i.cells ≠ []) := by
  refine ⟨handOut_iff fails a out src fun _ => rfl, handOut_iff fails a out _ fun _ => rfl, ?_,
    releasedOnce_iff h⟩
  unfold getTensorInfoFromResponse
  by_cases hassert : debug = true ∧ wire = []
  · rw [if_pos hassert]
    exact iff_of_false id fun h => h.1 hassert
  · rw [if_neg hassert]
    let set : TensorList → Out := fun list => ⟨some list, wire.length⟩
    have hset : ∀ list, (set list).info = some list := fun _ => rfl
    exact (handOut_iff fails a out _ hset).trans (and_iff_right hassert).symm

/-- One tensor; its dims cannot be allocated. -/
def oneTensor : List TensorInfo := [⟨0, 4, none, some [1]⟩]

theorem dupTensorInfo_loses_array :
    ¬ BuildsOrReleases .empty ⟨none, 0⟩ oneTensor
      (dupTensorInfo (fun n => n == 1) (.start Ledger.empty) ⟨none, 0⟩ oneTensor) := by
  rintro (⟨hret, -⟩ | ⟨-, -, hbalanced⟩)
  · exact absurd hret (by decide)
  · have hone := hbalanced.once 0 (by decide)
    exact absurd hone (by decide)

end TensorLists
end Peer
end Beyond
