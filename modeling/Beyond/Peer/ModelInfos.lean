import Beyond.Base.Ledger
import Beyond.Peer.Session

/-!
# The tensor infos of a model

`Peer::Model` owns one array of tensor infos for the input and one for the output, hands out pointers
into them and releases an array when another one is set.  Here an array is what it is for the
allocator: a block for the array itself, and a block for the name and for the dims of each tensor.
-/

namespace Beyond
namespace Peer

/-- The other array. -/
def Side.other : Side → Side
  | .input => .output
  | .output => .input

theorem Side.ne_other (side : Side) : side ≠ side.other := by
  cases side with
  | input => exact nofun
  | output => exact nofun

namespace ModelInfos

/-! ## Arrays -/

/-- The blocks of a `beyond_tensor_info`; a null name has none. -/
structure Cell where
  name : Option Nat
  dims : Nat
  deriving DecidableEq, Repr

/-- A `beyond_tensor_info` array.  The size that goes with the pointer is the number of cells. -/
structure Infos where
  array : Nat
  cells : List Cell
  deriving DecidableEq, Repr

def Cell.blocks (c : Cell) : List Nat := c.name.toList ++ [c.dims]

def Infos.blocks (i : Infos) : List Nat := i.cells.flatMap Cell.blocks ++ [i.array]

/-- `FreeTensorInfo`, which does nothing for an array without cells. -/
def freeTensorInfo (l : Ledger) (i : Infos) : Ledger :=
  if i.cells = [] then l else l.freeAll i.blocks

/-- What is read of a tensor info: its type, its type and dims, or everything. -/
inductive Reads
  | type
  | shape
  | all
  deriving DecidableEq, Repr

/-- The blocks that are accessed when cell `j` is read. -/
def Infos.touched (i : Infos) (j : Nat) : Reads → List Nat
  | .type => [i.array]
  | .shape => i.array :: ((i.cells[j]?).map Cell.dims).toList
  | .all => i.array :: ((i.cells[j]?).map Cell.blocks).getD []

/-- A read finds everything in place. -/
def Infos.readable (l : Ledger) (i : Infos) (j : Nat) (what : Reads) : Bool :=
  (i.touched j what).all fun b => l.releases b == 0

/-! ## Building an array -/

/-- What happens for one tensor: whether it has a name and `strdup` works, whether the dims are
allocated, and, in `ExtractTensorInfo`, whether they are parsed. -/
structure CellResults where
  name : Option Bool
  dims : Bool
  parsed : Bool
  deriving DecidableEq, Repr

def CellResults.ok (r : CellResults) : Bool := r.name != some false && r.dims && r.parsed

structure BuildResults where
  array : Bool
  cells : List CellResults
  deriving DecidableEq, Repr

/-- The name of a cell; `none` is a `strdup` that fails. -/
def buildName (l : Ledger) : Option Bool → Option (Ledger × Option Nat)
  | none => some (l, none)
  | some true => some (l.alloc, some l.allocated)
  | some false => none

/-- `free`, also of a null pointer. -/
def freeName (l : Ledger) : Option Nat → Ledger
  | none => l
  | some name => l.free name

/-- One cell behind those that are built. -/
def buildCell (l : Ledger) (i : Infos) (r : CellResults) : Ledger × Option Cell :=
  match buildName l r.name with
  | none => (freeTensorInfo l i, none)
  | some (l, name) =>
      if r.dims = false then (freeTensorInfo (freeName l name) i, none)
      else if r.parsed = false then
        (freeTensorInfo (freeName (l.alloc.free l.allocated) name) i, none)
      else (l.alloc, some ⟨name, l.allocated⟩)

def buildCells (l : Ledger) (i : Infos) : List CellResults → Ledger × Option Infos
  | [] => (l, some i)
  | r :: rs =>
      match buildCell l i r with
      | (l, none) => (l, none)
      | (l, some c) => buildCells l { i with cells := i.cells ++ [c] } rs

/-- `DupTensorInfo`, `RequestToInfo`, `GetTensorInfoFromResponse` and `ExtractTensorInfo`: an array
for all tensors, then a name and dims for each. -/
def build (l : Ledger) (r : BuildResults) : Ledger × Option Infos :=
  if r.array = false then (l, none) else buildCells l.alloc ⟨l.allocated, []⟩ r.cells

/-! ## The model -/

structure Model where
  ledger : Ledger
  slot : Side → Option Infos

def Model.new : Model := ⟨.empty, fun _ => none⟩

/-- `GetInputTensorInfo` and `GetOutputTensorInfo`, where the caller takes only an array that has
cells. -/
def Model.get (m : Model) (side : Side) : Option Infos :=
  (m.slot side).filter fun i => i.cells ≠ []

/-- `SetInputTensorInfo` and `SetOutputTensorInfo`. -/
def Model.set (m : Model) (side : Side) (new : Option Infos) : Model where
  ledger := match m.slot side with
    | none => m.ledger
    | some old => freeTensorInfo m.ledger old
  slot := Function.update m.slot side new

/-- An array is built and, if this works, set. -/
def Model.buildAndSet (m : Model) (side : Side) (r : BuildResults) : Model × Option Infos :=
  let built := build m.ledger r
  match built.2 with
  | none => ({ m with ledger := built.1 }, none)
  | some i => ({ m with ledger := built.1 }.set side (some i), some i)

/-- `~Model`. -/
def Model.destroy (m : Model) : Model := (m.set .input none).set .output none

/-! ## What a build allocates -/

/-- Nothing fails for the first tensor, and there is one. -/
def BuildResults.Clean (r : BuildResults) : Prop :=
  r.array = true → ∃ c ∈ r.cells.head?, c.ok = true

instance BuildResults.Clean.decidable (r : BuildResults) : Decidable r.Clean :=
  inferInstanceAs (Decidable (r.array = true → ∃ c ∈ r.cells.head?, c.ok = true))

/-- A build gets to its end. -/
def BuildResults.built (r : BuildResults) : Bool := r.array && r.cells.all CellResults.ok

def infosBlocks (i : Option Infos) : List Nat := (i.map Infos.blocks).getD []

section Building

variable {l : Ledger} {held : List Nat} {i : Infos}

theorem freeTensorInfo_balanced (h : l.Balanced (i.blocks ++ held)) (hcells : i.cells ≠ []) :
    (freeTensorInfo l i).Balanced held := by
  rw [freeTensorInfo, if_neg hcells]
  exact h.freeAll

theorem freeName_balanced {name : Option Nat} (h : l.Balanced (name.toList ++ held)) :
    (freeName l name).Balanced held := by
  cases name with
  | none => exact h
  | some name => exact h.free

theorem buildName_balanced (h : l.Balanced held) {r : Option Bool} {name : Option Nat}
    {l' : Ledger} (hname : buildName l r = some (l', name)) :
    l'.Balanced (name.toList ++ held) := by
  cases r with
  | none =>
      cases hname
      exact h
  | some ok =>
      cases ok with
      | false => cases hname
      | true =>
          cases hname
          exact h.alloc

theorem ok_eq_false_of_name {r : CellResults} (hname : buildName l r.name = none) :
    r.ok = false := by
  unfold buildName at hname
  split at hname
  · cases hname
  · cases hname
  · rename_i hr
    simp [CellResults.ok, hr]

/-- With cells to release, a failure leaves nothing behind. -/
theorem buildCell_balanced (h : l.Balanced (i.blocks ++ held)) (r : CellResults)
    (hcells : i.cells ≠ [] ∨ r.ok = true) :
    match buildCell l i r with
    | (l', none) => l'.Balanced held
    | (l', some c) => l'.Balanced (Infos.blocks { i with cells := i.cells ++ [c] } ++ held) := by
  unfold buildCell
  cases hname : buildName l r.name with
  | none =>
      exact freeTensorInfo_balanced h (hcells.resolve_right (by simp [ok_eq_false_of_name hname]))
  | some built =>
      rcases built with ⟨l', name⟩
      have hbuilt := buildName_balanced h hname
      by_cases hdims : r.dims = false
      · simp only [if_pos hdims]
        have hr : r.ok = false := by simp [CellResults.ok, hdims]
        exact freeTensorInfo_balanced (freeName_balanced hbuilt)
          (hcells.resolve_right (by simp [hr]))
      · simp only [if_neg hdims]
        by_cases hparsed : r.parsed = false
        · simp only [if_pos hparsed]
          have hr : r.ok = false := by simp [CellResults.ok, hparsed]
          exact freeTensorInfo_balanced (freeName_balanced hbuilt.alloc.free)
            (hcells.resolve_right (by simp [hr]))
        · simp only [if_neg hparsed]
          refine hbuilt.alloc.congr fun a => ?_
          simp only [Infos.blocks, Cell.blocks, List.flatMap_append, List.flatMap_singleton,
            List.count_append, List.count_cons, List.count_nil]
          omega

theorem buildCells_balanced (rs : List CellResults) (h : l.Balanced (i.blocks ++ held))
    (hcells : i.cells ≠ [] ∨ ∃ c ∈ rs.head?, c.ok = true) :
    match buildCells l i rs with
    | (l', none) => l'.Balanced held
    | (l', some i') => l'.Balanced (i'.blocks ++ held) ∧ i'.cells ≠ [] := by
  induction rs generalizing l i with
  | nil => exact ⟨h, hcells.resolve_right (by simp)⟩
  | cons r rs ih =>
      have hcell := buildCell_balanced h r (hcells.imp_right (by simp))
      unfold buildCells
      cases hbuilt : buildCell l i r with
      | mk l' c =>
          rw [hbuilt] at hcell
          cases c with
          | none => exact hcell
          | some c => exact ih hcell (.inl (by simp))

theorem build_balanced (h : l.Balanced held) {r : BuildResults} (hr : r.Clean) :
    match build l r with
    | (l', none) => l'.Balanced held
    | (l', some i) => l'.Balanced (i.blocks ++ held) ∧ i.cells ≠ [] := by
  unfold build
  by_cases harray : r.array = false
  · rw [if_pos harray]
    exact h
  · rw [if_neg harray]
    exact buildCells_balanced r.cells h.alloc (.inr (hr (by simpa using harray)))

theorem buildCell_isSome (r : CellResults) : (buildCell l i r).2.isSome = r.ok := by
  rcases r with ⟨name, dims, parsed⟩
  cases name with
  | none => cases dims <;> cases parsed <;> rfl
  | some ok => cases ok <;> cases dims <;> cases parsed <;> rfl

theorem buildCells_isSome (rs : List CellResults) :
    (buildCells l i rs).2.isSome = rs.all CellResults.ok := by
  induction rs generalizing l i with
  | nil => rfl
  | cons r rs ih =>
      have hcell := buildCell_isSome (l := l) (i := i) r
      unfold buildCells
      rw [List.all_cons, ← hcell]
      cases hbuilt : buildCell l i r with
      | mk l' c =>
          cases c with
          | none => rfl
          | some c => exact ih

theorem build_isSome (r : BuildResults) : (build l r).2.isSome = r.built := by
  unfold build BuildResults.built
  cases harray : r.array with
  | false => rfl
  | true => exact buildCells_isSome r.cells

end Building

/-! ## What a model owns -/

def Model.held (m : Model) : List Nat := infosBlocks (m.slot .input) ++ infosBlocks (m.slot .output)

structure Model.Owned (m : Model) : Prop where
  balanced : m.ledger.Balanced m.held
  cells : ∀ side i, m.slot side = some i → i.cells ≠ []

section Owning

variable {m : Model} {side : Side} {i : Infos}

theorem Model.owned_new : Model.new.Owned := ⟨.empty, nofun⟩

theorem Model.count_held (m : Model) (side : Side) (a : Nat) :
    m.held.count a =
      (infosBlocks (m.slot side)).count a + (infosBlocks (m.slot side.other)).count a := by
  rw [held, List.count_append]
  cases side with
  | input => rfl
  | output => exact Nat.add_comm _ _

theorem Model.allocated_set (m : Model) (side : Side) (new : Option Infos) :
    (m.set side new).ledger.allocated = m.ledger.allocated := by
  unfold Model.set
  cases m.slot side with
  | none => rfl
  | some old =>
      simp only [freeTensorInfo]
      split
      · rfl
      · exact Ledger.allocated_freeAll ..

theorem Model.get_eq_some (h : m.get side = some i) : m.slot side = some i :=
  (Option.filter_eq_some_iff.1 h).1

/-- Setting an array releases the one that it replaces. -/
theorem Model.Owned.set_balanced (h : m.Owned) {new : Option Infos} {l : Ledger} (side : Side)
    (hl : l.Balanced (infosBlocks new ++ m.held)) :
    (Model.set { m with ledger := l } side new).ledger.Balanced
      (infosBlocks new ++ infosBlocks (m.slot side.other)) := by
  have hold : l.Balanced (infosBlocks (m.slot side) ++
      (infosBlocks new ++ infosBlocks (m.slot side.other))) := by
    refine hl.congr fun a => ?_
    simp only [List.count_append, m.count_held side]
    omega
  unfold Model.set
  cases hcase : m.slot side with
  | none => simpa [hcase, infosBlocks] using hold
  | some old =>
      rw [hcase] at hold
      exact freeTensorInfo_balanced hold (h.cells side old hcase)

theorem Model.Owned.set (h : m.Owned) {new : Option Infos} {l : Ledger}
    (hl : l.Balanced (infosBlocks new ++ m.held)) (hnew : ∀ i ∈ new, i.cells ≠ []) :
    (Model.set { m with ledger := l } side new).Owned := by
  refine ⟨(h.set_balanced side hl).congr fun a => ?_, fun s i hs => ?_⟩
  · rw [Model.count_held _ side, List.count_append]
    simp [Model.set, Function.update_of_ne side.ne_other.symm]
  · have hs' : (if s = side then new else m.slot s) = some i :=
      (Function.update_apply m.slot side new s).symm.trans hs
    split at hs'
    · exact hnew i hs'
    · exact h.cells s i hs'

theorem Model.Owned.set_none (h : m.Owned) : (m.set side none).Owned :=
  h.set (l := m.ledger) h.balanced (by simp)

theorem Model.Owned.buildAndSet (h : m.Owned) (side : Side) {r : BuildResults} (hr : r.Clean) :
    (m.buildAndSet side r).1.Owned := by
  have hbuilt := build_balanced h.balanced hr
  unfold Model.buildAndSet
  cases hbuild : build m.ledger r with
  | mk l i =>
      rw [hbuild] at hbuilt
      cases i with
      | none => exact ⟨hbuilt, h.cells⟩
      | some i =>
          refine h.set hbuilt.1 fun j hj => ?_
          cases Option.mem_some_iff.1 hj
          exact hbuilt.2

theorem Infos.touched_subset (i : Infos) (j : Nat) (what : Reads) : i.touched j what ⊆ i.blocks := by
  have hcell : ∀ c ∈ i.cells[j]?, c.blocks ⊆ i.blocks := by
    intro c hc b hb
    exact List.mem_append_left _ (List.mem_flatMap.2 ⟨c, List.mem_of_getElem? hc, hb⟩)
  have harray : i.array ∈ i.blocks := by simp [Infos.blocks]
  cases what with
  | type => simpa [touched] using harray
  | shape =>
      cases hc : i.cells[j]? with
      | none => simpa [touched, hc] using harray
      | some c =>
          have hdims : c.dims ∈ i.blocks := hcell c hc (by simp [Cell.blocks])
          simpa [touched, hc] using ⟨harray, hdims⟩
  | all =>
      cases hc : i.cells[j]? with
      | none => simpa [touched, hc] using harray
      | some c => simpa [touched, hc] using ⟨harray, hcell c hc⟩

/-- What the model has can be read. -/
theorem Model.Owned.readable (h : m.Owned) (hi : m.slot side = some i) (j : Nat) (what : Reads) :
    i.readable m.ledger j what = true := by
  rw [Infos.readable, List.all_eq_true]
  intro b hb
  rw [beq_iff_eq]
  have hheld : b ∈ m.held := by
    rw [← List.count_pos_iff, m.count_held side, hi]
    exact Nat.add_pos_left (List.count_pos_iff.2 (i.touched_subset j what hb)) _
  exact (h.balanced.live hheld).2

/-- Once another array is set, the old one cannot be read. -/
theorem Model.Owned.not_readable_of_set (h : m.Owned) (hi : m.slot side = some i) {l : Ledger}
    (new : Option Infos) (hl : l.Balanced (infosBlocks new ++ m.held)) (j : Nat) (what : Reads) :
    i.readable (Model.set { m with ledger := l } side new).ledger j what = false := by
  have hbefore : l.Balanced (i.array :: (infosBlocks new ++ (i.cells.flatMap Cell.blocks ++
      infosBlocks (m.slot side.other)))) := by
    refine hl.congr fun a => ?_
    rw [List.count_append, m.count_held side, hi]
    simp only [infosBlocks, Option.map_some, Option.getD_some, Infos.blocks, List.count_append,
      List.count_cons, List.count_nil]
    omega
  have hgone := List.nodup_cons.1 hbefore.nodup
  have hafter := h.set_balanced side hl
  have hone : (Model.set { m with ledger := l } side new).ledger.releases i.array = 1 := by
    refine hafter.released ?_ fun hmem => hgone.1 ?_
    · rw [Model.allocated_set]
      exact (hbefore.live List.mem_cons_self).1
    · rw [List.mem_append] at hmem ⊢
      exact hmem.imp_right (List.mem_append_right _)
  cases what with
  | type => simp [Infos.readable, Infos.touched, hone]
  | shape => simp [Infos.readable, Infos.touched, hone]
  | all => simp [Infos.readable, Infos.touched, hone]

theorem Model.Owned.not_readable_of_buildAndSet (h : m.Owned) (hi : m.slot side = some i)
    {b : BuildResults} (hb : b.Clean) (hbuilt : b.built = true) (j : Nat) (what : Reads) :
    i.readable (m.buildAndSet side b).1.ledger j what = false := by
  have hbalanced := build_balanced h.balanced hb
  have hsome := build_isSome (l := m.ledger) b
  unfold Model.buildAndSet
  cases hbuild : build m.ledger b with
  | mk l new =>
      rw [hbuild] at hbalanced hsome
      cases new with
      | none => exact absurd (hsome.trans hbuilt) (by simp)
      | some new => exact h.not_readable_of_set hi (some new) hbalanced.1 j what

theorem Model.Owned.destroy (h : m.Owned) : m.destroy.Owned := h.set_none.set_none

theorem held_destroy (m : Model) : m.destroy.held = [] := by
  simp [Model.destroy, Model.held, Model.set, infosBlocks]

/-! ## Readers -/

/-- A thread reads the infos of one side cell by cell, and is at cell `next`. -/
structure Reading where
  side : Side
  infos : Infos
  next : Nat
  deriving DecidableEq, Repr

def Reading.pending (r : Reading) : Bool := decide (r.next < r.infos.cells.length)

def Reading.advance (r : Reading) : Reading := { r with next := r.next + 1 }

/-- As long as there is something to read, the infos are those of the model. -/
def Reading.Current (m : Model) (r : Reading) : Prop :=
  r.pending = true → m.slot r.side = some r.infos

theorem Reading.current_of_get {n : Nat} (h : m.get side = some i) :
    Reading.Current m ⟨side, i, n⟩ := fun _ => Model.get_eq_some h

theorem Reading.Current.advance {r : Reading} (h : r.Current m) : r.advance.Current m := by
  intro hpending
  have hlt : r.next + 1 < r.infos.cells.length := of_decide_eq_true hpending
  exact h (decide_eq_true (Nat.lt_of_succ_lt hlt))

/-- A reader of the other side does not notice that an array is set. -/
theorem Reading.Current.set {r : Reading} (h : r.Current m) {new : Option Infos} {l : Ledger}
    (hside : r.pending = true → r.side ≠ side) :
    r.Current (Model.set { m with ledger := l } side new) := by
  intro hpending
  have hne := hside hpending
  simpa [Model.set, Function.update_of_ne hne] using h hpending

theorem Reading.Current.buildAndSet {r : Reading} (h : r.Current m) {b : BuildResults}
    (hside : b.built = true → r.pending = true → r.side ≠ side) :
    r.Current (m.buildAndSet side b).1 := by
  have hbuilt := build_isSome (l := m.ledger) b
  unfold Model.buildAndSet
  cases hbuild : build m.ledger b with
  | mk l i =>
      rw [hbuild] at hbuilt
      cases i with
      | none => exact h
      | some i => exact h.set (hside hbuilt.symm)

theorem Reading.current_of_buildAndSet {b : BuildResults} {n : Nat}
    (h : (m.buildAndSet side b).2 = some i) :
    Reading.Current (m.buildAndSet side b).1 ⟨side, i, n⟩ := by
  unfold Model.buildAndSet at h ⊢
  cases hbuild : build m.ledger b with
  | mk l i' =>
      rw [hbuild] at h
      cases i' with
      | none => cases h
      | some i' =>
          cases Option.some.inj h
          exact fun _ => Function.update_self ..

theorem Reading.Current.readable {r : Reading} (hr : r.Current m) (h : m.Owned)
    (hpending : r.pending = true) (what : Reads) :
    r.infos.readable m.ledger r.next what = true := h.readable (hr hpending) r.next what

end Owning

end ModelInfos
end Peer
end Beyond
