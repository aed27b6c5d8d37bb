import Mathlib.Algebra.BigOperators.Group.List.Lemmas
import Mathlib.Algebra.Order.BigOperators.GroupWithZero.List
import Mathlib.Algebra.Order.Ring.Int
import Mathlib.Data.List.DropRight
import Beyond.Peer.ExtractSafety

/-!
# Tensor infos to the filter and back

The properties that `TensorInfoToProperties` writes are reported back by the filter, together with the
rank that it finds in the dims of each tensor.  This module says for which tensor infos
`ExtractTensorInfo` returns the same types, sizes and dims.
-/

namespace Beyond
namespace Peer
namespace InfoRoundTrip

open Bytes Inference ExtractInfo TensorText

/-! ## The property -/

/-- A tensor info of a supported type with one to four positive dims and the size that they give. -/
structure WellFormed (i : TensorInfo) : Prop where
  type : ∃ type : TensorType, i.type = type.code
  dims : ∃ dims, i.dims = some dims ∧ 1 ≤ dims.length ∧ dims.length ≤ 4 ∧ (∀ d ∈ dims, 0 < d) ∧
    i.size = tensorTypeToSize i.type * dims.prod
  size : i.size ≤ INT_MAX

/-- The position of the last entry other than one, and at least one. -/
def filterRank (dims : Bytes) : Nat :=
  max 1 ((dims.splitOn colon).reverse.dropWhile (· = ascii "1")).length

/-- What the filter reports of the properties. -/
def reportBack (side : Side) (props : Bytes) : Reply :=
  let dims := lookupKey (sideText side) (propertyFields props)
  { ranks := dims.map fun dims => sepBy comma ((fields dims).map fun t => decimal (filterRank t))
    types := lookupKey (sideText side ++ ascii "type") (propertyFields props)
    dims := dims }

/-- The entry has the type, the size and the dims of the info, up to leading ones. -/
structure SameInfo (i : TensorInfo) (e : Entry) : Prop where
  type : e.type = i.type
  size : e.size = i.size
  dims : ∃ dims values, i.dims = some dims ∧ readArray id e.dims.size e.dims.data = some values ∧
    values.dropWhile (· = 1) = dims.dropWhile (· = 1)

/-- The call succeeds with the same infos. -/
def SameInfos (infos : List TensorInfo) (result : Except ExtractInfo.Fault Outcome) : Prop :=
  ∃ out array, result = .ok out ∧ out.ret = 0 ∧ out.info = some array ∧
    out.size = infos.length ∧ List.Forall₂ SameInfo infos array.entries

/-! ## Dims in reverse -/

/-- The dims without leading ones. -/
def core (dims : List Int) : List Int := dims.dropWhile (· = 1)

/-- The numbers that the parser for the reported rank reads. -/
def numbersOf (dims : List Int) : List Int := if core dims = [] then [1] else (core dims).reverse

section Dims

variable {dims : List Int}

/-- Leading ones stand at the end in reverse, where the text is filled up with ones. -/
theorem reverse_eq (hpos : 1 ≤ dims.length) (hmax : dims.length ≤ 4) :
    dims.reverse ++ List.replicate (4 - dims.length) 1 =
      numbersOf dims ++ List.replicate (4 - (numbersOf dims).length) 1 := by
  have hones : dims.takeWhile (· = 1) = List.replicate (dims.takeWhile (· = 1)).length 1 := by
    rw [List.eq_replicate_iff]
    exact ⟨rfl, fun d hd => by simpa using List.mem_takeWhile_imp hd⟩
  have hsplit : List.replicate (dims.takeWhile (· = 1)).length 1 ++ core dims = dims := by
    rw [← hones]
    exact List.takeWhile_append_dropWhile ..
  generalize (dims.takeWhile (· = 1)).length = k at hsplit
  have hlength : k + (core dims).length = dims.length := by
    have := congrArg List.length hsplit
    simpa using this
  have hreverse : dims.reverse = (core dims).reverse ++ List.replicate k 1 := by
    conv_lhs => rw [← hsplit]
    rw [List.reverse_append, List.reverse_replicate]
  rw [hreverse, List.append_assoc, List.replicate_append_replicate]
  unfold numbersOf
  split
  · rename_i hcore
    rw [hcore, List.length_nil, Nat.add_zero] at hlength
    have hfour : k + (4 - dims.length) = 4 := by omega
    rw [hcore, hfour]
    rfl
  · have hrest : k + (4 - dims.length) = 4 - (core dims).reverse.length := by
      rw [List.length_reverse]
      omega
    rw [hrest]

theorem tuple_eq (hpos : 1 ≤ dims.length) (hmax : dims.length ≤ 4) :
    tuple dims = (numbersOf dims ++ List.replicate (4 - (numbersOf dims).length) 1).map integer := by
  rw [← reverse_eq hpos hmax, tuple, List.map_append, List.map_replicate]
  rfl

theorem length_numbersOf (dims : List Int) :
    (numbersOf dims).length = max 1 (core dims).length := by
  unfold numbersOf
  split
  · rename_i h
    rw [h]
    rfl
  · rename_i h
    rw [List.length_reverse]
    have hlen := List.length_pos_of_ne_nil h
    omega

theorem integer_eq_one_iff (n : Int) : integer n = ascii "1" ↔ n = 1 := by
  constructor
  · intro h
    unfold integer at h
    split at h
    · exact absurd (List.cons.inj h).1 (by decide)
    · have hone : decimal n.natAbs = decimal 1 := h
      have habs := decimal_injective hone
      omega
  · rintro rfl
    rfl

theorem filterRank_eq {i : TensorInfo} (h : HasDims i) :
    filterRank (tupleText i) = (numbersOf (i.dims.getD [])).length := by
  have hlist : (numbersOf (i.dims.getD [])).reverse.dropWhile (· = 1) = core (i.dims.getD []) := by
    have hcore : (core (i.dims.getD [])).dropWhile (· = 1) = core (i.dims.getD []) :=
      List.dropWhile_idempotent ..
    unfold numbersOf
    split
    · rename_i hnil
      rw [hnil]
      rfl
    · rw [List.reverse_reverse, hcore]
  have hmap : (fun t : Bytes => decide (t = ascii "1")) ∘ integer = fun n => decide (n = 1) := by
    funext n
    simp only [Function.comp, integer_eq_one_iff]
  have hsplit := splitOn_tupleText h
  rcases h with ⟨dims, hdims, hpos, hmax⟩
  rw [hdims] at hsplit hlist ⊢
  rw [Option.getD_some] at hsplit hlist ⊢
  unfold filterRank
  rw [hsplit, tuple_eq hpos hmax, ← List.map_reverse, List.dropWhile_map, hmap, List.length_map,
    List.reverse_append, List.reverse_replicate, List.dropWhile_append_of_pos, hlist,
    length_numbersOf]
  intro n hn
  rw [decide_eq_true_eq]
  exact List.eq_of_mem_replicate hn

end Dims

/-! ## Reading the dims back -/

/-- The numbers at the front of the text are read. -/
theorem scanDims_tuple {numbers : List Int} (hne : numbers ≠ []) (hfits : ∀ n ∈ numbers, Fits n)
    (rest : List Int) :
    scanDims numbers.length (sepBy colon ((numbers ++ rest).map integer)) = .ok numbers := by
  induction numbers with
  | nil => exact absurd rfl hne
  | cons n numbers ih =>
      have hn := toInt_ok (hfits n List.mem_cons_self)
      rw [List.length_cons, List.cons_append, List.map_cons]
      cases numbers with
      | nil =>
          rw [List.nil_append]
          unfold scanDims
          cases rest with
          | nil =>
              have hscan := scanInt_integer n [] (fun _ h => absurd h (by simp))
              rw [List.append_nil] at hscan
              simp only [List.map_nil, sepBy_singleton, hscan, hn]
          | cons k rest =>
              have hscan := scanInt_integer n
                (colon :: sepBy colon (integer k :: rest.map integer))
                (by intro b hb; cases hb; rfl)
              simp only [List.map_cons, sepBy_cons_cons, hscan, hn]
              rfl
      | cons k numbers =>
          have hscan := scanInt_integer n
            (colon :: sepBy colon (((k :: numbers) ++ rest).map integer))
            (by intro b hb; cases hb; rfl)
          have hnext := ih (List.cons_ne_nil k numbers) fun v hv =>
            hfits v (List.mem_cons_of_mem n hv)
          unfold scanDims
          rw [List.cons_append, List.map_cons, sepBy_cons_cons]
          rw [List.cons_append, List.map_cons] at hscan hnext
          rw [List.length_cons] at hnext ⊢
          simp only [hscan, hn, hnext]
          exact if_pos ⟨Nat.succ_ne_zero _, trivial⟩

/-- A product of positive numbers that fits is reached without an overflow. -/
theorem mulAll_ok {p : Int} {vs : List Int} (hp : 0 < p) (hpos : ∀ v ∈ vs, 0 < v)
    (hfits : p * vs.prod ≤ INT_MAX) : mulAll p vs = .ok (p * vs.prod) := by
  induction vs generalizing p with
  | nil => simp [mulAll]
  | cons v vs ih =>
      have hv := hpos v List.mem_cons_self
      have hrest : ∀ u ∈ vs, 0 < u := fun u hu => hpos u (List.mem_cons_of_mem v hu)
      have hprod : 0 < vs.prod := List.prod_pos hrest
      rw [List.prod_cons, ← mul_assoc] at hfits ⊢
      have hpv : 0 < p * v := Int.mul_pos hp hv
      have hle : p * v ≤ p * v * vs.prod := le_mul_of_one_le_right hpv.le hprod
      have hfit : Fits (p * v) := ⟨by omega, by omega⟩
      unfold mulAll
      rw [toInt_ok hfit]
      exact ih hpv hrest hfits

theorem product_ok {vs : List Int} (hpos : ∀ v ∈ vs, 0 < v) (hfits : vs.prod ≤ INT_MAX) :
    product vs = .ok vs.prod := by
  cases vs with
  | nil => rfl
  | cons v vs =>
      rw [List.prod_cons] at hfits ⊢
      exact mulAll_ok (hpos v List.mem_cons_self)
        (fun u hu => hpos u (List.mem_cons_of_mem v hu)) hfits

/-! ## One tensor -/

section Numbers

variable {dims : List Int}

theorem mem_numbersOf {n : Int} (h : n ∈ numbersOf dims) : n = 1 ∨ n ∈ dims := by
  unfold numbersOf at h
  split at h
  · exact Or.inl (List.mem_singleton.1 h)
  · exact Or.inr ((List.dropWhile_sublist _).subset (List.mem_reverse.1 h))

theorem prod_core (dims : List Int) : (core dims).prod = dims.prod := by
  induction dims with
  | nil => rfl
  | cons d dims ih =>
      by_cases hd : d = 1
      · rw [core, List.dropWhile_cons_of_pos (by simpa using hd), List.prod_cons, hd, one_mul]
        exact ih
      · rw [core, List.dropWhile_cons_of_neg (by simpa using hd)]

theorem prod_numbersOf (dims : List Int) : (numbersOf dims).reverse.prod = dims.prod := by
  have hprod := prod_core dims
  unfold numbersOf
  split
  · rename_i h
    rw [h] at hprod
    exact hprod
  · rw [List.reverse_reverse]
    exact hprod

theorem core_core (dims : List Int) : core (core dims) = core dims := List.dropWhile_idempotent ..

/-- What the parser stores are the dims up to leading ones. -/
theorem core_cells (dims : List Int) : core (1 :: (numbersOf dims).reverse) = core dims := by
  have hone : ∀ ds, core (1 :: ds) = core ds := fun ds => List.dropWhile_cons_of_pos (by simp)
  rw [hone]
  unfold numbersOf
  split
  · rename_i h
    rw [h]
    rfl
  · rw [List.reverse_reverse, core_core]

theorem length_core_le (dims : List Int) : (core dims).length ≤ dims.length :=
  (List.dropWhile_sublist _).length_le

theorem numbersOf_ne_nil (dims : List Int) : numbersOf dims ≠ [] := by
  rw [← List.length_pos_iff_ne_nil, length_numbersOf]
  omega

/-- The parser for four numbers is used for four dims that do not start with a one. -/
theorem length_numbersOf_eq_four_iff (hmax : dims.length ≤ 4) :
    (numbersOf dims).length = 4 ↔ dims.length = 4 ∧ dims.head? ≠ some 1 := by
  have hle := length_core_le dims
  rw [length_numbersOf]
  constructor
  · intro hfour
    have hlength : dims.length ≤ (core dims).length := by omega
    have hcore : core dims = dims := (List.dropWhile_sublist _).eq_of_length_le hlength
    refine ⟨by omega, ?_⟩
    cases dims with
    | nil => simp
    | cons d dims =>
        intro hd
        cases hd
        have hlength := congrArg List.length hcore
        rw [core, List.dropWhile_cons_of_pos (by simp)] at hlength
        have hle := length_core_le dims
        rw [List.length_cons] at hlength
        unfold core at hle
        omega
  · rintro ⟨hfour, hhead⟩
    cases dims with
    | nil => cases hfour
    | cons d dims =>
        have hd : ¬ d = 1 := fun hd => hhead (by rw [hd]; rfl)
        rw [core, List.dropWhile_cons_of_neg (by simpa using hd)]
        omega

end Numbers

/-- The type is read back, and the dims are not read by the parser for four. -/
def Kept (i : TensorInfo) : Prop :=
  i.type ≠ TensorType.uint64.code ∧ ∀ dims ∈ i.dims, dims.length = 4 → dims.head? = some 1

section Entry

variable {i : TensorInfo} {ranks dims : List Bytes} {j : Nat} {m : Memory} {e : Entry}

theorem WellFormed.hasDims (h : WellFormed i) : HasDims i := by
  rcases h.dims with ⟨dims, hdims, hpos, hmax, -⟩
  exact ⟨dims, hdims, hpos, hmax⟩

theorem one_le_tensorTypeToSize (type : TensorType) : 1 ≤ tensorTypeToSize type.code := by
  cases type <;> decide

/-- The size that is computed from the type that is read back. -/
theorem tensorTypeToSize_readBack_le (type : TensorType) :
    tensorTypeToSize (tensorTypeStringToType (tensorTypeToString type.code)) ≤
      tensorTypeToSize type.code := by
  cases type <;> decide

/-- What the loop finds for a tensor. -/
theorem WellFormed.parsed (h : WellFormed i)
    (hrank : usedRank ranks j = some (filterRank (tupleText i) : Int))
    (hdims : dims[j]? = some (tupleText i)) :
    Parsed ranks dims j (numbersOf (i.dims.getD [])).length (numbersOf (i.dims.getD []))
        (i.dims.getD []).prod ∧
      0 < (i.dims.getD []).prod ∧
      Fits (tensorTypeToSize (tensorTypeStringToType (typeText i)) * (i.dims.getD []).prod) := by
  have hfilter := filterRank_eq h.hasDims
  rcases h.type with ⟨type, htype⟩
  rcases h.dims with ⟨ds, hds, hpos, hmax, hpositive, hsize⟩
  have hbound := h.size
  have htuple : tupleText i = sepBy colon ((numbersOf ds ++
      List.replicate (4 - (numbersOf ds).length) 1).map integer) := by
    rw [tupleText, hds, Option.getD_some, tuple_eq hpos hmax]
  rw [hds, Option.getD_some] at hfilter ⊢
  have hprod : 0 < ds.prod := List.prod_pos hpositive
  have hone := one_le_tensorTypeToSize type
  have hle : ds.prod ≤ INT_MAX := by
    rw [hsize, htype] at hbound
    exact le_trans (le_mul_of_one_le_left hprod.le hone) hbound
  have hnumbers : ∀ n ∈ numbersOf ds, 0 < n ∧ Fits n := by
    intro n hn
    rcases mem_numbersOf hn with rfl | hn
    · exact ⟨by decide, by decide⟩
    · have hn' := hpositive n hn
      have hle' := Int.le_of_dvd hprod (List.dvd_prod hn)
      exact ⟨hn', by omega, by omega⟩
  have hlength := length_numbersOf ds
  have hcore := length_core_le ds
  refine ⟨⟨?_, ?_, ?_, ⟨tupleText i, hdims, ?_⟩, rfl, ?_⟩, hprod, ?_⟩
  · rw [hrank, hfilter]
  · omega
  · omega
  · rw [htuple]
    exact scanDims_tuple (numbersOf_ne_nil ds) (fun n hn => (hnumbers n hn).2) _
  · rw [← prod_numbersOf ds] at hle ⊢
    exact product_ok (fun n hn => (hnumbers n (List.mem_reverse.1 hn)).1) hle
  · have hread := tensorTypeToSize_readBack_le type
    have hnonneg := tensorTypeToSize_nonneg (tensorTypeStringToType (typeText i))
    have hmul : tensorTypeToSize (tensorTypeStringToType (typeText i)) * ds.prod ≤ i.size := by
      rw [hsize, typeText, htype]
      exact Int.mul_le_mul_of_nonneg_right hread hprod.le
    have hpositive' := Int.mul_nonneg hnonneg hprod.le
    exact ⟨by omega, by omega⟩

theorem WellFormed.passes (h : WellFormed i)
    (hrank : usedRank ranks j = some (filterRank (tupleText i) : Int))
    (hdims : dims[j]? = some (tupleText i)) (hm : m.dims j = true) :
    Passes m ranks dims j (tensorTypeStringToType (typeText i)) := by
  rcases h.parsed hrank hdims with ⟨hparsed, hpos, hfits⟩
  exact ⟨hm, _, _, _, hparsed, hpos.le, hfits⟩

/-- The entry that is filled for a tensor is the same unless its type or its first dim is lost. -/
theorem WellFormed.sameInfo_iff (h : WellFormed i)
    (hrank : usedRank ranks j = some (filterRank (tupleText i) : Int))
    (hdims : dims[j]? = some (tupleText i))
    (he : Filled ranks dims j (tensorTypeStringToType (typeText i)) e) :
    SameInfo i e ↔ Kept i := by
  rcases h.parsed hrank hdims with ⟨hparsed, -, -⟩
  rcases he with ⟨rank, numbers, p, hparsed', hetype, hedims, hesize⟩
  rcases h.type with ⟨type, htype⟩
  rcases h.dims with ⟨ds, hds, hpos, hmax, -, hsize⟩
  rw [hds, Option.getD_some] at hparsed
  rcases hparsed.unique hparsed' with ⟨rfl, rfl, rfl⟩
  rw [typeText, htype] at hetype hesize
  have hread := tensorTypeStringToType_eq_code_iff type
  have hcode : i.type ≠ TensorType.uint64.code ↔ type ≠ .uint64 := by
    rw [htype, ne_eq, ne_eq, not_iff_not]
    exact ⟨fun h => Option.some.inj (by rw [← TensorType.ofCode_code, h, TensorType.ofCode_code]),
      congrArg _⟩
  have hfour := length_numbersOf_eq_four_iff hmax
  constructor
  · intro hinfo
    refine ⟨hcode.2 (hread.1 ?_), ?_⟩
    · rw [← hetype, hinfo.type, htype]
    · intro dims' hdims' hlength
      rw [hds, Option.mem_some_iff] at hdims'
      subst hdims'
      rcases hinfo.dims with ⟨-, values, -, hvalues, -⟩
      by_contra hhead
      rw [hedims, readArray_cells_four (hfour.2 ⟨hlength, hhead⟩)] at hvalues
      cases hvalues
  · rintro ⟨hne, hhead⟩
    have htypes := hread.2 (hcode.1 hne)
    have hnot : (numbersOf ds).length ≠ 4 := fun h =>
      (hfour.1 h).2 (hhead ds hds (hfour.1 h).1)
    refine ⟨?_, ?_, ds, _, hds, ?_, core_cells ds⟩
    · rw [hetype, htypes, htype]
    · rw [hesize, htypes, hsize, htype]
    · rw [hedims]
      exact readArray_cells_of_ne hnot

end Entry

/-! ## All tensors -/

/-- The field of a tensor among the ranks. -/
def rankText (i : TensorInfo) : Bytes := decimal (filterRank (tupleText i))

theorem rankText_mem {i : TensorInfo} (h : HasDims i) :
    rankText i ∈ ["1", "2", "3", "4"].map ascii ∧
      reversed (rankText i) = (filterRank (tupleText i) : Int) := by
  have hfilter := filterRank_eq h
  have hlength := length_numbersOf (i.dims.getD [])
  have hle := length_core_le (i.dims.getD [])
  rcases h with ⟨dims, hdims, hpos, hmax⟩
  rw [hdims, Option.getD_some] at hfilter hlength hle
  have hcases : filterRank (tupleText i) = 1 ∨ filterRank (tupleText i) = 2 ∨
      filterRank (tupleText i) = 3 ∨ filterRank (tupleText i) = 4 := by omega
  unfold rankText
  rcases hcases with h | h | h | h <;> rw [h] <;> decide

theorem typeText_ne_nil (i : TensorInfo) : typeText i ≠ [] := by
  have hall : ∀ t ∈ ["int8", "int16", "int32", "int64", "uint8", "uint16", "uint32", "uint64",
      "float16", "float32", "error"].map ascii, t ≠ [] := by decide
  exact hall _ (tensorTypeToString_mem i.type)

theorem tupleText_ne_nil {i : TensorInfo} (h : HasDims i) : tupleText i ≠ [] := by
  intro hnil
  have hlength := length_splitOn_tupleText h
  rw [hnil] at hlength
  exact absurd hlength (by decide)

/-- Ranks that are numbers are all stored. -/
theorem rankFields_eq_fields {cur text : Bytes} (hcur : ∀ b ∈ cur, isDigit b = true)
    (htext : ∀ b ∈ text, isRankByte b = true) : rankFields cur text = fields (cur ++ text) := by
  induction text generalizing cur with
  | nil =>
      rw [List.append_nil, fields_eq_singleton (comma_not_mem_digits hcur)]
      rfl
  | cons b text ih =>
      have hrest : ∀ c ∈ text, isRankByte c = true := fun c hc => htext c (List.mem_cons_of_mem b hc)
      unfold rankFields
      cases hb : isDigit b with
      | true =>
          have hdigits := forall_digit_concat hcur hb
          rw [if_pos rfl, ih hdigits hrest, List.append_assoc]
          rfl
      | false =>
          have hcomma : b = comma := by
            have hbyte := htext b List.mem_cons_self
            simpa [isRankByte, hb] using hbyte
          have hnext := ih forall_digit_nil hrest
          rw [hcomma, if_neg (by decide), if_pos rfl, hnext,
            fields_append_cons (comma_not_mem_digits hcur)]
          rfl

theorem length_sepBy_le (sep : UInt8) {f g : TensorInfo → Bytes} {infos : List TensorInfo}
    (h : ∀ i ∈ infos, (f i).length ≤ (g i).length) :
    (sepBy sep (infos.map f)).length ≤ (sepBy sep (infos.map g)).length := by
  induction infos with
  | nil => exact Nat.le_refl _
  | cons i infos ih =>
      have hhead := h i List.mem_cons_self
      have hrest := ih fun j hj => h j (List.mem_cons_of_mem i hj)
      cases infos with
      | nil => simpa using hhead
      | cons j infos =>
          simp only [List.map_cons, sepBy_cons_cons, List.length_append, List.length_cons] at hrest ⊢
          omega

/-- What the filter reports of all tensors. -/
def replyOf (infos : List TensorInfo) : Reply :=
  ⟨some (sepBy comma (infos.map rankText)), some (sepBy comma (infos.map typeText)),
    some (sepBy comma (infos.map tupleText))⟩

section Reply

variable {infos : List TensorInfo} {m : Memory} {info : Option Infos} {size : Int}

theorem fields_types (hne : infos ≠ []) :
    fields (sepBy comma (infos.map typeText)) = infos.map typeText :=
  splitOn_sepBy (by simpa using hne) comma_not_mem_names

theorem fields_dims (hne : infos ≠ []) :
    fields (sepBy comma (infos.map tupleText)) = infos.map tupleText :=
  splitOn_sepBy (by simpa using hne) comma_not_mem_tuples

theorem reportBack_eq (side : Side) {props : Bytes} (hne : infos ≠ [])
    (h : ∀ i ∈ infos, HasDims i)
    (hprops : tensorInfoToProperties (sideText side) (some infos) = .ok props) :
    reportBack side props = replyOf infos := by
  rcases properties_list side h hprops with ⟨htypes, hdims⟩
  simp only [reportBack, replyOf, htypes, hdims, Option.map_some, fields_dims hne, List.map_map]
  rfl

theorem rankBytes (h : ∀ i ∈ infos, HasDims i) :
    ∀ b ∈ sepBy comma (infos.map rankText), isRankByte b = true := by
  intro b hb
  by_contra hnot
  rw [Bool.not_eq_true] at hnot
  have hcomma : b ≠ comma := by
    rintro rfl
    exact absurd hnot (by decide)
  refine not_mem_sepBy hcomma ?_ hb
  intro t ht hbt
  rcases List.mem_map.1 ht with ⟨i, hi, rfl⟩
  have hall : ∀ t ∈ ["1", "2", "3", "4"].map ascii, t.all isRankByte = true := by decide
  rw [List.all_eq_true.1 (hall _ (rankText_mem (h i hi)).1) b hbt] at hnot
  cases hnot

theorem fields_ranks (hne : infos ≠ []) (h : ∀ i ∈ infos, HasDims i) :
    fields (sepBy comma (infos.map rankText)) = infos.map rankText := by
  apply splitOn_sepBy (by simpa using hne)
  intro t ht
  rcases List.mem_map.1 ht with ⟨i, hi, rfl⟩
  have hall : ∀ t ∈ ["1", "2", "3", "4"].map ascii, comma ∉ t := by decide
  exact hall _ (rankText_mem (h i hi)).1

theorem reported_replyOf (hne : infos ≠ []) (h : ∀ i ∈ infos, HasDims i) :
    Reported (replyOf infos).ranks := by
  apply sepBy_ne_nil (by simpa using hne)
  intro t ht
  rcases List.mem_map.1 ht with ⟨i, hi, rfl⟩
  have hall : ∀ t ∈ ["1", "2", "3", "4"].map ascii, t ≠ [] := by decide
  exact hall _ (rankText_mem (h i hi)).1

theorem storedRanks_replyOf (hne : infos ≠ []) (h : ∀ i ∈ infos, HasDims i) :
    storedRanks (replyOf infos) = infos.map rankText := by
  unfold storedRanks
  rw [if_pos (reported_replyOf hne h)]
  exact (rankFields_eq_fields (by simp) (rankBytes h)).trans (fields_ranks hne h)

theorem ranksFit_replyOf (hne : infos ≠ []) (h : ∀ i ∈ infos, HasDims i)
    (hlength : (sepBy comma (infos.map tupleText)).length < INT_MAX) :
    RanksFit (sepBy comma (infos.map rankText)) := by
  have hone : ∀ i ∈ infos, (rankText i).length = 1 := by
    intro i hi
    have hall : ∀ t ∈ ["1", "2", "3", "4"].map ascii, t.length = 1 := by decide
    exact hall _ (rankText_mem (h i hi)).1
  have hle := length_sepBy_le comma (f := rankText) (g := tupleText) fun i hi => by
    rw [hone i hi]
    exact List.length_pos_of_ne_nil (tupleText_ne_nil (h i hi))
  have hscanned : scanned (sepBy comma (infos.map rankText)) = sepBy comma (infos.map rankText) :=
    List.takeWhile_eq_self_iff.2 (rankBytes h)
  unfold RanksFit
  rw [hscanned, fields_ranks hne h]
  refine ⟨by omega, ?_⟩
  intro t ht
  rcases List.mem_map.1 ht with ⟨i, hi, rfl⟩
  rw [hone i hi]
  decide

/-- The rank of a tensor is the one that was reported. -/
theorem usedRank_replyOf (h : ∀ i ∈ infos, HasDims i) {j : Nat} {i : TensorInfo}
    (hj : infos[j]? = some i) :
    usedRank (infos.map rankText) j = some (filterRank (tupleText i) : Int) := by
  have hi := List.mem_of_getElem? hj
  have hne : infos.map rankText ≠ [] := by simpa using List.ne_nil_of_mem hi
  unfold usedRank
  rw [if_neg hne, List.getElem?_map, hj, Option.map_some, Option.map_some, (rankText_mem (h i hi)).2]

/-- The loop succeeds if the memory does, and then every entry is the same if it is kept. -/
theorem loop_same_iff (h : ∀ i ∈ infos, WellFormed i) {block : Nat} {l : Ledger}
    (hl : l.Balanced [block]) :
    SameInfos infos (ofLoop info size infos.length
      (fillLoop m ((infos.map rankText).map reversed) (infos.map tupleText) ⟨block, []⟩
        (infos.map fun i => tensorTypeStringToType (typeText i)) l)) ↔
      (∀ j < infos.length, m.dims j = true) ∧ ∀ i ∈ infos, Kept i := by
  have hdims : ∀ i ∈ infos, HasDims i := fun i hi => (h i hi).hasDims
  have htuple : ∀ {j : Nat} {i : TensorInfo}, infos[j]? = some i →
      (infos.map tupleText)[j]? = some (tupleText i) :=
    fun hj => by rw [List.getElem?_map, hj, Option.map_some]
  have htype : ∀ {j : Nat} {type : Int},
      (infos.map fun i => tensorTypeStringToType (typeText i))[j]? = some type →
      ∃ i, infos[j]? = some i ∧ type = tensorTypeStringToType (typeText i) := by
    intro j type hj
    rw [List.getElem?_map, Option.map_eq_some_iff] at hj
    rcases hj with ⟨i, hi, rfl⟩
    exact ⟨i, hi, rfl⟩
  have hpass : ∀ j type, m.dims j = true →
      (infos.map fun i => tensorTypeStringToType (typeText i))[j]? = some type →
      Passes m (infos.map rankText) (infos.map tupleText) j type := by
    intro j type hm hj
    rcases htype hj with ⟨i, hi, rfl⟩
    exact (h i (List.mem_of_getElem? hi)).passes (usedRank_replyOf hdims hi) (htuple hi) hm
  rcases all_or_first (fun j => m.dims j = true) infos.length with hall | ⟨k, hk, hbefore, hfirst⟩
  · -- There is memory for all dims, so every entry is filled in.
    have hmem : ∀ j type, (infos.map fun i => tensorTypeStringToType (typeText i))[j]? = some type →
        Passes m (infos.map rankText) (infos.map tupleText) j type := by
      intro j type hj
      rcases htype hj with ⟨i, hi, -⟩
      exact hpass j type (hall j (List.getElem?_eq_some_iff.1 hi).1) hj
    rcases fillLoop_all hl hmem with ⟨array, l', hrun, hlength, -, hfilled⟩
    rw [List.length_map] at hlength
    have hsame : ∀ {j : Nat} {i : TensorInfo} {e : Entry}, infos[j]? = some i →
        array.entries[j]? = some e → (SameInfo i e ↔ Kept i) := by
      intro j i e hi he
      rcases hfilled j e he with ⟨type, hj, hfill⟩
      rcases htype hj with ⟨i', hi', rfl⟩
      cases hi.symm.trans hi'
      exact (h i (List.mem_of_getElem? hi)).sameInfo_iff (usedRank_replyOf hdims hi) (htuple hi)
        hfill
    have hforall : List.Forall₂ SameInfo infos array.entries ↔ ∀ i ∈ infos, Kept i := by
      rw [List.forall₂_iff_get]
      constructor
      · rintro ⟨-, hget⟩ i hi
        rcases List.getElem_of_mem hi with ⟨j, hj, rfl⟩
        have hj' : j < array.entries.length := by omega
        exact (hsame (List.getElem?_eq_getElem hj) (List.getElem?_eq_getElem hj')).1
          (hget j hj hj')
      · intro hkept
        refine ⟨hlength.symm, fun j hj hj' => ?_⟩
        exact (hsame (List.getElem?_eq_getElem hj) (List.getElem?_eq_getElem hj')).2
          (hkept _ (List.getElem_mem hj))
    rw [hrun, and_iff_right hall, ← hforall]
    constructor
    · rintro ⟨out, array', hout, -, harray, -, hentries⟩
      cases hout
      cases harray
      exact hentries
    · exact fun hentries => ⟨_, array, rfl, rfl, rfl, rfl, hentries⟩
  · -- The loop stops at the first dims that cannot be allocated.
    have hi : infos[k]? = some infos[k] := List.getElem?_eq_getElem hk
    have hfail : Fails m (infos.map rankText) (infos.map tupleText) k :=
      Or.inl ⟨by simpa using hfirst, by simp [usedRank_replyOf hdims hi]⟩
    have hj : (infos.map fun i => tensorTypeStringToType (typeText i))[k]? =
        some (tensorTypeStringToType (typeText infos[k])) := by
      rw [List.getElem?_map, hi, Option.map_some]
    rcases (fillLoop_first hl hj (fun j hjk type => hpass j type (hbefore j hjk))
      fun hp => hfirst hp.1).1 hfail with ⟨ret, l', hret, -, hrun⟩
    rw [hrun]
    constructor
    · rintro ⟨out, array', hout, hzero, -⟩
      cases hout
      exact absurd hzero hret.ne
    · exact fun hall => absurd (hall.1 k hk) hfirst

end Reply

/-- The texts are short enough for the counters of the scanners, the memory does not run out, and every
tensor is kept. -/
structure Returnable (m : Memory) (infos : List TensorInfo) : Prop where
  types : (sepBy comma (infos.map typeText)).length < INT_MAX
  dims : (sepBy comma (infos.map tupleText)).length < INT_MAX
  memory : m.info = true ∧ ∀ j < infos.length, m.dims j = true
  kept : ∀ i ∈ infos, Kept i

/-- Exactly these tensor infos come back as they were. -/
theorem round_trip_iff (side : Side) (m : Memory) (infos : List TensorInfo) (info : Option Infos)
    (size : Int) (hne : infos ≠ []) (h : ∀ i ∈ infos, WellFormed i) :
    (∃ props, tensorInfoToProperties (sideText side) (some infos) = .ok props ∧
      SameInfos infos (extractTensorInfo m (reportBack side props) info size)) ↔
      Returnable m infos := by
  have hdims : ∀ i ∈ infos, HasDims i := fun i hi => (h i hi).hasDims
  have hprops := tensorInfoToProperties_ok (sideText side) hdims
  have hreply := reportBack_eq side hne hdims hprops
  have htypesNe : sepBy comma (infos.map typeText) ≠ [] := by
    apply sepBy_ne_nil (by simpa using hne)
    intro t ht
    rcases List.mem_map.1 ht with ⟨i, -, rfl⟩
    exact typeText_ne_nil i
  have hdimsNe : sepBy comma (infos.map tupleText) ≠ [] := by
    apply sepBy_ne_nil (by simpa using hne)
    intro t ht
    rcases List.mem_map.1 ht with ⟨i, hi, rfl⟩
    exact tupleText_ne_nil (hdims i hi)
  have hloop : ∀ (htypes : (sepBy comma (infos.map typeText)).length < INT_MAX)
      (hdimsLength : (sepBy comma (infos.map tupleText)).length < INT_MAX) (hm : m.info = true),
      SameInfos infos (extractTensorInfo m (replyOf infos) info size) ↔
        (∀ j < infos.length, m.dims j = true) ∧ ∀ i ∈ infos, Kept i := by
    intro htypes hdimsLength hm
    rcases extract_eq_ofLoop info size (r := replyOf infos) (m := m)
      (fun _ => ranksFit_replyOf hne hdims hdimsLength) rfl htypesNe htypes rfl hdimsNe hdimsLength
      hm with ⟨l, hl, hrun⟩
    rw [storedRanks_replyOf hne hdims, fields_types hne, fields_dims hne, List.map_map,
      List.length_map] at hrun
    rw [hrun]
    exact loop_same_iff h hl.alloc
  constructor
  · rintro ⟨props, hprops', hsame⟩
    cases hprops.symm.trans hprops'
    rw [hreply] at hsame
    rcases hsame with ⟨out, array, hrun, hret, hrest⟩
    rcases reached_of_success hrun hret with
      ⟨-, ⟨types, htypes, -, htypesLength⟩, ⟨dims, hdimsText, -, hdimsLength⟩, hm⟩
    cases htypes
    cases hdimsText
    have hsame := (hloop htypesLength hdimsLength hm).1 ⟨out, array, hrun, hret, hrest⟩
    exact ⟨htypesLength, hdimsLength, ⟨hm, hsame.1⟩, hsame.2⟩
  · intro hreturn
    refine ⟨_, hprops, ?_⟩
    rw [hreply]
    exact (hloop hreturn.types hreturn.dims hreturn.memory.1).2
      ⟨hreturn.memory.2, hreturn.kept⟩

theorem wellFormed_image : WellFormed image :=
  ⟨⟨.float32, rfl⟩, ⟨[1, 224, 224, 3], rfl, by decide, by decide, by decide, by decide⟩, by decide⟩

theorem image_returns :
    ∃ props, tensorInfoToProperties (sideText .input) (some [image]) = .ok props ∧
      SameInfos [image] (extractTensorInfo .ample (reportBack .input props) none 0) :=
  (round_trip_iff .input .ample [image] none 0 (by decide)
    (fun _ hi => List.mem_singleton.1 hi ▸ wellFormed_image)).2
    ⟨by decide, by decide, ⟨rfl, fun _ _ => rfl⟩,
      fun _ hi => List.mem_singleton.1 hi ▸ ⟨by decide, fun _ hd _ => by cases hd; rfl⟩⟩

/-- One number of type `uint64`. -/
def counter : TensorInfo := ⟨TensorType.uint64.code, 8, none, some [1]⟩

theorem counter_lost :
    WellFormed counter ∧
    ¬ ∃ props, tensorInfoToProperties (sideText .input) (some [counter]) = .ok props ∧
      SameInfos [counter] (extractTensorInfo .ample (reportBack .input props) none 0) := by
  refine ⟨⟨⟨.uint64, rfl⟩, ⟨[1], rfl, by decide, by decide, by decide, by decide⟩, by decide⟩, ?_⟩
  rintro ⟨props, hprops, out, array, hrun, -, harray, -, hsame⟩
  have htext : tensorInfoToProperties (sideText .input) (some [counter]) =
      .ok (ascii " inputtype=uint64 input=1:1:1:1") := by rfl
  cases hprops.symm.trans htext
  have hresult : ∃ l, extractTensorInfo .ample
      (reportBack .input (ascii " inputtype=uint64 input=1:1:1:1")) none 0 =
      .ok ⟨0, some ⟨3, [⟨UNSUPPORTED, 0, none, ⟨2, [some 1, some 1, none]⟩, 4⟩]⟩, 1, l⟩ :=
    ⟨_, rfl⟩
  rcases hresult with ⟨l, hresult⟩
  cases hrun.symm.trans hresult
  cases harray
  cases hsame with
  | cons hfirst _ => exact absurd hfirst.type (by decide)

end InfoRoundTrip
end Peer
end Beyond
