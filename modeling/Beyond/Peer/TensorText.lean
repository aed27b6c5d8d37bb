import Beyond.Base.Fields
import Beyond.Base.Scan
import Beyond.Inference.TensorType
import Beyond.Peer.Session

/-!
# Tensor infos as text

The server writes the tensor infos of its model into the properties of `tensor_filter`
(`GrpcServer::Gst::TensorInfoToProperties`); the client writes its own into caps
(`GrpcClient::Gst::TensorInfoToDesc`).  Both name the types and list the dims in reverse order,
filled up to four.
-/

namespace Beyond
namespace Peer
namespace TensorText

open Bytes Inference

def comma : UInt8 := 0x2c
def colon : UInt8 := 0x3a
def space : UInt8 := 0x20
def quote : UInt8 := 0x22

/-! ## The texts -/

/-- The two nested `switch`es on the number of dims. -/
def dimsSwitch : List Int → Bytes
  | [a] => integer a ++ ascii ":1" ++ ascii ":1" ++ ascii ":1"
  | [a, b] => integer b ++ ascii ":" ++ integer a ++ ascii ":1" ++ ascii ":1"
  | [a, b, c] => integer c ++ ascii ":" ++ integer b ++ ascii ":" ++ integer a ++ ascii ":1"
  | [a, b, c, d] =>
      integer d ++ ascii ":" ++ integer c ++ ascii ":" ++ integer b ++ ascii ":" ++ integer a
  | _ => []

def dimsText (info : TensorInfo) : Except Fault Bytes :=
  match info.dims with
  | none => .error .nullDims
  | some dims => .ok (dimsSwitch dims)

def typeText (info : TensorInfo) : Bytes := tensorTypeToString info.type

/-- A loop that writes a comma before every text but the first. -/
def commaLoop (text : TensorInfo → Except Fault Bytes) :
    Nat → List TensorInfo → Except Fault Bytes
  | _, [] => .ok []
  | i, info :: infos =>
      match text info, commaLoop text (i + 1) infos with
      | .ok t, .ok rest => .ok ((if i > 0 then ascii "," else []) ++ t ++ rest)
      | .error e, _ => .error e
      | _, .error e => .error e

/-- `GrpcServer::Gst::TensorInfoToProperties`; `type` is `"input"` or `"output"`. -/
def tensorInfoToProperties (type : Bytes) :
    Option (List TensorInfo) → Except Fault Bytes
  | none => .ok []
  | some info =>
      match commaLoop (fun i => .ok (typeText i)) 0 info, commaLoop dimsText 0 info with
      | .ok types, .ok dims =>
          .ok (ascii " " ++ type ++ ascii "type=" ++ types ++ ascii " " ++ type ++ ascii "=" ++ dims)
      | .error e, _ => .error e
      | _, .error e => .error e

/-- What `TensorInfoToDesc` writes for one tensor behind the comma of its loop. -/
def fieldsText (info : TensorInfo) : Except Fault Bytes :=
  match dimsText info with
  | .ok dims =>
      .ok (ascii ",types=(string)" ++ typeText info ++ ascii ",dimensions=(string)" ++ dims)
  | .error e => .error e

/-- `GrpcClient::Gst::TensorInfoToDesc`: a negative code, or the text and its length. -/
def tensorInfoToDesc (strdup : Option Int) (info : List TensorInfo) :
    Except Fault (Except Int (Bytes × Nat)) :=
  match commaLoop fieldsText 0 info with
  | .error e => .error e
  | .ok fields =>
      let desc := ascii "other/tensors,num_tensors=" ++ decimal info.length ++
        ascii ",framerate=(fraction)0/1" ++ fields
      match strdup with
      | some errno => .ok (.error (-errno))
      | none => .ok (.ok (cstring desc, desc.length))

/-! ## How the texts are read -/

/-- The fields of caps. -/
def capsFields (text : Bytes) : List Bytes := splitUnquoted comma false text

/-- The entries of a field of caps; its type and the quotes are no part of them. -/
def capsEntries (value : Bytes) : List Bytes :=
  let value := if value.take 8 = ascii "(string)" then value.drop 8 else value
  (value.filter (· ≠ quote)).splitOn comma

example : capsEntries (ascii "(string)\"int8,uint8\"") = [ascii "int8", ascii "uint8"] := by
  decide

/-- The properties in a pipeline description. -/
def propertyFields (text : Bytes) : List Bytes := text.splitOn space

/-- The text is caps of `n` tensors, and their types and dimensions are those of the properties. -/
structure Agrees (n : Nat) (type props text : Bytes) : Prop where
  filled : [] ∉ capsFields text
  unique : ((capsFields text).map key).Nodup
  count : lookupKey (ascii "num_tensors") (capsFields text) = some (decimal n)
  types : ∃ names, names.length = n ∧
    (lookupKey (ascii "types") (capsFields text)).map capsEntries = some names ∧
    (lookupKey (type ++ ascii "type") (propertyFields props)).map (List.splitOn comma) = some names
  dimensions : ∃ tuples, tuples.length = n ∧ (∀ t ∈ tuples, (t.splitOn colon).length = 4) ∧
    (lookupKey (ascii "dimensions") (capsFields text)).map capsEntries = some tuples ∧
    (lookupKey type (propertyFields props)).map (List.splitOn comma) = some tuples

/-- From one to four dims. -/
def HasDims (info : TensorInfo) : Prop :=
  ∃ dims, info.dims = some dims ∧ 1 ≤ dims.length ∧ dims.length ≤ 4

/-! ## Lists in the texts -/

/-- The entries of the dims in a text: the dims from the last to the first, and then ones. -/
def tuple (dims : List Int) : List Bytes :=
  dims.reverse.map integer ++ List.replicate (4 - dims.length) (decimal 1)

theorem length_tuple {dims : List Int} (h : dims.length ≤ 4) : (tuple dims).length = 4 := by
  simp only [tuple, List.length_append, List.length_map, List.length_reverse,
    List.length_replicate]
  omega

theorem dimsSwitch_eq {dims : List Int} (hpos : 1 ≤ dims.length) (hmax : dims.length ≤ 4) :
    dimsSwitch dims = sepBy colon (tuple dims) := by
  match dims, hpos, hmax with
  | [a], _, _ =>
      simp [dimsSwitch, tuple, sepBy_cons_cons, List.replicate]
      rfl
  | [a, b], _, _ =>
      simp [dimsSwitch, tuple, sepBy_cons_cons, List.replicate]
      rfl
  | [a, b, c], _, _ =>
      simp [dimsSwitch, tuple, sepBy_cons_cons]
      rfl
  | [a, b, c, d], _, _ =>
      simp [dimsSwitch, tuple, sepBy_cons_cons]
      rfl

theorem commaLoop_succ {text : TensorInfo → Except Fault Bytes}
    {t : TensorInfo → Bytes} {infos : List TensorInfo} (h : ∀ i ∈ infos, text i = .ok (t i))
    (n : Nat) : commaLoop text (n + 1) infos = .ok (infos.flatMap fun i => comma :: t i) := by
  induction infos generalizing n with
  | nil => rfl
  | cons i infos ih =>
      have hhead := h i List.mem_cons_self
      have hrest := ih (fun j hj => h j (List.mem_cons_of_mem i hj)) (n + 1)
      unfold commaLoop
      rw [hhead, hrest]
      rfl

/-- The loop writes the texts with commas between them. -/
theorem commaLoop_zero {text : TensorInfo → Except Fault Bytes}
    {t : TensorInfo → Bytes} {infos : List TensorInfo} (h : ∀ i ∈ infos, text i = .ok (t i)) :
    commaLoop text 0 infos = .ok (sepBy comma (infos.map t)) := by
  cases infos with
  | nil => rfl
  | cons i infos =>
      have hhead := h i List.mem_cons_self
      have hrest := commaLoop_succ (fun j hj => h j (List.mem_cons_of_mem i hj)) 0
      unfold commaLoop
      rw [hhead, hrest, List.map_cons, sepBy_cons, List.flatMap_map]
      rfl

/-! ## Bytes of the texts -/

/-- The byte does not end an entry or a field, and it opens no quotes. -/
def Plain (text : Bytes) : Prop := comma ∉ text ∧ space ∉ text ∧ quote ∉ text ∧ 0 ∉ text

instance (text : Bytes) : Decidable (Plain text) :=
  inferInstanceAs (Decidable (_ ∧ _ ∧ _ ∧ _))

theorem Plain.append {t u : Bytes} (ht : Plain t) (hu : Plain u) : Plain (t ++ u) := by
  unfold Plain
  simp only [List.mem_append, not_or]
  exact ⟨⟨ht.1, hu.1⟩, ⟨ht.2.1, hu.2.1⟩, ⟨ht.2.2.1, hu.2.2.1⟩, ht.2.2.2, hu.2.2.2⟩

theorem plain_sepBy_colon {texts : List Bytes} (h : ∀ t ∈ texts, Plain t) :
    Plain (sepBy colon texts) :=
  ⟨not_mem_sepBy (by decide) fun t ht => (h t ht).1,
    not_mem_sepBy (by decide) fun t ht => (h t ht).2.1,
    not_mem_sepBy (by decide) fun t ht => (h t ht).2.2.1,
    not_mem_sepBy (by decide) fun t ht => (h t ht).2.2.2⟩

theorem plain_integer (n : Int) : Plain (integer n) :=
  ⟨not_mem_integer (by decide) (by decide) n, not_mem_integer (by decide) (by decide) n,
    not_mem_integer (by decide) (by decide) n, not_mem_integer (by decide) (by decide) n⟩

theorem plain_typeText (info : TensorInfo) : Plain (typeText info) := by
  have hall : ∀ t ∈ ["int8", "int16", "int32", "int64", "uint8", "uint16", "uint32", "uint64",
      "float16", "float32", "error"].map ascii, Plain t := by decide
  exact hall _ (tensorTypeToString_mem info.type)

/-- An entry of the dims is a number. -/
theorem exists_integer_of_mem_tuple {dims : List Int} {t : Bytes} (ht : t ∈ tuple dims) :
    ∃ n, t = integer n := by
  rcases List.mem_append.1 ht with ht | ht
  · rcases List.mem_map.1 ht with ⟨n, -, rfl⟩
    exact ⟨n, rfl⟩
  · exact ⟨1, List.eq_of_mem_replicate ht⟩

theorem colon_not_mem_tuple {dims : List Int} : ∀ t ∈ tuple dims, colon ∉ t := by
  intro t ht
  rcases exists_integer_of_mem_tuple ht with ⟨n, rfl⟩
  exact not_mem_integer (by decide) (by decide) n

/-- The dims of a tensor as a text. -/
def tupleText (info : TensorInfo) : Bytes := sepBy colon (tuple (info.dims.getD []))

theorem plain_tupleText (info : TensorInfo) : Plain (tupleText info) := by
  apply plain_sepBy_colon
  intro t ht
  rcases exists_integer_of_mem_tuple ht with ⟨n, rfl⟩
  exact plain_integer n

section HasDims

variable {info : TensorInfo}

theorem dimsText_ok (h : HasDims info) : dimsText info = .ok (tupleText info) := by
  rcases h with ⟨dims, hdims, hpos, hmax⟩
  simp only [dimsText, tupleText, hdims, Option.getD_some, dimsSwitch_eq hpos hmax]

theorem splitOn_tupleText (h : HasDims info) :
    (tupleText info).splitOn colon = tuple (info.dims.getD []) := by
  rcases h with ⟨dims, hdims, hpos, hmax⟩
  have hlength := length_tuple hmax
  apply splitOn_sepBy
  · rw [hdims, Option.getD_some]
    rintro hnil
    rw [hnil] at hlength
    exact absurd hlength (by decide)
  · exact colon_not_mem_tuple

theorem length_splitOn_tupleText (h : HasDims info) :
    ((tupleText info).splitOn colon).length = 4 := by
  rw [splitOn_tupleText h]
  rcases h with ⟨dims, hdims, -, hmax⟩
  rw [hdims]
  exact length_tuple hmax

end HasDims

/-! ## Properties -/

section Properties

variable {type : Bytes} {infos : List TensorInfo}

theorem tensorInfoToProperties_ok (type : Bytes) (h : ∀ i ∈ infos, HasDims i) :
    tensorInfoToProperties type (some infos) =
      .ok (sepBy space [[], (type ++ ascii "type") ++ 0x3d :: sepBy comma (infos.map typeText),
        type ++ 0x3d :: sepBy comma (infos.map tupleText)]) := by
  have htypes := commaLoop_zero (t := typeText) fun i (_ : i ∈ infos) => rfl
  have hdims := commaLoop_zero fun i hi => dimsText_ok (h i hi)
  simp only [tensorInfoToProperties, htypes, hdims, sepBy_cons_cons, sepBy_singleton]
  simp only [List.append_assoc, List.nil_append, List.cons_append]
  rfl

theorem comma_not_mem_names : ∀ t ∈ infos.map typeText, comma ∉ t := by
  intro t ht
  rcases List.mem_map.1 ht with ⟨i, -, rfl⟩
  exact (plain_typeText i).1

theorem comma_not_mem_tuples : ∀ t ∈ infos.map tupleText, comma ∉ t := by
  intro t ht
  rcases List.mem_map.1 ht with ⟨i, -, rfl⟩
  exact (plain_tupleText i).1

/-- `"input"` or `"output"`, the `type` that `Prepare` gives. -/
def sideText : Side → Bytes
  | .input => ascii "input"
  | .output => ascii "output"

/-- What `tensor_filter` takes from the two properties. -/
theorem properties_list (side : Side) {props : Bytes} (h : ∀ i ∈ infos, HasDims i)
    (hprops : tensorInfoToProperties (sideText side) (some infos) = .ok props) :
    lookupKey (sideText side ++ ascii "type") (propertyFields props) =
        some (sepBy comma (infos.map typeText)) ∧
      lookupKey (sideText side) (propertyFields props) =
        some (sepBy comma (infos.map tupleText)) := by
  rw [tensorInfoToProperties_ok (sideText side) h, Except.ok.injEq] at hprops
  have htype : space ∉ sideText side ++ ascii "type" ∧ 0x3d ∉ sideText side ++ ascii "type" ∧
      space ∉ sideText side ∧ 0x3d ∉ sideText side := by
    cases side <;> decide
  have hnames : space ∉ sepBy comma (infos.map typeText) := by
    apply not_mem_sepBy (by decide)
    intro t ht
    rcases List.mem_map.1 ht with ⟨i, -, rfl⟩
    exact (plain_typeText i).2.1
  have htuples : space ∉ sepBy comma (infos.map tupleText) := by
    apply not_mem_sepBy (by decide)
    intro t ht
    rcases List.mem_map.1 ht with ⟨i, -, rfl⟩
    exact (plain_tupleText i).2.1
  have hequals : space ≠ 0x3d := by decide
  have hfields : propertyFields props = [[],
      (sideText side ++ ascii "type") ++ 0x3d :: sepBy comma (infos.map typeText),
      sideText side ++ 0x3d :: sepBy comma (infos.map tupleText)] := by
    rw [← hprops]
    apply splitOn_sepBy (List.cons_ne_nil _ _)
    simp only [List.mem_append, not_or] at htype
    simp [htype, hnames, htuples, hequals]
  have hfirst : ∀ suffix, key [] ≠ sideText side ++ suffix := by
    intro suffix
    cases side <;> simp [key, sideText, ascii]
  have hsecond : sideText side ++ ascii "type" ≠ sideText side := by
    cases side <;> decide
  constructor
  · rw [hfields, lookupKey_cons_of_ne (hfirst _), lookupKey_cons_self htype.2.1]
  · rw [hfields, lookupKey_cons_of_ne (by simpa using hfirst []),
      lookupKey_cons_of_ne (by rwa [key_append htype.2.1]), lookupKey_cons_self htype.2.2.2]

end Properties

/-! ## Caps -/

section Caps

variable {infos : List TensorInfo}

/-- The fields of one tensor, behind the comma that opens them. -/
def tensorFields (info : TensorInfo) : List Bytes :=
  [ascii "types" ++ 0x3d :: (ascii "(string)" ++ typeText info),
    ascii "dimensions" ++ 0x3d :: (ascii "(string)" ++ tupleText info)]

/-- The fields in front of those of the tensors. -/
def headFields (n : Nat) : List Bytes :=
  [ascii "other/tensors", ascii "num_tensors" ++ 0x3d :: decimal n,
    ascii "framerate" ++ 0x3d :: ascii "(fraction)0/1"]

/-- What `TensorInfoToDesc` writes. -/
def descText (infos : List TensorInfo) : Bytes :=
  sepBy comma (headFields infos.length) ++
    sepBy comma (infos.map fun i => comma :: sepBy comma (tensorFields i))

theorem decimal_eq_integer (n : Nat) : decimal n = integer n := by
  simp [integer]

theorem not_mem_descText {b : UInt8} (hb : b = 0 ∨ b = quote) : b ∉ descText infos := by
  have hcomma : b ≠ comma := by rcases hb with rfl | rfl <;> decide
  have hplain : ∀ {t}, Plain t → b ∉ t := fun ht => by
    rcases hb with rfl | rfl
    · exact ht.2.2.2
    · exact ht.2.2.1
  unfold descText
  rw [List.mem_append, not_or]
  constructor
  · apply not_mem_sepBy hcomma
    simp only [headFields, List.forall_mem_cons, List.not_mem_nil, false_imp_iff, implies_true,
      and_true]
    refine ⟨hplain (by decide), hplain ?_, hplain (by decide)⟩
    rw [decimal_eq_integer, ← List.singleton_append]
    exact (show Plain (ascii "num_tensors") by decide).append
      ((show Plain [0x3d] by decide).append (plain_integer _))
  · apply not_mem_sepBy hcomma
    intro t ht
    rcases List.mem_map.1 ht with ⟨i, -, rfl⟩
    rw [List.mem_cons, not_or]
    refine ⟨hcomma, not_mem_sepBy hcomma ?_⟩
    simp only [tensorFields, List.forall_mem_cons, List.not_mem_nil, false_imp_iff, implies_true,
      and_true]
    constructor
    · exact hplain ((show Plain (ascii "types=(string)") by decide).append (plain_typeText i))
    · exact hplain ((show Plain (ascii "dimensions=(string)") by decide).append (plain_tupleText i))

theorem tensorInfoToDesc_ok (h : ∀ i ∈ infos, HasDims i) :
    tensorInfoToDesc none infos = .ok (.ok (descText infos, (descText infos).length)) := by
  have hfields : commaLoop fieldsText 0 infos =
      .ok (sepBy comma (infos.map fun i => comma :: sepBy comma (tensorFields i))) := by
    apply commaLoop_zero
    intro i hi
    simp only [fieldsText, dimsText_ok (h i hi), tensorFields, sepBy_cons_cons, sepBy_singleton]
    simp only [List.append_assoc]
    rfl
  have hdesc : ascii "other/tensors,num_tensors=" ++ decimal infos.length ++
      ascii ",framerate=(fraction)0/1" ++
        sepBy comma (infos.map fun i => comma :: sepBy comma (tensorFields i)) =
      descText infos := by
    simp only [descText, headFields, sepBy_cons_cons, sepBy_singleton, List.append_assoc,
      List.cons_append]
    rfl
  simp only [tensorInfoToDesc, hfields, hdesc]
  rw [cstring_eq_self (not_mem_descText (Or.inl rfl))]

theorem capsFields_descText : capsFields (descText infos) = (descText infos).splitOn comma :=
  splitUnquoted_eq_splitOn (not_mem_descText (Or.inr rfl))

/-- The second tensor opens with the comma of the loop and with one of its own. -/
theorem nil_mem_capsFields {i j : TensorInfo} :
    [] ∈ capsFields (descText (i :: j :: infos)) := by
  rw [capsFields_descText, descText, List.map_cons, List.map_cons, sepBy_cons_cons, sepBy_cons,
    ← List.append_assoc, List.splitOn_append_cons_self, List.cons_append, List.mem_append]
  right
  have hempty : ∀ text : Bytes, (comma :: text).splitOn comma = [] :: text.splitOn comma := by
    intro text
    simpa using List.splitOn_append_cons_self [] text (a := comma)
  rw [hempty]
  exact List.mem_cons_self

theorem capsFields_singleton (info : TensorInfo) :
    capsFields (descText [info]) = headFields 1 ++ tensorFields info := by
  have htext : descText [info] = sepBy comma (headFields 1 ++ tensorFields info) := by
    simp [descText, headFields, tensorFields, sepBy_cons_cons]
  have hhead : ∀ t ∈ headFields 1, comma ∉ t := by decide
  have htensor : ∀ t ∈ tensorFields info, comma ∉ t := by
    simp only [tensorFields, List.forall_mem_cons, List.not_mem_nil, false_imp_iff, implies_true,
      and_true]
    exact ⟨((show Plain (ascii "types=(string)") by decide).append (plain_typeText info)).1,
      ((show Plain (ascii "dimensions=(string)") by decide).append (plain_tupleText info)).1⟩
  rw [capsFields_descText, htext]
  apply splitOn_sepBy (List.cons_ne_nil _ _)
  intro t ht
  exact (List.mem_append.1 ht).elim (hhead t) (htensor t)

section Fields

variable (n : Nat) (info : TensorInfo)

theorem equals_not_mem : ∀ k ∈ ["num_tensors", "framerate", "types", "dimensions"].map ascii,
    0x3d ∉ k := by decide

theorem keys_fields : (headFields n ++ tensorFields info).map key =
    ["other/tensors", "num_tensors", "framerate", "types", "dimensions"].map ascii := by
  simp only [headFields, tensorFields, List.cons_append, List.nil_append, List.map_cons,
    List.map_nil, key_append (equals_not_mem (ascii "num_tensors") (by decide)),
    key_append (equals_not_mem (ascii "framerate") (by decide)),
    key_append (equals_not_mem (ascii "types") (by decide)),
    key_append (equals_not_mem (ascii "dimensions") (by decide))]
  rfl

theorem lookupKey_fields :
    lookupKey (ascii "num_tensors") (headFields n ++ tensorFields info) = some (decimal n) ∧
    lookupKey (ascii "types") (headFields n ++ tensorFields info) =
      some (ascii "(string)" ++ typeText info) ∧
    lookupKey (ascii "dimensions") (headFields n ++ tensorFields info) =
      some (ascii "(string)" ++ tupleText info) := by
  have hkeys := keys_fields n info
  refine ⟨lookupKey_of_getElem? (i := 1) (by decide) rfl ?_,
    lookupKey_of_getElem? (i := 3) (by decide) rfl ?_,
    lookupKey_of_getElem? (i := 4) (by decide) rfl ?_⟩
  all_goals
    rw [hkeys]
    decide

end Fields

theorem capsEntries_append {v : Bytes} (hv : Plain v) :
    capsEntries (ascii "(string)" ++ v) = [v] := by
  have hquotes : v.filter (· ≠ quote) = v := by
    rw [List.filter_eq_self]
    intro b hb
    rw [decide_eq_true_eq]
    rintro rfl
    exact hv.2.2.1 hb
  have htype : (ascii "(string)" ++ v).take 8 = ascii "(string)" :=
    List.take_left' rfl
  have hrest : (ascii "(string)" ++ v).drop 8 = v := List.drop_left' rfl
  simp only [capsEntries, htype, if_true, hrest, hquotes, List.splitOn_eq_singleton hv.1]

end Caps

/-! ## Agreement -/

/-- Caps of one tensor agree with the properties; those of several are malformed. -/
theorem desc_agrees_iff (side : Side) (infos : List TensorInfo) (hne : infos ≠ [])
    (h : ∀ i ∈ infos, HasDims i) :
    (∃ text props,
      tensorInfoToDesc none infos = .ok (.ok (text, text.length)) ∧
      tensorInfoToProperties (sideText side) (some infos) = .ok props ∧
      Agrees infos.length (sideText side) props text) ↔ infos.length = 1 := by
  constructor
  · rintro ⟨text, props, hdesc, -, hagrees⟩
    rw [tensorInfoToDesc_ok h, Except.ok.injEq, Except.ok.injEq, Prod.mk.injEq] at hdesc
    match infos, hne with
    | [_], _ => rfl
    | i :: j :: infos, _ =>
        have hfilled := hagrees.filled
        rw [← hdesc.1] at hfilled
        exact absurd nil_mem_capsFields hfilled
  · intro hlength
    rcases List.length_eq_one_iff.1 hlength with ⟨info, rfl⟩
    have hprops := tensorInfoToProperties_ok (sideText side) h
    have hlist := properties_list side h hprops
    have hinfo := h info (List.mem_singleton_self info)
    have hfields := lookupKey_fields 1 info
    rw [← capsFields_singleton] at hfields
    have hnames : (sepBy comma ([info].map typeText)).splitOn comma = [typeText info] :=
      splitOn_sepBy (List.cons_ne_nil _ _) comma_not_mem_names
    have htuples : (sepBy comma ([info].map tupleText)).splitOn comma = [tupleText info] :=
      splitOn_sepBy (List.cons_ne_nil _ _) comma_not_mem_tuples
    refine ⟨_, _, tensorInfoToDesc_ok h, hprops, ?_⟩
    constructor
    case filled =>
      rw [capsFields_singleton]
      simp [headFields, tensorFields, ascii]
    case unique =>
      rw [capsFields_singleton, keys_fields]
      decide
    case count => exact hfields.1
    case types =>
      refine ⟨[typeText info], rfl, ?_, ?_⟩
      · rw [hfields.2.1, Option.map_some, capsEntries_append (plain_typeText info)]
      · rw [hlist.1, Option.map_some, hnames]
    case dimensions =>
      refine ⟨[tupleText info], rfl, ?_, ?_, ?_⟩
      · simpa using length_splitOn_tupleText (h info (List.mem_singleton_self info))
      · rw [hfields.2.2, Option.map_some, capsEntries_append (plain_tupleText info)]
      · rw [hlist.2, Option.map_some, htuples]

def image : TensorInfo := ⟨TensorType.float32.code, 602112, none, some [1, 224, 224, 3]⟩

theorem hasDims_image : HasDims image := ⟨[1, 224, 224, 3], rfl, by decide, by decide⟩

theorem image_desc_agrees :
    (∃ text props,
      tensorInfoToDesc none [image] = .ok (.ok (text, text.length)) ∧
      tensorInfoToProperties (ascii "input") (some [image]) = .ok props ∧
      Agrees 1 (ascii "input") props text) :=
  (desc_agrees_iff .input [image] (by decide)
    (fun _ hi => List.mem_singleton.1 hi ▸ hasDims_image)).2 rfl

theorem two_images_malformed :
    (∀ i ∈ [image, image], HasDims i) ∧
    ¬ ∃ text props,
      tensorInfoToDesc none [image, image] = .ok (.ok (text, text.length)) ∧
      tensorInfoToProperties (ascii "input") (some [image, image]) = .ok props ∧
      Agrees 2 (ascii "input") props text := by
  have hdims : ∀ i ∈ [image, image], HasDims i := by
    simp only [List.forall_mem_cons, List.not_mem_nil, false_imp_iff, implies_true, and_true]
    exact ⟨hasDims_image, hasDims_image⟩
  refine ⟨hdims, ?_⟩
  rintro ⟨text, props, hdesc, -, hagrees⟩
  rw [tensorInfoToDesc_ok hdims, Except.ok.injEq, Except.ok.injEq, Prod.mk.injEq] at hdesc
  have hfilled := hagrees.filled
  rw [← hdesc.1] at hfilled
  exact absurd nil_mem_capsFields hfilled

end TensorText
end Peer
end Beyond
