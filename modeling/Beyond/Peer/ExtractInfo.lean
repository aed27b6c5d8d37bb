import Beyond.Base.Ledger
import Beyond.Base.Platform
import Beyond.Peer.TensorArray
import Beyond.Peer.TensorText

/-!
# Tensor infos from the filter

`GrpcServer::Gst::ExtractTensorInfo` asks `tensor_filter` for three texts, the ranks, the types and the
dimensions of its tensors, takes each of them apart at the commas, and makes an array of tensor infos
of the pieces.  A text that the filter reports is given by the bytes in front of its NUL.
-/

namespace Beyond
namespace Peer
namespace ExtractInfo

open Bytes Inference Errno
open TensorText (comma colon)

/-! ## Integers -/

/-- What stops the C++ code other than by a return, and what the language leaves undefined. -/
inductive Fault
  | overflow
  | outOfBounds
  deriving DecidableEq, Repr

def INT_MAX : Nat := 2147483647

/-- The range of `int`. -/
def Fits (n : Int) : Prop := -(INT_MAX : Int) - 1 ≤ n ∧ n ≤ INT_MAX

instance (n : Int) : Decidable (Fits n) := inferInstanceAs (Decidable (_ ∧ _))

def toInt (n : Int) : Except Fault Int := if Fits n then .ok n else .error .overflow

/-- `i++`. -/
def increment (i : Nat) : Except Fault Nat :=
  if i < INT_MAX then .ok (i + 1) else .error .overflow

/-- The product of `p` and the numbers, from the left to the right. -/
def mulAll : Int → List Int → Except Fault Int
  | p, [] => .ok p
  | p, v :: vs =>
      match toInt (p * v) with
      | .error e => .error e
      | .ok p => mulAll p vs

def product : List Int → Except Fault Int
  | [] => .ok 1
  | v :: vs => mulAll v vs

/-! ## Scanners -/

/-- What the filter reports for `ranks`, `type` and the dimensions; null pointers are `none`. -/
structure Reply where
  ranks : Option Bytes
  types : Option Bytes
  dims : Option Bytes
  deriving DecidableEq, Repr

/-- The loop over the ranks from place `i` on, with the variables `rank` and `mult`. -/
def rankLoop (i : Nat) (rank mult : Int) : Bytes → Except Fault (List Int)
  | [] =>
      match increment i with
      | .error e => .error e
      | .ok _ => .ok [rank]
  | b :: text =>
      match increment i with
      | .error e => .error e
      | .ok i =>
          if isDigit b then
            match toInt (rank + mult * digit b), toInt (mult * 10) with
            | .ok rank, .ok mult => rankLoop i rank mult text
            | _, _ => .error .overflow
          else if b = comma then
            match rankLoop i 0 1 text with
            | .error e => .error e
            | .ok ranks => .ok (rank :: ranks)
          -- Any other character ends the loop, and the rank before it is not stored.
          else .ok []

/-- `rankVector`. -/
def rankVector : Option Bytes → Except Fault (List Int)
  | none => .ok []
  | some [] => .ok []
  | some text => rankLoop 0 0 1 text

def substr (text : Bytes) (offset count : Nat) : Bytes := (text.drop offset).take count

/-- The loops over the types and over the dimensions; `rest` is what stands at place `i`. -/
def splitLoop (text : Bytes) (offset i : Nat) : Bytes → Except Fault (List Bytes)
  | [] =>
      match increment i with
      | .error e => .error e
      | .ok _ => .ok [substr text offset (i - offset)]
  | b :: rest =>
      match increment i with
      | .error e => .error e
      | .ok next =>
          if b = comma then
            match splitLoop text next next rest with
            | .error e => .error e
            | .ok fields => .ok (substr text offset (i - offset) :: fields)
          else splitLoop text offset next rest

/-! ## Parsers -/

/-- `sscanf` with `n` conversions `%d` and colons between them: the numbers that it stores.  A number
that no `int` holds is undefined. -/
def scanDims : Nat → Bytes → Except Fault (List Int)
  | 0, _ => .ok []
  | n + 1, text =>
      match scanInt text with
      | none => .ok []
      | some (v, rest) =>
          match toInt v with
          | .error e => .error e
          | .ok v =>
              match rest with
              | b :: rest =>
                  if n ≠ 0 ∧ b = colon then
                    match scanDims n rest with
                    | .error e => .error e
                    | .ok vs => .ok (v :: vs)
                  else .ok [v]
              | [] => .ok [v]

/-- Writes to `values`. -/
def writeAll : List (Nat × Int) → List (Option Int) → Except Fault (List (Option Int))
  | [], values => .ok values
  | (i, v) :: writes, values =>
      if i < values.length then writeAll writes (values.set i (some v)) else .error .outOfBounds

/-- `values[i]`. -/
def readCell (values : List (Option Int)) (i : Nat) : Except Fault Int :=
  match values[i]? with
  | some (some v) => .ok v
  | _ => .error .outOfBounds

def readCells (values : List (Option Int)) : List Nat → Except Fault (List Int)
  | [] => .ok []
  | i :: is =>
      match readCell values i, readCells values is with
      | .ok v, .ok vs => .ok (v :: vs)
      | _, _ => .error .outOfBounds

/-- A parser stores its numbers in `cells` and ones in `ones`, and multiplies the `factors`. -/
def dimsParser (cells ones factors : List Nat) (str : Bytes) (values : List (Option Int)) :
    Except Fault (List (Option Int) × Int) :=
  match scanDims cells.length str with
  | .error e => .error e
  | .ok numbers =>
      match writeAll (cells.zip numbers) values with
      | .error e => .error e
      | .ok values =>
          if numbers.length ≠ cells.length then .ok (values, -EINVAL)
          else
            match writeAll (ones.map fun i => (i, 1)) values with
            | .error e => .error e
            | .ok values =>
                match readCells values factors with
                | .error e => .error e
                | .ok numbers =>
                    match product numbers with
                    | .error e => .error e
                    | .ok ret => .ok (values, ret)

def dimsParser1 := dimsParser [1] [0] [1]
def dimsParser2 := dimsParser [2, 1] [0] [1, 2]
def dimsParser3 := dimsParser [3, 2, 1] [0] [1, 2, 3]
/-- The only parser that takes the first cell from the text. -/
def dimsParser4 := dimsParser [3, 2, 1, 0] [] [0, 1, 2, 3]

def dimsParsers : List (Bytes → List (Option Int) → Except Fault (List (Option Int) × Int)) :=
  [dimsParser1, dimsParser2, dimsParser3, dimsParser4]

/-- `DIMS_PARSER(str, size, values)`. -/
def parseDims (str : Bytes) (size : Int) (values : List (Option Int)) :
    Except Fault (List (Option Int) × Int) :=
  if size < 1 then .error .outOfBounds
  else
    match dimsParsers[(size - 1).toNat]? with
    | none => .error .outOfBounds
    | some parser => parser str values

/-! ## The array -/

/-- Which of the calls of `malloc` succeed: the one for the array, and those for the dims. -/
structure Memory where
  info : Bool
  dims : Nat → Bool

/-- A cell of the array, with the block of its dims. -/
structure Entry where
  type : Int
  size : Int
  name : Option Bytes
  dims : Dimensions
  block : Nat
  deriving DecidableEq, Repr

/-- A `beyond_tensor_info` array. -/
structure Infos where
  block : Nat
  entries : List Entry
  deriving DecidableEq, Repr

def Infos.blocks (infos : Infos) : List Nat := infos.entries.map Entry.block ++ [infos.block]

/-- `Peer::Model::FreeTensorInfo`; names are null here. -/
def freeTensorInfo (infos : Infos) (l : Ledger) : Ledger :=
  if infos.entries.length = 0 then l else l.freeAll infos.blocks

/-- `rankVector[i]`, or the fallback. -/
def rankAt (ranks : List Int) (i : Nat) : Except Fault Int :=
  if ranks.length > 0 then
    match ranks[i]? with
    | some rank => .ok rank
    | none => .error .outOfBounds
  else .ok 3

/-- The loop over `typeVector`, from the entries that are filled already. -/
def fillLoop (m : Memory) (ranks : List Int) (dimsVector : List Bytes) (infos : Infos) :
    List Int → Ledger → Except Fault (Except Int Infos × Ledger)
  | [], l => .ok (.ok infos, l)
  | type :: types, l =>
      let i := infos.entries.length
      match rankAt ranks i with
      | .error e => .error e
      | .ok rank =>
          if m.dims i = false then .ok (.error (-ENOMEM), freeTensorInfo infos l)
          else
            let block := l.allocated
            let l := l.alloc
            let dims := Dimensions.allocate (rank + 1).toNat
            match dimsVector[i]? with
            | none => .error .outOfBounds
            | some str =>
                match parseDims str rank dims.data with
                | .error e => .error e
                | .ok (data, ret) =>
                    if ret < 0 then .ok (.error ret, freeTensorInfo infos (l.free block))
                    else
                      match toInt (tensorTypeToSize type * ret) with
                      | .error e => .error e
                      | .ok size =>
                          let entry := ⟨type, size, none, { dims with data := data }, block⟩
                          fillLoop m ranks dimsVector
                            { infos with entries := infos.entries ++ [entry] } types l

/-- What a call leaves: its return value, `info`, `size`, and its allocations. -/
structure Outcome where
  ret : Int
  info : Option Infos
  size : Int
  ledger : Ledger

/-- `g_object_get` copies the text. -/
def getProperty (prop : Option Bytes) (l : Ledger) : Ledger :=
  if prop = none then l else l.alloc

/-- `g_object_get`, and `g_free` when the copy was read. -/
def readProperty (prop : Option Bytes) (l : Ledger) : Ledger :=
  if prop = none then l else l.alloc.free l.allocated

/-- `GrpcServer::Gst::ExtractTensorInfo`. -/
def extractTensorInfo (m : Memory) (r : Reply) (info : Option Infos) (size : Int) :
    Except Fault Outcome :=
  match rankVector r.ranks with
  | .error e => .error e
  | .ok ranks =>
      let l := readProperty r.ranks .empty
      match r.types with
      | none => .ok ⟨-EFAULT, info, size, l⟩
      | some [] => .ok ⟨-EFAULT, info, size, getProperty r.types l⟩
      | some types =>
          match splitLoop types 0 0 types with
          | .error e => .error e
          | .ok typeFields =>
              let typeVector := typeFields.map tensorTypeStringToType
              let l := readProperty r.types l
              match r.dims with
              | none => .ok ⟨-EFAULT, info, size, l⟩
              | some [] => .ok ⟨-EFAULT, info, size, getProperty r.dims l⟩
              | some dims =>
                  match splitLoop dims 0 0 dims with
                  | .error e => .error e
                  | .ok dimsVector =>
                      let l := readProperty r.dims l
                      if m.info = false then .ok ⟨-ENOMEM, info, size, l⟩
                      else
                        match fillLoop m ranks dimsVector ⟨l.allocated, []⟩ typeVector l.alloc with
                        | .error e => .error e
                        | .ok (.error ret, l) => .ok ⟨ret, info, size, l⟩
                        | .ok (.ok infos, l) => .ok ⟨0, some infos, typeVector.length, l⟩

/-! ## What the scanners find -/

/-- The fields of a text. -/
def fields (text : Bytes) : List Bytes := text.splitOn comma

theorem fields_eq_singleton {text : Bytes} (h : comma ∉ text) : fields text = [text] :=
  List.splitOn_eq_singleton h

theorem fields_append_cons {cur : Bytes} (h : comma ∉ cur) (text : Bytes) :
    fields (cur ++ comma :: text) = cur :: fields text :=
  List.splitOn_append_cons_self_of_not_mem h text

/-- The first field goes on for as long as there is no comma. -/
theorem fields_append {cur : Bytes} (h : comma ∉ cur) (text : Bytes) :
    ∃ g rest, fields text = g :: rest ∧ fields (cur ++ text) = (cur ++ g) :: rest := by
  have hne : fields text ≠ [] := List.splitOn_ne_nil comma text
  rcases List.exists_cons_of_ne_nil hne with ⟨g, rest, hfields⟩
  refine ⟨g, rest, hfields, ?_⟩
  induction cur with
  | nil => exact hfields
  | cons b cur ih =>
      rw [List.mem_cons, not_or] at h
      have htail := ih h.2
      unfold fields at htail ⊢
      rw [List.cons_append, List.splitOn_cons_eq_if_modifyHead, htail]
      simp [Ne.symm h.1]

theorem increment_ok {i : Nat} (h : i < INT_MAX) : increment i = .ok (i + 1) := if_pos h

theorem increment_error {i : Nat} (h : ¬ i < INT_MAX) : increment i = .error .overflow := if_neg h

theorem splitLoop_spec {text cur rest : Bytes} {offset i : Nat}
    (htext : text.drop offset = cur ++ rest) (hi : offset + cur.length = i) (hcur : comma ∉ cur) :
    splitLoop text offset i rest =
      if i + rest.length < INT_MAX then .ok (fields (cur ++ rest)) else .error .overflow := by
  induction rest generalizing cur offset i with
  | nil =>
      have hsubstr : substr text offset (i - offset) = cur := by
        rw [substr, htext, ← hi, Nat.add_sub_cancel_left, List.take_left' rfl]
      unfold splitLoop
      rw [List.append_nil, fields_eq_singleton hcur, hsubstr, List.length_nil, Nat.add_zero]
      by_cases hlt : i < INT_MAX
      · rw [increment_ok hlt, if_pos hlt]
      · rw [increment_error hlt, if_neg hlt]
  | cons b rest ih =>
      have hsubstr : substr text offset (i - offset) = cur := by
        rw [substr, htext, ← hi, Nat.add_sub_cancel_left, List.take_left' rfl]
      have hlength : i + (b :: rest).length = (i + 1) + rest.length := by
        rw [List.length_cons]
        omega
      unfold splitLoop
      rw [hlength, hsubstr]
      by_cases hlt : i < INT_MAX
      · rw [increment_ok hlt]
        by_cases hb : b = comma
        · subst hb
          have hdrop : text.drop (i + 1) = [] ++ rest := by
            rw [← hi, Nat.add_assoc, ← List.drop_drop, htext, ← List.drop_drop,
              List.drop_left' rfl]
            rfl
          have hnext := ih (i := i + 1) hdrop rfl List.not_mem_nil
          simp only [if_true, hnext, fields_append_cons hcur, List.nil_append]
          by_cases hrest : i + 1 + rest.length < INT_MAX
          · rw [if_pos hrest, if_pos hrest]
          · rw [if_neg hrest, if_neg hrest]
        · have hcur' : comma ∉ cur ++ [b] := by
            rw [List.mem_append, List.mem_singleton, not_or]
            exact ⟨hcur, Ne.symm hb⟩
          have htext' : text.drop offset = (cur ++ [b]) ++ rest := by simpa using htext
          have hnext := ih (i := i + 1) htext' (by simp [← hi, Nat.add_assoc]) hcur'
          simp only [if_neg hb, hnext, List.append_assoc, List.singleton_append]
      · rw [increment_error hlt, if_neg]
        omega

/-- The loop over the types, or over the dimensions, finds the fields. -/
theorem splitLoop_eq (text : Bytes) :
    splitLoop text 0 0 text =
      if text.length < INT_MAX then .ok (fields text) else .error .overflow := by
  have htext : text.drop 0 = [] ++ text := rfl
  have hspec := splitLoop_spec htext rfl List.not_mem_nil
  simpa only [List.length_nil, Nat.zero_add, List.nil_append] using hspec

/-! ## Ranks -/

/-- The bytes that the loop over the ranks reads on over. -/
def isRankByte (b : UInt8) : Bool := isDigit b || b == comma

def scanned (text : Bytes) : Bytes := text.takeWhile isRankByte

/-- The fields that end in front of a comma or of the end, before another character comes. -/
def rankFields (cur : Bytes) : Bytes → List Bytes
  | [] => [cur]
  | b :: text =>
      if isDigit b then rankFields (cur ++ [b]) text
      else if b = comma then cur :: rankFields [] text
      else []

/-- The digits in the order in which the loop weighs them: the first digit is the lowest. -/
def reversed (field : Bytes) : Int := value field.reverse

/-- No variable of the loop over the ranks overflows: the text is not too long, and no field has more
than nine digits. -/
def RanksFit (text : Bytes) : Prop :=
  (scanned text).length < INT_MAX ∧ ∀ f ∈ fields (scanned text), f.length ≤ 9

instance (text : Bytes) : Decidable (RanksFit text) := inferInstanceAs (Decidable (_ ∧ _))

theorem reversed_concat (cur : Bytes) (b : UInt8) :
    reversed (cur ++ [b]) = reversed cur + 10 ^ cur.length * digit b := by
  simp only [reversed, List.reverse_append, List.reverse_singleton, List.singleton_append,
    value_cons, List.length_reverse]
  push_cast
  ring

theorem reversed_bounds {cur : Bytes} (h : ∀ b ∈ cur, isDigit b = true) :
    0 ≤ reversed cur ∧ reversed cur < 10 ^ cur.length := by
  have hdigits : ∀ b ∈ cur.reverse, isDigit b = true := fun b hb => h b (List.mem_reverse.1 hb)
  have hlt := value_lt hdigits
  rw [List.length_reverse] at hlt
  unfold reversed
  exact ⟨Int.natCast_nonneg _, by exact_mod_cast hlt⟩

theorem forall_digit_nil : ∀ b ∈ ([] : Bytes), isDigit b = true := fun _ hb =>
  absurd hb List.not_mem_nil

theorem comma_not_mem_digits {cur : Bytes} (h : ∀ b ∈ cur, isDigit b = true) : comma ∉ cur :=
  fun hmem => absurd (h comma hmem) (by decide)

theorem toInt_ok {n : Int} (h : Fits n) : toInt n = .ok n := if_pos h

theorem toInt_error {n : Int} (h : ¬ Fits n) : toInt n = .error .overflow := if_neg h

theorem forall_digit_concat {cur : Bytes} (hcur : ∀ b ∈ cur, isDigit b = true) {b : UInt8}
    (hb : isDigit b = true) : ∀ c ∈ cur ++ [b], isDigit c = true := by
  intro c hc
  rcases List.mem_append.1 hc with hc | hc
  · exact hcur c hc
  · rw [List.mem_singleton.1 hc]
    exact hb

/-- With nine digits behind it the loop has no room for another one. -/
theorem weights_fit {cur : Bytes} (hcur : ∀ b ∈ cur, isDigit b = true) {b : UInt8}
    (hb : isDigit b = true) :
    (cur.length ≤ 8 → Fits (reversed cur + 10 ^ cur.length * digit b) ∧
      Fits (10 ^ cur.length * 10)) ∧
    (cur.length = 9 → ¬ Fits (10 ^ cur.length * 10)) := by
  have hbounds := reversed_bounds (forall_digit_concat hcur hb)
  rw [reversed_concat, List.length_append, List.length_singleton] at hbounds
  constructor
  · intro hlength
    have hle : 10 ^ (cur.length + 1) ≤ 10 ^ 9 := Nat.pow_le_pow_right (by decide) (by omega)
    have hcast : (10 : Int) ^ (cur.length + 1) = ((10 ^ (cur.length + 1) : Nat) : Int) := by
      push_cast
      rfl
    rw [hcast] at hbounds
    rw [← pow_succ, hcast]
    unfold Fits INT_MAX
    constructor <;> constructor <;> omega
  · intro hlength
    rw [hlength]
    decide

theorem rankLoop_spec {cur : Bytes} (text : Bytes) {i : Nat} (hcur : ∀ b ∈ cur, isDigit b = true)
    (hlength : cur.length ≤ 9) :
    rankLoop i (reversed cur) (10 ^ cur.length) text =
      if i + (scanned text).length < INT_MAX ∧ ∀ f ∈ fields (cur ++ scanned text), f.length ≤ 9 then
        .ok ((rankFields cur text).map reversed)
      else .error .overflow := by
  induction text generalizing cur i with
  | nil =>
      have hfields : fields (cur ++ scanned []) = [cur] := by
        rw [scanned, List.takeWhile_nil, List.append_nil]
        exact fields_eq_singleton (comma_not_mem_digits hcur)
      unfold rankLoop
      rw [hfields]
      by_cases hi : i < INT_MAX
      · rw [increment_ok hi, if_pos (by simpa [scanned, hlength] using hi)]
        rfl
      · rw [increment_error hi, if_neg (by simp [scanned, hi])]
  | cons b text ih =>
      unfold rankLoop rankFields
      by_cases hi : i < INT_MAX
      case neg =>
        rw [increment_error hi, if_neg (fun hfit => hi (by omega))]
      rw [increment_ok hi]
      cases hb : isDigit b with
      | true =>
          have hscanned : scanned (b :: text) = b :: scanned text :=
            List.takeWhile_cons_of_pos (by simp [isRankByte, hb])
          have hdigits := forall_digit_concat hcur hb
          have hweights := weights_fit hcur hb
          have hassoc : cur ++ b :: scanned text = (cur ++ [b]) ++ scanned text := by simp
          rw [hscanned, hassoc]
          rcases Nat.lt_or_ge cur.length 9 with hlt | hge
          · have hfits := hweights.1 (by omega)
            have hnine : (cur ++ [b]).length ≤ 9 := by
              rw [List.length_append, List.length_singleton]
              exact hlt
            have hnext := ih (i := i + 1) hdigits hnine
            rw [reversed_concat, List.length_append, List.length_singleton, pow_succ] at hnext
            simp only [if_true, toInt_ok hfits.1, toInt_ok hfits.2, hnext, List.length_cons]
            rw [Nat.add_assoc, Nat.add_comm 1]
          · -- The tenth digit of a field makes the weight overflow.
            have hnine : cur.length = 9 := by omega
            have hlong : ¬ ∀ f ∈ fields ((cur ++ [b]) ++ scanned text), f.length ≤ 9 := by
              rcases fields_append (comma_not_mem_digits hdigits) (scanned text) with
                ⟨g, rest, -, hfields⟩
              rw [hfields]
              intro hall
              have hfirst := hall _ List.mem_cons_self
              simp only [List.length_append, List.length_singleton] at hfirst
              omega
            rw [if_neg fun hfit => hlong hfit.2]
            simp only [if_true, toInt_error (hweights.2 hnine)]
            split <;> simp_all
      | false =>
          simp only [Bool.false_eq_true, if_false]
          by_cases hcomma : b = comma
          · subst hcomma
            have hscanned : scanned (comma :: text) = comma :: scanned text :=
              List.takeWhile_cons_of_pos (by decide)
            -- The field ends here, and the next one starts with no digits.
            have hnext := ih (i := i + 1) forall_digit_nil (Nat.zero_le _)
            have hzero : reversed [] = 0 := rfl
            rw [List.length_nil, pow_zero, hzero, List.nil_append] at hnext
            rw [hscanned, fields_append_cons (comma_not_mem_digits hcur), if_pos rfl, if_pos rfl,
              hnext]
            by_cases hfit : i + 1 + (scanned text).length < INT_MAX ∧
                ∀ f ∈ fields (scanned text), f.length ≤ 9
            · rw [if_pos hfit, if_pos]
              · rfl
              · rw [List.length_cons, List.forall_mem_cons]
                exact ⟨by omega, hlength, hfit.2⟩
            · rw [if_neg hfit, if_neg]
              rw [List.length_cons, List.forall_mem_cons]
              exact fun h => hfit ⟨by omega, h.2.2⟩
          · -- Any other byte ends the scan.
            have hscanned : scanned (b :: text) = [] :=
              List.takeWhile_cons_of_neg (by simp [isRankByte, hb, hcomma])
            have hfields : fields (cur ++ []) = [cur] := by
              rw [List.append_nil]
              exact fields_eq_singleton (comma_not_mem_digits hcur)
            rw [if_neg hcomma, if_neg hcomma, hscanned, hfields, if_pos]
            · rfl
            · simpa [hlength] using hi

/-- The loop over the ranks either overflows or finds the digits of the fields, in reverse. -/
theorem rankLoop_eq (text : Bytes) :
    rankLoop 0 0 1 text =
      if RanksFit text then .ok ((rankFields [] text).map reversed) else .error .overflow := by
  have hspec := rankLoop_spec text (i := 0) forall_digit_nil (Nat.zero_le _)
  rw [Nat.zero_add, List.nil_append, List.length_nil, pow_zero] at hspec
  exact hspec

/-- The fields that the loop stores are the first fields of the text. -/
theorem rankFields_prefix {cur : Bytes} (hcur : comma ∉ cur) (text : Bytes) :
    rankFields cur text <+: fields (cur ++ text) := by
  induction text generalizing cur with
  | nil =>
      rw [List.append_nil, fields_eq_singleton hcur]
      exact List.prefix_refl _
  | cons b text ih =>
      unfold rankFields
      cases hb : isDigit b with
      | true =>
          have hne : comma ≠ b := by
            rintro rfl
            exact absurd hb (by decide)
          have hcur' : comma ∉ cur ++ [b] := by simp [hcur, hne]
          have hnext := ih hcur'
          rwa [List.append_assoc] at hnext
      | false =>
          by_cases hcomma : b = comma
          · subst hcomma
            rw [fields_append_cons hcur]
            simpa using ih (List.not_mem_nil : comma ∉ [])
          · simp [hcomma]

/-- The loop stores nothing if the first field has a character that is no digit. -/
theorem rankFields_eq_nil {cur text : Bytes} (hcur : comma ∉ cur) (h : rankFields cur text = []) :
    ∃ f rest, fields (cur ++ text) = f :: rest ∧ ∃ b ∈ f, isDigit b = false := by
  induction text generalizing cur with
  | nil => simp [rankFields] at h
  | cons b text ih =>
      unfold rankFields at h
      cases hb : isDigit b with
      | true =>
          have hne : comma ≠ b := by
            rintro rfl
            exact absurd hb (by decide)
          rw [hb, if_pos rfl] at h
          have hcur' : comma ∉ cur ++ [b] := by simp [hcur, hne]
          have hnext := ih hcur' h
          rwa [List.append_assoc] at hnext
      | false =>
          by_cases hcomma : b = comma
          · rw [hb, if_neg (by decide), if_pos hcomma] at h
            exact absurd h (List.cons_ne_nil _ _)
          · have hcur' : comma ∉ cur ++ [b] := by simp [hcur, Ne.symm hcomma]
            rcases fields_append hcur' text with ⟨g, rest, -, hfields⟩
            rw [List.append_assoc] at hfields
            exact ⟨_, _, hfields, b, by simp, hb⟩

/-! ## Dimensions -/

/-- The cells that a parser leaves in a block for its rank: the numbers in reverse order, behind a one
unless there are four of them.  One cell is spare. -/
def cells (numbers : List Int) : List (Option Int) :=
  if numbers.length = 4 then numbers.reverse.map some ++ [none, none]
  else some 1 :: numbers.reverse.map some ++ [none]

section Parsers

variable {str : Bytes} {rank : Nat} {numbers : List Int}

theorem parseDims_outOfBounds {rank : Int} (h : ¬ (1 ≤ rank ∧ rank ≤ 4)) (str : Bytes)
    (values : List (Option Int)) : parseDims str rank values = .error .outOfBounds := by
  unfold parseDims
  by_cases hlt : rank < 1
  · exact if_pos hlt
  · rw [if_neg hlt, List.getElem?_eq_none]
    simp only [dimsParsers, List.length_cons, List.length_nil]
    omega

/-- The cells for the numbers of a parser, those for its ones, and its factors. -/
def parserCells (rank : Nat) : List Nat × List Nat × List Nat :=
  if rank = 4 then ([3, 2, 1, 0], [], [0, 1, 2, 3])
  else ((List.range' 1 rank).reverse, [0], List.range' 1 rank)

theorem rank_cases (hpos : 1 ≤ rank) (hmax : rank ≤ 4) :
    rank = 1 ∨ rank = 2 ∨ rank = 3 ∨ rank = 4 := by omega

theorem parseDims_rank (hpos : 1 ≤ rank) (hmax : rank ≤ 4) (values : List (Option Int)) :
    parseDims str rank values =
      dimsParser (parserCells rank).1 (parserCells rank).2.1 (parserCells rank).2.2 str values := by
  rcases rank_cases hpos hmax with rfl | rfl | rfl | rfl <;> rfl

theorem length_parserCells (rank : Nat) : (parserCells rank).1.length = rank := by
  unfold parserCells
  split
  · rename_i h
    rw [h]
    rfl
  · simp

theorem writeAll_ok {writes : List (Nat × Int)} {values : List (Option Int)}
    (h : ∀ w ∈ writes, w.1 < values.length) : ∃ values', writeAll writes values = .ok values' := by
  induction writes generalizing values with
  | nil => exact ⟨values, rfl⟩
  | cons w writes ih =>
      have hw := h w List.mem_cons_self
      have hrest : ∀ u ∈ writes, u.1 < (values.set w.1 (some w.2)).length := by
        intro u hu
        rw [List.length_set]
        exact h u (List.mem_cons_of_mem w hu)
      unfold writeAll
      rw [if_pos hw]
      exact ih hrest

theorem parseDims_error (hpos : 1 ≤ rank) (hmax : rank ≤ 4) {e : Fault}
    (h : scanDims rank str = .error e) (values : List (Option Int)) :
    parseDims str rank values = .error e := by
  rw [parseDims_rank hpos hmax]
  simp only [dimsParser, length_parserCells, h]

/-- Too few numbers: what was stored is not read. -/
theorem parseDims_short (hpos : 1 ≤ rank) (hmax : rank ≤ 4) (h : scanDims rank str = .ok numbers)
    (hshort : numbers.length ≠ rank) :
    ∃ values, parseDims str rank (Dimensions.allocate (rank + 1)).data = .ok (values, -EINVAL) := by
  have hplaces : ∀ i ∈ (parserCells rank).1, i < rank + 2 := by
    rcases rank_cases hpos hmax with rfl | rfl | rfl | rfl <;> decide
  have hwrites : ∀ w ∈ (parserCells rank).1.zip numbers,
      w.1 < (Dimensions.allocate (rank + 1)).data.length := by
    intro w hw
    have hplace := hplaces w.1 (List.of_mem_zip hw).1
    rwa [Dimensions.allocate, List.length_replicate]
  rcases writeAll_ok hwrites with ⟨values, hvalues⟩
  refine ⟨values, ?_⟩
  rw [parseDims_rank hpos hmax]
  simp only [dimsParser, length_parserCells, h, hvalues, hshort, ne_eq, not_false_iff, if_true]

/-- Enough numbers: they are stored and multiplied in reverse order. -/
theorem parseDims_full (hpos : 1 ≤ rank) (hmax : rank ≤ 4) (h : scanDims rank str = .ok numbers)
    (hfull : numbers.length = rank) :
    parseDims str rank (Dimensions.allocate (rank + 1)).data =
      match product numbers.reverse with
      | .error e => .error e
      | .ok ret => .ok (cells numbers, ret) := by
  rw [parseDims_rank hpos hmax]
  simp only [dimsParser, length_parserCells, h]
  rcases rank_cases hpos hmax with rfl | rfl | rfl | rfl
  · match numbers, hfull with
    | [a], _ => rfl
  · match numbers, hfull with
    | [a, b], _ => rfl
  · match numbers, hfull with
    | [a, b, c], _ => rfl
  · match numbers, hfull with
    | [a, b, c, d], _ => rfl

end Parsers

end ExtractInfo
end Peer
end Beyond
