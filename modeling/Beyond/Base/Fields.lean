import Beyond.Base.Bytes

/-!
# Texts of fields

Lists of texts that are written with a separator between them, and fields of the form `key=value`.
-/

namespace Beyond
namespace Bytes

/-- The texts, with the separator between them. -/
def sepBy (sep : UInt8) (texts : List Bytes) : Bytes := [sep].intercalate texts

/-- The fields of a text in which a separator between double quotes does not count. -/
def splitUnquoted (sep : UInt8) : Bool → Bytes → List Bytes
  | _, [] => [[]]
  | quoted, b :: text =>
      if b = sep ∧ quoted = false then [] :: splitUnquoted sep false text
      else (splitUnquoted sep (quoted ^^ (b == 0x22)) text).modifyHead (b :: ·)

def key (field : Bytes) : Bytes := field.takeWhile (· ≠ 0x3d)

def keyValue (field : Bytes) : Bytes := (field.dropWhile (· ≠ 0x3d)).drop 1

/-- The value of the first field with this key. -/
def lookupKey (k : Bytes) (fields : List Bytes) : Option Bytes :=
  (fields.find? fun field => key field == k).map keyValue

/-! ## Separators -/

theorem splitOn_sepBy {sep : UInt8} {texts : List Bytes} (hne : texts ≠ [])
    (hfree : ∀ t ∈ texts, sep ∉ t) : (sepBy sep texts).splitOn sep = texts :=
  List.splitOn_intercalate sep hfree hne

@[simp] theorem sepBy_singleton (sep : UInt8) (t : Bytes) : sepBy sep [t] = t := by
  simp [sepBy]

theorem sepBy_cons_cons (sep : UInt8) (t u : Bytes) (texts : List Bytes) :
    sepBy sep (t :: u :: texts) = t ++ sep :: sepBy sep (u :: texts) := by
  simp [sepBy, List.intercalate]

theorem sepBy_cons (sep : UInt8) (t : Bytes) (texts : List Bytes) :
    sepBy sep (t :: texts) = t ++ texts.flatMap (sep :: ·) := by
  induction texts generalizing t with
  | nil => simp
  | cons u texts ih => rw [sepBy_cons_cons, ih, List.flatMap_cons, List.cons_append]

theorem sepBy_ne_nil {sep : UInt8} {texts : List Bytes} (hne : texts ≠ [])
    (h : ∀ t ∈ texts, t ≠ []) : sepBy sep texts ≠ [] := by
  cases texts with
  | nil => exact absurd rfl hne
  | cons t texts =>
      rw [sepBy_cons]
      exact List.append_ne_nil_of_left_ne_nil (h t List.mem_cons_self) _

theorem not_mem_sepBy {b sep : UInt8} {texts : List Bytes} (hsep : b ≠ sep)
    (hfree : ∀ t ∈ texts, b ∉ t) : b ∉ sepBy sep texts := by
  induction texts with
  | nil => simp [sepBy]
  | cons t texts ih =>
      have hrest := ih fun u hu => hfree u (List.mem_cons_of_mem t hu)
      cases texts with
      | nil => simpa using hfree t List.mem_cons_self
      | cons u texts =>
          rw [sepBy_cons_cons, List.mem_append, List.mem_cons]
          rintro (hb | hb | hb)
          · exact hfree t List.mem_cons_self hb
          · exact hsep hb
          · exact hrest hb

/-- Without quotes every separator counts. -/
theorem splitUnquoted_eq_splitOn {sep : UInt8} {text : Bytes} (hquote : 0x22 ∉ text) :
    splitUnquoted sep false text = text.splitOn sep := by
  induction text with
  | nil => rfl
  | cons b text ih =>
      have hrest := ih fun hmem => hquote (List.mem_cons_of_mem b hmem)
      have hb : (b == 0x22) = false := by
        rw [beq_eq_false_iff_ne]
        rintro rfl
        exact hquote List.mem_cons_self
      unfold splitUnquoted
      rw [List.splitOn, List.splitOnP_cons_eq_if_modifyHead, hb, Bool.false_xor, hrest]
      by_cases hsep : b = sep <;> simp [hsep, List.splitOn]

/-! ## Keys -/

section Keys

variable {k v : Bytes}

theorem decide_ne_of_mem (hk : 0x3d ∉ k) : ∀ b ∈ k, decide (b ≠ 0x3d) = true := by
  intro b hb
  rw [decide_eq_true_eq]
  rintro rfl
  exact hk hb

theorem key_append (hk : 0x3d ∉ k) : key (k ++ 0x3d :: v) = k := by
  unfold key
  rw [List.takeWhile_append_of_pos (decide_ne_of_mem hk)]
  simp

theorem keyValue_append (hk : 0x3d ∉ k) : keyValue (k ++ 0x3d :: v) = v := by
  unfold keyValue
  rw [List.dropWhile_append_of_pos (decide_ne_of_mem hk)]
  simp

theorem lookupKey_cons_self {fields : List Bytes} (hk : 0x3d ∉ k) :
    lookupKey k ((k ++ 0x3d :: v) :: fields) = some v := by
  simp [lookupKey, key_append hk, keyValue_append hk]

theorem lookupKey_cons_of_ne {field : Bytes} {fields : List Bytes} (hne : key field ≠ k) :
    lookupKey k (field :: fields) = lookupKey k fields := by
  simp [lookupKey, hne]

/-- The field at place `i`, if none in front of it has its key. -/
theorem lookupKey_of_getElem? {fields : List Bytes} {i : Nat} (hk : 0x3d ∉ k)
    (hfield : fields[i]? = some (k ++ 0x3d :: v)) (hbefore : k ∉ (fields.map key).take i) :
    lookupKey k fields = some v := by
  induction fields generalizing i with
  | nil => simp at hfield
  | cons field fields ih =>
      cases i with
      | zero =>
          rw [List.getElem?_cons_zero, Option.some.injEq] at hfield
          rw [hfield]
          exact lookupKey_cons_self hk
      | succ i =>
          rw [List.map_cons, List.take_succ_cons, List.mem_cons, not_or] at hbefore
          rw [lookupKey_cons_of_ne (Ne.symm hbefore.1)]
          exact ih hfield hbefore.2

end Keys

end Bytes
end Beyond
