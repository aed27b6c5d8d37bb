import Beyond.Base.Bytes

/-!
# Reading numbers from text

The decimal value of a text, and the conversion `%d` of `sscanf`: white space, a sign and digits.  The
number that `std::to_string` writes is read back, with what stands behind it.
-/

namespace Beyond
namespace Bytes

def isDigit (b : UInt8) : Bool := 0x30 ≤ b && b ≤ 0x39

/-- The number that a digit stands for. -/
def digit (b : UInt8) : Nat := b.toNat - 0x30

/-- The decimal value of a text of digits, the first digit being the highest. -/
def value (text : Bytes) : Nat := text.foldl (fun n b => 10 * n + digit b) 0

/-- The number that a text is, if it is one. -/
def number (text : Bytes) : Option Nat :=
  if text ≠ [] ∧ text.all isDigit then some (value text) else none

/-- `isspace`. -/
def isSpace (b : UInt8) : Bool := b == 0x20 || (0x09 ≤ b && b ≤ 0x0d)

/-- The digits at the front, and what stands behind them; `none` if there are none. -/
def scanDigits (text : Bytes) : Option (Nat × Bytes) :=
  if text.takeWhile isDigit = [] then none
  else some (value (text.takeWhile isDigit), text.dropWhile isDigit)

def scanSigned : Bytes → Option (Int × Bytes)
  | 0x2d :: text => (scanDigits text).map fun r => (-(r.1 : Int), r.2)
  | 0x2b :: text => (scanDigits text).map fun r => ((r.1 : Int), r.2)
  | text => (scanDigits text).map fun r => ((r.1 : Int), r.2)

/-- `%d`: the number, of any size, and what stands behind it. -/
def scanInt (text : Bytes) : Option (Int × Bytes) := scanSigned (text.dropWhile isSpace)

/-! ## Values -/

theorem foldl_digit (text : Bytes) (n : Nat) :
    text.foldl (fun n b => 10 * n + digit b) n = 10 ^ text.length * n + value text := by
  induction text generalizing n with
  | nil => simp [value]
  | cons b text ih =>
      have hhead := ih (digit b)
      rw [value, List.foldl_cons, List.foldl_cons, ih, Nat.mul_zero, Nat.zero_add, hhead,
        List.length_cons, Nat.pow_succ]
      ring

theorem value_cons (b : UInt8) (text : Bytes) :
    value (b :: text) = 10 ^ text.length * digit b + value text := by
  rw [value, List.foldl_cons, Nat.mul_zero, Nat.zero_add, foldl_digit]

theorem value_concat (text : Bytes) (b : UInt8) : value (text ++ [b]) = 10 * value text + digit b := by
  simp [value]

theorem isDigit_iff {b : UInt8} : isDigit b = true ↔ 0x30 ≤ b.toNat ∧ b.toNat ≤ 0x39 := by
  simp [isDigit, UInt8.le_iff_toNat_le]

theorem isSpace_of_isDigit {b : UInt8} (hb : isDigit b = true) : isSpace b = false := by
  rw [isDigit_iff] at hb
  have hne : b ≠ 0x20 := by
    rintro rfl
    exact absurd hb.1 (by decide)
  have hlt : ¬ b.toNat ≤ 13 := by omega
  simp [isSpace, hne, UInt8.le_iff_toNat_le, hlt]

theorem digit_lt {b : UInt8} (hb : isDigit b = true) : digit b < 10 := by
  rw [isDigit_iff] at hb
  unfold digit
  omega

theorem value_lt {text : Bytes} (h : ∀ b ∈ text, isDigit b = true) :
    value text < 10 ^ text.length := by
  induction text with
  | nil => decide
  | cons b text ih =>
      have hb := digit_lt (h b List.mem_cons_self)
      have htext := ih fun c hc => h c (List.mem_cons_of_mem b hc)
      rw [value_cons, List.length_cons, Nat.pow_succ]
      calc 10 ^ text.length * digit b + value text
          < 10 ^ text.length * digit b + 10 ^ text.length := Nat.add_lt_add_left htext _
        _ = 10 ^ text.length * (digit b + 1) := by ring
        _ ≤ 10 ^ text.length * 10 := Nat.mul_le_mul_left _ hb

theorem digit_digitChar {n : Nat} (h : n < 10) : digit (UInt8.ofNat n.digitChar.toNat) = n := by
  rw [Nat.toNat_digitChar_of_lt_ten h, digit, UInt8.toNat_ofNat']
  omega

theorem isDigit_digitChar {n : Nat} (h : n < 10) :
    isDigit (UInt8.ofNat n.digitChar.toNat) = true := by
  rw [isDigit_iff, Nat.toNat_digitChar_of_lt_ten h, UInt8.toNat_ofNat']
  omega

theorem decimal_eq_if (n : Nat) :
    decimal n = if n < 10 then [UInt8.ofNat n.digitChar.toNat]
      else decimal (n / 10) ++ [UInt8.ofNat (n % 10).digitChar.toNat] := by
  unfold decimal
  rw [Nat.toDigits_eq_if (by decide)]
  split
  · rfl
  · rw [List.map_append]
    rfl

theorem isDigit_of_mem_decimal (n : Nat) : ∀ b ∈ decimal n, isDigit b = true := by
  induction n using Nat.strongRecOn with
  | ind n ih =>
      rw [decimal_eq_if]
      split
      · rename_i hn
        intro b hb
        rw [List.mem_singleton.1 hb]
        exact isDigit_digitChar hn
      · rename_i hn
        intro b hb
        rcases List.mem_append.1 hb with hb | hb
        · exact ih (n / 10) (by omega) b hb
        · rw [List.mem_singleton.1 hb]
          exact isDigit_digitChar (Nat.mod_lt n (by decide))

theorem value_decimal (n : Nat) : value (decimal n) = n := by
  induction n using Nat.strongRecOn with
  | ind n ih =>
      rw [decimal_eq_if]
      split
      · rename_i hn
        simpa [value] using digit_digitChar hn
      · rename_i hn
        rw [value_concat, ih (n / 10) (by omega), digit_digitChar (Nat.mod_lt n (by decide))]
        omega

/-! ## Reading back -/

/-- What stands behind a number does not go on with a digit. -/
def Ends (rest : Bytes) : Prop := ∀ b ∈ rest.head?, isDigit b = false

theorem scanDigits_decimal (n : Nat) {rest : Bytes} (hrest : Ends rest) :
    scanDigits (decimal n ++ rest) = some (n, rest) := by
  have hstop : rest.takeWhile isDigit = [] := by
    cases rest with
    | nil => rfl
    | cons b rest => exact List.takeWhile_cons_of_neg (by simpa using hrest b rfl)
  have hskip : rest.dropWhile isDigit = rest := by
    cases rest with
    | nil => rfl
    | cons b rest => exact List.dropWhile_cons_of_neg (by simpa using hrest b rfl)
  unfold scanDigits
  rw [List.takeWhile_append_of_pos (isDigit_of_mem_decimal n),
    List.dropWhile_append_of_pos (isDigit_of_mem_decimal n), hstop, hskip, List.append_nil,
    if_neg (decimal_ne_nil n), value_decimal]

theorem scanInt_integer (n : Int) (rest : Bytes) (hrest : Ends rest) :
    scanInt (integer n ++ rest) = some (n, rest) := by
  have hscan := scanDigits_decimal n.natAbs hrest
  unfold scanInt integer
  by_cases hn : n < 0
  · rw [if_pos hn, List.cons_append, List.dropWhile_cons_of_neg (by decide)]
    simp only [scanSigned, hscan, Option.map_some, Option.some.injEq, Prod.mk.injEq, and_true]
    omega
  · rw [if_neg hn]
    -- The first byte is a digit, so it is neither a space nor a sign.
    cases hdecimal : decimal n.natAbs with
    | nil => exact absurd hdecimal (decimal_ne_nil _)
    | cons b text =>
        have hb : isDigit b = true := isDigit_of_mem_decimal n.natAbs b (by simp [hdecimal])
        rw [hdecimal, List.cons_append] at hscan
        rw [List.cons_append, List.dropWhile_cons_of_neg (by simp [isSpace_of_isDigit hb])]
        unfold scanSigned
        split
        · rename_i heq
          cases (List.cons.inj heq).1
          exact absurd hb (by decide)
        · rename_i heq
          cases (List.cons.inj heq).1
          exact absurd hb (by decide)
        · simp only [hscan, Option.map_some, Option.some.injEq, Prod.mk.injEq, and_true]
          omega

/-- A byte that is neither a digit nor a minus does not occur in a number. -/
theorem not_mem_integer {b : UInt8} (hdigit : isDigit b = false) (hminus : b ≠ 0x2d) (n : Int) :
    b ∉ integer n := by
  have hdecimal : b ∉ decimal n.natAbs := fun hb =>
    absurd (isDigit_of_mem_decimal _ b hb) (by simp [hdigit])
  unfold integer
  split
  · simpa [hminus] using hdecimal
  · exact hdecimal

end Bytes
end Beyond
