import Mathlib.Data.List.TakeWhile
import Beyond.Base.Hex

/-!
# SRTP key texts

Both pipelines write the session secret as hexadecimal text behind their SRTP element.  The loop that
does so is the same on the client and on the server: it goes through a C string and hands each `char`
to `%.2X`, so that a zero byte ends the text and a negative `char` is converted to `unsigned int`
before it is printed into a buffer of three characters.
-/

namespace Beyond
namespace Peer

def masterKeySize : Nat := 30

/-- The argument of `%X` for a `char`, after the integer promotions. -/
def promote (charSigned : Bool) (c : UInt8) : BitVec 32 :=
  if charSigned then c.toBitVec.signExtend 32 else c.toBitVec.zeroExtend 32

/-- `snprintf(hex, sizeof(hex), "%.2X", c)`. -/
def keyHex (charSigned : Bool) (c : UInt8) : Bytes :=
  Hex.snprintf 3 (Hex.printX 2 (promote charSigned c).toNat)

/-- `for (int i = 0; i < n && ptr[i] != '\0'; ++i)`. -/
def keyLoop (charSigned : Bool) : Nat → Bytes → Bytes
  | 0, _ => []
  | _ + 1, [] => []
  | n + 1, c :: ptr => if c = 0 then [] else keyHex charSigned c ++ keyLoop charSigned n ptr

/-- `_secretKey` in the client's `Prepare`; `c_str()` ends with a zero byte. -/
def GrpcClient.Gst.srtpKey (charSigned : Bool) (secretKey : Bytes) : Bytes :=
  keyLoop charSigned masterKeySize (secretKey ++ [0])

/-- `_secretKey` in the server's `Prepare`. -/
def GrpcServer.Gst.srtpKey (charSigned : Bool) (secretKey : Bytes) : Bytes :=
  keyLoop charSigned masterKeySize (secretKey ++ [0])

/-- One end of a session: the program that builds the pipeline, and the signedness of `char` on its
machine. -/
inductive PipelineEnd
  | client (charSigned : Bool)
  | server (charSigned : Bool)
  deriving DecidableEq, Repr

namespace PipelineEnd

def charSigned : PipelineEnd → Bool
  | client s => s
  | server s => s

def srtpKey : PipelineEnd → Bytes → Bytes
  | client s => GrpcClient.Gst.srtpKey s
  | server s => GrpcServer.Gst.srtpKey s

theorem srtpKey_eq (e : PipelineEnd) (key : Bytes) :
    e.srtpKey key = keyLoop e.charSigned masterKeySize (key ++ [0]) := by
  cases e <;> rfl

end PipelineEnd

/-! ## What a key text should be -/

/-- Two digits for each of the first `masterKeySize` bytes of the key, which decode back to them. -/
structure Spells (text key : Bytes) : Prop where
  length : text.length = 2 * min key.length masterKeySize
  decode : Hex.decode text = some (key.take masterKeySize)

/-- The two ends derive texts that spell their secrets, and the same text exactly for secrets that
begin with the same bytes. -/
structure KeysKept (e₁ e₂ : PipelineEnd) (key₁ key₂ : Bytes) : Prop where
  first : Spells (e₁.srtpKey key₁) key₁
  second : Spells (e₂.srtpKey key₂) key₂
  same : e₁.srtpKey key₁ = e₂.srtpKey key₂ ↔
    key₁.take masterKeySize = key₂.take masterKeySize

/-- No byte of the part that is used ends the C string or is printed as another byte. -/
def Printable (charSigned : Bool) (key : Bytes) : Prop :=
  ∀ c ∈ key.take masterKeySize, c ≠ 0 ∧ (charSigned = true → c < 0x80 ∨ c = 0xff)

/-! ## What the loop prints -/

/-- The byte whose digits are printed for a `char`. -/
def printed (charSigned : Bool) (c : UInt8) : UInt8 :=
  if charSigned = true ∧ 0x80 ≤ c then 0xff else c

theorem printed_eq_self_iff {charSigned : Bool} {c : UInt8} :
    printed charSigned c = c ↔ (charSigned = true → c < 0x80 ∨ c = 0xff) := by
  unfold printed
  split
  · rename_i h
    have hneg : ¬ c < 0x80 := by simpa using h.2
    simp [h.1, hneg, eq_comm]
  · rename_i h
    have hpos : charSigned = true → c < 0x80 := by simpa using h
    simpa using fun hs => Or.inl (hpos hs)

/-- A negative `char` is extended to eight digits, of which the buffer holds the first two. -/
theorem keyHex_eq (charSigned : Bool) (c : UInt8) :
    keyHex charSigned c = Hex.pair (printed charSigned c) := by
  have hall : ∀ s : Bool, ∀ n < 256,
      keyHex s (UInt8.ofNat n) = Hex.pair (printed s (UInt8.ofNat n)) := by
    decide +kernel
  have hc := hall charSigned c.toNat c.toNat_lt
  rwa [UInt8.ofNat_toNat] at hc

theorem keyLoop_eq (charSigned : Bool) (n : Nat) (key : Bytes) :
    keyLoop charSigned n (key ++ [0]) =
      Hex.encode ((Bytes.cstring (key.take n)).map (printed charSigned)) := by
  induction n generalizing key with
  | zero => simp [keyLoop, Bytes.cstring]
  | succ n ih =>
      cases key with
      | nil => simp [keyLoop, Bytes.cstring]
      | cons c key =>
          by_cases hc : c = 0
          · simp [keyLoop, hc, Bytes.cstring]
          · have htail := ih key
            simp [keyLoop, hc, keyHex_eq, Bytes.cstring, Hex.encode_cons] at htail ⊢
            exact htail

theorem decode_srtpKey (e : PipelineEnd) (key : Bytes) :
    Hex.decode (e.srtpKey key) =
      some ((Bytes.cstring (key.take masterKeySize)).map (printed e.charSigned)) := by
  rw [e.srtpKey_eq, keyLoop_eq, Hex.decode_encode]

/-- The bytes in front of a zero byte, each mapped by `f`, are all the bytes only if there is no zero
byte and `f` changes none of them. -/
theorem map_cstring_eq_self_iff {f : UInt8 → UInt8} {bs : Bytes} :
    (Bytes.cstring bs).map f = bs ↔ ∀ c ∈ bs, c ≠ 0 ∧ f c = c := by
  have hmap : bs.map f = bs ↔ ∀ c ∈ bs, f c = c := by
    simpa using List.map_inj_left (l := bs) (f := f) (g := id)
  have hcstring : Bytes.cstring bs = bs ↔ ∀ c ∈ bs, c ≠ 0 := by
    simp [Bytes.cstring, List.takeWhile_eq_self_iff]
  constructor
  · intro h
    -- The length is kept, so nothing was cut off.
    have hlen : (Bytes.cstring bs).length = bs.length := by simpa using congrArg List.length h
    have hall : Bytes.cstring bs = bs := (List.takeWhile_prefix _).eq_of_length hlen
    rw [hall] at h
    exact fun c hc => ⟨hcstring.1 hall c hc, hmap.1 h c hc⟩
  · intro h
    rw [hcstring.2 fun c hc => (h c hc).1]
    exact hmap.2 fun c hc => (h c hc).2

theorem printable_iff (e : PipelineEnd) (key : Bytes) :
    Printable e.charSigned key ↔
      (Bytes.cstring (key.take masterKeySize)).map (printed e.charSigned) =
        key.take masterKeySize := by
  rw [map_cstring_eq_self_iff]
  simp only [Printable, printed_eq_self_iff]

theorem Printable.srtpKey_eq {e : PipelineEnd} {key : Bytes} (h : Printable e.charSigned key) :
    e.srtpKey key = Hex.encode (key.take masterKeySize) := by
  rw [e.srtpKey_eq, keyLoop_eq, (printable_iff e key).1 h]

theorem spells_srtpKey_iff (e : PipelineEnd) (key : Bytes) :
    Spells (e.srtpKey key) key ↔ Printable e.charSigned key := by
  constructor
  · intro h
    rw [printable_iff]
    exact Option.some.inj ((decode_srtpKey e key).symm.trans h.decode)
  · intro h
    rw [h.srtpKey_eq]
    exact ⟨by simp [Nat.min_comm], Hex.decode_encode _⟩

/-! ## Main result -/

/-- For any two ends and any two secrets: nothing is lost exactly when both secrets are printable
where they are printed. -/
theorem srtpKey_keeps_secret (e₁ e₂ : PipelineEnd) (key₁ key₂ : Bytes) :
    KeysKept e₁ e₂ key₁ key₂ ↔
      Printable e₁.charSigned key₁ ∧ Printable e₂.charSigned key₂ := by
  constructor
  · intro h
    exact ⟨(spells_srtpKey_iff e₁ key₁).1 h.first, (spells_srtpKey_iff e₂ key₂).1 h.second⟩
  · rintro ⟨h₁, h₂⟩
    refine ⟨(spells_srtpKey_iff e₁ key₁).2 h₁, (spells_srtpKey_iff e₂ key₂).2 h₂, ?_⟩
    rw [h₁.srtpKey_eq, h₂.srtpKey_eq]
    exact Hex.encode_injective.eq_iff

/-- A secret of the length that `ExchangeKey` makes, with a given first byte. -/
def secretFrom (c : UInt8) : Bytes := c :: List.replicate 31 0x5a

/-- Where `char` is signed, two different secrets get one text; and a secret that begins with a zero
byte gets no digit at all. -/
theorem srtpKey_loses_bytes :
    ¬ KeysKept (.client true) (.server true) (secretFrom 0x80) (secretFrom 0x81) ∧
      ¬ KeysKept (.client false) (.server false) (secretFrom 0) (secretFrom 0) := by
  constructor
  · intro h
    exact absurd (h.same.1 (by decide +kernel)) (by decide)
  · intro h
    exact absurd h.first.length (by decide)

end Peer
end Beyond
