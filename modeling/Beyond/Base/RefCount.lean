import Mathlib.Logic.Function.Basic

/-!
# Reference counts

An object carries the number of its holders and is freed by the last one that leaves.  `holders` says
who holds what, `count` is the counter of each object in memory (`none` where there is no object), and
`frees` how often an object was freed.  They agree when every object that was made is either held, in
memory and never freed, or held by nobody, gone and freed once.
-/

namespace Beyond

variable {ρ : Type*}

/-- One object. -/
structure CountedAt (made : Prop) (holders : Nat) (count : Option Int) (frees : Nat) : Prop where
  held : holders ≠ 0 → made ∧ count = some (holders : Int) ∧ frees = 0
  gone : holders = 0 → count = none
  freed : made → holders = 0 → frees = 1
  unmade : ¬ made → frees = 0

def Counted (made : ρ → Prop) (holders : ρ → Nat) (count : ρ → Option Int) (frees : ρ → Nat) :
    Prop :=
  ∀ a, CountedAt (made a) (holders a) (count a) (frees a)

namespace Counted

variable {made made' : ρ → Prop} {holders : ρ → Nat} {count : ρ → Option Int} {frees : ρ → Nat}

theorem count_of_held (h : Counted made holders count frees) {a : ρ} (ha : holders a ≠ 0) :
    count a = some (holders a : Int) := ((h a).held ha).2.1

/-- An object is freed exactly once, and exactly when nobody holds it. -/
theorem frees_eq (h : Counted made holders count frees) {a : ρ} (ha : made a) :
    frees a = if holders a = 0 then 1 else 0 := by
  by_cases hheld : holders a = 0
  · rw [if_pos hheld]
    exact (h a).freed ha hheld
  · rw [if_neg hheld]
    exact ((h a).held hheld).2.2

variable [DecidableEq ρ]

theorem set (h : Counted made holders count frees) (a : ρ)
    (hmade : ∀ b, b ≠ a → (made' b ↔ made b)) {n : Nat} {c : Option Int} {f : Nat}
    (ha : CountedAt (made' a) n c f) :
    Counted made' (Function.update holders a n) (Function.update count a c)
      (Function.update frees a f) := by
  intro b
  by_cases hba : b = a
  · subst hba
    simpa using ha
  · simpa [Function.update_of_ne hba, hmade b hba] using h b

/-- A new object, with its first holder. -/
theorem alloc (h : Counted made holders count frees) {a : ρ}
    (hmade : ∀ b, made' b ↔ b = a ∨ made b) (ha : ¬ made a) :
    Counted made' (Function.update holders a 1) (Function.update count a (some 1)) frees := by
  have hnew : CountedAt (made' a) 1 (some 1) (frees a) :=
    ⟨fun _ => ⟨(hmade a).2 (.inl rfl), rfl, (h a).unmade ha⟩, by simp, by simp,
      fun _ => (h a).unmade ha⟩
  simpa using h.set a (fun b hb => by simp [hmade, hb]) hnew

/-- A further holder comes. -/
theorem join (h : Counted made holders count frees) {a : ρ} (ha : holders a ≠ 0) :
    Counted made (Function.update holders a (holders a + 1))
      (Function.update count a (some ((holders a : Int) + 1))) frees := by
  have hold := (h a).held ha
  have hnew : CountedAt (made a) (holders a + 1) (some ((holders a : Int) + 1)) (frees a) :=
    ⟨fun _ => ⟨hold.1, by simp, hold.2.2⟩, by simp, by simp, fun _ => hold.2.2⟩
  simpa using h.set a (fun _ _ => Iff.rfl) hnew

/-- A holder leaves, and others stay. -/
theorem leave (h : Counted made holders count frees) {a : ρ} {n : Nat} (ha : holders a = n + 1)
    (hn : n ≠ 0) :
    Counted made (Function.update holders a n) (Function.update count a (some (n : Int)))
      frees := by
  have hold := (h a).held (by omega)
  have hnew : CountedAt (made a) n (some (n : Int)) (frees a) :=
    ⟨fun _ => ⟨hold.1, rfl, hold.2.2⟩, fun h0 => absurd h0 hn, fun _ h0 => absurd h0 hn,
      fun _ => hold.2.2⟩
  simpa using h.set a (fun _ _ => Iff.rfl) hnew

/-- The last holder leaves, and frees the object. -/
theorem last (h : Counted made holders count frees) {a : ρ} (ha : holders a = 1) :
    Counted made (Function.update holders a 0) (Function.update count a none)
      (Function.update frees a (frees a + 1)) := by
  have hold := (h a).held (by omega)
  exact h.set a (fun _ _ => Iff.rfl) ⟨by simp, fun _ => rfl, fun _ _ => by rw [hold.2.2],
    fun hmade => absurd hold.1 hmade⟩

end Counted

end Beyond
