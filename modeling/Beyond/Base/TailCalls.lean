import Mathlib.Logic.Basic

/-!
# Functions that end in a call

A function whose last act is a call goes on as the function it calls.  `step` says what one function
does with a configuration (the state together with the call under way): it makes a further call,
`Sum.inl`, or returns, `Sum.inr`.

* `Returns step c r` says that the call `c` comes back, and with the result `r`;
* `not_returns` excludes that for calls that only ever lead to calls of the same kind.
-/

namespace Beyond
namespace TailCalls

variable {κ ρ : Type*} {step : κ → κ ⊕ ρ}

/-- The call returns a result after finitely many further calls. -/
inductive Returns (step : κ → κ ⊕ ρ) : κ → ρ → Prop
  | done {c : κ} {r : ρ} : step c = .inr r → Returns step c r
  | next {c d : κ} {r : ρ} : step c = .inl d → Returns step d r → Returns step c r

theorem returns_iff_of_next {c d : κ} (h : step c = .inl d) {r : ρ} :
    Returns step c r ↔ Returns step d r := by
  constructor
  · intro hreturns
    cases hreturns with
    | done h' => exact absurd (h'.symm.trans h) (by simp)
    | next h' hrest =>
        cases Sum.inl.inj (h'.symm.trans h)
        exact hrest
  · intro hrest
    exact .next h hrest

/-- A kind of calls that leads to calls of this kind only never returns. -/
theorem not_returns {I : κ → Prop} (hI : ∀ c, I c → ∃ d, step c = .inl d ∧ I d) {c : κ}
    (hc : I c) (r : ρ) : ¬ Returns step c r := by
  intro hreturns
  induction hreturns with
  | done hdone =>
      rcases hI _ hc with ⟨d, hnext, -⟩
      exact absurd (hnext.symm.trans hdone) (by simp)
  | next hstep _ ih =>
      rcases hI _ hc with ⟨d, hnext, hd⟩
      cases Sum.inl.inj (hnext.symm.trans hstep)
      exact ih hd

end TailCalls
end Beyond
