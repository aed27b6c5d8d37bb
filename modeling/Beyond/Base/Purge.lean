import Beyond.Base.Run

/-!
# Runs without the others' actions

Several parties act on one system, and one of them watches it: it sees what its own actions answer
and nothing else.  The others do not interfere with it if the run from which their actions are
purged gives it the same answers.  This is a condition on whole runs; `Unwinds` reduces it to one on
steps, with a relation between the state of the full run and that of the purged one.
-/

namespace Beyond
namespace Run

variable {σ τ α ο : Type*}

/-- The answers that the watcher sees along a run; `mine` are its actions. -/
def observed (step : σ → α → Option σ) (out : σ → α → ο) (mine : α → Bool) : σ → List α → List ο
  | _, [] => []
  | s, a :: as =>
      let rest := (step s a).elim [] fun s' => observed step out mine s' as
      if mine a then out s a :: rest else rest

@[simp] theorem observed_nil (step : σ → α → Option σ) (out : σ → α → ο) (mine : α → Bool) (s : σ) :
    observed step out mine s [] = [] := rfl

theorem observed_mine {step : σ → α → Option σ} {out : σ → α → ο} {mine : α → Bool} {s s' : σ}
    {a : α} {as : List α} (ha : mine a = true) (h : step s a = some s') :
    observed step out mine s (a :: as) = out s a :: observed step out mine s' as := by
  simp [observed, ha, h]

theorem observed_other {step : σ → α → Option σ} {out : σ → α → ο} {mine : α → Bool} {s s' : σ}
    {a : α} {as : List α} (ha : mine a = false) (h : step s a = some s') :
    observed step out mine s (a :: as) = observed step out mine s' as := by
  simp [observed, ha, h]

/-- The two conditions on steps: what the others do keeps the relation while the purged run stands
still, and on the watcher's actions both runs go on with the same answer. -/
structure Unwinds (step : σ → α → Option σ) (step' : τ → α → Option τ) (out : σ → α → ο)
    (out' : τ → α → ο) (mine : α → Bool) (G : σ → α → Prop) (R : σ → τ → Prop) : Prop where
  other : ∀ {s t a s'}, R s t → G s a → mine a = false → step s a = some s' → R s' t
  mine : ∀ {s t a s'}, R s t → G s a → mine a = true → step s a = some s' →
    ∃ t', step' t a = some t' ∧ R s' t' ∧ out s a = out' t a

/-- The run without the others' actions exists, and the watcher sees the same answers along it. -/
theorem Unwinds.purge {step : σ → α → Option σ} {step' : τ → α → Option τ} {out : σ → α → ο}
    {out' : τ → α → ο} {mine : α → Bool} {G : σ → α → Prop} {R : σ → τ → Prop}
    (h : Unwinds step step' out out' mine G R) {s s' : σ} {t : τ} {as : List α} (hR : R s t)
    (hG : Along step G s as) (hexec : exec step s as = some s') :
    ∃ t', exec step' t (as.filter mine) = some t' ∧ R s' t' ∧
      observed step out mine s as = observed step' out' mine t (as.filter mine) := by
  induction as generalizing s t with
  | nil =>
      cases hexec
      exact ⟨t, rfl, hR, rfl⟩
  | cons a as ih =>
      rcases exec_cons_some.1 hexec with ⟨u, hu, hrest⟩
      have hGrest := hG.2 u hu
      cases ha : mine a with
      | false =>
          -- The purged run does not take this action, so it is where it was.
          rw [List.filter_cons_of_neg (by simp [ha]), observed_other ha hu]
          exact ih (h.other hR hG.1 ha hu) hGrest hrest
      | true =>
          rcases h.mine hR hG.1 ha hu with ⟨t₁, ht₁, hR₁, hout⟩
          rcases ih hR₁ hGrest hrest with ⟨t', ht', hR', hobs⟩
          rw [List.filter_cons_of_pos ha, observed_mine ha hu, observed_mine ha ht₁, hout, hobs]
          exact ⟨t', exec_cons_some.2 ⟨t₁, ht₁, ht'⟩, hR', rfl⟩

end Run
end Beyond
