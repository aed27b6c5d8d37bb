import Mathlib.Logic.Basic
import Mathlib.Data.Option.Basic

/-!
# Runs of a labelled step function

A system is given by a step function `step : σ → α → Option σ`: an action `a` either is not
enabled in a state or leads to exactly one next state.  Everything that a scheduler, a caller or
the environment may choose is part of the action, so the runs of the system are its lists of
actions.

* `exec step s as` is the state after the actions `as`;
* `Along step G s as` says that each action of `as` meets `G` in the state in which it is taken;
* `Preserved step G I` is the proof obligation of an inductive invariant that may assume `G`;
* `within step P` is the system whose steps wait as long as they would lead out of `P`.

The rules at the end turn facts about one step into facts about whole runs.
-/

namespace Beyond
namespace Run

variable {σ α : Type*} {step : σ → α → Option σ}

/-- The state after a list of actions; `none` if one of them is not enabled. -/
def exec (step : σ → α → Option σ) : σ → List α → Option σ
  | s, [] => some s
  | s, a :: as => (step s a).bind fun s' => exec step s' as

/-- Each action of the list meets `G` in the state in which it is taken. -/
def Along (step : σ → α → Option σ) (G : σ → α → Prop) : σ → List α → Prop
  | _, [] => True
  | s, a :: as => G s a ∧ ∀ s', step s a = some s' → Along step G s' as

/-- `I` is kept by every enabled action that meets `G`. -/
def Preserved (step : σ → α → Option σ) (G : σ → α → Prop) (I : σ → Prop) : Prop :=
  ∀ ⦃s a s'⦄, I s → G s a → step s a = some s' → I s'

@[simp] theorem exec_nil (s : σ) : exec step s [] = some s := rfl

theorem exec_cons (s : σ) (a : α) (as : List α) :
    exec step s (a :: as) = (step s a).bind fun s' => exec step s' as := rfl

theorem exec_cons_some {s s'' : σ} {a : α} {as : List α} :
    exec step s (a :: as) = some s'' ↔ ∃ s', step s a = some s' ∧ exec step s' as = some s'' := by
  simp [exec_cons, Option.bind_eq_some_iff]

theorem exec_append (s : σ) (as bs : List α) :
    exec step s (as ++ bs) = (exec step s as).bind fun s' => exec step s' bs := by
  induction as generalizing s with
  | nil => rfl
  | cons a as ih => simp [exec_cons, ih, Option.bind_assoc]

@[simp] theorem along_nil (G : σ → α → Prop) (s : σ) : Along step G s [] := trivial

theorem along_cons {G : σ → α → Prop} {s : σ} {a : α} {as : List α} :
    Along step G s (a :: as) ↔ G s a ∧ ∀ s', step s a = some s' → Along step G s' as := Iff.rfl

/-- Whether a fixed run meets a decidable condition can be computed. -/
instance Along.decidable (step : σ → α → Option σ) (G : σ → α → Prop) [∀ s a, Decidable (G s a)] :
    ∀ s as, Decidable (Along step G s as)
  | _, [] => isTrue trivial
  | s, a :: as =>
      match h : step s a with
      | none => decidable_of_iff (G s a) (by simp [along_cons, h])
      | some t =>
          have := Along.decidable step G t as
          decidable_of_iff (G s a ∧ Along step G t as) (by simp [along_cons, h])

theorem along_of_step {G : σ → α → Prop} {s t : σ} {a : α} {as : List α} (ha : G s a)
    (ht : step s a = some t) (has : Along step G t as) : Along step G s (a :: as) := by
  refine ⟨ha, fun u hu => ?_⟩
  cases Option.some.inj (ht.symm.trans hu)
  exact has

theorem along_append {G : σ → α → Prop} {s : σ} {as bs : List α} :
    Along step G s (as ++ bs) ↔
      Along step G s as ∧ ∀ s', exec step s as = some s' → Along step G s' bs := by
  induction as generalizing s with
  | nil => simp
  | cons a as ih =>
      constructor
      · rintro ⟨ha, hrest⟩
        -- The rest of the run starts in the state after `a`, which is where `ih` is used.
        refine ⟨⟨ha, fun t ht => (ih.1 (hrest t ht)).1⟩, ?_⟩
        intro s' hs'
        rcases exec_cons_some.1 hs' with ⟨t, ht, hexec⟩
        exact (ih.1 (hrest t ht)).2 s' hexec
      · rintro ⟨⟨ha, hrest⟩, hbs⟩
        refine ⟨ha, fun t ht => ih.2 ⟨hrest t ht, ?_⟩⟩
        intro s' hs'
        exact hbs s' (exec_cons_some.2 ⟨t, ht, hs'⟩)

theorem along_and {G P : σ → α → Prop} {s : σ} {as : List α} :
    Along step (fun s a => G s a ∧ P s a) s as ↔ Along step G s as ∧ Along step P s as := by
  induction as generalizing s with
  | nil => simp
  | cons a as ih =>
      simp only [along_cons, ih]
      constructor
      · rintro ⟨⟨hG, hP⟩, hrest⟩
        exact ⟨⟨hG, fun t ht => (hrest t ht).1⟩, hP, fun t ht => (hrest t ht).2⟩
      · rintro ⟨⟨hG, hGrest⟩, hP, hPrest⟩
        exact ⟨⟨hG, hP⟩, fun t ht => ⟨hGrest t ht, hPrest t ht⟩⟩

/-! ## Waiting -/

/-- The system in which a step waits as long as it would lead out of `P`. -/
def within (step : σ → α → Option σ) (P : σ → Prop) [DecidablePred P] (s : σ) (a : α) : Option σ :=
  (step s a).filter fun t => decide (P t)

theorem within_eq_some {P : σ → Prop} [DecidablePred P] {s t : σ} {a : α} :
    within step P s a = some t ↔ step s a = some t ∧ P t := by
  simp [within, Option.filter_eq_some_iff]

theorem within_isSome {P : σ → Prop} [DecidablePred P] {s t : σ} {a : α} (h : step s a = some t)
    (ht : P t) : (within step P s a).isSome = true :=
  Option.isSome_iff_exists.2 ⟨t, within_eq_some.2 ⟨h, ht⟩⟩

/-! ## From steps to runs -/

theorem Along.of_forall {P : σ → α → Prop} {as : List α} (h : ∀ a ∈ as, ∀ s, P s a) {s : σ} :
    Along step P s as := by
  induction as generalizing s with
  | nil => trivial
  | cons a as ih =>
      exact ⟨h a (by simp) s, fun _ _ => ih fun b hb => h b (List.mem_cons_of_mem _ hb)⟩

/-- An invariant that each guarded step keeps holds after every guarded run. -/
theorem exec_invariant {G : σ → α → Prop} {I : σ → Prop} (hI : Preserved step G I)
    {s s' : σ} {as : List α} (hs : I s) (hG : Along step G s as)
    (hexec : exec step s as = some s') : I s' := by
  induction as generalizing s with
  | nil =>
      cases hexec
      exact hs
  | cons a as ih =>
      rcases exec_cons_some.1 hexec with ⟨t, ht, hrest⟩
      exact ih (hI hs hG.1 ht) (hG.2 t ht) hrest

/-- An invariant that every step keeps holds after every run. -/
theorem exec_preserved {I : σ → Prop} (hI : ∀ s a s', I s → step s a = some s' → I s')
    {s s' : σ} {as : List α} (hs : I s) (hexec : exec step s as = some s') : I s' :=
  exec_invariant (G := fun _ _ => True) (fun s a s' hs _ h => hI s a s' hs h) hs
    (Along.of_forall fun _ _ _ => trivial) hexec

/-- Where every guarded step is a run of another system between related states, every guarded run is
one. -/
theorem exec_simulates {τ β : Type*} {step' : τ → β → Option τ} {G : σ → α → Prop}
    {R : σ → τ → Prop}
    (hR : ∀ s t a s', R s t → G s a → step s a = some s' →
      ∃ bs t', exec step' t bs = some t' ∧ R s' t')
    {s s' : σ} {t : τ} {as : List α} (hs : R s t) (hG : Along step G s as)
    (hexec : exec step s as = some s') : ∃ bs t', exec step' t bs = some t' ∧ R s' t' := by
  induction as generalizing s t with
  | nil =>
      cases hexec
      exact ⟨[], t, rfl, hs⟩
  | cons a as ih =>
      rcases exec_cons_some.1 hexec with ⟨u, hu, hrest⟩
      rcases hR s t a u hs hG.1 hu with ⟨bs, t₁, hbs, hu'⟩
      rcases ih hu' (hG.2 u hu) hrest with ⟨bs', t', hbs', hs'⟩
      refine ⟨bs ++ bs', t', ?_, hs'⟩
      rw [exec_append, hbs]
      exact hbs'

/-- Where two step properties agree on the enabled steps from states of the invariant, they agree on
runs. -/
theorem along_iff_of_invariant {G P : σ → α → Prop} {I : σ → Prop} (hI : Preserved step G I)
    (hP : ∀ s a s', I s → step s a = some s' → (P s a ↔ G s a))
    {s s' : σ} {as : List α} (hs : I s) (hexec : exec step s as = some s') :
    Along step P s as ↔ Along step G s as := by
  induction as generalizing s with
  | nil => simp
  | cons a as ih =>
      rcases exec_cons_some.1 hexec with ⟨t, ht, hrest⟩
      -- Both directions need the invariant behind `a`, and so that `a` meets `G`.
      have hhead := hP s a t hs ht
      constructor
      · rintro ⟨ha, hP'⟩
        have hG := hhead.1 ha
        exact along_of_step hG ht ((ih (hI hs hG ht) hrest).1 (hP' t ht))
      · rintro ⟨ha, hG'⟩
        exact along_of_step (hhead.2 ha) ht ((ih (hI hs ha ht) hrest).2 (hG' t ht))

/-- Where two conditions on steps agree in the states of the invariant, they agree along every list
of actions, also one that cannot be taken to its end. -/
theorem along_congr {G P : σ → α → Prop} {I : σ → Prop} (hI : Preserved step G I)
    (hP : ∀ s a, I s → (P s a ↔ G s a)) {s : σ} {as : List α} (hs : I s) :
    Along step P s as ↔ Along step G s as := by
  induction as generalizing s with
  | nil => simp
  | cons a as ih =>
      rw [along_cons, along_cons, hP s a hs]
      refine and_congr_right fun hG => forall_congr' fun t => ?_
      exact imp_congr_right fun ht => ih (hI hs hG ht)

/-- A clean step keeps the invariant, any other does damage, and damage stays: every run is either
clean to its end or ends damaged. -/
theorem clean_or_damaged {G : σ → α → Prop} {I D : σ → Prop} (hI : Preserved step G I)
    (hbreak : ∀ s a s', I s → ¬ G s a → step s a = some s' → D s')
    (hstay : ∀ s a s', D s → step s a = some s' → D s')
    {s s' : σ} {as : List α} (hs : I s) (hexec : exec step s as = some s') :
    (Along step G s as ∧ I s') ∨ D s' := by
  induction as generalizing s with
  | nil =>
      cases hexec
      exact .inl ⟨trivial, hs⟩
  | cons a as ih =>
      rcases exec_cons_some.1 hexec with ⟨t, ht, hrest⟩
      by_cases hG : G s a
      · rcases ih (hI hs hG ht) hrest with ⟨hall, hend⟩ | hD
        · exact .inl ⟨along_of_step hG ht hall, hend⟩
        · exact .inr hD
      · exact .inr (exec_preserved hstay (hbreak s a t hs hG ht) hrest)

/-- What the invariant gives and damage excludes holds after exactly the clean runs. -/
theorem holds_iff_along {G : σ → α → Prop} {I D P : σ → Prop} (hI : Preserved step G I)
    (hbreak : ∀ s a s', I s → ¬ G s a → step s a = some s' → D s')
    (hstay : ∀ s a s', D s → step s a = some s' → D s')
    (hsound : ∀ s, I s → P s) (hlost : ∀ s, D s → ¬ P s)
    {s s' : σ} {as : List α} (hs : I s) (hexec : exec step s as = some s') :
    P s' ↔ Along step G s as := by
  constructor
  · intro hP
    rcases clean_or_damaged hI hbreak hstay hs hexec with ⟨hall, -⟩ | hD
    · exact hall
    · exact absurd hP (hlost s' hD)
  · intro hall
    exact hsound s' (exec_invariant hI hs hall hexec)

/-- A condition on the actions alone holds along a run when all of its actions meet it. -/
theorem along_iff_forall {G : α → Prop} {s s' : σ} {as : List α}
    (hexec : exec step s as = some s') :
    Along step (fun _ a => G a) s as ↔ ∀ a ∈ as, G a := by
  induction as generalizing s with
  | nil => simp
  | cons a as ih =>
      rcases exec_cons_some.1 hexec with ⟨t, ht, hrest⟩
      rw [List.forall_mem_cons, ← ih hrest]
      refine and_congr_right fun _ => ⟨fun h => h t ht, fun h u hu => ?_⟩
      cases Option.some.inj (ht.symm.trans hu)
      exact h

end Run
end Beyond
