import Mathlib.Logic.Function.Basic
import Mathlib.Tactic.SplitIfs
import Beyond.Base.Run

/-!
# The signal loop

One event loop of the process may take the signals.  The static flag `EventLoop::impl::signalLoop` is
set by `Create` for such a loop and cleared by the destructor; the member `enable_signal` tells the
destructor whether to clear it, and `ThreadMain` whether to open a signal descriptor.
-/

namespace Beyond
namespace EventLoop
namespace SignalLoop

/-! ## State -/

structure Loop where
  /-- The argument of `Create`. -/
  signal : Bool
  enableSignal : Bool
  enableThread : Bool
  deriving DecidableEq, Repr

/-- The loops that are alive, and those whose `ThreadMain` has opened a signal descriptor. -/
structure State where
  loops : Nat → Option Loop
  signalLoop : Bool
  opened : List Loop

def State.initial : State where
  loops _ := none
  signalLoop := false
  opened := []

/-- Where `Create` can fail, apart from the refusal of a second signal loop. -/
inductive CreateStep
  | newLoop
  | socketpair
  | epollCreate
  | newGeneric
  | addEventHandler
  deriving DecidableEq, Repr

inductive Act
  | create (i : Nat) (thread signal : Bool) (fails : Option CreateStep)
  | destroy (i : Nat)
  /-- A `ThreadMain` of the loop; `early` tells whether it ends before it looks at
  `enable_signal`. -/
  | threadMain (i : Nat) (early : Bool)
  deriving DecidableEq, Repr

/-! ## Functions -/

/-- `EventLoop::impl::~impl`. -/
def destruct (s : State) (self : Loop) : State :=
  if self.enableSignal then { s with signalLoop := false } else s

/-- `EventLoop::impl::Create`; the new loop is `i`. -/
def create (s : State) (i : Nat) (thread signal : Bool) (fails : Option CreateStep) :
    State × Option Nat :=
  if fails = some .newLoop then (s, none)
  -- The constructor leaves `enable_signal` false.
  else if signal = true ∧ s.signalLoop = true then (destruct s ⟨signal, false, false⟩, none)
  else
    -- `test_and_set`
    let t := if signal then { s with signalLoop := true } else s
    let self : Loop := ⟨signal, true, thread⟩
    if fails ≠ none then (destruct t self, none)
    else ({ t with loops := Function.update t.loops i (some self) }, some i)

def destroy (s : State) (i : Nat) (self : Loop) : State :=
  { destruct s self with loops := Function.update s.loops i none }

def threadMain (s : State) (self : Loop) (early : Bool) : State :=
  if early = false ∧ self.enableSignal = true then { s with opened := s.opened ++ [self] } else s

def step (s : State) : Act → Option State
  | .create i thread signal fails =>
      if (s.loops i).isSome then none else some (create s i thread signal fails).1
  | .destroy i => (s.loops i).map (destroy s i)
  | .threadMain i early => (s.loops i).map fun self => threadMain s self early

/-! ## Specification -/

/-- Another signal loop cannot be created. -/
def Refuses (s : State) : Prop := ∀ i thread, (create s i thread true none).2 = none

structure Exclusive (s : State) : Prop where
  one : ∀ i j self other, s.loops i = some self → s.loops j = some other →
    self.signal = true → other.signal = true → i = j
  refuses : Refuses s ↔ ∃ i self, s.loops i = some self ∧ self.signal = true
  opened : ∀ self ∈ s.opened, self.signal = true

/-- `Create` or `Destroy` of a loop without signals. -/
def Plain (s : State) : Act → Prop
  | .create _ _ signal _ => signal = false
  | .destroy i => ∀ self, s.loops i = some self → self.signal = false
  | .threadMain _ _ => False

/-- What is asked of every step and of the state behind it. -/
def Kept (s : State) (a : Act) : Prop :=
  ∀ s', step s a = some s' → Exclusive s' ∧ (Plain s a → (Refuses s' ↔ Refuses s))

/-- While there is a signal loop, no other loop is destroyed and the creation of none fails behind its
allocation; and no other loop comes to open a signal descriptor. -/
def Clean (s : State) : Act → Prop
  | .create _ _ signal fails =>
      signal = false → fails ≠ none → fails ≠ some .newLoop → s.signalLoop = false
  | .destroy i => ∀ self ∈ s.loops i, self.signal = false → s.signalLoop = false
  | .threadMain i early => early = false → ∀ self ∈ s.loops i, self.signal = true

instance Clean.decidable (s : State) : ∀ a, Decidable (Clean s a)
  | .create _ _ signal fails =>
      inferInstanceAs (Decidable
        (signal = false → fails ≠ none → fails ≠ some .newLoop → s.signalLoop = false))
  | .destroy i =>
      inferInstanceAs (Decidable (∀ self ∈ s.loops i, self.signal = false → s.signalLoop = false))
  | .threadMain i early =>
      inferInstanceAs (Decidable (early = false → ∀ self ∈ s.loops i, self.signal = true))

/-! ## Invariant -/

theorem refuses_iff (s : State) : Refuses s ↔ s.signalLoop = true := by
  constructor
  · intro h
    by_contra hflag
    have hcreated := h 0 false
    simp [create, hflag] at hcreated
  · intro hflag i thread
    simp [create, hflag]

structure Inv (s : State) : Prop where
  one : ∀ i j self other, s.loops i = some self → s.loops j = some other →
    self.signal = true → other.signal = true → i = j
  flag : s.signalLoop = true ↔ ∃ i self, s.loops i = some self ∧ self.signal = true
  opened : ∀ self ∈ s.opened, self.signal = true
  /-- `Create` sets it for every loop. -/
  enabled : ∀ i self, s.loops i = some self → self.enableSignal = true

theorem inv_initial : Inv .initial where
  one i := by simp [State.initial]
  flag := by simp [State.initial]
  opened := by simp [State.initial]
  enabled i := by simp [State.initial]

theorem Inv.exclusive {s : State} (hs : Inv s) : Exclusive s :=
  ⟨hs.one, (refuses_iff s).trans hs.flag, hs.opened⟩

/-! ## Steps -/

theorem of_update_some {loops : Nat → Option Loop} {i j : Nat} {added self : Loop}
    (h : Function.update loops i (some added) j = some self) :
    (j = i ∧ self = added) ∨ loops j = some self := by
  by_cases hji : j = i
  · subst hji
    rw [Function.update_self] at h
    exact .inl ⟨rfl, (Option.some.inj h).symm⟩
  · rw [Function.update_of_ne hji] at h
    exact .inr h

theorem of_update_none {loops : Nat → Option Loop} {i j : Nat} {self : Loop}
    (h : Function.update loops i none j = some self) : j ≠ i ∧ loops j = some self := by
  by_cases hji : j = i
  · subst hji
    simp at h
  · rw [Function.update_of_ne hji] at h
    exact ⟨hji, h⟩

/-- A loop is added, and the flag is set when it takes the signals. -/
theorem inv_add {s : State} (hs : Inv s) {i : Nat} (hi : s.loops i = none) (thread signal : Bool)
    (hfree : signal = true → s.signalLoop = false) :
    Inv { s with
      signalLoop := s.signalLoop || signal
      loops := Function.update s.loops i (some ⟨signal, true, thread⟩) } := by
  have hother : signal = true → ∀ j self, s.loops j = some self → self.signal = false := by
    intro hsignal j self hj
    by_contra hne
    have hflag := hs.flag.2 ⟨j, self, hj, by simpa using hne⟩
    simp [hfree hsignal] at hflag
  refine ⟨fun j k self other hj hk hself hother' => ?_, ?_, hs.opened, fun j self hj => ?_⟩
  · rcases of_update_some hj with ⟨hji, hnew⟩ | hjold <;>
      rcases of_update_some hk with ⟨hki, hnew'⟩ | hkold
    · rw [hji, hki]
    · rw [hnew] at hself
      simp [hother hself k other hkold] at hother'
    · rw [hnew'] at hother'
      simp [hother hother' j self hjold] at hself
    · exact hs.one j k self other hjold hkold hself hother'
  · rw [Bool.or_eq_true, hs.flag]
    constructor
    · rintro (⟨j, self, hj, hself⟩ | hsignal)
      · have hji : j ≠ i := fun heq => by simp [heq, hi] at hj
        exact ⟨j, self, by simpa [Function.update_of_ne hji] using hj, hself⟩
      · exact ⟨i, _, Function.update_self .., hsignal⟩
    · rintro ⟨j, self, hj, hself⟩
      rcases of_update_some hj with ⟨-, rfl⟩ | hj
      · exact .inr hself
      · exact .inl ⟨j, self, hj, hself⟩
  · rcases of_update_some hj with ⟨-, rfl⟩ | hj
    · rfl
    · exact hs.enabled j self hj

/-- A loop is destroyed and the flag cleared; another signal loop must not be there. -/
theorem inv_remove {s : State} (hs : Inv s) {i : Nat} {self : Loop} (hi : s.loops i = some self)
    (hclean : self.signal = false → s.signalLoop = false) :
    Inv { s with signalLoop := false, loops := Function.update s.loops i none } := by
  refine ⟨fun j k one other hj hk hone hother => ?_, ?_, hs.opened, fun j other hj => ?_⟩
  · exact hs.one j k one other (of_update_none hj).2 (of_update_none hk).2 hone hother
  · refine iff_of_false (by simp) ?_
    rintro ⟨j, other, hj, hother⟩
    rcases of_update_none hj with ⟨hji, hj⟩
    cases hself : self.signal with
    | true => exact hji (hs.one j i other self hj hi hother hself)
    | false =>
        have hflag := hs.flag.2 ⟨j, other, hj, hother⟩
        simp [hclean hself] at hflag
  · exact hs.enabled j other (of_update_none hj).2

/-- What `Create` does, by the ways it can go. -/
theorem create_cases (s : State) (i : Nat) (thread signal : Bool) (fails : Option CreateStep) :
    ((create s i thread signal fails).1 = s ∧
      (fails = some .newLoop ∨ (signal = true ∧ s.signalLoop = true))) ∨
    ((create s i thread signal fails).1 = { s with signalLoop := false } ∧
      fails ≠ none ∧ fails ≠ some .newLoop ∧ (signal = true → s.signalLoop = false)) ∨
    ((create s i thread signal fails).1 = { s with
        signalLoop := s.signalLoop || signal
        loops := Function.update s.loops i (some ⟨signal, true, thread⟩) } ∧
      fails = none ∧ (signal = true → s.signalLoop = false)) := by
  by_cases hnew : fails = some .newLoop
  · exact .inl ⟨by simp [create, hnew], .inl hnew⟩
  by_cases hrefused : signal = true ∧ s.signalLoop = true
  · exact .inl ⟨by simp [create, hnew, hrefused, destruct], .inr hrefused⟩
  have hfree : signal = true → s.signalLoop = false := by
    intro hsignal
    simpa [hsignal] using hrefused
  by_cases hfails : fails = none
  · refine .inr (.inr ⟨?_, hfails, hfree⟩)
    cases signal <;> simp_all [create]
  · refine .inr (.inl ⟨?_, hfails, hnew, hfree⟩)
    cases signal <;> simp_all [create, destruct]

theorem clear_of_clear {s : State} (h : s.signalLoop = false) :
    { s with signalLoop := false } = s := by
  rw [← h]

theorem destroy_of_inv {s : State} (hs : Inv s) {i : Nat} {self : Loop}
    (hi : s.loops i = some self) :
    destroy s i self =
      { s with signalLoop := false, loops := Function.update s.loops i none } := by
  simp [destroy, destruct, hs.enabled i self hi]

theorem inv_step {s s' : State} {a : Act} (hs : Inv s) (hclean : Clean s a)
    (h : step s a = some s') : Inv s' := by
  cases a with
  | create i thread signal fails =>
      simp only [step] at h
      split_ifs at h with hi
      cases h
      rcases create_cases s i thread signal fails with ⟨hdone, -⟩ |
        ⟨hdone, hfails, hnew, hfree⟩ | ⟨hdone, -, hfree⟩
      · rw [hdone]
        exact hs
      · have hflag : s.signalLoop = false := by
          cases signal with
          | true => exact hfree rfl
          | false => exact hclean rfl hfails hnew
        rw [hdone, clear_of_clear hflag]
        exact hs
      · rw [hdone]
        exact inv_add hs (by simpa using hi) thread signal hfree
  | destroy i =>
      rcases Option.map_eq_some_iff.1 h with ⟨self, hi, rfl⟩
      rw [destroy_of_inv hs hi]
      exact inv_remove hs hi (hclean self hi)
  | threadMain i early =>
      rcases Option.map_eq_some_iff.1 h with ⟨self, hi, rfl⟩
      unfold threadMain
      split_ifs with hopens
      · have hsignal := hclean hopens.1 self hi
        refine ⟨hs.one, hs.flag, fun other hother => ?_, hs.enabled⟩
        rcases List.mem_append.1 hother with hother | hother
        · exact hs.opened other hother
        · exact List.mem_singleton.1 hother ▸ hsignal
      · exact hs

/-- A clean step without signals leaves the flag alone. -/
theorem flag_of_plain {s s' : State} {a : Act} (hs : Inv s) (hclean : Clean s a)
    (hplain : Plain s a) (h : step s a = some s') : s'.signalLoop = s.signalLoop := by
  cases a with
  | create i thread signal fails =>
      cases (show signal = false from hplain)
      simp only [step] at h
      split_ifs at h with hi
      cases h
      rcases create_cases s i thread false fails with ⟨hdone, -⟩ | ⟨hdone, hfails, hnew, -⟩ |
        ⟨hdone, -, -⟩
      · rw [hdone]
      · rw [hdone, clear_of_clear (hclean rfl hfails hnew)]
      · rw [hdone, Bool.or_false]
  | destroy i =>
      rcases Option.map_eq_some_iff.1 h with ⟨self, hi, rfl⟩
      rw [destroy_of_inv hs hi, hclean self hi (hplain self hi)]
  | threadMain i early => exact hplain.elim

theorem kept_iff_clean {s s' : State} {a : Act} (hs : Inv s) (h : step s a = some s') :
    Kept s a ↔ Clean s a := by
  constructor
  · intro hkept
    rcases hkept s' h with ⟨hexclusive, hplain⟩
    rw [refuses_iff, refuses_iff] at hplain
    cases a with
    | create i thread signal fails =>
        rintro rfl hfails hnew
        simp only [step] at h
        split_ifs at h with hi
        cases h
        rcases create_cases s i thread false fails with ⟨-, hnew' | ⟨hsignal, -⟩⟩ | ⟨hdone, -⟩ |
          ⟨-, hnone, -⟩
        · exact absurd hnew' hnew
        · cases hsignal
        · -- The destructor has cleared the flag.
          rw [hdone] at hplain
          simpa using hplain rfl
        · exact absurd hnone hfails
    | destroy i =>
        intro self hi hsignal
        rcases Option.map_eq_some_iff.1 h with ⟨self', hi', rfl⟩
        have hplain' := hplain fun other hother => by
          cases Option.some.inj (hother.symm.trans hi)
          exact hsignal
        rw [destroy_of_inv hs hi'] at hplain'
        simpa using hplain'
    | threadMain i early =>
        intro hearly self hi
        rcases Option.map_eq_some_iff.1 h with ⟨self', hi', rfl⟩
        cases Option.some.inj (hi'.symm.trans hi)
        refine hexclusive.opened self ?_
        simp [threadMain, hearly, hs.enabled i self hi]
  · intro hclean t ht
    cases Option.some.inj (h.symm.trans ht)
    refine ⟨(inv_step hs hclean h).exclusive, fun hplain => ?_⟩
    rw [refuses_iff, refuses_iff, flag_of_plain hs hclean hplain h]

/-- In every run: the flag mirrors the one signal loop, other loops leave it alone, and only the signal
loop opens a signal descriptor, exactly as long as no other loop is destroyed, or fails to be created,
beside a signal loop, or comes to open a signal descriptor. -/
theorem signal_loop_exclusive_iff (as : List Act) (s : State)
    (hexec : Run.exec step .initial as = some s) :
    Run.Along step Kept .initial as ↔ Run.Along step Clean .initial as :=
  Run.along_iff_of_invariant (fun _ _ _ => inv_step) (fun _ _ _ => kept_iff_clean) inv_initial hexec

/-! ## Fixed runs -/

/-- A loop without signals is destroyed beside the signal loop, and a second signal loop is created.
The `ThreadMain` of a loop without signals opens a signal descriptor. -/
theorem two_signal_loops :
    (∃ s, Run.exec step .initial [.create 0 true true none, .create 1 true false none, .destroy 1,
        .create 2 true true none] = some s ∧
      s.loops 0 = some ⟨true, true, true⟩ ∧ s.loops 2 = some ⟨true, true, true⟩ ∧
      ¬ Exclusive s) ∧
    ∃ s, Run.exec step .initial [.create 0 true false none, .threadMain 0 false] = some s ∧
      ¬ Exclusive s :=
  ⟨⟨_, rfl, rfl, rfl, fun h => absurd (h.one 0 2 _ _ rfl rfl rfl rfl) (by decide)⟩,
    ⟨_, rfl, fun h => absurd (h.opened _ (List.mem_singleton.2 rfl)) (by decide)⟩⟩

/-- Signal loops one after another, a second one refused, one that fails, and other loops around. -/
def signalLoops : List Act :=
  [.create 0 true false none, .create 1 false true (some .epollCreate), .create 1 true true none,
    .create 2 true true none, .create 2 true false (some .newLoop), .threadMain 1 false,
    .threadMain 0 true, .destroy 1, .destroy 0, .create 2 true false (some .socketpair),
    .create 2 false true none]

theorem signalLoops_kept :
    ∃ s, Run.exec step .initial signalLoops = some s ∧ Run.Along step Kept .initial signalLoops :=
  ⟨_, rfl, (signal_loop_exclusive_iff signalLoops _ rfl).2 (by decide)⟩

end SignalLoop
end EventLoop
end Beyond
