import Mathlib.Data.Nat.Basic

/-!
# Interval timers

A timer that is armed for a first expiry and goes on from there with a period; without a period it
expires once.  Its expirations are counted, and reading the timer takes the count away.  Time is a
natural number, and a timer that looks at the clock late catches up with all that it missed.
-/

namespace Beyond

structure IntervalTimer where
  /-- The time of the next expiry, if there will be one. -/
  next : Option Nat
  period : Nat
  /-- The expirations that were not read yet. -/
  ticks : Nat
  deriving DecidableEq, Repr

namespace IntervalTimer

def disarmed : IntervalTimer := ⟨none, 0, 0⟩

/-- The expirations of a timer that is due at `v`, until `now`. -/
def expirations (period v now : Nat) : Nat :=
  if now < v then 0 else if period = 0 then 1 else (now - v) / period + 1

/-- The timer at the time `now`. -/
def expire (now : Nat) (t : IntervalTimer) : IntervalTimer :=
  match t.next with
  | none => t
  | some v =>
      if now < v then t
      else if t.period = 0 then { t with next := none, ticks := t.ticks + 1 }
      else
        { t with
          next := some (v + expirations t.period v now * t.period)
          ticks := t.ticks + expirations t.period v now }

/-- The timer is armed for the time `value`; 0 disarms it. -/
def arm (value period now : Nat) : IntervalTimer :=
  if value = 0 then disarmed else expire now ⟨some value, period, 0⟩

/-- A read takes the expirations away. -/
def read (t : IntervalTimer) : IntervalTimer := { t with ticks := 0 }

/-- The timer has been due since `v` and `taken` of its expirations were read. -/
structure Since (v period now taken : Nat) (t : IntervalTimer) : Prop where
  same : t.period = period
  count : taken + t.ticks = expirations period v now
  next : t.next =
    if now < v then some v
    else if period = 0 then none else some (v + expirations period v now * period)

theorem since_start {v period now : Nat} (h : now < v) : Since v period now 0 ⟨some v, period, 0⟩ :=
  ⟨rfl, by simp [expirations, h], by simp [h]⟩

theorem Since.read {v period now taken : Nat} {t : IntervalTimer} (h : Since v period now taken t) :
    Since v period now (taken + t.ticks) t.read :=
  ⟨h.same, h.count, h.next⟩

/-- A moment later, the expirations since then are counted as well. -/
theorem expirations_add {period v now now' : Nat} (hpos : period ≠ 0) (hv : v ≤ now)
    (hle : v + expirations period v now * period ≤ now') :
    expirations period v now +
        expirations period (v + expirations period v now * period) now' =
      expirations period v now' := by
  have hnow : ¬ now < v := Nat.not_lt.2 hv
  have hlate : ¬ now' < v := by omega
  generalize hk : expirations period v now = k at hle ⊢
  simp only [expirations, if_neg hlate, if_neg (Nat.not_lt.2 hle), if_neg hpos]
  -- `k` periods lie between the two times at which the counts begin.
  have hsplit : now' - v = (now' - (v + k * period)) + k * period := by omega
  rw [hsplit, Nat.add_mul_div_right _ _ (Nat.pos_of_ne_zero hpos)]
  omega

theorem expirations_eq_of_lt {period v now now' : Nat} (hpos : period ≠ 0) (hv : v ≤ now)
    (hle : now ≤ now') (hlt : now' < v + expirations period v now * period) :
    expirations period v now' = expirations period v now := by
  have hnow : ¬ now < v := Nat.not_lt.2 hv
  have hlate : ¬ now' < v := by omega
  simp only [expirations, if_neg hnow, if_neg hlate, if_neg hpos] at hlt ⊢
  have hpos' : 0 < period := Nat.pos_of_ne_zero hpos
  have hmono : (now - v) / period ≤ (now' - v) / period := Nat.div_le_div_right (by omega)
  have hbelow : (now' - v) / period < (now - v) / period + 1 := by
    rw [Nat.div_lt_iff_lt_mul hpos']
    omega
  omega

/-- Time passes. -/
theorem Since.expire {v period now now' taken : Nat} {t : IntervalTimer}
    (h : Since v period now taken t) (hle : now ≤ now') :
    Since v period now' taken (t.expire now') := by
  have hperiod := h.same
  by_cases hbefore : now < v
  · have hnext : t.next = some v := by rw [h.next, if_pos hbefore]
    have hcount : taken + t.ticks = 0 := by simpa [expirations, hbefore] using h.count
    unfold IntervalTimer.expire
    rw [hnext]
    dsimp only
    by_cases hstill : now' < v
    · rw [if_pos hstill]
      exact ⟨hperiod, by simp [expirations, hstill, hcount], by simp [hstill, hnext]⟩
    · rw [if_neg hstill]
      by_cases hzero : period = 0
      · rw [if_pos (hperiod.trans hzero)]
        refine ⟨hperiod, ?_, by simp [hstill, hzero]⟩
        simp only [expirations, if_neg hstill, if_pos hzero]
        omega
      · rw [if_neg (by rw [hperiod]; exact hzero)]
        refine ⟨hperiod, ?_, by simp [hstill, hzero, hperiod]⟩
        dsimp only
        rw [hperiod]
        omega
  · have hlate : ¬ now' < v := by omega
    by_cases hzero : period = 0
    · -- The one expiry is past.
      have hnext : t.next = none := by rw [h.next, if_neg hbefore, if_pos hzero]
      have hcount := h.count
      unfold IntervalTimer.expire
      rw [hnext]
      refine ⟨hperiod, ?_, by simp [hlate, hzero, hnext]⟩
      simpa [expirations, hbefore, hlate, hzero] using hcount
    · have hnext : t.next = some (v + expirations period v now * period) := by
        rw [h.next, if_neg hbefore, if_neg hzero]
      have hcount := h.count
      unfold IntervalTimer.expire
      rw [hnext]
      dsimp only
      by_cases hwait : now' < v + expirations period v now * period
      · rw [if_pos hwait]
        have hsame := expirations_eq_of_lt hzero (Nat.not_lt.1 hbefore) hle hwait
        exact ⟨hperiod, by rw [hsame, hcount], by rw [if_neg hlate, if_neg hzero, hsame, hnext]⟩
      · rw [if_neg hwait, if_neg (by rw [hperiod]; exact hzero), hperiod]
        have hadd := expirations_add hzero (Nat.not_lt.1 hbefore) (Nat.not_lt.1 hwait)
        refine ⟨rfl, ?_, ?_⟩
        · dsimp only
          omega
        · rw [if_neg hlate, if_neg hzero, ← hadd, Nat.add_mul, Nat.add_assoc]

theorem since_arm {value period now : Nat} (h : value ≠ 0) :
    Since value period now 0 (arm value period now) := by
  unfold arm
  rw [if_neg h]
  rcases Nat.lt_or_ge now value with hlt | hge
  · exact (since_start hlt).expire (Nat.le_refl now)
  · -- A timer that is armed late is one that was armed in time and looked at late.
    exact (@since_start value period 0 (Nat.pos_of_ne_zero h)).expire (Nat.zero_le now)

end IntervalTimer
end Beyond
