import Mathlib.Algebra.Group.Int.Defs

/-!
# Times of the event layer

`Timer::impl::SetTimer` adds an interval to the monotonic clock, and on macOS `WaitEvent` converts its
timeout into a `timespec`.  Both are arithmetic on pairs of seconds and nanoseconds, with 64-bit words.

How `SetTimer` computes the interval from its argument, a `double`, is left open.
-/

namespace Beyond
namespace EventLoop
namespace Timing

/-! ## Pairs of seconds and nanoseconds -/

structure Timespec where
  tv_sec : Int64
  tv_nsec : Int64
  deriving DecidableEq

namespace Timespec

/-- The nanoseconds are those of a second. -/
def Valid (t : Timespec) : Prop := 0 ≤ t.tv_nsec.toInt ∧ t.tv_nsec.toInt < 1000000000

instance (t : Timespec) : Decidable t.Valid :=
  inferInstanceAs (Decidable (0 ≤ t.tv_nsec.toInt ∧ t.tv_nsec.toInt < 1000000000))

/-- What the pair denotes. -/
def nanoseconds (t : Timespec) : Int := t.tv_sec.toInt * 1000000000 + t.tv_nsec.toInt

end Timespec

/-- A monotonic time, or an interval. -/
structure Time extends Timespec where
  nonneg : 0 ≤ tv_sec.toInt
  valid : toTimespec.Valid

/-! ## SetTimer -/

structure Itimerspec where
  it_interval : Timespec
  it_value : Timespec
  deriving DecidableEq

/-- The effects of a call; `request` is what is passed to `timerfd_settime`, if it is called. -/
structure SetTimer (τ : Type*) where
  ret : Int
  request : Option Itimerspec
  registeredTime : τ

/-- `clock` is the outcome of `clock_gettime`, and `settime` that of `timerfd_settime`; errors are given
by their `errno`. -/
def setTimer {τ : Type*} (toInterval : τ → Timespec) (clock : Except Int Timespec)
    (settime : Itimerspec → Except Int Unit) (registeredTime timer : τ) : SetTimer τ :=
  let it_interval := toInterval timer
  match clock with
  | .error errno => ⟨-errno, none, registeredTime⟩
  | .ok now =>
      -- The nanoseconds are not carried into the seconds.
      let it_value := ⟨now.tv_sec + it_interval.tv_sec, now.tv_nsec + it_interval.tv_nsec⟩
      let spec : Itimerspec := ⟨it_interval, it_value⟩
      match settime spec with
      | .error errno => ⟨-errno, some spec, registeredTime⟩
      | .ok () => ⟨0, some spec, timer⟩

/-- The timer is armed for the end of the interval that starts now. -/
def ArmedExactly {τ : Type*} (now interval : Time) (call : SetTimer τ) : Prop :=
  ∃ spec, call.request = some spec ∧ spec.it_value.Valid ∧
    spec.it_value.nanoseconds = now.nanoseconds + interval.nanoseconds

/-! ## WaitEvent -/

/-- A timeout in milliseconds with which `WaitEvent` does not wait forever. -/
structure Timeout where
  milliseconds : Int32
  nonneg : 0 ≤ milliseconds.toInt

/-- What `WaitEvent` passes to `kevent`; a null pointer if it waits forever. -/
def waitTimeout (timeout : Int32) : Option Timespec :=
  if timeout < 0 then none
  else
    let tv_sec := (timeout / 1000).toInt64
    -- The factor is that of microseconds.
    some ⟨tv_sec, (timeout.toInt64 - tv_sec * 1000) * 1000⟩

def WaitsExactly (timeout : Timeout) : Prop :=
  ∃ spec, waitTimeout timeout.milliseconds = some spec ∧ spec.Valid ∧
    spec.nanoseconds = timeout.milliseconds.toInt * 1000000

/-! ## 64-bit words -/

theorem toInt_add_of_lt {a b : Int64} (hle : -2 ^ 63 ≤ a.toInt + b.toInt)
    (hlt : a.toInt + b.toInt < 2 ^ 63) : (a + b).toInt = a.toInt + b.toInt := by
  rw [Int64.toInt_add]
  exact Int.bmod_eq_of_le (by omega) (by omega)

/-- A sum of words that are not negative is right just as long as it does not overflow. -/
theorem toInt_add_iff {a b : Int64} (ha : 0 ≤ a.toInt) (hb : 0 ≤ b.toInt) :
    (a + b).toInt = a.toInt + b.toInt ↔ a.toInt + b.toInt < 2 ^ 63 := by
  constructor
  · intro hsum
    rw [← hsum]
    exact Int64.toInt_lt _
  · intro hlt
    exact toInt_add_of_lt (by omega) hlt

/-! ## The timer -/

theorem armedExactly_iff {τ : Type*} (toInterval : τ → Time) (now : Time)
    (settime : Itimerspec → Except Int Unit) (registeredTime timer : τ) :
    ArmedExactly now (toInterval timer)
        (setTimer (fun timer => (toInterval timer).toTimespec) (.ok now.toTimespec) settime
          registeredTime timer) ↔
      now.tv_nsec.toInt + (toInterval timer).tv_nsec.toInt < 1000000000 ∧
        now.tv_sec.toInt + (toInterval timer).tv_sec.toInt < 2 ^ 63 := by
  generalize hinterval : toInterval timer = interval
  have hnow := now.valid
  have hvalid := interval.valid
  -- Two seconds of nanoseconds do not overflow.
  have hnsec : (now.tv_nsec + interval.tv_nsec).toInt =
      now.tv_nsec.toInt + interval.tv_nsec.toInt := by
    unfold Timespec.Valid at hnow hvalid
    exact toInt_add_of_lt (by omega) (by omega)
  have hrequest : (setTimer (fun timer => (toInterval timer).toTimespec) (.ok now.toTimespec) settime
      registeredTime timer).request =
        some ⟨interval.toTimespec, now.tv_sec + interval.tv_sec, now.tv_nsec + interval.tv_nsec⟩ := by
    rw [← hinterval]
    unfold setTimer
    dsimp only
    split <;> rfl
  have hsec := toInt_add_iff now.nonneg interval.nonneg
  unfold ArmedExactly
  rw [hrequest]
  constructor
  · rintro ⟨spec, hspec, hspecValid, hdenotes⟩
    cases hspec
    unfold Timespec.nanoseconds at hdenotes
    have hlt := hspecValid.2
    dsimp only at hdenotes hlt
    rw [hnsec] at hdenotes hlt
    refine ⟨hlt, hsec.1 ?_⟩
    omega
  · rintro ⟨hcarry, hoverflow⟩
    refine ⟨_, rfl, ⟨?_, ?_⟩, ?_⟩
    · dsimp only
      rw [hnsec]
      exact Int.add_nonneg hnow.1 hvalid.1
    · dsimp only
      rwa [hnsec]
    · unfold Timespec.nanoseconds
      dsimp only
      rw [hnsec, hsec.2 hoverflow]
      omega

/-! ## The timeout -/

theorem waitTimeout_eq (timeout : Timeout) :
    ∃ spec, waitTimeout timeout.milliseconds = some spec ∧
      spec.tv_sec.toInt = timeout.milliseconds.toInt / 1000 ∧
      spec.tv_nsec.toInt = timeout.milliseconds.toInt % 1000 * 1000 := by
  rcases timeout with ⟨timeout, hnonneg⟩
  dsimp only
  have hlt := timeout.toInt_lt
  have hthousand : (1000 : Int64).toInt = 1000 := rfl
  have hnot : ¬ timeout < 0 := by
    rw [Int32.lt_iff_toInt_lt]
    exact Int.not_lt.2 hnonneg
  have hdiv : (timeout / 1000).toInt64.toInt = timeout.toInt / 1000 := by
    rw [Int32.toInt_toInt64, Int32.toInt_div_of_ne_right _ _ (by decide)]
    exact Int.tdiv_eq_ediv_of_nonneg hnonneg
  -- The seconds in milliseconds are at most the timeout.
  have hmul : ((timeout / 1000).toInt64 * 1000).toInt = timeout.toInt / 1000 * 1000 := by
    rw [Int64.toInt_mul, hdiv, hthousand]
    exact Int.bmod_eq_of_le (by omega) (by omega)
  have hrest : (timeout.toInt64 - (timeout / 1000).toInt64 * 1000).toInt = timeout.toInt % 1000 := by
    rw [Int64.toInt_sub, hmul, Int32.toInt_toInt64]
    calc (timeout.toInt - timeout.toInt / 1000 * 1000).bmod (2 ^ 64)
        = (timeout.toInt % 1000).bmod (2 ^ 64) := by congr 1; omega
      _ = timeout.toInt % 1000 := Int.bmod_eq_of_le (by omega) (by omega)
  refine ⟨_, if_neg hnot, hdiv, ?_⟩
  dsimp only
  rw [Int64.toInt_mul, hrest, hthousand]
  exact Int.bmod_eq_of_le (by omega) (by omega)

theorem waitsExactly_iff (timeout : Timeout) :
    WaitsExactly timeout ↔ timeout.milliseconds.toInt % 1000 = 0 := by
  rcases waitTimeout_eq timeout with ⟨spec, hspec, hsec, hnsec⟩
  unfold WaitsExactly
  rw [hspec]
  constructor
  · rintro ⟨_, heq, -, hdenotes⟩
    cases heq
    rw [Timespec.nanoseconds, hsec, hnsec] at hdenotes
    omega
  · intro hwhole
    refine ⟨spec, rfl, ⟨?_, ?_⟩, ?_⟩
    · rw [hnsec, hwhole]
      decide
    · rw [hnsec, hwhole]
      decide
    · rw [Timespec.nanoseconds, hsec, hnsec]
      omega

theorem times_exact_iff {τ : Type*} (toInterval : τ → Time) (now : Time)
    (settime : Itimerspec → Except Int Unit) (registeredTime timer : τ) (timeout : Timeout) :
    (ArmedExactly now (toInterval timer)
          (setTimer (fun timer => (toInterval timer).toTimespec) (.ok now.toTimespec) settime
            registeredTime timer) ↔
        now.tv_nsec.toInt + (toInterval timer).tv_nsec.toInt < 1000000000 ∧
          now.tv_sec.toInt + (toInterval timer).tv_sec.toInt < 2 ^ 63) ∧
      (WaitsExactly timeout ↔ timeout.milliseconds.toInt % 1000 = 0) :=
  ⟨armedExactly_iff toInterval now settime registeredTime timer, waitsExactly_iff timeout⟩

/-- One second after the start of the clock, less a nanosecond. -/
def almostOne : Time := ⟨⟨0, 999999999⟩, by decide, by decide⟩

/-- The interval of the tests, 0.01 s. -/
def hundredth : Time := ⟨⟨0, 10000000⟩, by decide, by decide⟩

theorem hundredth_not_armed :
    ¬ ArmedExactly almostOne hundredth
      (setTimer (fun _ : Unit => hundredth.toTimespec) (.ok almostOne.toTimespec)
        (fun _ => .error 22) () ()) := by
  rintro ⟨spec, hspec, hvalid, -⟩
  cases hspec
  exact absurd hvalid.2 (by decide)

end Timing
end EventLoop
end Beyond
