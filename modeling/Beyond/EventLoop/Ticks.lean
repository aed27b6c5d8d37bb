import Beyond.Base.IntervalTimer
import Beyond.Base.Run
import Beyond.EventLoop.Readiness
import Beyond.EventLoop.Timing

/-!
# The expirations of a timer

`Timer::impl` on Linux over its whole life: the time passes, `SetTimer` arms the kernel's timer anew,
and `FetchEventData` hands its expirations out as sequence numbers.  However the calls lie in time,
and whichever of them fail, the numbers that were handed out since the timer was set add up, with
what the next fetch will give, to the intervals that have passed.
-/

namespace Beyond
namespace EventLoop
namespace Ticks

open Errno EventObject EventObject.Components EventObject.Readiness Timing

variable {η δ : Type*}

/-! ## The timer and its clock -/

/-- The greatest time of the kernel, in nanoseconds. -/
def KTIME_MAX : Nat := 2 ^ 63 - 1

/-- `now` is the monotonic clock.  `set` and `fetched` are ghosts: when `SetTimer` read the clock the
last time that it succeeded and for which interval, and the sum of the sequence numbers since. -/
structure State where
  now : Nat
  timer : IntervalTimer
  registeredTime : Nat
  set : Option (Nat × Nat)
  fetched : Nat

/-- `Timer::impl::Create` at some time. -/
def State.created (now : Nat) : State :=
  { now := now, timer := .disarmed, registeredTime := 0, set := none, fetched := 0 }

/-- What `clock_gettime` gives at a time. -/
def clock (now : Nat) : Timespec :=
  ⟨Int64.ofNat (now / 1000000000), Int64.ofNat (now % 1000000000)⟩

/-- A time that `timerfd_settime` takes. -/
def Settable (t : Timespec) : Prop := 0 ≤ t.tv_sec.toInt ∧ t.Valid

instance (t : Timespec) : Decidable (Settable t) :=
  inferInstanceAs (Decidable (0 ≤ t.tv_sec.toInt ∧ t.Valid))

/-- `timerfd_settime`, as far as it depends on the request. -/
def settime (spec : Itimerspec) : Except Int Unit :=
  if Settable spec.it_value ∧ Settable spec.it_interval then .ok () else .error EINVAL

/-! ## Steps -/

def State.pass (s : State) (d : Nat) : State :=
  { s with now := s.now + d, timer := s.timer.expire (s.now + d) }

/-- `SetTimer`; `delay` passes between its two calls. -/
def State.setTimer (s : State) (clockErrno : Option Int) (interval : Time) (delay : Nat) :
    State × Int :=
  let call := Timing.setTimer (fun t : Time => t.toTimespec)
    (match clockErrno with | some errno => .error errno | none => .ok (clock s.now)) settime
    interval interval
  match call.request with
  | none => (s.pass delay, call.ret)
  | some spec =>
      -- Without success the timer stays armed as it was.
      if call.ret < 0 then (s.pass delay, call.ret)
      else
        ({ now := s.now + delay
           timer := IntervalTimer.arm spec.it_value.nanoseconds.toNat
             spec.it_interval.nanoseconds.toNat (s.now + delay)
           registeredTime := interval.nanoseconds.toNat
           set := some (s.now, interval.nanoseconds.toNat)
           fetched := 0 }, call.ret)

/-- What `select` finds: a timer is readable when it has expired. -/
def State.report (s : State) (select : Option { errno : Nat // 0 < errno }) : Report :=
  match select with
  | some errno => .failed errno
  | none => .ready fun _ => ⟨decide (0 < s.timer.ticks), false, false⟩

/-- What `read` gives. -/
def State.reading (s : State) : Reading :=
  if s.timer.ticks = 0 then .failed EAGAIN.toNat else .expired s.timer.ticks

/-- `FetchEventData`.  The timer is read when there is event data to put the count into. -/
def State.fetch (s : State) (handle : Nat) (handlers : List (Registration η δ)) (allocated : Bool)
    (select : Option { errno : Nat // 0 < errno }) :
    Except Fault (State × Int × Option TimerEventData) :=
  match timerFetchEventData allocated handle (s.report select) s.reading none (fun _ => .renew)
      handlers with
  | .error fault => .error fault
  | .ok called =>
      match called.data with
      | none => .ok (s, called.ret, none)
      | some data =>
          .ok ({ s with timer := s.timer.read, fetched := s.fetched + data.sequenceId },
            called.ret, some data)

inductive Act
  | pass (d : Nat)
  | setTimer (clockErrno : Option Int) (interval : Time) (delay : Nat)
  | fetch (allocated : Bool) (select : Option { errno : Nat // 0 < errno })

/-- The clock does not come to its end. -/
def step (handle : Nat) (handlers : List (Registration η δ)) (s : State) : Act → Option State
  | .pass d => if s.now + d < KTIME_MAX then some (s.pass d) else none
  | .setTimer clockErrno interval delay =>
      if s.now + delay < KTIME_MAX then some (s.setTimer clockErrno interval delay).1 else none
  | .fetch allocated select =>
      match s.fetch handle handlers allocated select with
      | .error _ => none
      | .ok (s, _, _) => some s

/-! ## What a fetch gives -/

/-- The intervals that have passed since the timer was set; without an interval it expires once. -/
def due (interval since now : Nat) : Nat :=
  if interval = 0 then if since = 0 then 0 else 1 else (now - since) / interval

/-- What a fetch gives that has memory and whose `select` works. -/
def Gives (s : State) (handle : Nat) (handlers : List (Registration η δ)) (n : Nat) : Prop :=
  ∃ s', s.fetch handle handlers true none =
    .ok (s', if n = 0 then (-EAGAIN, none) else (0, some ⟨newEventData, n⟩))

theorem selectTypes_report {s : State} {handle : Nat} (h : handle < FD_SETSIZE) :
    selectTypes handle (s.report none) =
      if s.timer.ticks = 0 then .ok (.returned (-EAGAIN)) else .ok (.types (EventValue.read.code)) := by
  unfold selectTypes selectReady
  rw [if_pos (Int.natCast_nonneg handle), Int.toNat_natCast, FD_SET_zero h]
  dsimp only [State.report, bind, Except.bind, pure, Except.pure]
  simp only [ready_singleton h, FD_ISSET_singleton h]
  by_cases hticks : s.timer.ticks = 0
  · simp [hticks]
  · have hpos : 0 < s.timer.ticks := Nat.pos_of_ne_zero hticks
    have hcode : EventValue.none.code ||| EventValue.read.code = EventValue.read.code := by decide
    simp [hticks, hpos, hcode]

/-- Either a fetch fails without a look at the timer, or it takes all expirations. -/
theorem fetch_cases {s : State} {handle : Nat} (h : handle < FD_SETSIZE)
    (handlers : List (Registration η δ)) (allocated : Bool)
    (select : Option { errno : Nat // 0 < errno }) :
    (∃ ret, ret < 0 ∧ s.fetch handle handlers allocated select = .ok (s, ret, none) ∧
        (allocated = true → select = none → s.timer.ticks = 0 ∧ ret = -EAGAIN)) ∨
      (0 < s.timer.ticks ∧ s.fetch handle handlers allocated select =
        .ok ({ s with timer := s.timer.read, fetched := s.fetched + s.timer.ticks }, 0,
          some ⟨newEventData, s.timer.ticks⟩)) := by
  cases allocated with
  | false => exact .inl ⟨-ENOMEM, by decide, rfl, by simp⟩
  | true =>
      cases hselect : select with
      | some errno =>
          left
          have hreturned : selectTypes handle (s.report (some errno)) =
              .ok (.returned (-(errno.1 : Int))) := by
            unfold selectTypes selectReady
            rw [if_pos (Int.natCast_nonneg handle), Int.toNat_natCast, FD_SET_zero h]
            rfl
          have hneg : -(errno.1 : Int) < 0 := by
            have hpos := errno.2
            omega
          have hcall := fetchEventData_returned handle (s.report (some errno)) (some newEventData)
            (fun _ => HandlerReturn.renew) handlers hreturned
          refine ⟨_, hneg, ?_, by simp⟩
          unfold State.fetch timerFetchEventData
          rw [if_neg (by simp), hcall]
          dsimp only [bind, Except.bind]
          rw [if_pos hneg]
          rfl
      | none =>
          by_cases hticks : s.timer.ticks = 0
          · left
            have hreturned : selectTypes handle (s.report none) = .ok (.returned (-EAGAIN)) := by
              rw [selectTypes_report h, if_pos hticks]
            have hcall := fetchEventData_returned handle (s.report none) (some newEventData)
              (fun _ => HandlerReturn.renew) handlers hreturned
            refine ⟨-EAGAIN, by decide, ?_, fun _ _ => ⟨hticks, rfl⟩⟩
            unfold State.fetch timerFetchEventData
            rw [if_neg (by simp), hcall]
            rfl
          · right
            have htypes : selectTypes handle (s.report none) = .ok (.types EventValue.read.code) := by
              rw [selectTypes_report h, if_neg hticks]
            have hcall := fetchEventData_eq handle (s.report none) (some newEventData)
              (fun _ => HandlerReturn.renew) handlers htypes
            rcases loop_some newEventData (fun _ => HandlerReturn.renew) 0 handlers with ⟨kept, hloop⟩
            rw [hloop] at hcall
            refine ⟨Nat.pos_of_ne_zero hticks, ?_⟩
            unfold State.fetch timerFetchEventData
            rw [if_neg (by simp), hcall]
            simp only [State.reading, if_neg hticks]
            rfl

/-! ## What `SetTimer` arms -/

theorem toInt_add_of_nonneg {a b : Int64} (ha : 0 ≤ a.toInt) (hb : 0 ≤ b.toInt)
    (hsum : 0 ≤ (a + b).toInt) : (a + b).toInt = a.toInt + b.toInt := by
  refine (toInt_add_iff ha hb).2 ?_
  by_contra hge
  have hltA := Int64.toInt_lt a
  have hltB := Int64.toInt_lt b
  -- A sum that overflows is negative.
  rw [Int64.toInt_add, Int.bmod_def] at hsum
  have hmod : (a.toInt + b.toInt) % ((2 ^ 64 : Nat) : Int) = a.toInt + b.toInt := by
    refine Int.emod_eq_of_lt (by omega) ?_
    norm_cast at hltA hltB ⊢
    omega
  rw [hmod] at hsum
  split at hsum
  · rename_i hlt
    norm_cast at hlt
  · omega

theorem toInt_ofNat_of_lt {n : Nat} (h : n < 2 ^ 63) : (Int64.ofNat n).toInt = n :=
  Int64.toInt_ofNat_of_lt h

theorem clock_sec {now : Nat} (h : now < KTIME_MAX) :
    (clock now).tv_sec.toInt = (now / 1000000000 : Nat) := by
  unfold KTIME_MAX at h
  exact toInt_ofNat_of_lt (by omega)

theorem clock_nsec (now : Nat) : (clock now).tv_nsec.toInt = (now % 1000000000 : Nat) :=
  toInt_ofNat_of_lt (by omega)

theorem nanoseconds_nonneg (t : Time) : 0 ≤ t.nanoseconds := by
  have hsec := t.nonneg
  have hnsec := t.valid.1
  unfold Timespec.nanoseconds
  omega

/-- A request that the kernel takes denotes the end of the interval. -/
theorem nanoseconds_of_settable {now : Nat} {interval : Time} (h : now < KTIME_MAX)
    (hset : Settable ⟨(clock now).tv_sec + interval.tv_sec, (clock now).tv_nsec + interval.tv_nsec⟩) :
    Timespec.nanoseconds
        ⟨(clock now).tv_sec + interval.tv_sec, (clock now).tv_nsec + interval.tv_nsec⟩ =
      now + interval.nanoseconds := by
  have hsec := clock_sec h
  have hnsec := clock_nsec now
  have hvalid := interval.valid
  unfold Timespec.Valid at hvalid
  have hsum := toInt_add_of_nonneg (by rw [hsec]; omega) interval.nonneg hset.1
  have hnsum : ((clock now).tv_nsec + interval.tv_nsec).toInt =
      (clock now).tv_nsec.toInt + interval.tv_nsec.toInt :=
    toInt_add_of_lt (by omega) (by omega)
  unfold Timespec.nanoseconds
  dsimp only
  rw [hsum, hnsum, hsec, hnsec]
  omega

/-- `SetTimer` fails and leaves the timer as it was, or arms it for the end of the interval. -/
theorem setTimer_cases {s : State} (h : s.now < KTIME_MAX) (clockErrno : Option Int)
    (interval : Time) (delay : Nat) :
    (s.setTimer clockErrno interval delay).1 = s.pass delay ∨
      (s.setTimer clockErrno interval delay) =
        ({ now := s.now + delay
           timer := IntervalTimer.arm (s.now + interval.nanoseconds.toNat)
             interval.nanoseconds.toNat (s.now + delay)
           registeredTime := interval.nanoseconds.toNat
           set := some (s.now, interval.nanoseconds.toNat)
           fetched := 0 }, 0) := by
  cases clockErrno with
  | some errno => exact .inl rfl
  | none =>
      by_cases hset :
          Settable ⟨(clock s.now).tv_sec + interval.tv_sec, (clock s.now).tv_nsec + interval.tv_nsec⟩ ∧
            Settable interval.toTimespec
      · right
        have hvalue : (Timespec.nanoseconds
            ⟨(clock s.now).tv_sec + interval.tv_sec,
              (clock s.now).tv_nsec + interval.tv_nsec⟩).toNat =
            s.now + interval.nanoseconds.toNat := by
          have hpos := nanoseconds_nonneg interval
          rw [nanoseconds_of_settable h hset.1]
          omega
        unfold State.setTimer Timing.setTimer
        dsimp only [settime]
        rw [if_pos hset]
        dsimp only
        rw [if_neg (by decide), hvalue]
      · left
        unfold State.setTimer Timing.setTimer
        dsimp only [settime]
        rw [if_neg hset]
        dsimp only
        rw [if_pos (by decide)]

/-! ## Conservation -/

/-- The timer counts the expirations since it was set. -/
structure Inv (s : State) : Prop where
  now : s.now < KTIME_MAX
  unset : s.set = none → s.timer = .disarmed ∧ s.fetched = 0
  since : ∀ t interval, s.set = some (t, interval) → t ≤ s.now ∧ s.registeredTime = interval ∧
    (t + interval = 0 → s.timer = .disarmed ∧ s.fetched = 0) ∧
    (t + interval ≠ 0 → s.timer.Since (t + interval) interval s.now s.fetched)

theorem inv_pass {s : State} (hs : Inv s) {d : Nat} (h : s.now + d < KTIME_MAX) :
    Inv (s.pass d) := by
  refine ⟨h, fun hset => ?_, fun t interval hset => ?_⟩
  · rcases hs.unset hset with ⟨htimer, hfetched⟩
    exact ⟨by simp [State.pass, htimer, IntervalTimer.expire, IntervalTimer.disarmed], hfetched⟩
  · rcases hs.since t interval hset with ⟨hle, hregistered, hzero, hsince⟩
    refine ⟨Nat.le_trans hle (Nat.le_add_right _ _), hregistered, fun heq => ?_, fun hne => ?_⟩
    · rcases hzero heq with ⟨htimer, hfetched⟩
      exact ⟨by simp [State.pass, htimer, IntervalTimer.expire, IntervalTimer.disarmed], hfetched⟩
    · exact (hsince hne).expire (Nat.le_add_right _ _)

theorem inv_step {handle : Nat} (hhandle : handle < FD_SETSIZE)
    {handlers : List (Registration η δ)} {s s' : State} {a : Act} (hs : Inv s)
    (h : step handle handlers s a = some s') : Inv s' := by
  cases a with
  | pass d =>
      unfold step at h
      dsimp only at h
      split at h
      · rename_i hlt
        cases h
        exact inv_pass hs hlt
      · cases h
  | setTimer clockErrno interval delay =>
      unfold step at h
      dsimp only at h
      split at h
      · rename_i hlt
        rcases setTimer_cases hs.now clockErrno interval delay with hfailed | harmed
        · rw [hfailed] at h
          cases h
          exact inv_pass hs hlt
        · rw [harmed] at h
          cases h
          refine ⟨hlt, by simp, fun t interval' hset => ?_⟩
          cases hset
          refine ⟨Nat.le_add_right _ _, rfl, fun heq => ⟨?_, rfl⟩, fun hne => ?_⟩
          · exact if_pos heq
          · exact IntervalTimer.since_arm hne
      · cases h
  | fetch allocated select =>
      unfold step at h
      dsimp only at h
      rcases fetch_cases (s := s) hhandle handlers allocated select with
        ⟨ret, -, hfetch, -⟩ | ⟨hpos, hfetch⟩
      · rw [hfetch] at h
        cases h
        exact hs
      · rw [hfetch] at h
        cases h
        refine ⟨hs.now, fun hset => ?_, fun t interval hset => ?_⟩
        · have htimer := (hs.unset hset).1
          rw [htimer] at hpos
          exact absurd hpos (by decide)
        · rcases hs.since t interval hset with ⟨hle, hregistered, hzero, hsince⟩
          refine ⟨hle, hregistered, fun heq => ?_, fun hne => (hsince hne).read⟩
          have htimer := (hzero heq).1
          rw [htimer] at hpos
          exact absurd hpos (by decide)

/-- What holds of a timer at any time. -/
structure Exact (s : State) (handle : Nat) (handlers : List (Registration η δ)) : Prop where
  /-- A timer that was never set gives nothing. -/
  unset : s.set = none → s.fetched = 0 ∧ Gives s handle handlers 0
  /-- What was fetched since the timer was set and what the next fetch gives are together the
  intervals that have passed. -/
  set : ∀ t interval, s.set = some (t, interval) → s.registeredTime = interval ∧
    s.fetched ≤ due interval t s.now ∧ Gives s handle handlers (due interval t s.now - s.fetched)

theorem gives_ticks {s : State} {handle : Nat} (hhandle : handle < FD_SETSIZE)
    (handlers : List (Registration η δ)) : Gives s handle handlers s.timer.ticks := by
  rcases fetch_cases (s := s) hhandle handlers true none with ⟨ret, -, hfetch, hret⟩ | ⟨hpos, hfetch⟩
  · rcases hret rfl rfl with ⟨hticks, rfl⟩
    refine ⟨s, ?_⟩
    rw [hfetch, hticks]
    rfl
  · refine ⟨{ s with timer := s.timer.read, fetched := s.fetched + s.timer.ticks }, ?_⟩
    rw [hfetch, if_neg (Nat.ne_of_gt hpos)]

/-- The expirations of the kernel's timer are the intervals that have passed. -/
theorem expirations_eq_due {t interval now : Nat} (hle : t ≤ now) (hne : t + interval ≠ 0) :
    IntervalTimer.expirations interval (t + interval) now = due interval t now := by
  unfold IntervalTimer.expirations due
  by_cases hzero : interval = 0
  · subst hzero
    rw [Nat.add_zero] at hne ⊢
    simp [Nat.not_lt.2 hle, hne]
  · rw [if_neg hzero, if_neg hzero]
    split
    · rename_i hlt
      rw [Nat.div_eq_of_lt (by omega)]
    · rename_i hge
      have hsplit : now - t = (now - (t + interval)) + interval := by omega
      rw [hsplit, Nat.add_div_right _ (Nat.pos_of_ne_zero hzero)]

theorem Inv.exact {s : State} (hs : Inv s) {handle : Nat} (hhandle : handle < FD_SETSIZE)
    (handlers : List (Registration η δ)) : Exact s handle handlers := by
  have hgives := @gives_ticks _ _ s handle hhandle handlers
  constructor
  · intro hset
    rcases hs.unset hset with ⟨htimer, hfetched⟩
    rw [htimer] at hgives
    exact ⟨hfetched, hgives⟩
  · intro t interval hset
    rcases hs.since t interval hset with ⟨hle, hregistered, hzero, hsince⟩
    refine ⟨hregistered, ?_⟩
    by_cases heq : t + interval = 0
    · -- Set to nothing at the time 0, the timer is not armed at all.
      rcases hzero heq with ⟨htimer, hfetched⟩
      have hdue : due interval t s.now = 0 := by
        have ht : t = 0 := by omega
        have hinterval : interval = 0 := by omega
        simp [due, ht, hinterval]
      rw [htimer] at hgives
      rw [hdue, hfetched]
      exact ⟨Nat.le_refl 0, hgives⟩
    · have hcount := (hsince heq).count
      rw [expirations_eq_due hle heq] at hcount
      have hticks : due interval t s.now - s.fetched = s.timer.ticks := by omega
      rw [hticks]
      exact ⟨by omega, hgives⟩

/-- No expiration is lost and none is handed out twice, in any run. -/
theorem ticks_conserved {handle : Nat} (hhandle : handle < FD_SETSIZE)
    (handlers : List (Registration η δ)) {now : Nat} (hnow : now < KTIME_MAX) (acts : List Act)
    (s : State) (hexec : Run.exec (step handle handlers) (.created now) acts = some s) :
    Exact s handle handlers := by
  have hstart : Inv (.created now) :=
    ⟨hnow, fun _ => ⟨rfl, rfl⟩, by simp [State.created]⟩
  exact (Run.exec_preserved (fun _ _ _ hs h => inv_step hhandle hs h) hstart hexec).exact hhandle
    handlers

/-- An interval of two nanoseconds. -/
def brief : Time := ⟨⟨0, 2⟩, by decide, by decide⟩

/-- Two intervals behind `SetTimer`, one of them fetched: the other one is due. -/
theorem second_tick :
    ∃ s, Run.exec (step 3 ([] : List (Registration Unit Unit))) (.created 5)
        [.setTimer none brief 1, .pass 1, .fetch true none, .fetch true none, .pass 2] = some s ∧
      s.fetched = 1 ∧ Gives s 3 ([] : List (Registration Unit Unit)) 1 := by
  refine ⟨_, rfl, rfl, ?_⟩
  have hhandle : 3 < FD_SETSIZE := by decide
  have hnow : 5 < KTIME_MAX := by decide
  have hexact := ticks_conserved hhandle ([] : List (Registration Unit Unit)) hnow
    [.setTimer none brief 1, .pass 1, .fetch true none, .fetch true none, .pass 2] _ rfl
  exact (hexact.set 5 2 rfl).2.2

end Ticks
end EventLoop
end Beyond
