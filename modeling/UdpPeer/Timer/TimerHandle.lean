import Mathlib

/-!
# The timers of the main loop

`TimerHandle::initialize` creates a non-blocking timerfd. It arms the timerfd with
`timerfd_settime`, which takes the interval split into seconds and nanoseconds, a setting the
kernel accepts for every interval. (An interval of 0 gives the setting `{0, 0}`, which disarms the
timer; `main` asks for 100, 200 and 250 ms.) The kernel counts the timer's expirations since the
last `read`. A `read` returns that count and clears it, and it fails with `EAGAIN` while the count
is zero. `EventLoop::run` waits for `EPOLLIN`, which reports the timerfd while its count is not
zero, and then calls the timer's `handleEvent`. That reads the timerfd and runs the callback when
the read returned its 8 bytes. It never looks at the count it read, so expirations that pile up
before a round of the loop run the callback once.

The main result is `timer_callbacks_bounded`: over every interleaving of expirations and rounds
of the loop, the read never fails, every round runs the callback, and each run uses up at least
one expiration.
-/

namespace UdpPeer.Timer

def nsecPerSec : UInt64 := 1000000000

def nsecPerMsec : UInt64 := 1000000

inductive TimerHandleError
  | none
  | timerCreateFail
  | setTimeFail
  | readFail
  deriving DecidableEq, Repr

def toInt64 (x : UInt64) : Int :=
  if x.toNat < 2 ^ 63 then x.toNat else x.toNat - 2 ^ 64

structure Timespec where
  tvSec : Int
  tvNsec : Int
  deriving DecidableEq, Repr

structure Itimerspec where
  itInterval : Timespec
  itValue : Timespec
  deriving DecidableEq, Repr

def Timespec.valid (t : Timespec) : Bool :=
  decide (0 ≤ t.tvSec) && decide (0 ≤ t.tvNsec) && decide (t.tvNsec < 1000000000)

structure TimerHandle where
  timerfd : Int
  callback : Bool
  error : TimerHandleError
  deriving DecidableEq, Repr

namespace TimerHandle

def init : TimerHandle := ⟨-1, false, .none⟩

def msec2nsec (msec : UInt32) : UInt64 := msec.toUInt64 * nsecPerMsec

def timerSpec (intervalNsec : UInt64) (periodic : Bool) : Itimerspec :=
  let sec := intervalNsec / nsecPerSec
  let nsec := intervalNsec % nsecPerSec
  let value : Timespec := ⟨toInt64 sec, toInt64 nsec⟩
  ⟨if periodic then value else ⟨0, 0⟩, value⟩

/-- `initialize(interval_nsec, periodic)`, where `timerfd_create` returns `created`: the handle,
and the setting passed to `timerfd_settime`. -/
def setUp (h : TimerHandle) (intervalNsec : UInt64) (periodic : Bool) (created : Int) :
    TimerHandle × Option Itimerspec :=
  if created < 0 then ({ h with timerfd := created, error := .timerCreateFail }, none)
  else
    let spec := timerSpec intervalNsec periodic
    if spec.itValue.valid && spec.itInterval.valid then
      ({ h with timerfd := created, error := .none }, some spec)
    else ({ h with timerfd := created, error := .setTimeFail }, some spec)

def setCallback (h : TimerHandle) : TimerHandle := { h with callback := true }

end TimerHandle

/-- What the kernel keeps for a timerfd: the expirations since the last `read`. -/
structure TimerFd where
  expirations : Nat
  deriving DecidableEq, Repr

/-- `read(m_timerfd, &expirations, sizeof(expirations))` on the non-blocking timerfd: the timerfd
after it, what `read` returns, and the count it stores. -/
def TimerFd.read (fd : TimerFd) : TimerFd × Int × Nat :=
  if fd.expirations = 0 then (fd, -1, 0) else (⟨0⟩, 8, fd.expirations)

/-- `handleEvent()`: the handle, the timerfd after the read, and whether the callback ran. -/
def TimerHandle.handleEvent (h : TimerHandle) (fd : TimerFd) : TimerHandle × TimerFd × Bool :=
  let (fd, bytesRead, _) := fd.read
  if bytesRead ≠ 8 then ({ h with error := .readFail }, fd, false) else (h, fd, h.callback)

/-! ## Arming -/

theorem toInt64_of_lt {x : UInt64} (small : x.toNat < 2 ^ 63) : toInt64 x = x.toNat := by
  rw [toInt64, if_pos small]

theorem timerSpec_value (intervalNsec : UInt64) (periodic : Bool) :
    (TimerHandle.timerSpec intervalNsec periodic).itValue =
      ⟨(intervalNsec.toNat / 1000000000 : Nat), (intervalNsec.toNat % 1000000000 : Nat)⟩ := by
  have := intervalNsec.toNat_lt
  have sec : (intervalNsec / nsecPerSec).toNat = intervalNsec.toNat / 1000000000 := UInt64.toNat_div _ _
  have nsec : (intervalNsec % nsecPerSec).toNat = intervalNsec.toNat % 1000000000 := UInt64.toNat_mod _ _
  show (⟨toInt64 (intervalNsec / nsecPerSec), toInt64 (intervalNsec % nsecPerSec)⟩ : Timespec) = _
  rw [toInt64_of_lt (by rw [sec]; omega), sec,
    toInt64_of_lt (by rw [nsec]; omega), nsec]

theorem timerSpec_interval (intervalNsec : UInt64) (periodic : Bool) :
    (TimerHandle.timerSpec intervalNsec periodic).itInterval =
      if periodic then (TimerHandle.timerSpec intervalNsec periodic).itValue else ⟨0, 0⟩ := by
  cases periodic <;> rfl

theorem timerSpec_valid (intervalNsec : UInt64) (periodic : Bool) :
    (TimerHandle.timerSpec intervalNsec periodic).itValue.valid = true ∧
      (TimerHandle.timerSpec intervalNsec periodic).itInterval.valid = true := by
  have value : (TimerHandle.timerSpec intervalNsec periodic).itValue.valid = true := by
    rw [timerSpec_value]
    simp only [Timespec.valid, Bool.and_eq_true, decide_eq_true_eq]
    omega
  refine ⟨value, ?_⟩
  rw [timerSpec_interval]
  split
  · exact value
  · rfl

theorem setUp_created (h : TimerHandle) (intervalNsec : UInt64) (periodic : Bool) {created : Int}
    (valid : 0 ≤ created) :
    h.setUp intervalNsec periodic created =
      ({ h with timerfd := created, error := .none }, some (TimerHandle.timerSpec intervalNsec periodic)) := by
  obtain ⟨value, interval⟩ := timerSpec_valid intervalNsec periodic
  simp [TimerHandle.setUp, not_lt.2 valid, value, interval]

/-! ## Expirations and rounds of the loop -/

structure TimerLoop where
  handle : TimerHandle
  fd : TimerFd
  calls : Nat

inductive TimerEvent
  | expire
  | round
  deriving DecidableEq, Repr

namespace TimerLoop

def armed (intervalNsec : UInt64) (periodic : Bool) (created : Int) : TimerLoop :=
  ⟨(TimerHandle.init.setUp intervalNsec periodic created).1.setCallback, ⟨0⟩, 0⟩

def step (l : TimerLoop) : TimerEvent → Option TimerLoop
  | .expire => some { l with fd := ⟨l.fd.expirations + 1⟩ }
  | .round =>
    -- `EPOLLIN` reports the timerfd only while its count is not zero
    if l.fd.expirations = 0 then none
    else
      let (handle, fd, ran) := l.handle.handleEvent l.fd
      some { l with handle, fd, calls := l.calls + if ran then 1 else 0 }

def run : TimerLoop → List TimerEvent → Option TimerLoop
  | l, [] => some l
  | l, e :: events => (l.step e).bind fun l' => l'.run events

end TimerLoop

theorem handleEvent_readable (h : TimerHandle) {fd : TimerFd} (readable : fd.expirations ≠ 0) :
    h.handleEvent fd = (h, ⟨0⟩, h.callback) := by
  simp [TimerHandle.handleEvent, TimerFd.read, readable]

namespace TimerLoop

variable {l l' : TimerLoop}

theorem step_cases {e : TimerEvent} (h : l.step e = some l') :
    e = .expire ∧ l' = { l with fd := ⟨l.fd.expirations + 1⟩ } ∨
      e = .round ∧ l.fd.expirations ≠ 0 ∧
        l' = { l with fd := ⟨0⟩, calls := l.calls + if l.handle.callback then 1 else 0 } := by
  cases e with
  | expire => exact .inl ⟨rfl, (Option.some.inj h).symm⟩
  | round =>
    simp only [step] at h
    split at h
    · cases h
    · rename_i readable
      rw [handleEvent_readable l.handle readable] at h
      exact .inr ⟨rfl, readable, (Option.some.inj h).symm⟩

/-- The timer between rounds of the loop: the callback is set, `m_error` is `None`, the callback
ran once per round, and every run used up at least one expiration. -/
structure Counted (l : TimerLoop) (events : List TimerEvent) : Prop where
  error : l.handle.error = .none
  callback : l.handle.callback = true
  calls : l.calls = events.count .round
  used : l.calls + l.fd.expirations ≤ events.count .expire

theorem Counted.step {events : List TimerEvent} (counted : Counted l events) {e : TimerEvent}
    (h : l.step e = some l') : Counted l' (events ++ [e]) := by
  obtain ⟨error, callback, calls, used⟩ := counted
  rcases step_cases h with ⟨rfl, rfl⟩ | ⟨rfl, readable, rfl⟩
  · exact ⟨error, callback, by simpa using calls, by simp; omega⟩
  · refine ⟨error, callback, by simp [callback, calls], ?_⟩
    simp only [callback, if_true, List.count_append, List.count_singleton', reduceCtorEq, if_false]
    omega

theorem Counted.run {events : List TimerEvent} (counted : Counted l events) {more : List TimerEvent}
    (ran : l.run more = some l') : Counted l' (events ++ more) := by
  induction more generalizing l events with
  | nil =>
    cases Option.some.inj ran
    simpa using counted
  | cons e more ih =>
    obtain ⟨l₁, stepped, ran⟩ := Option.bind_eq_some.1 ran
    simpa using ih (counted.step stepped) ran

end TimerLoop

/-- Over every interleaving of expirations of a timer that `main` armed and rounds of the loop
that dispatch it, `handleEvent`'s read never fails, so `m_error` stays `None`. Every round runs
the callback once, and each run uses up at least one expiration: the callback runs at most as
often as the timer expired. -/
theorem timer_callbacks_bounded {intervalNsec : UInt64} {periodic : Bool} {created : Int}
    (valid : 0 ≤ created) (events : List TimerEvent) {l : TimerLoop}
    (ran : (TimerLoop.armed intervalNsec periodic created).run events = some l) :
    l.handle.error = .none ∧ l.calls = events.count .round ∧
      l.calls + l.fd.expirations ≤ events.count .expire := by
  have set := setUp_created TimerHandle.init intervalNsec periodic valid
  have armed : TimerLoop.Counted (TimerLoop.armed intervalNsec periodic created) [] :=
    ⟨by simp only [TimerLoop.armed, TimerHandle.setCallback, set], rfl, rfl, le_refl 0⟩
  obtain ⟨error, -, calls, used⟩ := armed.run ran
  exact ⟨error, calls, used⟩

/-- The TX timer expires twice before the loop takes a round, then once more. -/
theorem timer_callbacks_bounded_tx :
    0 ≤ (3 : Int) ∧
    ∃ l, (TimerLoop.armed (TimerHandle.msec2nsec 100) true 3).run [.expire, .expire, .round, .expire] = some l ∧
      l.handle.error = .none ∧ l.calls = [TimerEvent.expire, .expire, .round, .expire].count .round ∧
      l.calls + l.fd.expirations ≤ [TimerEvent.expire, .expire, .round, .expire].count .expire :=
  ⟨by decide, _, rfl, timer_callbacks_bounded (by decide) _ rfl⟩

end UdpPeer.Timer
