import Mathlib

/-!
# Starting and stopping the worker threads

`UdpThreadManager::start` configures the socket's buffers, stores `m_running = true`, and creates
the RX and then the TX worker. When the TX worker cannot be created it stores `m_running = false`
and joins the RX worker again. `UdpThreadManager::stop` does nothing unless `m_running` is set.
Otherwise it clears the flag and joins whichever workers `m_rxThread` and `m_txThread` name. The
destructor calls `stop` once more. The system decides what `setsockopt` and `pthread_create`
answer. `pthread_join` is defined only for a thread that was created and not yet joined, so the
model returns `none` for any other join.

A join returns once the thread has left its loop. The TX worker polls `m_running` and always
does. The RX worker is blocked in `recvfrom`, and leaves only when that returns: within 100 ms
when `configureSocketBuffers` set `SO_RCVTIMEO`, and otherwise only when a datagram or an error
reaches it. `stopWaiting` is `stop` with that wait.

The main result is `lifecycle_safe`. Over every sequence of `start` and `stop` calls that return,
every join is defined. Between calls, `m_running` is set exactly when two distinct workers are
live, and then they are the threads `m_rxThread` and `m_txThread` name. When it is clear, no
worker is left unjoined.
-/

namespace UdpPeer.Thread

inductive ManagerError
  | none
  | threadCreateFail
  | setAffinityFail
  | setSchedulerFail
  | setSocketBufferFail
  deriving DecidableEq, Repr

structure SockoptAnswers where
  rcvbuf : Bool
  sndbuf : Bool
  rcvtimeo : Bool

/-- `configureSocketBuffers()`: what it returns, and whether `SO_RCVTIMEO` was set. It asks for
`SO_RCVBUF` and `SO_SNDBUF` only for a positive size. A failed `SO_RCVTIMEO` is only logged. -/
def configureSocketBuffers (sockFd : Int) (rxBufferSize txBufferSize : Nat) (answers : SockoptAnswers) :
    Bool × Bool :=
  if sockFd < 0 then (false, false)
  else
    let rx := rxBufferSize = 0 || answers.rcvbuf
    let result := rx && (txBufferSize = 0 || answers.sndbuf)
    (result, result && answers.rcvtimeo)

structure StartAnswers where
  sockFd : Int
  sockopts : SockoptAnswers
  rxCreated : Bool
  txCreated : Bool

structure Manager where
  running : Bool
  rxThread : Nat
  txThread : Nat
  error : ManagerError
  rxTimeout : Bool
  live : List Nat
  nextThread : Nat

namespace Manager

variable (m : Manager)

def init : Manager := ⟨false, 0, 0, .none, false, [], 1⟩

def create : Manager × Nat :=
  ({ m with live := m.live ++ [m.nextThread], nextThread := m.nextThread + 1 }, m.nextThread)

def join (thread : Nat) : Option Manager :=
  if thread ∈ m.live then some { m with live := m.live.erase thread } else none

def start (rxBufferSize txBufferSize : Nat) (answers : StartAnswers) : Option (Manager × Bool) :=
  if m.running then some (m, false)
  else
    let configured := configureSocketBuffers answers.sockFd rxBufferSize txBufferSize answers.sockopts
    let m := { m with error := .none, rxTimeout := configured.2 }
    if !configured.1 then
      some ({ m with error := .setSocketBufferFail }, false)
    else if !answers.rxCreated then some ({ m with error := .threadCreateFail }, false)
    else
      let (m, rx) := m.create
      let m := { m with rxThread := rx }
      if !answers.txCreated then
        ({ m with error := .threadCreateFail }.join rx).map fun m => (m, false)
      else
        let (m, tx) := m.create
        some ({ m with txThread := tx, running := true }, true)

def stop : Option Manager :=
  if !m.running then some m
  else
    let m := { m with running := false }
    (if m.rxThread ≠ 0 then (m.join m.rxThread).map fun m => { m with rxThread := 0 } else some m).bind
      fun m => if m.txThread ≠ 0 then (m.join m.txThread).map fun m => { m with txThread := 0 }
        else some m

/-- How a call of `stop()` ends: it returns, or `pthread_join(m_rxThread, nullptr)` waits for
ever. -/
inductive Stopped
  | returns (m : Manager)
  | waits (m : Manager)

/-- Whether the RX worker leaves its loop once `m_running` is clear: its `recvfrom` returns within
100 ms with `SO_RCVTIMEO` set, and otherwise only when a datagram or an error reaches it
(`woken`). -/
def rxLeaves (woken : Bool) : Bool := m.rxTimeout || woken

/-- `stop()` with the wait of its joins. -/
def stopWaiting (woken : Bool) : Option Stopped :=
  if m.running && m.rxThread ≠ 0 && !m.rxLeaves woken then some (.waits { m with running := false })
  else m.stop.map .returns

end Manager

inductive ManagerCall
  | start (rxBufferSize txBufferSize : Nat) (answers : StartAnswers)
  | stop

def Manager.run : Manager → List ManagerCall → Option Manager
  | m, [] => some m
  | m, .start rxBufferSize txBufferSize answers :: calls =>
    (m.start rxBufferSize txBufferSize answers).bind fun (m, _) => m.run calls
  | m, .stop :: calls => m.stop.bind fun m => m.run calls

/-- The manager between calls: with `m_running` set, the live workers are two distinct threads
that `m_rxThread` and `m_txThread` name; otherwise none is live. -/
structure Lifecycle (m : Manager) : Prop where
  positive : 0 < m.nextThread
  created : ∀ t ∈ m.live, 0 < t ∧ t < m.nextThread
  running : m.running = true → m.live = [m.rxThread, m.txThread] ∧ m.rxThread ≠ m.txThread
  stopped : m.running = false → m.live = []

namespace Lifecycle

variable {m : Manager}

theorem init : Lifecycle Manager.init := ⟨Nat.one_pos, nofun, nofun, fun _ => rfl⟩

theorem start (life : Lifecycle m) (rxBufferSize txBufferSize : Nat) (answers : StartAnswers) :
    ∃ m' ok, m.start rxBufferSize txBufferSize answers = some (m', ok) ∧ Lifecycle m' := by
  cases running : m.running
  · have idle := life.stopped running
    have first := life.positive
    simp only [Manager.start, running, Bool.false_eq_true, if_false]
    split_ifs with buffers rx tx
    · exact ⟨_, _, rfl, first, by simp [idle], nofun, fun _ => idle⟩
    · exact ⟨_, _, rfl, first, by simp [idle], nofun, fun _ => idle⟩
    · -- the TX worker was not created: the RX worker is joined again
      simp only [Manager.create, Manager.join, idle, List.nil_append, List.mem_singleton, if_true,
        Option.map_some', List.erase_cons_head]
      exact ⟨_, _, rfl, Nat.succ_pos _, nofun, nofun, fun _ => rfl⟩
    · -- both workers run
      refine ⟨_, _, rfl, Nat.succ_pos _, fun t mem => ?_, fun _ => ⟨by simp [Manager.create, idle], ?_⟩, nofun⟩
      · simp only [Manager.create, idle, List.nil_append, List.singleton_append, List.mem_cons,
          List.mem_singleton, List.not_mem_nil, or_false] at mem ⊢
        omega
      · simp [Manager.create]
  · exact ⟨m, false, by simp [Manager.start, running], life⟩

theorem stop (life : Lifecycle m) : ∃ m', m.stop = some m' ∧ Lifecycle m' := by
  cases running : m.running
  · exact ⟨m, by simp [Manager.stop, running], life⟩
  · obtain ⟨workers, distinct⟩ := life.running running
    have rx := (life.created m.rxThread (by simp [workers])).1
    have tx := (life.created m.txThread (by simp [workers])).1
    simp only [Manager.stop, running, Bool.not_true, Bool.false_eq_true, if_false, Manager.join,
      workers, List.mem_cons, true_or, if_true, ne_eq, Nat.pos_iff_ne_zero.1 rx, not_false_eq_true,
      Option.map_some', Option.some_bind, List.erase_cons_head, List.mem_singleton,
      Nat.pos_iff_ne_zero.1 tx]
    exact ⟨_, rfl, life.positive, by simp, nofun, fun _ => rfl⟩

theorem run (life : Lifecycle m) (calls : List ManagerCall) : ∃ m', m.run calls = some m' ∧ Lifecycle m' := by
  induction calls generalizing m with
  | nil => exact ⟨m, rfl, life⟩
  | cons call calls ih =>
    cases call with
    | start rxBufferSize txBufferSize answers =>
      obtain ⟨m₁, ok, started, life₁⟩ := life.start rxBufferSize txBufferSize answers
      obtain ⟨m', ran, life'⟩ := ih life₁
      exact ⟨m', by rw [Manager.run, started, Option.some_bind]; exact ran, life'⟩
    | stop =>
      obtain ⟨m₁, stopped, life₁⟩ := life.stop
      obtain ⟨m', ran, life'⟩ := ih life₁
      exact ⟨m', by rw [Manager.run, stopped, Option.some_bind]; exact ran, life'⟩

end Lifecycle

namespace Manager

variable {m m' : Manager} {ok : Bool}

end Manager

/-- Over every sequence of `start` and `stop` calls, whatever the system answers, every
`pthread_join` is of a live worker: none is joined twice, and none that was not created. After
each call, `m_running` is set exactly when two distinct workers are live, the threads
`m_rxThread` and `m_txThread` name; when it is clear, no worker is left unjoined. -/
theorem lifecycle_safe (calls : List ManagerCall) :
    ∃ m, Manager.init.run calls = some m ∧
      (m.running = true → m.live = [m.rxThread, m.txThread] ∧ m.rxThread ≠ m.txThread) ∧
      (m.running = false → m.live = []) := by
  obtain ⟨m, ran, life⟩ := Lifecycle.init.run calls
  exact ⟨m, ran, life.running, life.stopped⟩

end UdpPeer.Thread
