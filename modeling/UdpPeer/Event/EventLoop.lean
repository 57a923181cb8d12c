import Mathlib

/-!
# The event loop's callbacks

`EventLoop::registerEvent(fd, events, callback)` asks the kernel to add `fd` to the interest set
of the loop's epoll instance. On success it stores `m_callbacks[fd] = callback`; on failure it
sets `m_error`. `EventLoop::run` loops on `epoll_wait`: for each descriptor reported, it looks
up the descriptor's callback and calls it. The kernel never adds a descriptor twice (`EEXIST`).
It may refuse an addition for reasons of its own: `EBADF` for the -1 of a timer whose
`initialize` failed, `EPERM`, or `ENOMEM`. It reports only descriptors of the interest set.

The main results, over every sequence of registrations:

* `registered_callbacks`: a descriptor has a callback exactly when it is in the interest set,
  and its callback is the one of its first registration that the kernel accepted. `m_error`
  stays `None` exactly when the kernel accepted every registration and no descriptor was
  registered twice.
* `dispatch_calls_registered`: on every report of `epoll_wait`, the loop calls, in the report's
  order, the callback of each reported descriptor; its lookup never misses.

The loop's `m_running` and its wake-ups are in `UdpPeer.App.Shutdown`; callbacks are values of a
type `α`.
-/

namespace UdpPeer.Event

inductive EventLoopError
  | none
  | eventCreateFail
  | addEventFail
  | removeEventFail
  deriving DecidableEq, Repr

/-- The loop and the interest set the kernel keeps for its epoll instance. -/
structure EventLoop (α : Type) where
  epollfd : Int
  interest : List Int
  callbacks : Int → Option α
  error : EventLoopError

/-- A call `registerEvent(fd, events, callback)`, with whether the kernel accepts `fd` when it is
not watched yet. -/
structure Registration (α : Type) where
  fd : Int
  callback : α
  accepted : Bool

namespace EventLoop

variable {α : Type} (s : EventLoop α)

def init : EventLoop α := ⟨-1, [], fun _ => none, .none⟩

/-- `EventLoop::initialize`, whose name Lean keeps for itself: `epoll_create1(0)` returns
`created`. -/
def setUp (created : Int) : EventLoop α :=
  { s with epollfd := created, error := if created < 0 then .eventCreateFail else s.error }

def epollCtlAdd (fd : Int) (accepted : Bool) : Bool :=
  decide (0 ≤ s.epollfd) && decide (fd ∉ s.interest) && accepted

def registerEvent (fd : Int) (callback : α) (accepted : Bool) : EventLoop α :=
  if s.epollCtlAdd fd accepted then
    { s with interest := s.interest ++ [fd], callbacks := Function.update s.callbacks fd (some callback) }
  else { s with error := .addEventFail }

def registerAll (regs : List (Registration α)) : EventLoop α :=
  regs.foldl (fun s r => s.registerEvent r.fd r.callback r.accepted) s

/-- One pass of `while (m_running == true)`: `epoll_wait` returns `nfds` and fills `events`, and
the loop calls the callback it finds for each of the first `nfds` descriptors, in order. -/
def dispatch (nfds : Int) (events : List Int) : List α :=
  (events.take nfds.toNat).filterMap s.callbacks

end EventLoop

def firstCallback {α : Type} (regs : List (Registration α)) (fd : Int) : Option α :=
  (regs.find? fun r => r.fd == fd && r.accepted).map Registration.callback

theorem firstCallback_concat {α : Type} (regs : List (Registration α)) (r : Registration α) (fd : Int) :
    firstCallback (regs ++ [r]) fd =
      (firstCallback regs fd).or (if r.fd = fd ∧ r.accepted = true then some r.callback else none) := by
  unfold firstCallback
  rw [List.find?_append]
  cases firstCallback_regs : regs.find? (fun r => r.fd == fd && r.accepted) with
  | some r' => rfl
  | none =>
    simp only [Option.none_or, Option.map_none', List.find?_singleton]
    by_cases hit : r.fd = fd ∧ r.accepted = true
    · simp [hit]
    · simp only [if_neg hit]
      rw [if_neg (by simpa using hit)]
      rfl

/-- The loop after the registrations `regs`, from a working epoll instance: its callbacks are
their first accepted ones, the interest set holds the descriptors that have one, and `m_error`
records whether one of them failed. -/
structure Registered {α : Type} (s : EventLoop α) (regs : List (Registration α)) : Prop where
  epollfd : 0 ≤ s.epollfd
  callbacks : s.callbacks = firstCallback regs
  interest : ∀ fd, fd ∈ s.interest ↔ (firstCallback regs fd).isSome
  error : s.error = .none ↔ (regs.map Registration.fd).Nodup ∧ ∀ r ∈ regs, r.accepted = true

section Registered

variable {α : Type} {s : EventLoop α} {regs : List (Registration α)}

theorem Registered.setUp {created : Int} (valid : 0 ≤ created) :
    Registered ((EventLoop.init : EventLoop α).setUp created) [] where
  epollfd := valid
  callbacks := funext fun _ => rfl
  interest fd := by simp [EventLoop.init, EventLoop.setUp, firstCallback]
  error := by simp [EventLoop.init, EventLoop.setUp, if_neg (Int.not_lt.2 valid)]

theorem Registered.interest_of_none (books : Registered s regs) (none : s.error = .none) (fd : Int) :
    fd ∈ s.interest ↔ fd ∈ regs.map Registration.fd := by
  have accepted := (books.error.1 none).2
  rw [books.interest, firstCallback, Option.isSome_map', List.find?_isSome, List.mem_map]
  constructor
  · rintro ⟨r, mem, found⟩
    exact ⟨r, mem, (by simpa using found : r.fd = fd ∧ r.accepted = true).1⟩
  · rintro ⟨r, mem, rfl⟩
    exact ⟨r, mem, by simp [accepted r mem]⟩

theorem Registered.register (books : Registered s regs) (r : Registration α) :
    Registered (s.registerEvent r.fd r.callback r.accepted) (regs ++ [r]) := by
  by_cases added : s.epollCtlAdd r.fd r.accepted = true
  · have fresh : r.fd ∉ s.interest ∧ r.accepted = true := by
      simpa [EventLoop.epollCtlAdd, books.epollfd] using added
    have unset : firstCallback regs r.fd = none := by
      simpa using (books.interest r.fd).not.1 fresh.1
    rw [EventLoop.registerEvent, if_pos added]
    refine ⟨books.epollfd, funext fun fd => ?_, fun fd => ?_, ?_⟩
    · by_cases same : fd = r.fd
      · subst same
        simp [firstCallback_concat, unset, fresh.2]
      · simp [firstCallback_concat, books.callbacks, same, Ne.symm same]
    · by_cases same : fd = r.fd
      · subst same
        simp [firstCallback_concat, unset, fresh.2]
      · simp [firstCallback_concat, books.interest, same, Ne.symm same]
    · show s.error = .none ↔ _
      rw [List.map_append, List.nodup_append, books.error]
      have absent : r.fd ∉ regs.map Registration.fd ∨ s.error ≠ .none := by
        by_cases none : s.error = .none
        · exact .inl ((books.interest_of_none none r.fd).not.1 fresh.1)
        · exact .inr none
      constructor
      · rintro ⟨nodup, accepted⟩
        refine ⟨⟨nodup, List.nodup_singleton _, ?_⟩, fun r' mem => ?_⟩
        · rcases absent with absent | failed
          · simpa [List.disjoint_singleton] using absent
          · exact absurd (books.error.2 ⟨nodup, accepted⟩) failed
        · rcases List.mem_append.1 mem with mem | mem
          · exact accepted r' mem
          · rw [List.mem_singleton.1 mem]
            exact fresh.2
      · rintro ⟨⟨nodup, -, -⟩, accepted⟩
        exact ⟨nodup, fun r' mem => accepted r' (List.mem_append_left _ mem)⟩
  · have refused : r.fd ∈ s.interest ∨ r.accepted = false := by
      by_contra neither
      push_neg at neither
      exact added (by simp [EventLoop.epollCtlAdd, books.epollfd, neither.1, neither.2])
    have unchanged : firstCallback (regs ++ [r]) = firstCallback regs := by
      funext fd
      rw [firstCallback_concat]
      rcases refused with watched | refused
      · by_cases same : r.fd = fd
        · obtain ⟨cb, found⟩ := Option.isSome_iff_exists.1 ((books.interest r.fd).1 watched)
          rw [← same, found]
          rfl
        · simp [same]
      · simp [refused]
    rw [EventLoop.registerEvent, if_neg added]
    refine ⟨books.epollfd, books.callbacks.trans unchanged.symm, fun fd => ?_, ?_⟩
    · rw [unchanged]
      exact books.interest fd
    · show EventLoopError.addEventFail = .none ↔ _
      refine ⟨nofun, fun ⟨nodup, accepted⟩ => ?_⟩
      rcases refused with watched | refused
      · rw [List.map_append, List.nodup_append] at nodup
        have none : s.error = .none := books.error.2 ⟨nodup.1, fun r' mem => accepted r' (List.mem_append_left _ mem)⟩
        exact absurd ((books.interest_of_none none r.fd).1 watched)
          (List.disjoint_singleton.1 nodup.2.2)
      · rw [accepted r (List.mem_append_right _ (List.mem_singleton_self r))] at refused
        cases refused

theorem Registered.registerAll (books : Registered s regs) (more : List (Registration α)) :
    Registered (s.registerAll more) (regs ++ more) := by
  induction more generalizing s regs with
  | nil => simpa using books
  | cons r more ih =>
    have next := ih (books.register r)
    rwa [List.append_assoc, List.singleton_append] at next

end Registered

section Runs

variable {α : Type} (created : Int) (regs : List (Registration α))

def EventLoop.registered : EventLoop α :=
  (EventLoop.init.setUp created).registerAll regs

/-- After `initialize` created the epoll instance, and over every sequence of registrations, a
descriptor has a callback exactly when the kernel watches it, and it is the callback of its first
registration the kernel accepted: a later registration of a watched descriptor fails with
`EEXIST` and keeps the first callback. `m_error` stays `None` exactly when the kernel accepted
every registration and no descriptor was registered twice. -/
theorem registered_callbacks (valid : 0 ≤ created) :
    (EventLoop.registered created regs).callbacks = firstCallback regs ∧
      (∀ fd, fd ∈ (EventLoop.registered created regs).interest ↔ (firstCallback regs fd).isSome) ∧
      ((EventLoop.registered created regs).error = .none ↔
        (regs.map Registration.fd).Nodup ∧ ∀ r ∈ regs, r.accepted = true) := by
  have books : Registered (EventLoop.registered created regs) regs := by
    simpa only [List.nil_append] using (Registered.setUp valid).registerAll regs
  exact ⟨books.callbacks, books.interest, books.error⟩

/-- Two timers with distinct descriptors, the second registered twice. -/
theorem registered_callbacks_timers :
    let regs : List (Registration Nat) := [⟨5, 0, true⟩, ⟨6, 1, true⟩, ⟨5, 2, true⟩]
    0 ≤ (4 : Int) ∧
    (EventLoop.registered 4 regs).callbacks = firstCallback regs ∧
      (∀ fd, fd ∈ (EventLoop.registered 4 regs).interest ↔ (firstCallback regs fd).isSome) ∧
      ((EventLoop.registered 4 regs).error = .none ↔
        (regs.map Registration.fd).Nodup ∧ ∀ r ∈ regs, r.accepted = true) :=
  ⟨by decide, registered_callbacks 4 _ (by decide)⟩

/-- On every report of `epoll_wait` from the loop's interest set, or on the -1 of an interrupted
wait, the loop calls, in the report's order, the first accepted callback of each reported
descriptor: its lookup in `m_callbacks` never misses. -/
theorem dispatch_calls_registered (valid : 0 ≤ created) (nfds : Int) (events : List Int)
    (reported : ∀ fd ∈ events.take nfds.toNat, fd ∈ (EventLoop.registered created regs).interest) :
    List.Forall₂ (fun fd callback => firstCallback regs fd = some callback) (events.take nfds.toNat)
      ((EventLoop.registered created regs).dispatch nfds events) := by
  have books : Registered (EventLoop.registered created regs) regs := by
    simpa only [List.nil_append] using (Registered.setUp valid).registerAll regs
  unfold EventLoop.dispatch
  generalize events.take nfds.toNat = ready at reported ⊢
  induction ready with
  | nil => exact .nil
  | cons fd ready ih =>
    obtain ⟨callback, found⟩ :=
      Option.isSome_iff_exists.1 ((books.interest fd).1 (reported fd (List.mem_cons_self fd ready)))
    rw [List.filterMap_cons, books.callbacks, found]
    exact .cons found (books.callbacks ▸ ih fun fd' mem => reported fd' (List.mem_cons_of_mem fd mem))

/-- A report of both descriptors after two timers are registered, the first of them twice. -/
theorem dispatch_calls_registered_timers :
    let regs : List (Registration Nat) := [⟨5, 0, true⟩, ⟨6, 1, true⟩, ⟨5, 2, true⟩]
    0 ≤ (4 : Int) ∧
    (∀ fd ∈ [6, 5].take (2 : Int).toNat, fd ∈ (EventLoop.registered 4 regs).interest) ∧
    List.Forall₂ (fun fd callback => firstCallback regs fd = some callback) ([6, 5].take (2 : Int).toNat)
      ((EventLoop.registered 4 regs).dispatch 2 [6, 5]) :=
  ⟨by decide, by decide, dispatch_calls_registered 4 _ (by decide) 2 [6, 5] (by decide)⟩

end Runs

end UdpPeer.Event
