import EasyConnection.Async.Run
import EasyConnection.Socks.Credentials

/-! # Starting and stopping the listeners

Two tasks accept the clients of the SOCKS and of the HTTP proxy; at most 512 sessions run at a
time. In each turn of its loop a task waits for a client or for the notification to stop. The
future of that notification is created anew in each turn, and `notify_waiters` reaches only the
futures that exist when it is called. A task that is on its way into its select, or that turns to
a client with the notification pending, never learns of it.
-/
namespace EasyConnection.Socks
open Async

/-- Where a listener task stands: about to create the futures of its next select (a task that has
not been polled yet, too), waiting in the select, with the client it has accepted, or ended. -/
inductive ListenerTask where
  | entering
  | selecting (notified : Bool)
  | handling
  | ended
  deriving DecidableEq

namespace ListenerTask

/-- The listener with its notification, if it has one that exists. -/
def notify : ListenerTask → ListenerTask
  | .selecting _ => .selecting true
  | l => l

/-- `notify_waiters` has nothing to miss. -/
def hears : ListenerTask → Bool
  | .selecting _ => true
  | .ended => true
  | _ => false

theorem notify_of_hears {l : ListenerTask} (h : l.hears = true) :
    l.notify = .ended ∨ l.notify = .selecting true := by
  cases l with
  | selecting notified => exact .inr rfl
  | ended => exact .inl rfl
  | entering => cases h
  | handling => cases h

end ListenerTask

/-- How far `ProxyHandles::stop` is: the tasks it has still to wait for. -/
inductive Stop where
  | notCalled
  | awaiting (tasks : List Listener)
  deriving DecidableEq

structure Listeners where
  task : Listener → ListenerTask
  /-- The permits of the semaphore that are left. -/
  permits : ℕ
  accepted : ℕ
  active : ℕ
  stop : Stop

def maxConcurrentProxySessions : ℕ := 512

namespace Listeners

/-- `ProxyServer::start` has spawned both tasks. -/
def start : Listeners := ⟨fun _ => .entering, maxConcurrentProxySessions, 0, 0, .notCalled⟩

def setTask (s : Listeners) (f : Listener) (l : ListenerTask) : Listeners :=
  { s with task := Function.update s.task f l }

/-- A client gets a session if there is a permit left, and is dropped otherwise. -/
def serve (s : Listeners) : Listeners :=
  if 0 < s.permits then
    { s with permits := s.permits - 1, accepted := s.accepted + 1, active := s.active + 1 }
  else s

inductive Event where
  | enter (f : Listener)
  | accept (f : Listener)
  | acceptFailed (f : Listener)
  | wake (f : Listener)
  | handle (f : Listener)
  | sessionEnds
  | notifyWaiters
  | join
  deriving DecidableEq

def step (s : Listeners) : Event → Option Listeners
  | .enter f => if s.task f = .entering then some (s.setTask f (.selecting false)) else none
  | .accept f =>
    match s.task f with
    | .selecting _ => some (s.setTask f .handling)
    | _ => none
  | .acceptFailed f =>
    match s.task f with
    | .selecting _ => some (s.setTask f .ended)
    | _ => none
  | .wake f => if s.task f = .selecting true then some (s.setTask f .ended) else none
  | .handle f => if s.task f = .handling then some (s.serve.setTask f .entering) else none
  | .sessionEnds =>
    if 0 < s.active then some { s with permits := s.permits + 1, active := s.active - 1 } else none
  | .notifyWaiters =>
    if s.stop = .notCalled then
      some { s with task := fun f => (s.task f).notify, stop := .awaiting [.socks, .http] }
    else none
  | .join =>
    match s.stop with
    | .awaiting (f :: rest) =>
      if s.task f = .ended then some { s with stop := .awaiting rest } else none
    | _ => none

/-- What a step can do. -/
inductive Stepped (s : Listeners) : Event → Listeners → Prop where
  | enter {f : Listener} (hf : s.task f = .entering) :
      Stepped s (.enter f) (s.setTask f (.selecting false))
  | accept {f : Listener} {notified : Bool} (hf : s.task f = .selecting notified) :
      Stepped s (.accept f) (s.setTask f .handling)
  | acceptFailed {f : Listener} : Stepped s (.acceptFailed f) (s.setTask f .ended)
  | wake {f : Listener} : Stepped s (.wake f) (s.setTask f .ended)
  | handle {f : Listener} (hf : s.task f = .handling) :
      Stepped s (.handle f) (s.serve.setTask f .entering)
  | sessionEnds (hactive : 0 < s.active) :
      Stepped s .sessionEnds { s with permits := s.permits + 1, active := s.active - 1 }
  | notifyWaiters : Stepped s .notifyWaiters
      { s with task := fun f => (s.task f).notify, stop := .awaiting [.socks, .http] }
  | join {f : Listener} {rest : List Listener} (hstop : s.stop = .awaiting (f :: rest)) :
      Stepped s .join { s with stop := .awaiting rest }

variable {s s' : Listeners} {e : Event}

theorem stepped_of_step (h : s.step e = some s') : s.Stepped e s' := by
  cases e with
  | enter f | handle f =>
    simp only [step, Option.ite_none_right_eq_some, Option.some.injEq] at h
    obtain ⟨hf, rfl⟩ := h
    constructor
    exact hf
  | accept f =>
    simp only [step] at h
    split at h
    · next hf =>
      obtain rfl := Option.some.inj h
      exact .accept hf
    · cases h
  | acceptFailed f =>
    simp only [step] at h
    split at h
    · obtain rfl := Option.some.inj h
      exact .acceptFailed
    · cases h
  | wake f | notifyWaiters =>
    simp only [step, Option.ite_none_right_eq_some, Option.some.injEq] at h
    obtain ⟨_, rfl⟩ := h
    constructor
  | sessionEnds =>
    simp only [step, Option.ite_none_right_eq_some, Option.some.injEq] at h
    obtain ⟨hactive, rfl⟩ := h
    exact .sessionEnds hactive
  | join =>
    simp only [step] at h
    split at h
    · next hstop =>
      simp only [Option.ite_none_right_eq_some, Option.some.injEq] at h
      obtain ⟨_, rfl⟩ := h
      exact .join hstop
    · cases h

/-- `stop` has notified the waiters, and the listener waits, or will next wait, without a
notification. -/
def Missed (s : Listeners) (f : Listener) : Prop :=
  s.stop ≠ .notCalled ∧
    (s.task f = .entering ∨ s.task f = .handling ∨ s.task f = .selecting false)

/-- `stop` is called while every listener that has not ended waits in its select, and a listener
whose notification is pending does not turn to a client. -/
def Heard (s : Listeners) : Event → Bool
  | .notifyWaiters => (s.task .socks).hears && (s.task .http).hears
  | .accept f => s.task f != .selecting true
  | _ => true

/-- Once `stop` has notified the waiters, every listener has ended or is about to. -/
def Stopping (s : Listeners) : Prop :=
  s.stop ≠ .notCalled → ∀ f, s.task f = .ended ∨ s.task f = .selecting true

theorem Stopping.not_missed (h : s.Stopping) (f : Listener) : ¬ s.Missed f := by
  rintro ⟨hstop, hmissed⟩
  obtain hf | hf := h hstop f
  all_goals
    rw [hf] at hmissed
    simp at hmissed

@[simp] theorem serve_task (s : Listeners) : s.serve.task = s.task := by
  unfold serve
  split_ifs <;> rfl

@[simp] theorem serve_stop (s : Listeners) : s.serve.stop = s.stop := by
  unfold serve
  split_ifs <;> rfl

theorem Stopping.setTask (h : s.Stopping) {f : Listener} {l : ListenerTask}
    (hl : s.stop ≠ .notCalled → l = .ended ∨ l = .selecting true) : (s.setTask f l).Stopping := by
  intro hstop g
  by_cases hg : g = f
  · subst hg
    simpa [Listeners.setTask] using hl hstop
  · simpa [Listeners.setTask, Function.update_of_ne hg] using h hstop g

theorem stopping_step (h : s.Stopping) (hheard : s.Heard e = true) (hstep : s.step e = some s') :
    s'.Stopping := by
  cases stepped_of_step hstep with
  | @enter f hf =>
    refine h.setTask fun hstop => ?_
    obtain hf' | hf' := h hstop f
    all_goals cases hf.symm.trans hf'
  | @accept f notified hf =>
    refine h.setTask fun hstop => ?_
    obtain hf' | hf' := h hstop f
    · cases hf.symm.trans hf'
    · rw [Heard, hf', bne_self_eq_false] at hheard
      cases hheard
  | acceptFailed | wake => exact h.setTask fun _ => .inl rfl
  | @handle f hf =>
    have hserve : s.serve.Stopping := by
      intro hstop
      rw [serve_task]
      exact h (by rwa [serve_stop] at hstop)
    refine hserve.setTask fun hstop => ?_
    rw [serve_stop] at hstop
    obtain hf' | hf' := h hstop f
    all_goals cases hf.symm.trans hf'
  | sessionEnds => exact h
  | notifyWaiters =>
    intro _ f
    simp only [Heard, Bool.and_eq_true] at hheard
    have hf : (s.task f).hears = true := by
      cases f with
      | socks => exact hheard.1
      | http => exact hheard.2
    exact ListenerTask.notify_of_hears hf
  | join hstop => exact fun _ => h (by simp [hstop])

/-- In a run in which `stop` finds every listener in its select, and no listener turns to a client
with its notification pending, no listener misses the notification. -/
theorem stop_reaches_listeners (es : List Event) (s : Listeners)
    (hheard : Meets step (fun s e => s.Heard e = true) start es) (hrun : run step start es = some s)
    (f : Listener) : ¬ s.Missed f := by
  have hinit : start.Stopping := fun hstop => absurd rfl hstop
  exact (run_invariant (fun _ _ _ => stopping_step) hinit hheard hrun).not_missed f

/-- Both listeners wait, one of them after a client, when `stop` is called. -/
theorem stop_reaches_waiting_listeners :
    ∃ s, run step start [.enter .socks, .enter .http, .accept .socks, .handle .socks, .enter .socks,
        .notifyWaiters] = some s ∧ s.stop ≠ .notCalled ∧ ¬ s.Missed .socks :=
  ⟨_, rfl, nofun, stop_reaches_listeners [.enter .socks, .enter .http, .accept .socks,
    .handle .socks, .enter .socks, .notifyWaiters] _ (by decide) rfl .socks⟩

/-- `stop` is called when the SOCKS listener has just accepted a client. The listener goes back
into its select and waits there for good. -/
theorem stop_missed_after_accept :
    ¬ ∀ (es : List Event) (s : Listeners), run step start es = some s → ∀ f, ¬ s.Missed f := by
  intro h
  exact h [.enter .socks, .enter .http, .accept .socks, .notifyWaiters, .handle .socks,
    .enter .socks] _ rfl .socks ⟨nofun, .inr (.inr rfl)⟩

/-- Once no listener can miss the notification, `stop` returns as soon as the pending
notifications are taken. -/
theorem Stopping.returns (h : s.Stopping) {tasks : List Listener}
    (hstop : s.stop = .awaiting tasks) :
    ∃ es s', (∀ e ∈ es, e = .join ∨ ∃ f, e = .wake f) ∧ run step s es = some s' ∧
      s'.stop = .awaiting [] := by
  induction tasks generalizing s with
  | nil => exact ⟨[], s, nofun, rfl, hstop⟩
  | cons f rest ih =>
    obtain hf | hf := h (by simp [hstop]) f
    · have hjoin : s.step .join = some { s with stop := .awaiting rest } := by
        simp only [step, hstop, hf, if_true]
      obtain ⟨es, s', hes, hrun, hend⟩ := ih (stopping_step h rfl hjoin) rfl
      refine ⟨.join :: es, s', List.forall_mem_cons.2 ⟨.inl rfl, hes⟩, ?_, hend⟩
      rw [run_cons, hjoin]
      exact hrun
    · have hwake : s.step (.wake f) = some (s.setTask f .ended) := if_pos hf
      have hjoin : (s.setTask f .ended).step .join =
          some { s.setTask f .ended with stop := .awaiting rest } := by
        simp [step, Listeners.setTask, hstop]
      have hnext := stopping_step (stopping_step h rfl hwake) rfl hjoin
      obtain ⟨es, s', hes, hrun, hend⟩ := ih hnext rfl
      refine ⟨.wake f :: .join :: es, s', List.forall_mem_cons.2 ⟨.inr ⟨f, rfl⟩,
        List.forall_mem_cons.2 ⟨.inl rfl, hes⟩⟩, ?_, hend⟩
      rw [run_cons, hwake, Option.bind_some, run_cons, hjoin]
      exact hrun

theorem serve_sessions (s : Listeners) :
    s.serve.permits + s.serve.active = s.permits + s.active := by
  unfold serve
  split_ifs
  · dsimp only
    omega
  · rfl

theorem sessions_step (hstep : s.step e = some s') :
    s'.permits + s'.active = s.permits + s.active := by
  cases stepped_of_step hstep with
  | handle => exact s.serve_sessions
  | sessionEnds hactive =>
    dsimp only
    omega
  | enter | accept | acceptFailed | wake | notifyWaiters | join => rfl

/-- Every session holds a permit, so there are never more than 512 at a time. -/
theorem sessions_bounded {es : List Event} (hrun : run step start es = some s) :
    s.active ≤ maxConcurrentProxySessions := by
  have hmeets : Meets step (fun _ _ => True) start es := Meets.of_forall (fun _ _ => trivial) _ _
  have hsum : s.permits + s.active = maxConcurrentProxySessions :=
    run_invariant (I := fun s => s.permits + s.active = maxConcurrentProxySessions)
      (fun _ _ _ h _ hstep => (sessions_step hstep).trans h) rfl hmeets hrun
  omega

end Listeners

end EasyConnection.Socks
