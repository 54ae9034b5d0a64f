import GyroDsu.Lib.Monitor
import GyroDsu.Pipeline.PipeOut
import GyroDsu.Pipeline.Serve
import GyroDsu.Pipeline.SignalOut

/-
The waits of PipeOut, SignalOut and Serve with their mutexes and condition variables, for any
number of threads. Each flag is only written under the mutex its waits use.
-/
namespace Waits
open Monitor Pipe SignalOut Serves

variable {T Thread : Type}

/-- WaitForData with and without a timeout, and GetData as the latter. -/
inductive PipeMethod where
  | sendData
  | wasReceived
  | waitForData
  | waitForDataFor
  | tryData
  | flush

def pipe : Object (PipeOut T) PipeMethod where
  ready p := p.bufWasSent
  method
    | .sendData => .change PipeOut.sendData true
    | .wasReceived => .change id false
    | .waitForData => .wait false PipeOut.take none
    | .waitForDataFor => .wait true PipeOut.take none
    | .tryData => .change (fun p => p.tryData.2) false
    | .flush => .change PipeOut.flush true

inductive SignalMethod where
  | sendSignal
  | wasReceived
  | waitForSignal
  | trySignal
  | flush

def signal : Object Signal SignalMethod where
  ready s := s.signal
  method
    | .sendSignal => .change Signal.sendSignal true
    | .wasReceived => .change id false
    | .waitForSignal => .wait false (fun _ => ⟨false⟩) none
    | .trySignal => .change (fun s => s.trySignal.2) false
    | .flush => .change Signal.flush true

/-- A ServeLock from its constructor to its destructor is one section, and so is WasConsumed. A
    consumer keeps the mutex; what its lock holds in `moved` is `garbage`. -/
inductive ServeMethod where
  | serveLock
  | wasConsumed
  | consumeLock (garbage : Bool)

def served : Object Bool ServeMethod where
  ready served := served
  method
    | .serveLock => .change (fun served => (ServeLock.destroy ⟨true, false⟩ ⟨served, none⟩).served) true
    | .wasConsumed => .change id false
    | .consumeLock garbage =>
      .wait false (fun _ => false)
        (some fun served => (ConsumeLock.destroy ⟨true, garbage⟩ ⟨served, none⟩).served)

theorem pipe_tells : Tells (pipe : Object (PipeOut T) PipeMethod) := by
  constructor
  · intro m update notifies p method idle ready
    cases m with
    | sendData | flush =>
      cases method
      rfl
    | wasReceived =>
      cases method
      cases idle.symm.trans ready
    | tryData =>
      cases method
      have same : p.tryData.2 = p := by
        change p.bufWasSent = false at idle
        simp [PipeOut.tryData, idle]
      change pipe.ready p.tryData.2 = true at ready
      rw [same] at ready
      cases idle.symm.trans ready
    | waitForData | waitForDataFor => cases method
  · intro m timed take release p method
    cases m <;> cases method

theorem signal_tells : Tells signal := by
  constructor
  · intro m update notifies s method idle ready
    cases m with
    | sendSignal | flush =>
      cases method
      rfl
    | wasReceived =>
      cases method
      cases idle.symm.trans ready
    | trySignal =>
      cases method
      have same : s.trySignal.2 = s := by
        change s.signal = false at idle
        simp [Signal.trySignal, idle]
      change signal.ready s.trySignal.2 = true at ready
      rw [same] at ready
      cases idle.symm.trans ready
    | waitForSignal => cases method
  · intro m timed take release s method
    cases m <;> cases method

theorem served_tells : Tells served := by
  constructor
  · intro m update notifies s method idle ready
    cases m with
    | serveLock =>
      cases method
      rfl
    | wasConsumed =>
      cases method
      cases idle.symm.trans ready
    | consumeLock garbage => cases method
  · intro m timed take release s method idle
    cases m with
    | consumeLock garbage =>
      cases method
      change s = false at idle
      subst idle
      cases garbage <;> rfl
    | serveLock | wasConsumed => cases method

/-- What a thread may count on when it waits, and when it has the mutex. -/
structure Live {S M : Type} [DecidableEq Thread] (o : Object S M) (s : State S M Thread) : Prop where
  told : ∀ t m, s.place t = .asleep m → o.ready s.object = true → ∃ u, s.place u = .notifying
  moving : ∀ t, Busy o s t →
    ∃ u s', s.step o (.run u) = some s' ∨ s.step o (.notifyAll u) = some s' ∨ s.step o (.relock u) = some s'
  alone : ∀ a s', s.step o a = some s' → s'.object = s.object ∨ ∃ t, a = .run t ∧ s.owner = some t

theorem run_live {S M : Type} [DecidableEq Thread] {o : Object S M} (tells : Tells o) {object : S}
    {actions : List (Action M Thread)} {s : State S M Thread}
    (run : Runs.Run (State.step o) (starts object) actions s) : Live o s := by
  obtain ⟨sound, held⟩ := run_sound tells run
  exact ⟨sound.due, fun t busy => someone_goes_on sound held busy, fun a s' step => object_changes sound step⟩

/-- However many threads use a pipe, a signal or a Serve, and however their calls and wake-ups
    interleave: nobody sleeps over a flag that is set unless a notify_all is still to come, the
    threads never block each other for good, and only the one with the mutex changes anything. -/
theorem no_wait_forgotten [DecidableEq Thread] :
    (∀ (p : PipeOut T) actions (s : State (PipeOut T) PipeMethod Thread),
      Runs.Run (State.step pipe) (starts p) actions s → Live pipe s) ∧
    (∀ (f : Signal) actions (s : State Signal SignalMethod Thread),
      Runs.Run (State.step signal) (starts f) actions s → Live signal s) ∧
    ∀ (f : Bool) actions (s : State Bool ServeMethod Thread),
      Runs.Run (State.step served) (starts f) actions s → Live served s :=
  ⟨fun _ _ _ run => run_live pipe_tells run, fun _ _ _ run => run_live signal_tells run,
    fun _ _ _ run => run_live served_tells run⟩

/-- Thread 1 waits for data and for a consume lock; thread 0 sends, and serves, without its
    notify_all yet. -/
theorem no_wait_forgotten_asleep :
    (∃ (s : State (PipeOut Nat) PipeMethod Nat) (actions : List (Action PipeMethod Nat)),
      Runs.Run (State.step pipe) (starts (construct fun _ => 0)) actions s ∧
      s.place 1 = .asleep .waitForData ∧ s.object.bufWasSent = true ∧ ∃ u, s.place u = .notifying) ∧
    (∃ (s : State Signal SignalMethod Nat) (actions : List (Action SignalMethod Nat)),
      Runs.Run (State.step signal) (starts ⟨false⟩) actions s ∧
      s.place 1 = .asleep .waitForSignal ∧ s.object.signal = true ∧ ∃ u, s.place u = .notifying) ∧
    ∃ (s : State Bool ServeMethod Nat) (actions : List (Action ServeMethod Nat)),
      Runs.Run (State.step served) (starts false) actions s ∧
      s.place 1 = .asleep (.consumeLock false) ∧ s.object = true ∧ ∃ u, s.place u = .notifying := by
  have sent : Runs.Run (State.step pipe) (starts (construct fun _ => 0))
      [.call 1 .waitForData, .run 1, .call 0 .sendData, .run 0].reverse _ := Runs.run_of_execute rfl
  have signalled : Runs.Run (State.step signal) (starts ⟨false⟩)
      [.call 1 .waitForSignal, .run 1, .call 0 .sendSignal, .run 0].reverse _ := Runs.run_of_execute rfl
  have serves : Runs.Run (State.step served) (starts false)
      [.call 1 (.consumeLock false), .run 1, .call 0 .serveLock, .run 0].reverse _ := Runs.run_of_execute rfl
  obtain ⟨pipes, signals, serveds⟩ := @no_wait_forgotten Nat Nat _
  exact ⟨⟨_, _, sent, rfl, rfl, (pipes _ _ _ sent).told 1 _ rfl rfl⟩,
    ⟨_, _, signalled, rfl, rfl, (signals _ _ _ signalled).told 1 _ rfl rfl⟩,
    ⟨_, _, serves, rfl, rfl, (serveds _ _ _ serves).told 1 _ rfl rfl⟩⟩

end Waits
