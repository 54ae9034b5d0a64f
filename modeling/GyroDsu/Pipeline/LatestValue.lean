import GyroDsu.Lib.Runs
import GyroDsu.Lib.Mailbox
import GyroDsu.Pipeline.PipeOut

/-
PipeOut between one thread that fills and sends and one that receives, against a mailbox
for the latest value. The log is history: every call that returned, newest first.
-/
namespace LatestValue
open Pipe Mailbox

variable {T : Type}

/-- GetData is WaitForData before a look at what was received. `change` is any write to a
    part of the instance being filled. -/
inductive Action (T : Type) where
  | fill (change : T → T)
  | sendData
  | wasReceived
  | waitForData
  | waitForDataFor
  | tryData

def Action.receives : Action T → Bool
  | .waitForData => true
  | .waitForDataFor => true
  | .tryData => true
  | _ => false

structure State (T : Type) where
  pipe : PipeOut T
  log : List (Event T)

def start (object : Inst → T) : State T := ⟨construct object, []⟩

def State.take (s : State T) : State T := ⟨s.pipe.take, .received s.pipe.take.received :: s.log⟩

def State.refuse (s : State T) : State T := ⟨s.pipe, .refused :: s.log⟩

/-- A wait returns with bufSentMutex held and has just tested bufWasSent: the one without
    a timeout does not return before the flag is set, the other fails if it is not. -/
def State.step (s : State T) : Action T → Option (State T)
  | .fill change => some { s with pipe := s.pipe.write s.pipe.bufMod (change s.pipe.toFill) }
  | .sendData => some ⟨s.pipe.sendData, .sent s.pipe.toFill :: s.log⟩
  | .wasReceived => some ⟨s.pipe, .asked s.pipe.wasReceived :: s.log⟩
  | .waitForData => s.pipe.waitForData.map fun pipe => ⟨pipe, .received pipe.received :: s.log⟩
  | .waitForDataFor => some (if s.pipe.bufWasSent then s.take else s.refuse)
  | .tryData => some (if s.pipe.bufWasSent then s.take else s.refuse)

/-- The mailbox that a pipe stands for: what was sent last, while the flag is set. -/
def State.pending (s : State T) : Option T :=
  if s.pipe.bufWasSent then some (s.pipe.object s.pipe.bufSent) else none

structure Moved (s : State T) (a : Action T) (t : State T) : Prop where
  keeps : (∀ v, t.log ≠ .received v :: s.log) →
    t.pipe.bufRcv = s.pipe.bufRcv ∧ t.pipe.received = s.pipe.received
  yields : ∀ v, t.log = .received v :: s.log → a.receives = true ∧ Waiting s.log v ∧ t.pipe.received = v
  succeeds : a.receives = true → (∃ v, Waiting s.log v) → ∃ v, t.log = .received v :: s.log
  fails : a.receives = true → (∀ v, ¬Waiting s.log v) → t.log = .refused :: s.log ∧ t.pipe = s.pipe
  sends : a = .sendData → t.log = .sent s.pipe.toFill :: s.log
  asks : a = .wasReceived → ∃ taken, t.log = .asked taken :: s.log ∧ t.pipe = s.pipe ∧
    (taken = true ↔ Settled s.log)

theorem pending_some {s : State T} (sent : s.pipe.bufWasSent = true) :
    s.pending = some s.pipe.take.received := by
  rw [State.pending, if_pos sent]
  rfl

theorem pending_none {s : State T} (idle : s.pipe.bufWasSent = false) : s.pending = none := by
  rw [State.pending, idle]
  rfl

inductive Simulated (s : State T) : Action T → State T → Prop where
  | fill (change : T → T) (t : State T) (log : t.log = s.log) (pending : t.pending = s.pending)
      (buffer : t.pipe.bufRcv = s.pipe.bufRcv) (content : t.pipe.received = s.pipe.received) :
      Simulated s (.fill change) t
  | send : Simulated s .sendData ⟨s.pipe.sendData, .sent s.pipe.toFill :: s.log⟩
  | ask : Simulated s .wasReceived ⟨s.pipe, .asked s.pipe.wasReceived :: s.log⟩
  | take (a : Action T) (receives : a.receives = true) (sent : s.pipe.bufWasSent = true) : Simulated s a s.take
  | refuse (a : Action T) (receives : a.receives = true) (idle : s.pipe.bufWasSent = false) :
      Simulated s a s.refuse

theorem step_simulated {s t : State T} {a : Action T} (step : s.step a = some t) : Simulated s a t := by
  cases a with
  | fill change =>
    obtain rfl := Option.some.inj step
    refine .fill change _ rfl ?_ rfl (fill_received s.pipe _)
    simp only [State.pending, write_bufWasSent, write_bufSent, write_other s.pipe _ s.pipe.mod_sent.symm]
  | sendData =>
    obtain rfl := Option.some.inj step
    exact .send
  | wasReceived =>
    obtain rfl := Option.some.inj step
    exact .ask
  | waitForData =>
    obtain ⟨pipe, waited, rfl⟩ := Option.map_eq_some_iff.mp step
    obtain ⟨sent, rfl⟩ := waitForData_cases waited
    exact .take _ rfl sent
  | waitForDataFor =>
    obtain rfl := Option.some.inj step
    cases sent : s.pipe.bufWasSent with
    | true => exact .take _ rfl sent
    | false => exact .refuse _ rfl sent
  | tryData =>
    obtain rfl := Option.some.inj step
    cases sent : s.pipe.bufWasSent with
    | true => exact .take _ rfl sent
    | false => exact .refuse _ rfl sent

theorem step_trace {s t : State T} {a : Action T} (trace : Trace s.log s.pending)
    (step : s.step a = some t) : Trace t.log t.pending := by
  cases step_simulated step with
  | fill change t log pending =>
    rw [log, pending]
    exact trace
  | send => exact .next trace (.send _ _)
  | ask =>
    have answer : s.pipe.wasReceived = s.pending.isNone := by
      rw [PipeOut.wasReceived, State.pending]
      cases s.pipe.bufWasSent <;> rfl
    rw [answer]
    exact .next trace (.ask _)
  | take a receives sent =>
    rw [pending_some sent] at trace
    exact .next trace (.receive _)
  | refuse a receives idle =>
    have none_pending := pending_none idle
    have still : s.refuse.pending = none := none_pending
    rw [none_pending] at trace
    rw [still]
    exact .next trace .refuse

theorem step_moved {s t : State T} {a : Action T} (trace : Trace s.log s.pending)
    (step : s.step a = some t) : Moved s a t := by
  have waiting := trace_waiting trace
  have settled := trace_settled trace
  cases step_simulated step with
  | fill change t log pending buffer content =>
    refine ⟨fun _ => ⟨buffer, content⟩, ?_, nofun, nofun, nofun, nofun⟩
    intro v other
    rw [log] at other
    exact absurd other.symm (List.cons_ne_self _ _)
  | send => exact ⟨fun _ => ⟨rfl, rfl⟩, nofun, nofun, nofun, fun _ => rfl, nofun⟩
  | ask =>
    refine ⟨fun _ => ⟨rfl, rfl⟩, nofun, nofun, nofun, nofun, fun _ => ⟨_, rfl, rfl, ?_⟩⟩
    rw [← settled, PipeOut.wasReceived, State.pending]
    cases s.pipe.bufWasSent <;> simp
  | take a receives sent =>
    have newest := (waiting _).mp (pending_some sent)
    refine ⟨fun other => absurd rfl (other _), ?_, fun _ _ => ⟨_, rfl⟩,
      fun _ nothing => absurd newest (nothing _), ?_, ?_⟩
    · intro v same
      obtain rfl : s.pipe.take.received = v := Event.received.inj (List.cons.inj same).1
      exact ⟨receives, newest, rfl⟩
    · rintro rfl
      cases receives
    · rintro rfl
      cases receives
  | refuse a receives idle =>
    refine ⟨fun _ => ⟨rfl, rfl⟩, nofun, ?_, fun _ _ => ⟨rfl, rfl⟩, ?_, ?_⟩
    · rintro _ ⟨v, newest⟩
      have full := (waiting v).mpr newest
      rw [pending_none idle] at full
      cases full
    · rintro rfl
      cases receives
    · rintro rfl
      cases receives

theorem run_trace {object : Inst → T} {actions : List (Action T)} {t : State T}
    (run : Runs.Run State.step (start object) actions t) : Trace t.log t.pending :=
  Runs.run_invariant (fun s => Trace s.log s.pending) (fun _ _ _ trace step => step_trace trace step) run .empty

theorem step_holds {s t : State T} {a : Action T} (first : T)
    (holds : s.pipe.received = (received s.log).getLastD first) (step : s.step a = some t) :
    t.pipe.received = (received t.log).getLastD first := by
  cases step_simulated step with
  | fill change t log pending buffer content => rw [content, log, holds]
  | send => exact holds
  | ask => exact holds
  | take a receives sent => simp [State.take, received]
  | refuse a receives idle => exact holds

theorem run_holds {object : Inst → T} {actions : List (Action T)} {t : State T}
    (run : Runs.Run State.step (start object) actions t) :
    t.pipe.received = (received t.log).getLastD (object .inst3) :=
  Runs.run_invariant (fun s => s.pipe.received = (received s.log).getLastD (object .inst3))
    (fun _ _ _ holds step => step_holds _ holds step) run rfl

/-- Whatever the two threads do, the pipe is a mailbox for the latest value. -/
theorem pipe_is_mailbox (object : Inst → T) (actions : List (Action T)) (t : State T)
    (run : Runs.Run State.step (start object) actions t) :
    Trace t.log t.pending ∧
    (t.pipe.bufMod ≠ t.pipe.bufSent ∧ t.pipe.bufMod ≠ t.pipe.bufRcv ∧ t.pipe.bufSent ≠ t.pipe.bufRcv) ∧
    ((indices t.log).Pairwise (· < ·) ∧
      (indices t.log).map (fun i => (sent t.log)[i]?) = (received t.log).map some) ∧
    t.pipe.received = (received t.log).getLastD (object .inst3) ∧
    ((∃ u, t.step .waitForData = some u) ↔ ∃ v, Waiting t.log v) ∧
    (t.pipe.wasReceived = true ↔ Settled t.log) ∧
    ∀ a u, t.step a = some u → Moved t a u := by
  have trace := run_trace run
  have ordered := trace_ordered trace
  refine ⟨trace, ⟨t.pipe.mod_sent, t.pipe.mod_rcv, t.pipe.sent_rcv⟩, ⟨ordered.increasing, ordered.values⟩,
    run_holds run, ?_, ?_, fun a u step => step_moved trace step⟩
  · constructor
    · rintro ⟨u, step⟩
      obtain ⟨pipe, waited, rfl⟩ := Option.map_eq_some_iff.mp step
      exact ⟨_, (trace_waiting trace _).mp (pending_some (waitForData_cases waited).1)⟩
    · rintro ⟨v, newest⟩
      have full := (trace_waiting trace v).mpr newest
      cases sent : t.pipe.bufWasSent with
      | true => exact ⟨t.take, by rw [State.step, PipeOut.waitForData, if_pos sent]; rfl⟩
      | false =>
        rw [pending_none sent] at full
        cases full
  · rw [← trace_settled trace, PipeOut.wasReceived, State.pending]
    cases t.pipe.bufWasSent <;> simp

def replaced : List (Action Nat) :=
  [.tryData, .fill fun _ => 5, .sendData, .fill fun _ => 7, .sendData, .waitForDataFor, .wasReceived]

theorem pipe_is_mailbox_replaced :
    ∃ t : State Nat, Runs.Run State.step (start fun _ => 0) replaced.reverse t ∧
      Trace t.log t.pending ∧ sent t.log = [5, 7] ∧ received t.log = [7] ∧ indices t.log = [1] ∧
      t.pipe.received = 7 ∧ Settled t.log := by
  have ends : (Runs.execute State.step (start fun _ => 0) replaced).map (fun t =>
      (sent t.log, received t.log, indices t.log, t.pipe.wasReceived)) = some ([5, 7], [7], [1], true) := by
    decide
  obtain ⟨t, done, ends⟩ := Option.map_eq_some_iff.mp ends
  simp only [Prod.mk.injEq] at ends
  obtain ⟨sent_two, received_one, second, taken⟩ := ends
  have run := Runs.run_of_execute done
  obtain ⟨trace, _, _, holds, _, settled, _⟩ := pipe_is_mailbox (fun _ => 0) _ _ run
  rw [received_one] at holds
  exact ⟨t, run, trace, sent_two, received_one, second, holds, settled.mp taken⟩

end LatestValue
