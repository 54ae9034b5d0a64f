import GyroDsu.Cemuhook.Lifecycle

/-
The destructor of Server: once stop is set, serverTask has only so many steps left besides
its turns for the ports of an INFO request, and where it waits for the send thread, the
send thread has only so many.
-/
namespace Shutdown
open Server Lifecycle InfoRequests

def serverLeft : ServerPc → Nat
  | .receive => 15
  | .dispatch => 14
  | .find => 13
  | .subscribe => 12
  | .launch => 11
  | .spawn | .refresh _ | .inform _ => 10
  | .checkpoint => 9
  | .scan _ => 8
  | .drain => 7
  | .requestStop => 6
  | .join => 5
  | .loop => 4
  | .finish => 3
  | .requestLast => 2
  | .joinLast => 1
  | .returned => 0

/-- How many ports the request in the buffer asks for, if it is an INFO request. -/
def asked (s : State) : Nat := (portCnt s.buf).toNat

def turns (s : State) : Nat :=
  match s.pc with
  | .inform i => i
  | .receive | .dispatch | .find | .subscribe | .launch | .spawn | .refresh _ => 0
  | _ => asked s

def turnsLeft (s : State) : Nat :=
  match s.pc with
  | .dispatch => asked s
  | .inform i => asked s - i
  | _ => 0

def senderLeft : SenderPc → Nat
  | .prepare => 5
  | .broadcast => 4
  | .count | .start => 3
  | .test => 2
  | .stopGrab => 1
  | .done => 0

def serves : Action → Bool
  | .datagram _ _ => true
  | .receiveTimeout => true
  | .server => true
  | _ => false

def receives : Action → Bool
  | .datagram _ _ => true
  | .receiveTimeout => true
  | _ => false

def sends : Action → Bool
  | .sender _ _ => true
  | _ => false

def Joining (s : State) : Prop := s.pc = .join ∨ s.pc = .joinLast

def ownLeft (s : State) : Nat :=
  match s.sendThread with
  | none => 0
  | some run => (s.senders run).elim 0 fun sender => senderLeft sender.pc

inductive Nearer (s t : State) : Prop where
  | turn (i : Nat) (pc : s.pc = .inform i) (next : t.pc = .inform (i + 1)) (more : i < asked s)
      (buf : t.buf = s.buf) (own : ownLeft t = ownLeft s)
  | step (left : serverLeft t.pc < serverLeft s.pc) (fewer : turnsLeft t ≤ turnsLeft s)
      (made : turns s ≤ turns t)

theorem serverStep_nearer {s t : State} (stop : s.stop = true) (inside : ∀ i, s.pc = .inform i → i ≤ asked s)
    (step : s.serverStep = some t) : Nearer s t ∧ t.stop = true := by
  cases serverStep_cases step with
  | listens pc =>
    have ends : s.serverStep = some { s with pc := .finish } := by
      simp only [State.serverStep, pc, stop, if_true]
    rw [ends] at step
    cases congrArg State.pc (Option.some.inj step)
  | port i pc more => exact ⟨.turn i pc rfl (by rw [asked]; omega) rfl rfl, stop⟩
  | informed i pc =>
    refine ⟨.step ?_ ?_ ?_, stop⟩
    · rw [pc]
      exact Nat.le_of_ble_eq_true rfl
    · exact Nat.zero_le _
    · rw [turns, pc]
      exact inside i pc
  | stops pc | version pc | info pc | data pc | ignored pc | unknown pc | known i c pc | subscribe pc | launch pc
  | launched pc | spawn pc | refresh i pc | due pc | notDue pc | scan increment pc | drained pc | notDrained pc
  | requestStop run pc | join run pc | finished pc | finish pc | requestLast run pc | joinLast run pc =>
    refine ⟨.step ?_ ?_ ?_, stop⟩
    · rw [pc]
      exact Nat.le_of_ble_eq_true rfl
    · simp only [turnsLeft, pc]
      first | exact Nat.zero_le _ | exact Nat.le_refl _
    · simp only [turns, pc]
      first | exact Nat.zero_le _ | exact Nat.le_refl _

theorem senderStep_beside {s t : State} {run : Nat} {sender : Sender} {motion : CemuhookAdapter.MotionData}
    (moves : SenderStep s run sender motion t) :
    t.pc = s.pc ∧ t.stop = s.stop ∧ t.stopSending = s.stopSending ∧ t.sendThread = s.sendThread := by
  cases moves <;> exact ⟨rfl, rfl, rfl, rfl⟩

theorem senderStep_buf {s t : State} {run : Nat} {sender : Sender} {motion : CemuhookAdapter.MotionData}
    (moves : SenderStep s run sender motion t) : t.buf = s.buf ∧ t.source = s.source := by
  cases moves <;> exact ⟨rfl, rfl⟩

theorem beside_place {s t : State} {a : Action} (other : serves a = false) (step : s.step a = some t) :
    t.pc = s.pc ∧ t.buf = s.buf ∧ t.source = s.source := by
  cases step_cases step with
  | header | short | receiveTimeout | server => cases other
  | stop => exact ⟨rfl, rfl, rfl⟩
  | sender run motion sender here moves => exact ⟨(senderStep_beside moves).1, senderStep_buf moves⟩

structure Closing (s : State) : Prop where
  sound : Sound s
  told : Joining s → s.stopSending = true
  inside : ∀ i, s.pc = .inform i → i ≤ asked s
  stop : s.stop = true

theorem told_step {s t : State} {a : Action} (told : Joining s → s.stopSending = true)
    (step : s.step a = some t) : Joining t → t.stopSending = true := by
  cases step_cases step with
  | header source bytes pc | short source bytes pc | receiveTimeout pc =>
    rintro (joins | joins) <;> cases joins
  | sender run motion sender here moves =>
    obtain ⟨pc, _, flag, _⟩ := senderStep_beside moves
    rw [Joining, pc, flag]
    exact told
  | stop => exact told
  | server moves =>
    cases moves with
    | requestStop | requestLast =>
      intro _
      rfl
    | stops pc | listens pc | version pc | info pc | data pc | ignored pc | port i pc | informed i pc | unknown pc
    | known i c pc | subscribe pc | launch pc | launched pc | spawn pc | refresh i pc | due pc | notDue pc
    | scan increment pc | drained pc | notDrained pc | join run pc | finished pc | finish pc | joinLast run pc =>
      rintro (joins | joins) <;> cases joins

theorem inside_step {s t : State} {a : Action} (inside : ∀ i, s.pc = .inform i → i ≤ asked s)
    (step : s.step a = some t) : ∀ i, t.pc = .inform i → i ≤ asked t := by
  cases step_cases step with
  | header source bytes pc | short source bytes pc | receiveTimeout pc => nofun
  | sender run motion sender here moves =>
    cases moves <;> exact inside
  | stop => exact inside
  | server moves =>
    cases moves with
    | info =>
      intro i here
      obtain rfl := ServerPc.inform.inj here
      exact Nat.zero_le _
    | port i pc more =>
      intro j here
      obtain rfl : i + 1 = j := ServerPc.inform.inj here
      have below : i < asked s := by
        rw [asked]
        omega
      exact below
    | _ => nofun

theorem closing_step {s t : State} {a : Action} (h : Closing s) (step : s.step a = some t) : Closing t := by
  refine ⟨step_sound h.sound step, told_step h.told step, inside_step h.inside step, ?_⟩
  cases step_cases step with
  | header | short | receiveTimeout => exact h.stop
  | server moves => exact (serverStep_nearer h.stop h.inside step).2
  | sender run motion sender here moves => exact (senderStep_beside moves).2.1.trans h.stop
  | stop => rfl

end Shutdown
