import GyroDsu.Sdgyro.RepeatedFrames

/-
The gyro signal between its two threads. The adapter sends it from inside a call, the
loop of ReadDataApi takes it and writes EnableGyro to the device. Sessions come and go;
the cooldown and the flag outlive them.
-/
namespace GyroReenable
open SdHidFrame CemuhookAdapter AdapterSession Runs RepeatedFrames

inductive Event where
  | sendSignal (call : Nat)
  | enableGyro
  deriving DecidableEq, Repr

/-- Both threads. `calls` counts the calls begun; the log has its newest event first. -/
structure State where
  loop : LoopState
  calling : Bool
  calls : Nat
  log : List Event

/-- A call is entered with whatever the caller has left in the motion structure. -/
inductive Action where
  | startFrameGrab
  | stopFrameGrab
  | enterCall (motion : MotionData)
  | turn
  | readDataApi
  deriving DecidableEq

def construct (memory : Adapter) (persistent : Bool) (motion : MotionData) : State where
  loop := ⟨CemuhookAdapter.construct memory persistent, motion, 0, 0⟩
  calling := false
  calls := 0
  log := []

variable (stream : Nat → Frame)

def State.looksAt (s : State) : Action → Option Nat
  | .turn => if s.loop.adapter.toReplicate = 0 then some s.loop.next else none
  | _ => none

def State.consumes (s : State) : Action → Option Nat
  | .enterCall _ => if s.loop.adapter.ignoreFirst then some s.loop.next else none
  | a => s.looksAt a

def State.sends (s : State) : Bool :=
  s.loop.adapter.toReplicate = 0 ∧ s.loop.adapter.noGyroCooldown ≤ 0 ∧
    noGyroFrame (s.loop.frame stream)

def State.pass (s : State) : State :=
  let log := if s.sends stream then .sendSignal s.calls :: s.log else s.log
  match turn stream s.loop with
  | .inl l => { s with loop := l, log := log }
  | .inr r =>
    { s with loop := ⟨r.adapter, r.motion, r.next, s.loop.repeatedLoop⟩, calling := false, log := log }

def State.withNoGyro (s : State) (noGyro : SignalOut.Signal) : State :=
  { s with loop := { s.loop with adapter := { s.loop.adapter with noGyro := noGyro } } }

def State.step (s : State) : Action → Option State
  | .startFrameGrab =>
    if s.calling then none
    else some { s with loop := { s.loop with adapter := s.loop.adapter.startFrameGrab } }
  | .stopFrameGrab =>
    if s.calling ∨ s.loop.adapter.frameServe = false then none
    else some { s with loop := { s.loop with adapter := s.loop.adapter.stopFrameGrab } }
  | .enterCall motion =>
    if s.calling ∨ s.loop.adapter.frameServe = false then none
    else
      some { s with
        loop := loopEntry s.loop.adapter motion s.loop.next
        calling := true
        calls := s.calls + 1 }
  | .turn => if s.calling then some (s.pass stream) else none
  | .readDataApi =>
    match s.loop.adapter.noGyro.trySignal with
    | (true, noGyro) => some { s.withNoGyro noGyro with log := .enableGyro :: s.log }
    | (false, noGyro) => some (s.withNoGyro noGyro)

def sent : List Event → List Nat
  | [] => []
  | .sendSignal call :: log => call :: sent log
  | .enableGyro :: log => sent log

def enabled : List Event → Nat
  | [] => 0
  | .sendSignal _ :: log => enabled log
  | .enableGyro :: log => enabled log + 1

/-- Signals not taken in between have merged: whatever was sent since the last EnableGyro
    is answered by one. -/
def Merged : List Event → Prop
  | [] => True
  | .sendSignal _ :: log => Merged log
  | .enableGyro :: log => (∃ call earlier, log = .sendSignal call :: earlier) ∧ Merged log

def State.pending (s : State) : Prop := s.loop.adapter.noGyro.signal = true

def State.due (s : State) : Prop := ∀ call ∈ sent s.log, call + 1000 ≤ s.calls

def Spaced (calls : List Nat) : Prop := calls.Pairwise fun later earlier => earlier + 1000 ≤ later

def cooldownLeft (calls : Nat) (sent : List Nat) : Nat :=
  sent.head?.elim 0 fun last => last + 1000 - calls

structure Sound (s : State) : Prop where
  cooldown : s.loop.adapter.noGyroCooldown = cooldownLeft s.calls (sent s.log)
  spaced : Spaced (sent s.log)
  counted : ∀ call ∈ sent s.log, 1 ≤ call ∧ call ≤ s.calls
  merged : Merged s.log
  pending : s.pending ↔ ∃ call earlier, s.log = .sendSignal call :: earlier
  begun : s.calling = true → 1 ≤ s.calls

variable {stream : Nat → Frame}

@[simp] theorem accept_noGyro (a : Adapter) (frame : SdFrame) (m : MotionData) :
    (a.accept frame m).1.noGyro = a.noGyro ∧
      (a.accept frame m).1.noGyroCooldown = a.noGyroCooldown := by
  simp only [Adapter.accept]
  split <;> split <;> exact ⟨rfl, rfl⟩

@[simp] theorem replicate_noGyro (a : Adapter) (m : MotionData) :
    (a.replicate m).1.noGyro = a.noGyro ∧ (a.replicate m).1.noGyroCooldown = a.noGyroCooldown := by
  simp only [Adapter.replicate]
  split <;> exact ⟨rfl, rfl⟩

@[simp] theorem enterCall_noGyro (a : Adapter) (next : Nat) :
    (enterCall a next).1.noGyro = a.noGyro ∧ (enterCall a next).1.noGyroCooldown =
      if a.noGyroCooldown > 0 then a.noGyroCooldown - 1 else a.noGyroCooldown := by
  cases dropped : a.ignoreFirst <;> by_cases cooling : a.noGyroCooldown > 0 <;>
    simp only [enterCall, dropped, cooling, if_true, if_false, Bool.false_eq_true, and_self]

structure Passes (stream : Nat → Frame) (s t : State) : Prop where
  noGyro : t.loop.adapter.noGyro = if s.sends stream then ⟨true⟩ else s.loop.adapter.noGyro
  cooldown : t.loop.adapter.noGyroCooldown =
    if s.sends stream then noGyroCooldownFrames else s.loop.adapter.noGyroCooldown
  calls : t.calls = s.calls
  log : t.log = if s.sends stream then .sendSignal s.calls :: s.log else s.log

theorem signalled_noGyro (stream : Nat → Frame) {s : State} (idle : s.loop.adapter.toReplicate = 0) :
    (s.loop.signalled stream).noGyro =
        (if s.sends stream then ⟨true⟩ else s.loop.adapter.noGyro) ∧
      (s.loop.signalled stream).noGyroCooldown =
        (if s.sends stream then noGyroCooldownFrames else s.loop.adapter.noGyroCooldown) := by
  by_cases sends : s.loop.adapter.noGyroCooldown ≤ 0 ∧ noGyroFrame (s.loop.frame stream) = true
  · simp [LoopState.signalled, Adapter.signalNoGyro, State.sends, idle, sends,
      SignalOut.Signal.sendSignal]
  · simp only [LoopState.signalled, Adapter.signalNoGyro, State.sends, idle, sends, and_false,
      decide_false, if_false, Bool.false_eq_true, and_self]

theorem pass_passes (stream : Nat → Frame) (s : State) : Passes stream s (s.pass stream) := by
  unfold State.pass
  by_cases idle : s.loop.adapter.toReplicate = 0
  · obtain ⟨noGyro, cooldown⟩ := signalled_noGyro stream idle
    cases again : (s.loop.signalled stream).repeated (s.loop.frame stream) with
    | false =>
      obtain ⟨same, same'⟩ := accept_noGyro (s.loop.signalled stream) (s.loop.frame stream) s.loop.motion
      rw [turn_accepts idle again]
      exact ⟨same.trans noGyro, same'.trans cooldown, rfl, rfl⟩
    | true =>
      by_cases spent : s.loop.repeatedLoop ≤ 0
      · rw [turn_gives_up idle again spent]
        exact ⟨noGyro, cooldown, rfl, rfl⟩
      · rw [turn_passes idle again spent]
        exact ⟨noGyro, cooldown, rfl, rfl⟩
  · have silent : s.sends stream = false := by simp [State.sends, idle]
    obtain ⟨same, same'⟩ := replicate_noGyro s.loop.adapter s.loop.motion
    rw [turn_replicates idle]
    constructor <;> simp only [silent, Bool.false_eq_true, if_false, same, same']

inductive Effect (s : State) (a : Action) (t : State) : Prop where
  | quiet (noGyro : t.loop.adapter.noGyro = s.loop.adapter.noGyro)
      (cooldown : t.loop.adapter.noGyroCooldown = s.loop.adapter.noGyroCooldown)
      (calls : t.calls = s.calls) (log : t.log = s.log) (calling : t.calling = true → s.calling = true)
  | begins (noGyro : t.loop.adapter.noGyro = s.loop.adapter.noGyro)
      (cooldown : t.loop.adapter.noGyroCooldown =
        if s.loop.adapter.noGyroCooldown > 0 then s.loop.adapter.noGyroCooldown - 1
        else s.loop.adapter.noGyroCooldown)
      (calls : t.calls = s.calls + 1) (log : t.log = s.log)
  | sends (during : s.calling = true) (cooled : s.loop.adapter.noGyroCooldown ≤ 0)
      (noGyro : t.pending) (cooldown : t.loop.adapter.noGyroCooldown = noGyroCooldownFrames)
      (calls : t.calls = s.calls) (log : t.log = .sendSignal s.calls :: s.log)
  | takes (reader : a = .readDataApi) (pending : s.pending) (taken : ¬t.pending)
      (cooldown : t.loop.adapter.noGyroCooldown = s.loop.adapter.noGyroCooldown)
      (calls : t.calls = s.calls) (log : t.log = .enableGyro :: s.log)
      (calling : t.calling = true → s.calling = true)

theorem step_effect {s t : State} {a : Action} (step : s.step stream a = some t) : Effect s a t := by
  cases a with
  | startFrameGrab =>
    obtain ⟨_, done⟩ := Option.ite_none_left_eq_some.mp step
    obtain rfl := Option.some.inj done
    exact .quiet rfl rfl rfl rfl id
  | stopFrameGrab =>
    obtain ⟨_, done⟩ := Option.ite_none_left_eq_some.mp step
    obtain rfl := Option.some.inj done
    exact .quiet rfl rfl rfl rfl id
  | enterCall motion =>
    obtain ⟨_, done⟩ := Option.ite_none_left_eq_some.mp step
    obtain rfl := Option.some.inj done
    obtain ⟨noGyro, cooldown⟩ := enterCall_noGyro s.loop.adapter s.loop.next
    exact .begins noGyro cooldown rfl rfl
  | turn =>
    obtain ⟨during, done⟩ := Option.ite_none_right_eq_some.mp step
    obtain rfl := Option.some.inj done
    obtain ⟨noGyro, cooldown, calls, log⟩ := pass_passes stream s
    cases sends : s.sends stream with
    | true =>
      rw [sends] at noGyro cooldown log
      have cooled : s.loop.adapter.noGyroCooldown ≤ 0 := (of_decide_eq_true sends).2.1
      exact .sends during cooled (by rw [State.pending, noGyro]; rfl) cooldown calls log
    | false =>
      rw [sends] at noGyro cooldown log
      exact .quiet noGyro cooldown calls log fun _ => during
  | readDataApi =>
    cases pending : s.loop.adapter.noGyro.signal with
    | true =>
      simp only [State.step, SignalOut.Signal.trySignal, pending, if_true] at step
      obtain rfl := Option.some.inj step
      exact .takes rfl pending Bool.false_ne_true rfl rfl rfl id
    | false =>
      simp only [State.step, SignalOut.Signal.trySignal, pending, Bool.false_eq_true, if_false] at step
      obtain rfl := Option.some.inj step
      exact .quiet rfl rfl rfl rfl id

theorem cooldownLeft_next (calls : Nat) (sent : List Nat) :
    cooldownLeft (calls + 1) sent = cooldownLeft calls sent - 1 := by
  cases sent with
  | nil => rfl
  | cons last earlier =>
    simp only [cooldownLeft, List.head?_cons, Option.elim_some]
    omega

theorem cooled_iff_due {s : State} (h : Sound s) : s.loop.adapter.noGyroCooldown ≤ 0 ↔ s.due := by
  have cooldown := h.cooldown
  have spaced := h.spaced
  unfold State.due
  cases calls : sent s.log with
  | nil => simp [cooldown, cooldownLeft, calls]
  | cons last earlier =>
    rw [calls] at cooldown spaced
    simp only [cooldown, cooldownLeft, List.head?_cons, Option.elim_some, List.forall_mem_cons]
    constructor
    · intro cooled
      refine ⟨by omega, fun call before => ?_⟩
      have apart := List.rel_of_pairwise_cons spaced before
      omega
    · intro due
      have back := due.1
      omega

theorem effect_sound {s t : State} (h : Sound s) {a : Action} (effect : Effect s a t) : Sound t := by
  cases effect with
  | quiet noGyro cooldown calls log calling =>
    constructor
    · rw [cooldown, calls, log]
      exact h.cooldown
    · rw [log]
      exact h.spaced
    · rw [log, calls]
      exact h.counted
    · rw [log]
      exact h.merged
    · rw [State.pending, noGyro, log]
      exact h.pending
    · rw [calls]
      exact fun now => h.begun (calling now)
  | begins noGyro cooldown calls log =>
    constructor
    · rw [cooldown, calls, log, h.cooldown, cooldownLeft_next]
      split <;> omega
    · rw [log]
      exact h.spaced
    · rw [log, calls]
      intro call member
      have := h.counted call member
      omega
    · rw [log]
      exact h.merged
    · rw [State.pending, noGyro, log]
      exact h.pending
    · rw [calls]
      omega
  | sends during cooled noGyro cooldown calls log =>
    have begun := h.begun during
    constructor
    · rw [cooldown, calls, log]
      simp [sent, cooldownLeft, noGyroCooldownFrames]
    · rw [log]
      exact List.pairwise_cons.mpr ⟨(cooled_iff_due h).mp cooled, h.spaced⟩
    · rw [log, calls]
      exact List.forall_mem_cons.mpr ⟨⟨begun, le_refl _⟩, h.counted⟩
    · rw [log]
      exact h.merged
    · rw [log]
      exact ⟨fun _ => ⟨_, _, rfl⟩, fun _ => noGyro⟩
    · rw [calls]
      exact fun _ => begun
  | takes reader pending taken cooldown calls log calling =>
    constructor
    · rw [cooldown, calls, log]
      exact h.cooldown
    · rw [log]
      exact h.spaced
    · rw [log, calls]
      exact h.counted
    · rw [log]
      exact ⟨h.pending.mp pending, h.merged⟩
    · rw [log]
      constructor
      · intro still
        exact absurd still taken
      · rintro ⟨_, _, newest⟩
        cases newest
    · rw [calls]
      exact fun now => h.begun (calling now)

theorem construct_sound (memory : Adapter) (persistent : Bool) (motion : MotionData) :
    Sound (construct memory persistent motion) := by
  refine ⟨rfl, List.Pairwise.nil, ?_, trivial, ?_, ?_⟩
  · intro call member
    cases member
  · constructor
    · intro pending
      cases pending
    · rintro ⟨_, _, newest⟩
      cases newest
  · intro calling
    cases calling

theorem spaced_length {calls : List Nat} {n : Nat} (spaced : Spaced calls)
    (counted : ∀ call ∈ calls, 1 ≤ call ∧ call ≤ n) : calls.length ≤ (n + 999) / 1000 := by
  induction calls generalizing n with
  | nil => exact Nat.zero_le _
  | cons last earlier ih =>
    obtain ⟨apart, spaced⟩ := List.pairwise_cons.mp spaced
    obtain ⟨now, counted⟩ := List.forall_mem_cons.mp counted
    have fewer := ih (n := last - 1000) spaced fun call member => by
      have before := apart call member
      have some_call := counted call member
      omega
    rw [List.length_cons]
    omega

theorem enabled_le_sent {log : List Event} (merged : Merged log) :
    enabled log ≤ (sent log).length ∧
      ∀ call earlier, log = .sendSignal call :: earlier → enabled log < (sent log).length := by
  induction log with
  | nil => exact ⟨le_refl _, fun _ _ none_yet => by cases none_yet⟩
  | cons event log ih =>
    cases event with
    | sendSignal call =>
      have fewer := (ih merged).1
      simp only [enabled, sent, List.length_cons]
      exact ⟨by omega, fun _ _ _ => by omega⟩
    | enableGyro =>
      obtain ⟨⟨call, earlier, newest⟩, merged⟩ := merged
      have fewer := (ih merged).2 call earlier newest
      simp only [enabled, sent]
      exact ⟨by omega, fun _ _ other => by cases other⟩

def Answered (looked : State → Action → Option Nat) (stream : Nat → Frame) (move : Move State Action) :
    Prop :=
  ∀ p, looked move.before move.action = some p → noGyroFrame (frames stream p) = true →
    move.before.due → move.after.pending

def Kept (move : Move State Action) : Prop :=
  move.before.pending → move.after.pending ∨
    move.action = .readDataApi ∧ move.after.log = .enableGyro :: move.before.log

theorem step_answered {s t : State} {a : Action} (h : Sound s) (step : s.step stream a = some t) :
    Answered State.looksAt stream ⟨s, a, t⟩ := by
  intro p looked still due
  cases a with
  | turn =>
    obtain ⟨idle, place⟩ := Option.ite_none_right_eq_some.mp looked
    obtain rfl := Option.some.inj place
    obtain ⟨during, done⟩ := Option.ite_none_right_eq_some.mp step
    obtain rfl := Option.some.inj done
    have sends : s.sends stream = true :=
      decide_eq_true ⟨idle, (cooled_iff_due h).mpr due, still⟩
    have noGyro := (pass_passes stream s).noGyro
    rw [sends] at noGyro
    rw [State.pending, noGyro]
    rfl
  | startFrameGrab | stopFrameGrab | enterCall _ | readDataApi => cases looked

theorem step_kept {s t : State} {a : Action} (step : s.step stream a = some t) : Kept ⟨s, a, t⟩ := by
  intro pending
  cases step_effect step with
  | quiet noGyro | begins noGyro => exact Or.inl (by rw [State.pending, noGyro]; exact pending)
  | sends during cooled noGyro => exact Or.inl noGyro
  | takes reader _ _ _ _ log => exact Or.inr ⟨reader, log⟩

/-- In every run of the two threads: at most one EnableGyro for each thousand calls begun,
    signals at least 1000 calls apart, and none of them lost. The signal is pending as long
    as the log ends with a SendSignal, and every EnableGyro answers the ones sent since the
    last. -/
theorem reenabling_limited {memory : Adapter} {persistent : Bool} {motion : MotionData}
    {moves : List (Move State Action)} {t : State}
    (path : Path (State.step stream) (construct memory persistent motion) moves t) :
    enabled t.log ≤ (t.calls + 999) / 1000 ∧ Spaced (sent t.log) ∧ Merged t.log ∧
      (t.pending ↔ ∃ call earlier, t.log = .sendSignal call :: earlier) ∧
      ∀ move ∈ moves, Answered State.looksAt stream move ∧ Kept move := by
  have preserved : ∀ u a v, Sound u → u.step stream a = some v → Sound v :=
    fun u a v h step => effect_sound h (step_effect step)
  have start := construct_sound memory persistent motion
  have h := path_invariant Sound preserved path start
  have answered := (enabled_le_sent h.merged).1
  have fewer := spaced_length h.spaced h.counted
  refine ⟨answered.trans fewer, h.spaced, h.merged, h.pending, fun move member => ?_⟩
  obtain ⟨before, step⟩ := path_moves Sound preserved path start move member
  exact ⟨step_answered before step, step_kept step⟩

def stillFrame : Frame := List.replicate 64 0
def movedFrame : Frame := List.replicate 24 0 ++ 1 :: List.replicate 39 0

def unset : MotionData := ⟨0, 0, 0, 0, 0, 0, 0, 0⟩
def anyMemory : Adapter := ⟨false, false, unset, 0, 0, ⟨0, 0, 0⟩, 0, 0, ⟨true⟩, false⟩

def taken : List Action :=
  [.startFrameGrab, .enterCall unset, .turn, .readDataApi, .readDataApi]

theorem reenabling_limited_taken :
    ∃ moves t, Path (State.step fun _ => stillFrame) (construct anyMemory true unset) moves t ∧
      t.log = [.enableGyro, .sendSignal 1] ∧ enabled t.log ≤ (t.calls + 999) / 1000 := by
  have path : Path (State.step fun _ => stillFrame) (construct anyMemory true unset) _ _ :=
    path_of_record taken Path.nil rfl
  exact ⟨_, _, path, by decide, (reenabling_limited path).1⟩

def movedLater (i : Nat) : Frame := if i = 0 then stillFrame else movedFrame

/-- The frame a session drops first is consumed and not looked at: without motion in it,
    no signal is pending when its call has returned. -/
theorem dropped_frame_unanswered :
    ∃ moves t, Path (State.step movedLater) (construct anyMemory true unset) moves t ∧
      t.calling = false ∧ t.log = [] ∧ ¬t.pending ∧
      ¬∀ move ∈ moves, Answered State.consumes movedLater move := by
  have path : Path (State.step movedLater) (construct anyMemory true unset) _ _ :=
    path_of_record (taken.take 3) Path.nil rfl
  refine ⟨_, _, path, by decide, by decide, Bool.false_ne_true, fun all => ?_⟩
  have pending := all _ (List.mem_cons_of_mem _ List.mem_cons_self) 0 rfl (by decide)
    (fun call member => by cases member)
  cases pending

end GyroReenable
