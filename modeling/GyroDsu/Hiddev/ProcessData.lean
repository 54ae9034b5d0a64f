import GyroDsu.Hiddev.ReadData
import GyroDsu.Hiddev.Served
import GyroDsu.Pipeline.LatestValue

/-
ProcessData between the reading thread and ServeFrame: it takes the records the reading
thread sends, copies their input bytes into the frame to be filled one by one, and sends the
frame on. Nothing is stopped here but the reading thread, which ProcessData restarts when no
record has come in time. Counting of missed frames only writes to the log and is left out.
-/
namespace ProcessData
open SdHidFrame LittleEndian Pipe SignalOut ReadData
open ServeFrame (View Consumer)

/-- Where Execute stands: at the wait, restarting the reading thread, or before the copy of
    byte `i`. -/
inductive Pc where
  | waiting
  | restarting
  | copying (i : Nat)
  deriving DecidableEq, Repr

/-- `data` has the log of its calls as history; ServeFrame has the pipe Frame. -/
structure State where
  data : LatestValue.State Frame
  pc : Pc
  readStuck : Signal
  serving : ServeFrame.State Frame

/-- `restarted` is the return of TryRestartThenForceRestart, which waits for the reading thread to
    end and starts it again: when it comes is not up to ProcessData. -/
inductive Action where
  | reader (action : LatestValue.Action Frame)
  | waitForData
  | restarted
  | copy
  | sendData
  | serving (action : ServeFrame.Action Frame)

def fills : ServeFrame.Action Frame → Bool
  | .fill _ | .sendData => true
  | _ => false

def inputByte (record : Frame) (i : Nat) : UInt8 := memory record (cByteposInput + cInputRecordLen * i)

def State.step (s : State) : Action → Option State
  | .reader action =>
    if action.receives then none else (s.data.step action).map fun data => { s with data := data }
  | .waitForData =>
    if s.pc = .waiting then
      if s.data.pipe.bufWasSent then some { s with data := s.data.take, pc := .copying 0 }
      else some { s with data := s.data.refuse, readStuck := s.readStuck.sendSignal, pc := .restarting }
    else none
  | .restarted => if s.pc = .restarting then some { s with pc := .waiting } else none
  | .copy =>
    match s.pc with
    | .copying i =>
      if i < s.serving.pipe.toFill.length then
        let frame := s.serving.pipe.toFill.set i (inputByte s.data.pipe.received i)
        (s.serving.step (.fill frame)).map fun serving =>
          { s with serving := serving, pc := .copying (i + 1) }
      else none
    | _ => none
  | .sendData =>
    match s.pc with
    | .copying i =>
      if i < s.serving.pipe.toFill.length then none
      else (s.serving.step .sendData).map fun serving => { s with serving := serving, pc := .waiting }
    | _ => none
  | .serving action =>
    if fills action then none
    else (s.serving.step action).map fun serving => { s with serving := serving }

structure Starts (frameLen : Nat) (s : State) : Prop where
  data : ∃ object, s.data = LatestValue.start object
  pc : s.pc = .waiting
  serving : ServeFrame.Starts s.serving
  none_sent : s.serving.sent = []
  sized : ∀ i, (s.serving.pipe.object i).length = frameLen

def frameOf (frameLen : Nat) (record : Frame) : Frame := (List.range frameLen).map (inputByte record)

def State.current (s : State) : List Frame :=
  match s.pc with
  | .copying _ => [s.data.pipe.received]
  | _ => []

def State.inFlight (s : State) : List Frame := s.current ++ s.data.pending.toList

structure Sound (frameLen : Nat) (s : State) : Prop where
  trace : Mailbox.Trace s.data.log s.data.pending
  serving : ServeFrame.Sound s.serving
  sized : ∀ i, (s.serving.pipe.object i).length = frameLen
  processed : ∃ processed, Mailbox.received s.data.log = processed ++ s.current ∧
    s.serving.sent = processed.map (frameOf frameLen)
  copied : ∀ i, s.pc = .copying i → i ≤ frameLen ∧
    ∀ j < i, s.serving.pipe.toFill[j]? = some (inputByte s.data.pipe.received j)

variable {frameLen : Nat} {s t : State}

theorem starts_sound (h : Starts frameLen s) : Sound frameLen s := by
  obtain ⟨object, data⟩ := h.data
  refine ⟨?_, ServeFrame.starts_sound h.serving, h.sized, ⟨[], ?_, h.none_sent⟩, ?_⟩
  · rw [data]
    exact .empty
  · rw [data, State.current, h.pc]
    rfl
  · rw [h.pc]
    nofun

theorem reader_sound {action : LatestValue.Action Frame} (h : Sound frameLen s)
    (step : s.step (.reader action) = some t) : Sound frameLen t := by
  obtain ⟨writes, done⟩ := Option.ite_none_left_eq_some.mp step
  obtain ⟨data, moved, rfl⟩ := Option.map_eq_some_iff.mp done
  have kept : Mailbox.received data.log = Mailbox.received s.data.log ∧
      data.pipe.received = s.data.pipe.received := by
    cases LatestValue.step_simulated moved with
    | fill change _ log _ _ content => exact ⟨by rw [log], content⟩
    | send => exact ⟨rfl, rfl⟩
    | ask => exact ⟨rfl, rfl⟩
    | take _ receives => exact absurd receives writes
    | refuse _ receives => exact absurd receives writes
  obtain ⟨processed, received, sent⟩ := h.processed
  refine ⟨LatestValue.step_trace h.trace moved, h.serving, h.sized, ⟨processed, ?_, sent⟩, fun i at_i => ?_⟩
  · simp only [kept.1, received]
    unfold State.current
    simp only [kept.2]
  · simp only [kept.2]
    exact h.copied i at_i

theorem wait_sound (h : Sound frameLen s) (step : s.step .waitForData = some t) : Sound frameLen t := by
  obtain ⟨waiting, done⟩ := Option.ite_none_right_eq_some.mp step
  obtain ⟨processed, received, sent⟩ := h.processed
  rw [State.current, waiting, List.append_nil] at received
  cases was_sent : s.data.pipe.bufWasSent with
  | true =>
    rw [was_sent, if_pos rfl] at done
    obtain rfl := Option.some.inj done
    have moved : s.data.step .waitForDataFor = some s.data.take := by
      rw [LatestValue.State.step, if_pos was_sent]
    refine ⟨LatestValue.step_trace h.trace moved, h.serving, h.sized, ⟨processed, ?_, sent⟩, fun i at_i => ?_⟩
    · rw [← received]
      rfl
    · obtain rfl : 0 = i := Pc.copying.inj at_i
      exact ⟨Nat.zero_le _, fun j none_yet => absurd none_yet (Nat.not_lt_zero j)⟩
  | false =>
    rw [was_sent, if_neg Bool.false_ne_true] at done
    obtain rfl := Option.some.inj done
    have moved : s.data.step .waitForDataFor = some s.data.refuse := by
      rw [LatestValue.State.step, if_neg (by simp [was_sent])]
    refine ⟨LatestValue.step_trace h.trace moved, h.serving, h.sized, ⟨processed, ?_, sent⟩, fun i at_i => ?_⟩
    · rw [← List.append_nil processed] at received
      exact received
    · cases at_i

theorem restarted_sound (h : Sound frameLen s) (step : s.step .restarted = some t) : Sound frameLen t := by
  obtain ⟨restarting, done⟩ := Option.ite_none_right_eq_some.mp step
  obtain rfl := Option.some.inj done
  have processed := h.processed
  rw [State.current, restarting] at processed
  exact ⟨h.trace, h.serving, h.sized, processed, nofun⟩

theorem copy_sound (h : Sound frameLen s) (step : s.step .copy = some t) : Sound frameLen t := by
  simp only [State.step] at step
  split at step
  · rename_i i at_i
    obtain ⟨inside, done⟩ := Option.ite_none_right_eq_some.mp step
    obtain ⟨serving, filled, rfl⟩ := Option.map_eq_some_iff.mp done
    have sound := ServeFrame.step_sound h.serving filled
    obtain rfl := Option.some.inj filled
    have length : s.serving.pipe.toFill.length = frameLen := h.sized _
    have processed := h.processed
    rw [State.current, at_i] at processed
    refine ⟨h.trace, sound, fun inst => ?_, processed, fun i' at_i' => ?_⟩
    · by_cases filled : inst = s.serving.pipe.bufMod
      · rw [filled, write_same, List.length_set, length]
      · rw [write_other _ _ filled]
        exact h.sized inst
    · obtain rfl : i + 1 = i' := Pc.copying.inj at_i'
      refine ⟨by omega, fun j copied => ?_⟩
      simp only [PipeOut.toFill, write_bufMod, write_same]
      by_cases last : j = i
      · rw [last]
        exact List.getElem?_set_self inside
      · rw [List.getElem?_set_ne (Ne.symm last)]
        exact (h.copied i at_i).2 j (by omega)
  · cases step

theorem copied_frame {frame record : Frame} (length : frame.length = frameLen)
    (copied : ∀ j < frameLen, frame[j]? = some (inputByte record j)) : frame = frameOf frameLen record := by
  apply List.ext_getElem?
  intro j
  by_cases inside : j < frameLen
  · rw [copied j inside, frameOf, List.getElem?_map, List.getElem?_range inside]
    rfl
  · rw [List.getElem?_eq_none (by omega), List.getElem?_eq_none]
    rw [frameOf, List.length_map, List.length_range]
    omega

theorem send_sound (h : Sound frameLen s) (step : s.step .sendData = some t) : Sound frameLen t := by
  simp only [State.step] at step
  split at step
  · rename_i i at_i
    obtain ⟨all, done⟩ := Option.ite_none_left_eq_some.mp step
    obtain ⟨serving, sends, rfl⟩ := Option.map_eq_some_iff.mp done
    have sound := ServeFrame.step_sound h.serving sends
    obtain rfl := Option.some.inj sends
    have length : s.serving.pipe.toFill.length = frameLen := h.sized _
    obtain ⟨short, copied⟩ := h.copied i at_i
    have frame := copied_frame length fun j inside => copied j (by omega)
    obtain ⟨processed, received, sent⟩ := h.processed
    rw [State.current, at_i] at received
    refine ⟨h.trace, sound, h.sized, ⟨processed ++ [s.data.pipe.received], ?_, ?_⟩, nofun⟩
    · rw [received]
      exact (List.append_nil _).symm
    · simp only [sent, frame, List.map_append, List.map_singleton]
  · cases step

theorem others_keep {serving serving' : ServeFrame.State Frame} {action : ServeFrame.Action Frame}
    (other : fills action = false) (step : serving.step action = some serving') :
    serving'.pipe.object = serving.pipe.object ∧ serving'.pipe.bufMod = serving.pipe.bufMod ∧
      serving'.sent = serving.sent := by
  cases ServeFrame.step_cases step with
  | fill | sendData => cases other
  | _ => exact ⟨rfl, rfl, rfl⟩

theorem serving_sound {action : ServeFrame.Action Frame} (h : Sound frameLen s)
    (step : s.step (.serving action) = some t) : Sound frameLen t := by
  obtain ⟨other, done⟩ := Option.ite_none_left_eq_some.mp step
  obtain ⟨serving, moved, rfl⟩ := Option.map_eq_some_iff.mp done
  obtain ⟨object, bufMod, sent⟩ := others_keep (by simpa using other) moved
  refine ⟨h.trace, ServeFrame.step_sound h.serving moved, fun inst => ?_, ?_, fun i at_i => ?_⟩
  · rw [object]
    exact h.sized inst
  · rw [sent]
    exact h.processed
  · simp only [PipeOut.toFill, object, bufMod]
    exact h.copied i at_i

theorem step_sound {a : Action} (h : Sound frameLen s) (step : s.step a = some t) : Sound frameLen t := by
  cases a with
  | reader action => exact reader_sound h step
  | waitForData => exact wait_sound h step
  | restarted => exact restarted_sound h step
  | copy => exact copy_sound h step
  | sendData => exact send_sound h step
  | serving action => exact serving_sound h step

theorem reachable_sound (reached : Runs.Reachable State.step (Starts frameLen) s) : Sound frameLen s :=
  Runs.reachable_invariant (Sound frameLen) (fun _ => starts_sound) (fun _ _ _ h step => step_sound h step)
    reached

theorem sent_thinned (h : Sound frameLen s) :
    Thinning.Thinned (s.serving.sent ++ s.inFlight.map (frameOf frameLen))
      ((Mailbox.sent s.data.log).map (frameOf frameLen)) := by
  obtain ⟨processed, received, sent⟩ := h.processed
  have through := Thinning.thinned_map (frameOf frameLen) (Mailbox.trace_thinned h.trace)
  rw [received, List.append_assoc, List.map_append, ← sent] at through
  exact through

theorem seen_sublist {serving : ServeFrame.State Frame} {i : Nat} {c : Consumer Frame}
    (consumer : ServeFrame.ConsumerSound serving i c) :
    (c.seen.reverse.map View.frame).Sublist serving.sent := by
  have known : ∀ v ∈ c.seen, 0 < v.number ∧ serving.sent[v.number - 1]? = some v.frame := by
    intro v member
    have sentAs := (consumer.known v member).2
    unfold ServeFrame.State.sentAs at sentAs
    split at sentAs
    · cases sentAs
    · rename_i positive
      exact ⟨Nat.pos_of_ne_zero positive, sentAs⟩
  have picked : ((c.seen.reverse.map fun v => (v.number - 1, v.frame)).map Prod.snd).Sublist serving.sent := by
    apply Thinning.picked_sublist
    · have ordered := consumer.ordered
      rw [List.pairwise_map] at ordered
      rw [List.map_map, List.pairwise_map, List.pairwise_reverse]
      refine ordered.imp_of_mem fun {v w} v_seen w_seen later => ?_
      have positive := (known w w_seen).1
      simp only [Function.comp]
      omega
    · intro p member
      obtain ⟨v, v_seen, rfl⟩ := List.mem_map.mp member
      exact (known v (List.mem_reverse.mp v_seen)).2
  rw [List.map_map] at picked
  exact picked

/-- In every reachable state: a consumer has got frames of records the reading thread has sent,
    byte for byte, in the order of the records and none for two of them; and the newest
    record that was sent has been sent on or is on its way. -/
theorem consumers_get_records (reached : Runs.Reachable State.step (Starts frameLen) s) :
    Thinning.Thinned (s.serving.sent ++ s.inFlight.map (frameOf frameLen))
      ((Mailbox.sent s.data.log).map (frameOf frameLen)) ∧
    ∀ (i : Nat) (c : Consumer Frame), s.serving.frames[i]? = some c →
      (c.seen.reverse.map View.frame).Sublist ((Mailbox.sent s.data.log).map (frameOf frameLen)) := by
  have sound := reachable_sound reached
  have thinned := sent_thinned sound
  refine ⟨thinned, fun i c here => ?_⟩
  have on : s.serving.sent.Sublist (s.serving.sent ++ s.inFlight.map (frameOf frameLen)) :=
    List.sublist_append_left _ _
  exact ((seen_sublist (sound.serving.consumers i c here)).trans on).trans thinned.sublist

def own : Action → Bool
  | .reader _ | .serving _ | .restarted => false
  | _ => true

def State.alone (s : State) : Action → Option State
  | .waitForData => if s.data.pipe.bufWasSent then s.step .waitForData else none
  | .copy => s.step .copy
  | .sendData => s.step .sendData
  | _ => none

theorem alone_step {a : Action} (step : s.alone a = some t) : own a = true ∧ s.step a = some t := by
  cases a with
  | waitForData => exact ⟨rfl, (Option.ite_none_right_eq_some.mp step).2⟩
  | copy | sendData => exact ⟨rfl, step⟩
  | reader | serving | restarted => cases step

theorem alone_running {a : Action} (step : s.alone a = some t) : t.pc ≠ .restarting := by
  cases a with
  | waitForData =>
    obtain ⟨was_sent, step⟩ := Option.ite_none_right_eq_some.mp step
    obtain ⟨_, done⟩ := Option.ite_none_right_eq_some.mp step
    rw [if_pos was_sent] at done
    obtain rfl := Option.some.inj done
    nofun
  | copy =>
    simp only [State.alone, State.step] at step
    split at step
    · obtain ⟨_, done⟩ := Option.ite_none_right_eq_some.mp step
      obtain ⟨serving, _, rfl⟩ := Option.map_eq_some_iff.mp done
      nofun
    · cases step
  | sendData =>
    simp only [State.alone, State.step] at step
    split at step
    · obtain ⟨_, done⟩ := Option.ite_none_left_eq_some.mp step
      obtain ⟨serving, _, rfl⟩ := Option.map_eq_some_iff.mp done
      nofun
    · cases step
  | reader | serving | restarted => cases step

def stepsLeft (frameLen : Nat) (s : State) : Nat :=
  (if s.data.pipe.bufWasSent then frameLen + 2 else 0) +
    match s.pc with
    | .waiting | .restarting => 0
    | .copying i => frameLen - i + 1

theorem stepsLeft_le (frameLen : Nat) (s : State) : stepsLeft frameLen s ≤ 2 * frameLen + 3 := by
  unfold stepsLeft
  split <;> split <;> omega

theorem own_keeps_records {a : Action} (step : s.alone a = some t) :
    Mailbox.sent t.data.log = Mailbox.sent s.data.log := by
  obtain ⟨owned, step⟩ := alone_step step
  cases a with
  | reader | serving | restarted => cases owned
  | waitForData =>
    obtain ⟨_, done⟩ := Option.ite_none_right_eq_some.mp step
    split at done <;>
    · obtain rfl := Option.some.inj done
      rfl
  | copy =>
    simp only [State.step] at step
    split at step
    · obtain ⟨_, done⟩ := Option.ite_none_right_eq_some.mp step
      obtain ⟨serving, _, rfl⟩ := Option.map_eq_some_iff.mp done
      rfl
    · cases step
  | sendData =>
    simp only [State.step] at step
    split at step
    · obtain ⟨_, done⟩ := Option.ite_none_left_eq_some.mp step
      obtain ⟨serving, _, rfl⟩ := Option.map_eq_some_iff.mp done
      rfl
    · cases step

theorem goes_on (h : Sound frameLen s) (running : s.pc ≠ .restarting) :
    s.inFlight = [] ∨ ∃ a t, s.alone a = some t ∧ stepsLeft frameLen t < stepsLeft frameLen s := by
  have length : s.serving.pipe.toFill.length = frameLen := h.sized _
  cases at_pc : s.pc with
  | waiting =>
    cases was_sent : s.data.pipe.bufWasSent with
    | true =>
      refine Or.inr ⟨.waitForData, { s with data := s.data.take, pc := .copying 0 }, ?_, ?_⟩
      · simp only [State.alone, State.step, at_pc, was_sent, if_true]
      · simp only [stepsLeft, at_pc, was_sent, LatestValue.State.take, take_bufWasSent, if_true,
          Bool.false_eq_true, if_false]
        omega
    | false =>
      left
      rw [State.inFlight, State.current, at_pc, LatestValue.pending_none was_sent]
      rfl
  | restarting => exact absurd at_pc running
  | copying i =>
    have short := (h.copied i at_pc).1
    by_cases inside : i < frameLen
    · have possible : (s.alone .copy).isSome = true := by
        simp only [State.alone, State.step, at_pc, length, inside, if_true,
          ServeFrame.State.step, Option.map_some, Option.isSome_some]
      obtain ⟨t, step⟩ := Option.isSome_iff_exists.mp possible
      refine Or.inr ⟨.copy, t, step, ?_⟩
      simp only [State.alone, State.step, at_pc, length, inside, if_true, ServeFrame.State.step,
        Option.map_some, Option.some.injEq] at step
      subst step
      simp only [stepsLeft, at_pc]
      omega
    · have possible : (s.alone .sendData).isSome = true := by
        simp only [State.alone, State.step, at_pc, length, inside, if_false,
          ServeFrame.State.step, Option.map_some, Option.isSome_some]
      obtain ⟨t, step⟩ := Option.isSome_iff_exists.mp possible
      refine Or.inr ⟨.sendData, t, step, ?_⟩
      simp only [State.alone, State.step, at_pc, length, inside, if_false,
        ServeFrame.State.step, Option.map_some, Option.some.injEq] at step
      subst step
      simp only [stepsLeft, at_pc]
      omega

theorem alone_run {as : List Action} (run : Runs.Run State.alone s as t) :
    Runs.Run State.step s as t ∧ ∀ a ∈ as, own a = true := by
  induction run with
  | nil => exact ⟨.nil, by simp⟩
  | next before last ih =>
    obtain ⟨owned, step⟩ := alone_step last
    exact ⟨.next ih.1 step, List.forall_mem_cons.mpr ⟨owned, ih.2⟩⟩

/-- By itself, and in a bounded number of steps, ProcessData gets done, and then the frame sent last
    is that of the newest record. -/
def Arrives (frameLen : Nat) (s : State) : Prop :=
  ∃ as t, Runs.Run State.step s as t ∧ (∀ a ∈ as, own a = true) ∧ as.length ≤ 2 * frameLen + 3 ∧
    t.inFlight = [] ∧ t.serving.sent.getLast? = ((Mailbox.sent s.data.log).map (frameOf frameLen)).getLast?

theorem running_arrives (reached : Runs.Reachable State.step (Starts frameLen) s) (running : s.pc ≠ .restarting) :
    Arrives frameLen s := by
  obtain ⟨as, t, run, empty, short⟩ := Runs.run_finishes
    (fun u => Sound frameLen u ∧ u.pc ≠ .restarting) (fun u => u.inFlight = []) (stepsLeft frameLen)
    (fun _ _ _ kept step => ⟨step_sound kept.1 (alone_step step).2, alone_running step⟩)
    (fun _ kept => goes_on kept.1 kept.2) ⟨reachable_sound reached, running⟩
  have records := Runs.run_invariant (fun u => Mailbox.sent u.data.log = Mailbox.sent s.data.log)
    (fun _ _ _ same step => (own_keeps_records step).trans same) run rfl
  obtain ⟨run, owned⟩ := alone_run run
  obtain ⟨start, before, starts, earlier⟩ := reached
  have sound := reachable_sound ⟨start, _, starts, Runs.run_append earlier run⟩
  have last := (sent_thinned sound).last
  rw [empty, List.map_nil, List.append_nil, records] at last
  exact ⟨as, t, run, owned, short.trans (stepsLeft_le frameLen s), empty, last⟩

theorem restarting_keeps {a : Action} (restarting : s.pc = .restarting) (step : s.step a = some t) :
    (t.pc = .restarting ∨ a = .restarted) ∧ t.serving.sent = s.serving.sent := by
  cases a with
  | reader action =>
    obtain ⟨_, done⟩ := Option.ite_none_left_eq_some.mp step
    obtain ⟨data, _, rfl⟩ := Option.map_eq_some_iff.mp done
    exact ⟨Or.inl restarting, rfl⟩
  | restarted =>
    obtain ⟨_, done⟩ := Option.ite_none_right_eq_some.mp step
    obtain rfl := Option.some.inj done
    exact ⟨Or.inr rfl, rfl⟩
  | serving action =>
    obtain ⟨other, done⟩ := Option.ite_none_left_eq_some.mp step
    obtain ⟨serving, moved, rfl⟩ := Option.map_eq_some_iff.mp done
    exact ⟨Or.inl restarting, (others_keep (by simpa using other) moved).2.2⟩
  | waitForData | copy | sendData => simp [State.step, restarting] at step

/-- From every reachable state the newest record is sent on by ProcessData alone; where it is in the
    middle of a restart of the reading thread, as soon as that has ended. -/
theorem newest_record_arrives (reached : Runs.Reachable State.step (Starts frameLen) s) :
    (s.pc ≠ .restarting → Arrives frameLen s) ∧
    (s.pc = .restarting → ∀ a t, s.step a = some t →
      (t.pc = .restarting ∧ t.serving.sent = s.serving.sent) ∨ (a = .restarted ∧ Arrives frameLen t)) := by
  refine ⟨running_arrives reached, fun restarting a t step => ?_⟩
  obtain ⟨start, before, starts, earlier⟩ := reached
  obtain ⟨still | ended, kept⟩ := restarting_keeps restarting step
  · exact Or.inl ⟨still, kept⟩
  · subst ended
    obtain ⟨_, done⟩ := Option.ite_none_right_eq_some.mp step
    have running : t.pc ≠ .restarting := by
      obtain rfl := Option.some.inj done
      nofun
    exact Or.inr ⟨rfl, running_arrives ⟨start, _, starts, .next earlier step⟩ running⟩

def ready : State where
  data := LatestValue.start fun _ => []
  pc := .waiting
  readStuck := {}
  serving :=
    { pipe := construct fun _ => [0, 0]
      frames := []
      pc := .idle
      sent := []
      number := fun _ => 0
      taken := [] }

def record (a b : UInt8) : Frame := [2, 0, 255, 255, a, 0, 0, 0, 2, 0, 255, 255, b, 0, 0, 0]

def send (a b : UInt8) : List Action := [.reader (.fill fun _ => record a b), .reader .sendData]

def threeRecords : List Action :=
  [.serving .getServe, .waitForData, .restarted] ++ send 1 2 ++ [.waitForData, .copy] ++ send 3 4 ++
    [.copy, .sendData] ++
    ([.enter, .lock, .locked, .waitForData, .unlock 0, .leave] :
      List (ServeFrame.Action Frame)).map .serving ++
    send 5 6 ++ [.waitForData, .copy, .serving (.acquire 0 true)]

theorem ready_starts : Starts 2 ready := by
  refine ⟨⟨_, rfl⟩, rfl, ⟨rfl, rfl, rfl, fun i => ?_, rfl⟩, rfl, fun i => ?_⟩ <;> cases i <;> rfl

theorem consumers_get_records_three :
    ∃ (s : State) (c : Consumer Frame), Runs.Reachable State.step (Starts 2) s ∧
      s.serving.frames[0]? = some c ∧ c.seen.map View.frame = [[1, 2]] ∧
      (Mailbox.sent s.data.log).map (frameOf 2) = [[1, 2], [3, 4], [5, 6]] ∧
      (c.seen.reverse.map View.frame).Sublist ((Mailbox.sent s.data.log).map (frameOf 2)) := by
  have run : Runs.Run State.step ready threeRecords.reverse _ := Runs.run_of_execute rfl
  have reached : Runs.Reachable State.step (Starts 2) _ := ⟨ready, _, ready_starts, run⟩
  exact ⟨_, _, reached, rfl, rfl, rfl, (consumers_get_records reached).2 0 _ rfl⟩

theorem newest_record_arrives_three :
    ∃ s as t, Runs.Reachable State.step (Starts 2) s ∧ Runs.Run State.step s as t ∧ as.length ≤ 7 ∧
      t.serving.sent.getLast? = some [5, 6] := by
  have run : Runs.Run State.step ready threeRecords.reverse _ := Runs.run_of_execute rfl
  have reached : Runs.Reachable State.step (Starts 2) _ := ⟨ready, _, ready_starts, run⟩
  obtain ⟨as, t, finished, _, short, _, last⟩ := (newest_record_arrives reached).1 (by simp)
  exact ⟨_, as, t, reached, finished, short, last⟩

end ProcessData
