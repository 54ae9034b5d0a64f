import GyroDsu.Sdgyro.Isolation

/-
The two modes of the adapter on one stream. A persistent adapter works on the caller's
structure, any other on its saved copy; both follow the same line. A call that gives up
on repeated frames writes neither.
-/
namespace Modes
open SdHidFrame CemuhookAdapter AdapterSession Timeline

def Same (r r' : CallResult) : Prop := r.returned = r'.returned ∧ r.motion = r'.motion

/-- Before a call: nothing is left to replicate, and the frames it may look at are all
    repeated. -/
def Stuck (stream : Nat → Frame) (s : Session) : Prop :=
  s.adapter.toReplicate = 0 ∧ ∀ i, i ≤ maxRepeatedLoop →
    s.adapter.repeated (frames stream (s.next + s.adapter.ignoreFirst.toNat + i)) = true

def persistent (memory : Adapter) (motion : MotionData) : Session := enter (construct memory true) motion

def nonPersistent (memory : Adapter) (motion : MotionData) : Session :=
  enter (construct memory false) motion

theorem motion_unique {m m' : MotionData} (stamp : timestamp m = timestamp m')
    (value : values m = values m') : m = m' := by
  have high : m.timestampH.toNat = m'.timestampH.toNat := by
    have bound := m.timestampL.toNat_lt
    have bound' := m'.timestampL.toNat_lt
    unfold timestamp at stamp
    omega
  have low : m.timestampL.toNat = m'.timestampL.toNat := by
    unfold timestamp at stamp
    omega
  cases m
  cases m'
  simp only [values, Values.mk.injEq] at value
  rw [MotionData.mk.injEq]
  exact ⟨UInt32.toNat_inj.mp low, UInt32.toNat_inj.mp high, value⟩

theorem accept_persistence (a : Adapter) (frame : SdFrame) (m : MotionData) :
    (a.accept frame m).1.isPersistent = a.isPersistent := by
  simp only [Adapter.accept]
  split <;> split <;> rfl

theorem replicate_persistence (a : Adapter) (m : MotionData) :
    (a.replicate m).1.isPersistent = a.isPersistent := by
  simp only [Adapter.replicate]
  split <;> rfl

theorem signalNoGyro_persistence (a : Adapter) (frame : SdFrame) :
    (a.signalNoGyro frame).isPersistent = a.isPersistent := by
  obtain ⟨_, _, quiet⟩ := signalNoGyro_eq a frame
  rw [quiet]

theorem grabLoop_persistence (stream : Nat → Frame) (n : Nat) (a : Adapter) (m : MotionData)
    (next : Nat) : (grabLoop stream n a m next).adapter.isPersistent = a.isPersistent := by
  by_cases idle : a.toReplicate = 0
  · induction n generalizing a next with
    | zero =>
      rw [grabLoop_turn 0 m next idle]
      split
      · exact signalNoGyro_persistence a _
      · exact (accept_persistence _ _ m).trans (signalNoGyro_persistence a _)
    | succ n ih =>
      rw [grabLoop_turn (n + 1) m next idle]
      split
      · exact (ih _ _ (by simp [idle])).trans (signalNoGyro_persistence a _)
      · exact (accept_persistence _ _ m).trans (signalNoGyro_persistence a _)
  · rw [grabLoop_replicates n m next idle]
    exact replicate_persistence a m

theorem call_persistence (stream : Nat → Frame) (s : Session) :
    (s.call stream).adapter.isPersistent = s.adapter.isPersistent := by
  have entered : (enterCall s.adapter s.next).1.isPersistent = s.adapter.isPersistent := by
    cases dropped : s.adapter.ignoreFirst <;> by_cases cooling : s.adapter.noGyroCooldown > 0 <;>
      simp only [enterCall, dropped, cooling, if_true, if_false, Bool.false_eq_true]
  exact (grabLoop_persistence stream maxRepeatedLoop _ s.motion _).trans entered

variable {stream : Nat → Frame} {overwritten overwritten' : Nat → MotionData} {s t : Session} {line : Line}

theorem at_persistence (s : Session) (k : Nat) :
    (s.at stream overwritten k).adapter.isPersistent = s.adapter.isPersistent := by
  induction k with
  | zero => rfl
  | succ k ih => exact (call_persistence stream (s.at stream overwritten k)).trans ih

theorem motion_between (s : Session) (k : Nat) :
    (s.at stream overwritten (k + 1)).motion =
      if s.adapter.isPersistent then (s.callAt stream overwritten k).motion else overwritten k := by
  have kept := (call_persistence stream (s.at stream overwritten k)).trans (at_persistence s k)
  simp only [Session.at, Session.after, kept, Session.callAt]

theorem stuck_iff (h : Follows stream s line) :
    Stuck stream s ↔ (line.call rules (frames stream)).1 = none := by
  have place := h.next
  rcases GapFill.call_cases rules (frames stream) line with
    ⟨_, _, some_pending, result⟩ | ⟨empty, result, all⟩ | ⟨i, empty, hi, stops, _, result⟩
  · rw [result]
    refine iff_of_false (fun stuck => ?_) (by simp)
    rw [follows_idle h stuck.1] at some_pending
    cases some_pending
  · rw [result]
    refine iff_of_true ⟨by rw [h.count, empty]; rfl, fun i hi => ?_⟩ rfl
    rw [← place]
    exact (follows_repeated h _).mpr (all i hi)
  · rw [result]
    refine iff_of_false (fun stuck => stops ?_) (by simp [GapFill.Line.accept])
    rw [place]
    exact (follows_repeated h _).mp (stuck.2 i hi)

theorem beside_same (h : Follows stream s line) (h' : Follows stream t line) :
    Same (s.call stream) (t.call stream) ↔ ¬Stuck stream t ∨ s.motion = t.motion := by
  have returned : (s.call stream).returned = (t.call stream).returned := by
    have count := (after_follows h s.motion).count
    have count' := (after_follows h' s.motion).count
    exact count.trans count'.symm
  rw [stuck_iff h', Same, and_iff_right returned]
  rcases call_follows h with
    ⟨_, ⟨_, pending, _, u, v, out, stamp, value⟩ | ⟨_, empty, silent, same, _⟩ |
      ⟨p, _, empty, _, _, u, v, out, stamp, value⟩⟩ <;>
  rcases call_follows h' with
    ⟨_, ⟨_, pending', _, u', v', out', stamp', value'⟩ | ⟨_, empty', silent', same', _⟩ |
      ⟨p', _, empty', _, _, u', v', out', stamp', value'⟩⟩
  case inl.inr.inl => exact absurd empty' pending
  case inl.inr.inr => exact absurd empty' pending
  case inr.inl.inl => exact absurd empty pending'
  case inr.inr.inl => exact absurd empty pending'
  case inr.inl.inr.inr => exact absurd (out'.symm.trans silent) (by simp)
  case inr.inr.inr.inl => exact absurd (out.symm.trans silent') (by simp)
  case inr.inl.inr.inl =>
    rw [same, same', silent]
    simp
  all_goals
    obtain ⟨rfl, rfl⟩ : u = u' ∧ v = v' := by simpa using out.symm.trans out'
    have equal := motion_unique (stamp.trans stamp'.symm) (value.trans value'.symm)
    exact iff_of_true equal (Or.inl (by simp [out]))

theorem calls_beside (memory memory' : Adapter) (motion motion' : MotionData)
    (stream : Nat → Frame) (overwritten overwritten' : Nat → MotionData) (k : Nat) :
    Same ((persistent memory motion).callAt stream overwritten k)
        ((nonPersistent memory' motion').callAt stream overwritten' k) ↔
      ¬Stuck stream ((nonPersistent memory' motion').at stream overwritten' k) ∨
        ((persistent memory motion).at stream overwritten k).motion =
          ((nonPersistent memory' motion').at stream overwritten' k).motion := by
  have follows : Follows stream (persistent memory motion) (startLine (construct memory true).smoothing) :=
    enter_follows (construct memory true) motion rfl
  have follows' : Follows stream (nonPersistent memory' motion') (startLine (construct memory true).smoothing) :=
    enter_follows (construct memory' false) motion' rfl
  exact beside_same (run_follows overwritten follows k) (run_follows overwritten' follows' k)

/-- After the call that emits the first sample, every call gives the two callers the same
    exactly when it is not stuck, or the second caller has left the last sample in place. -/
theorem modes_agree_iff (memory memory' : Adapter) (motion motion' : MotionData)
    (stream : Nat → Frame) (overwritten overwritten' : Nat → MotionData) :
    Same ((persistent memory motion).callAt stream overwritten 0)
        ((nonPersistent memory' motion').callAt stream overwritten' 0) ∧
      ∀ k, Same ((persistent memory motion).callAt stream overwritten (k + 1))
          ((nonPersistent memory' motion').callAt stream overwritten' (k + 1)) ↔
        ¬Stuck stream ((nonPersistent memory' motion').at stream overwritten' (k + 1)) ∨
          overwritten' k = ((persistent memory motion).callAt stream overwritten k).motion := by
  have beside := calls_beside memory memory' motion motion' stream overwritten overwritten'
  constructor
  · refine (beside 0).mpr (Or.inl fun stuck => ?_)
    -- No frame repeats anything before the first one has been accepted.
    have again := stuck.2 0 (Nat.zero_le _)
    simp [Adapter.repeated, Session.at, nonPersistent, enter, Adapter.startFrameGrab] at again
  · intro k
    rw [beside (k + 1), motion_between, motion_between]
    exact or_congr Iff.rfl eq_comm

def standing (_ : Nat) : Frame := [0, 0, 0, 0, 10]

/-- The second call finds the frame of the first again and again. What the caller of the
    second adapter has written over the sample is still there after it. -/
theorem modes_differ :
    ((persistent idleAdapter still).callAt standing (fun _ => still) 0).exit = .accepted 1 ∧
      ¬Same ((persistent idleAdapter still).callAt standing (fun _ => still) 1)
        ((nonPersistent idleAdapter still).callAt standing (fun _ => still) 1) := by
  refine ⟨by decide, fun same => ?_⟩
  have beside := calls_beside idleAdapter idleAdapter still still standing (fun _ => still) fun _ => still
  rcases (beside 1).mp same with free | left_in_place
  · have again : ((nonPersistent idleAdapter still).at standing (fun _ => still) 1).adapter.repeated
        (frames standing 0) = true := by decide
    exact free ⟨by decide, fun _ _ => again⟩
  · have stamps := congrArg MotionData.timestampL left_in_place
    revert stamps
    decide

end Modes
