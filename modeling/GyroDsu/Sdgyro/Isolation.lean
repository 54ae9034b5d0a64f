import GyroDsu.Sdgyro.Timeline

/-
Sessions one after another on one adapter. A session is isolated from the past when
what it returns and emits depends on its own stream only. Accelerations are left out:
their smoothing is meant to run on.
-/
namespace Isolation
open SdHidFrame CemuhookAdapter AdapterSession Timeline

structure PastSession where
  motion : MotionData
  stream : Nat → Frame
  overwritten : Nat → MotionData
  calls : Nat

def PastSession.leave (past : PastSession) (a : Adapter) : Adapter :=
  ((enter a past.motion).at past.stream past.overwritten past.calls).adapter.stopFrameGrab

/-- From the construction of the adapter in whatever `memory` held, oldest session first. -/
structure History where
  memory : Adapter
  persistent : Bool
  sessions : List PastSession

def History.adapter (h : History) : Adapter :=
  h.sessions.foldl (fun a past => past.leave a) (construct h.memory h.persistent)

def gyro (m : MotionData) : Single × Single × Single := (m.pitch, m.yaw, m.roll)

def sample (r : CallResult) : Option (Nat × Single × Single × Single) :=
  if r.exit = .repeated then none else some (timestamp r.motion, gyro r.motion)

def frameGyro (frame : SdFrame) : Single × Single × Single :=
  gyro (setMotionData frame still ⟨0, 0, 0⟩).1

/-- Every sample comes from a frame the session itself has consumed. -/
def OwnFrames (s : Session) : Prop :=
  ∀ stream overwritten k, (s.callAt stream overwritten k).exit ≠ .repeated →
    ∃ p, (s.at stream overwritten (k + 1)).source = some p ∧
      p < (s.at stream overwritten (k + 1)).next ∧
      gyro (s.callAt stream overwritten k).motion = frameGyro (frames stream p)

/-- The next sessions of two adapters return the same and emit the same on any stream. -/
structure Isolated (a b : Adapter) : Prop where
  same : ∀ motion motion' stream overwritten overwritten' k,
    ((enter a motion).callAt stream overwritten k).returned =
        ((enter b motion').callAt stream overwritten' k).returned ∧
      sample ((enter a motion).callAt stream overwritten k) =
        sample ((enter b motion').callAt stream overwritten' k)
  own : ∀ motion, OwnFrames (enter a motion)
  own' : ∀ motion, OwnFrames (enter b motion)

def gyroOf (v : Values) : Single × Single × Single := (v.pitch, v.yaw, v.roll)

@[simp] theorem gyroOf_values (m : MotionData) : gyroOf (values m) = gyro m := rfl

theorem gyroOf_observe (last : Smoothing) (frame : SdFrame) :
    gyroOf (rules.observe last frame).2 = frameGyro frame := by
  cases suppressed : gyroSuppressed frame.header <;>
    simp only [rules_observe, observe, frameGyro, setMotionData, suppressed, gyroOf, gyro, values,
      if_true, Bool.false_eq_true, if_false]

variable {stream : Nat → Frame} {overwritten : Nat → MotionData} {s : Session} {line : Line}

theorem sample_beside (h : Follows stream s line) (k : Nat) :
    sample (s.callAt stream overwritten k) =
      (line.emitted rules (frames stream) k).map fun out => (4000 * out.1, gyroOf out.2) := by
  obtain ⟨emits, shows⟩ := emitted_beside overwritten h k
  cases out : line.emitted rules (frames stream) k with
  | none =>
    rw [out] at emits
    have silent : (s.callAt stream overwritten k).exit = .repeated := by
      by_contra loud
      cases emits.mp loud
    simp only [sample, silent, if_true, Option.map_none]
  | some out' =>
    rw [out] at emits
    have loud : (s.callAt stream overwritten k).exit ≠ .repeated := emits.mpr rfl
    obtain ⟨stamp, value⟩ := shows out'.1 out'.2 out
    simp only [sample, loud, if_false, Option.map_some, stamp, ← value, gyroOf_values]

theorem idle_own (a : Adapter) (idle : a.toReplicate = 0) (motion : MotionData) :
    OwnFrames (enter a motion) := by
  intro stream overwritten k loud
  have follows : Follows stream (enter a motion) (startLine a.smoothing) := enter_follows a motion idle
  obtain ⟨⟨t, v⟩, out⟩ := Option.isSome_iff_exists.mp ((emitted_beside overwritten follows k).1.mp loud)
  obtain ⟨p, from_p, shown⟩ := GapFill.emitted_shown rules (frames stream) gyroOf frameGyro
    gyroOf_observe (startLine a.smoothing) rfl k t v out
  refine ⟨p, by rw [source_beside overwritten follows, from_p], ?_, ?_⟩
  · have ordered : (startLine a.smoothing).Ordered := fun p none_yet => by cases none_yet
    have taken := GapFill.ordered_at rules (frames stream) _ ordered (k + 1) p from_p
    have place := next_beside overwritten follows (k + 1)
    rw [(after_beside overwritten follows k).1] at place
    simp only [Bool.toNat_false, Nat.add_zero] at place
    omega
  · rw [← shown, ← ((emitted_beside overwritten follows k).2 t v out).2, gyroOf_values]

/-- With nothing left to replicate on either side the two sessions differ at most in
    the smoothing of the accelerations. -/
theorem idle_same {a b : Adapter} (idle : a.toReplicate = 0) (idle' : b.toReplicate = 0)
    (motion motion' : MotionData) (stream : Nat → Frame) (overwritten overwritten' : Nat → MotionData)
    (k : Nat) :
    ((enter a motion).callAt stream overwritten k).returned =
        ((enter b motion').callAt stream overwritten' k).returned ∧
      sample ((enter a motion).callAt stream overwritten k) =
        sample ((enter b motion').callAt stream overwritten' k) := by
  have follows : Follows stream (enter a motion) (startLine a.smoothing) := enter_follows a motion idle
  have follows' : Follows stream (enter b motion') (startLine b.smoothing) := enter_follows b motion' idle'
  have alike : GapFill.Alike gyroOf (startLine a.smoothing) (startLine b.smoothing) := ⟨rfl, rfl, rfl⟩
  have run := fun k => GapFill.alike_run rules (frames stream) gyroOf frameGyro gyroOf_observe alike k
  constructor
  · have lengths := congrArg List.length (run (k + 1)).1.pending
    simp only [List.length_map] at lengths
    rw [(after_beside overwritten follows k).2.2.1, (after_beside overwritten' follows' k).2.2.1, lengths]
  · rw [sample_beside follows, sample_beside follows']
    have emitted := congrArg (Option.map fun out => (4000 * out.1, out.2)) (run k).2
    simpa [Option.map_map, Function.comp_def] using emitted

/-- A session that starts in the middle of a replication emits before it has a frame. -/
theorem busy_foreign {a : Adapter} (busy : a.toReplicate ≠ 0) (motion : MotionData) :
    ¬OwnFrames (enter a motion) := by
  intro own
  have still_busy : (enterCall (enter a motion).adapter (enter a motion).next).1.toReplicate ≠ 0 := by
    rw [enterCall_toReplicate]
    exact busy
  have exit : ((enter a motion).call fun _ => []).exit = .replicated := by
    simp only [Session.call, setMotionDataNewFrame, grabLoop_replicates _ _ _ still_busy]
  have loud : ((enter a motion).callAt (fun _ => []) (fun _ => motion) 0).exit ≠ .repeated := by
    simp only [Session.callAt, Session.at, exit, ne_eq, reduceCtorEq, not_false_eq_true]
  obtain ⟨p, source, _⟩ := own (fun _ => []) (fun _ => motion) 0 loud
  simp only [Session.at, Session.after, exit] at source
  cases source

/-- Two histories leave isolated adapters exactly when neither stopped with samples
    still to replicate. -/
theorem isolated_iff_idle (h h' : History) :
    Isolated h.adapter h'.adapter ↔ h.adapter.toReplicate = 0 ∧ h'.adapter.toReplicate = 0 := by
  constructor
  · intro isolated
    constructor
    · by_contra busy
      exact busy_foreign busy still (isolated.own still)
    · by_contra busy
      exact busy_foreign busy still (isolated.own' still)
  · rintro ⟨idle, idle'⟩
    exact ⟨idle_same idle idle', idle_own _ idle, idle_own _ idle'⟩

def fresh : History := ⟨idleAdapter, true, []⟩

def interrupted : History := ⟨idleAdapter, true, [⟨still, shortGap, fun _ => still, 2⟩]⟩

theorem interrupted_not_isolated : ¬Isolated interrupted.adapter fresh.adapter := by
  intro isolated
  have busy : interrupted.adapter.toReplicate ≠ 0 := by decide
  exact busy_foreign busy still (isolated.own still)

end Isolation
