import GyroDsu.Lib.Runs
import GyroDsu.Sdgyro.Smoothing
import GyroDsu.Sdgyro.RepeatedFrames

/-
The accelerations an adapter reports over its whole life: through any number of sessions,
with frames missed, repeated and replicated. The caller leaves the motion data alone
between its calls, as the server does.
-/
namespace Acceleration
open SdHidFrame CemuhookAdapter AdapterSession RepeatedFrames Smoothing Ieee Runs

/-- The adapter between two calls. `log` has the frames that became motion data, newest
    first. -/
structure State where
  adapter : Adapter
  motion : MotionData
  next : Nat
  log : List SdFrame

inductive Action where
  | startFrameGrab
  | stopFrameGrab
  | setMotionDataNewFrame

def construct (memory : Adapter) (persistent : Bool) (motion : MotionData) : State :=
  ⟨CemuhookAdapter.construct memory persistent, motion, 0, []⟩

variable {stream : Nat → Frame}

def accepted (stream : Nat → Frame) : Exit → List SdFrame
  | .accepted p => [frames stream p]
  | _ => []

def State.after (s : State) (stream : Nat → Frame) (r : CallResult) : State :=
  ⟨r.adapter, r.motion, r.next, accepted stream r.exit ++ s.log⟩

def State.step (stream : Nat → Frame) (s : State) : Action → Option State
  | .startFrameGrab => some { s with adapter := s.adapter.startFrameGrab }
  | .stopFrameGrab =>
    if s.adapter.frameServe then some { s with adapter := s.adapter.stopFrameGrab } else none
  | .setMotionDataNewFrame =>
    if s.adapter.frameServe then
      some (s.after stream (setMotionDataNewFrame stream s.adapter s.motion s.next))
    else none

def tracked (log : List SdFrame) : CemuhookAdapter.Smoothing where
  lastAccelRtL := smoothed (log.map SdFrame.accelAxisRightToLeft)
  lastAccelFtB := smoothed (log.map SdFrame.accelAxisFrontToBack)
  lastAccelTtB := smoothed (log.map SdFrame.accelAxisTopToBottom)

def Shows (m : MotionData) (last : CemuhookAdapter.Smoothing) : Prop :=
  m.accX = neg (div last.lastAccelRtL acc1G) ∧ m.accY = neg (div last.lastAccelFtB acc1G) ∧
    m.accZ = div last.lastAccelTtB acc1G

structure Sound (log : List SdFrame) (a : Adapter) (m : MotionData) : Prop where
  smoothing : a.smoothing = tracked log
  shown : log ≠ [] → Shows m (tracked log)
  replicating : a.toReplicate ≠ 0 → log ≠ [] ∧ (a.isPersistent = false → Shows a.data (tracked log))

theorem shows_setTimestamp {m : MotionData} {last : CemuhookAdapter.Smoothing} (shows : Shows m last)
    (t : UInt64) : Shows (m.setTimestamp t) last :=
  shows

theorem setMotionData_tracks (frame : SdFrame) (m : MotionData) (log : List SdFrame) :
    (setMotionData frame m (tracked log)).2 = tracked (frame :: log) ∧
      Shows (setMotionData frame m (tracked log)).1 (tracked (frame :: log)) := by
  refine ⟨rfl, ?_⟩
  cases suppressed : gyroSuppressed frame.header <;>
    simp only [setMotionData, suppressed, if_true, Bool.false_eq_true, if_false] <;>
    exact ⟨rfl, rfl, rfl⟩

theorem untouched_sound {log : List SdFrame} {a b : Adapter} {m : MotionData} (h : Sound log a m)
    (same : Untouched a b) : Sound log b m := by
  constructor
  · rw [same.smoothing]
    exact h.smoothing
  · exact h.shown
  · intro busy
    rw [same.toReplicate] at busy
    rw [same.data, same.isPersistent]
    exact h.replicating busy

theorem signalled_sound {log : List SdFrame} {a : Adapter} {m : MotionData} (h : Sound log a m)
    (frame : SdFrame) : Sound log (a.signalNoGyro frame) m :=
  untouched_sound h (untouched_signalNoGyro a frame)

theorem accept_sound {log : List SdFrame} {a : Adapter} {m : MotionData} (h : Sound log a m)
    (idle : a.toReplicate = 0) (frame : SdFrame) :
    Sound (frame :: log) (a.accept frame m).1 (a.accept frame m).2 := by
  have tracks := setMotionData_tracks frame m log
  rw [← h.smoothing] at tracks
  by_cases gap : a.lastInc ≠ 0 ∧ a.diff frame > 1 ∧ a.diff frame ≤ maxDiffReplicate
  · rw [accept_gap a frame m gap]
    refine ⟨tracks.1, fun _ => shows_setTimestamp tracks.2 _, fun _ => ⟨List.cons_ne_nil _ _, ?_⟩⟩
    intro copied
    rw [copied, if_neg (by decide)]
    exact shows_setTimestamp tracks.2 _
  · rw [accept_single a frame m idle gap]
    exact ⟨tracks.1, fun _ => tracks.2, fun busy => absurd idle busy⟩

theorem replicate_sound {log : List SdFrame} {a : Adapter} {m : MotionData} (h : Sound log a m)
    (busy : a.toReplicate ≠ 0) : Sound log (a.replicate m).1 (a.replicate m).2 := by
  obtain ⟨some_log, copy⟩ := h.replicating busy
  unfold Adapter.replicate
  cases persistent : a.isPersistent with
  | true =>
    simp only [if_true]
    refine ⟨h.smoothing, fun _ => shows_setTimestamp (h.shown some_log) _, fun _ => ⟨some_log, ?_⟩⟩
    intro copied
    cases copied
  | false =>
    simp only [Bool.false_eq_true, if_false]
    have shows := shows_setTimestamp (copy persistent)
    exact ⟨h.smoothing, fun _ => shows _, fun _ => ⟨some_log, fun _ => shows _⟩⟩

theorem call_sound {s : State} (h : Sound s.log s.adapter s.motion) :
    let t := s.after stream (setMotionDataNewFrame stream s.adapter s.motion s.next)
    Sound t.log t.adapter t.motion := by
  have entered : Sound s.log (enterCall s.adapter s.next).1 s.motion :=
    untouched_sound h (enterCall_untouched s.adapter s.next).1
  refine returns_invariant (fun l : LoopState => Sound s.log l.adapter l.motion)
    (fun r => Sound (s.after stream r).log (s.after stream r).adapter (s.after stream r).motion)
    ?_ ?_ (returns_call s.adapter s.motion s.next) entered
  · intro l l' sound pass
    by_cases idle : l.adapter.toReplicate = 0
    · cases again : (l.signalled stream).repeated (l.frame stream) with
      | false => cases (turn_accepts idle again).symm.trans pass
      | true =>
        by_cases spent : l.repeatedLoop ≤ 0
        · cases (turn_gives_up idle again spent).symm.trans pass
        · obtain rfl := Sum.inl.inj ((turn_passes idle again spent).symm.trans pass)
          exact signalled_sound sound _
    · cases (turn_replicates idle).symm.trans pass
  · intro l r sound pass
    by_cases idle : l.adapter.toReplicate = 0
    · have still_idle : (l.signalled stream).toReplicate = 0 := by simp [LoopState.signalled, idle]
      cases again : (l.signalled stream).repeated (l.frame stream) with
      | false =>
        obtain rfl := Sum.inr.inj ((turn_accepts idle again).symm.trans pass)
        exact accept_sound (signalled_sound sound _) still_idle (l.frame stream)
      | true =>
        by_cases spent : l.repeatedLoop ≤ 0
        · obtain rfl := Sum.inr.inj ((turn_gives_up idle again spent).symm.trans pass)
          exact signalled_sound sound _
        · cases (turn_passes idle again spent).symm.trans pass
    · obtain rfl := Sum.inr.inj ((turn_replicates idle).symm.trans pass)
      exact replicate_sound sound idle

theorem step_sound {s t : State} {action : Action} (h : Sound s.log s.adapter s.motion)
    (step : s.step stream action = some t) : Sound t.log t.adapter t.motion := by
  cases action with
  | startFrameGrab =>
    obtain rfl := Option.some.inj step
    exact ⟨h.smoothing, h.shown, h.replicating⟩
  | stopFrameGrab =>
    obtain ⟨_, done⟩ := Option.ite_none_right_eq_some.mp step
    obtain rfl := Option.some.inj done
    exact ⟨h.smoothing, h.shown, h.replicating⟩
  | setMotionDataNewFrame =>
    obtain ⟨_, done⟩ := Option.ite_none_right_eq_some.mp step
    obtain rfl := Option.some.inj done
    exact call_sound h

theorem run_sound {memory : Adapter} {persistent : Bool} {motion : MotionData} {actions : List Action} {t : State}
    (run : Run (State.step stream) (construct memory persistent motion) actions t) :
    Sound t.log t.adapter t.motion := by
  refine run_invariant (fun s : State => Sound s.log s.adapter s.motion)
    (fun _ _ _ h step => step_sound h step) run ?_
  exact ⟨rfl, fun none_yet => absurd rfl none_yet, fun busy => absurd rfl busy⟩

theorem contains_g {r : Range} {readings : List Int16} (within : ∀ v ∈ readings, r.Reads v) :
    r.Contains (2 ^ 14) (div (smoothed readings) acc1G) := by
  obtain ⟨a, stands, above, below⟩ := smoothed_range r readings within
  obtain ⟨b, stands', small⟩ := smoothed_small readings
  obtain rfl : a = b := Option.some.inj (stands.symm.trans stands')
  have low := r.low
  have lo_zero := r.lo_zero
  have zero_hi := r.zero_hi
  have high := r.high
  have lowest := nearest_fixed (holds_g r.lo (by omega))
  have highest := nearest_fixed (holds_g r.hi (by omega))
  have some_unit : (0 : ℚ) < 2 ^ 14 := by positivity
  refine ⟨_, value_g stands small, ?_, ?_⟩
  · rw [← div_le_iff₀ some_unit, ← lowest]
    exact nearest_mono _ (div_le_div_of_nonneg_right above some_unit.le)
  · rw [← le_div_iff₀ some_unit, ← highest]
    exact nearest_mono _ (div_le_div_of_nonneg_right below some_unit.le)

theorem contains_neg {r : Range} {unit : ℚ} {w : Single} (contains : r.Contains unit w) :
    r.negate.Contains unit (neg w) := by
  obtain ⟨q, stands, above, below⟩ := contains
  refine ⟨-q, value_neg stands, ?_, ?_⟩
  · simp only [Range.negate, Int.cast_neg]
    linarith
  · simp only [Range.negate, Int.cast_neg]
    linarith

/-- In every run: as long as the readings of an axis stay in a range, what is reported for it
    is a number of that range, in units of g. -/
theorem acceleration_in_range {memory : Adapter} {persistent : Bool} {motion : MotionData}
    {actions : List Action} {t : State}
    (run : Run (State.step stream) (construct memory persistent motion) actions t) (some_frame : t.log ≠ [])
    (rtl ftb ttb : Range)
    (within : ∀ frame ∈ t.log, rtl.Reads frame.accelAxisRightToLeft ∧ ftb.Reads frame.accelAxisFrontToBack ∧
      ttb.Reads frame.accelAxisTopToBottom) :
    rtl.negate.Contains (2 ^ 14) t.motion.accX ∧ ftb.negate.Contains (2 ^ 14) t.motion.accY ∧
      ttb.Contains (2 ^ 14) t.motion.accZ := by
  obtain ⟨x, y, z⟩ := (run_sound run).shown some_frame
  have reads : ∀ {r : Range} {axis : SdFrame → Int16}, (∀ frame ∈ t.log, r.Reads (axis frame)) →
      ∀ v ∈ t.log.map axis, r.Reads v := by
    intro r axis all v member
    obtain ⟨frame, from_log, rfl⟩ := List.mem_map.mp member
    exact all frame from_log
  rw [x, y, z]
  refine ⟨contains_neg (contains_g (reads fun frame member => (within frame member).1)),
    contains_neg (contains_g (reads fun frame member => (within frame member).2.1)),
    contains_g (reads fun frame member => (within frame member).2.2)⟩

def tilted (_ : Nat) : Frame := List.replicate 25 0 ++ 0x40 :: List.replicate 38 0

def unset : MotionData := ⟨0, 0, 0, 0, 0, 0, 0, 0⟩
def anyMemory : Adapter := ⟨false, false, unset, 0, 0, ⟨0, 0, 0⟩, 0, 0, ⟨false⟩, false⟩

def oneFrame : List Action := [.startFrameGrab, .setMotionDataNewFrame]

theorem oneFrame_accepted :
    ∃ t, Run (State.step tilted) (construct anyMemory true unset) oneFrame.reverse t ∧
      t.log = [frames tilted 1] := by
  have ends : (execute (State.step tilted) (construct anyMemory true unset) oneFrame).map State.log =
      some [frames tilted 1] := rfl
  obtain ⟨t, done, log⟩ := Option.map_eq_some_iff.mp ends
  exact ⟨t, run_of_execute done, log⟩

def between (lo hi : Int) (fits : (-2 ^ 15 ≤ lo ∧ lo ≤ 0) ∧ 0 ≤ hi ∧ hi ≤ 2 ^ 15) : Range :=
  ⟨lo, hi, fits.1.1, fits.1.2, fits.2.1, fits.2.2⟩

-- The x axis shows them the other way round.
def upToOneG : Range := between 0 (2 ^ 14) (by decide)
def nothing : Range := between 0 0 (by decide)

theorem acceleration_in_range_tilted :
    ∃ t, Run (State.step tilted) (construct anyMemory true unset) oneFrame.reverse t ∧
      upToOneG.negate.Contains (2 ^ 14) t.motion.accX ∧ nothing.negate.Contains (2 ^ 14) t.motion.accY := by
  obtain ⟨t, run, log⟩ := oneFrame_accepted
  have within := acceleration_in_range run (by rw [log]; exact List.cons_ne_nil _ _) upToOneG nothing nothing (by
    rw [log]
    intro frame member
    obtain rfl := List.mem_singleton.mp member
    unfold Range.Reads
    decide)
  exact ⟨t, run, within.1, within.2.1⟩

/-- The word is a value in g, and `q` that value in units of the readings. -/
def Approximates (w : Single) (q : ℚ) : Prop := ∃ g, value w = some g ∧ |2 ^ 14 * g - q| ≤ 1 / 20

theorem approximates_g (readings : List Int16) :
    Approximates (div (smoothed readings) acc1G) (exact (decided readings)) := by
  obtain ⟨a, stands, error⟩ := smoothed_exact readings
  obtain ⟨b, stands', small⟩ := smoothed_small readings
  obtain rfl : a = b := Option.some.inj (stands.symm.trans stands')
  have spacing : single.quantum 128 = 1 / 2 ^ 22 := by decide +kernel
  have some_g : |a / 2 ^ 14| ≤ 2 := by
    rw [abs_div, abs_of_nonneg (by positivity : (0 : ℚ) ≤ 2 ^ 14), div_le_iff₀ (by positivity)]
    linarith
  have rounded := nearest_within single (q := a / 2 ^ 14) (e := 128) (by decide) (by
    rw [spacing]
    refine some_g.trans_lt ?_
    norm_num [Format.precision, single])
  rw [spacing] at rounded
  refine ⟨_, value_g stands small, ?_⟩
  have bounds := abs_le.mp rounded
  have bounds' := abs_le.mp error
  rw [abs_le]
  constructor <;> linarith

theorem approximates_neg {w : Single} {q : ℚ} (near : Approximates w q) : Approximates (neg w) (-q) := by
  obtain ⟨g, stands, error⟩ := near
  refine ⟨-g, value_neg stands, ?_⟩
  rwa [show 2 ^ 14 * -g - -q = -(2 ^ 14 * g - q) by ring, abs_neg]

/-- The word shows what the filter makes of some readings when nothing is rounded: told what the
    code has decided about each of them and, if they are clear of the limit, by itself. -/
def Shown (w : Single) (sign : ℚ) (readings : List Int16) : Prop :=
  Approximates w (sign * exact (decided readings)) ∧ (Clear readings → Approximates w (sign * ideal readings))

theorem shown_g (readings : List Int16) : Shown (div (smoothed readings) acc1G) 1 readings := by
  have near := approximates_g readings
  constructor
  · rwa [one_mul]
  · intro clear
    rwa [one_mul, ← exact_decided readings clear]

theorem shown_neg {w : Single} {readings : List Int16} (shown : Shown w 1 readings) :
    Shown (neg w) (-1) readings := by
  obtain ⟨told, alone⟩ := shown
  rw [one_mul] at told alone
  constructor
  · rw [neg_one_mul]
    exact approximates_neg told
  · intro clear
    rw [neg_one_mul]
    exact approximates_neg (alone clear)

/-- In every run, however long: what is reported is off by at most a twentieth of a reading
    from the filter computed without rounding over the accepted frames. -/
theorem acceleration_never_drifts {memory : Adapter} {persistent : Bool} {motion : MotionData}
    {actions : List Action} {t : State}
    (run : Run (State.step stream) (construct memory persistent motion) actions t) (some_frame : t.log ≠ []) :
    Shown t.motion.accX (-1) (t.log.map SdFrame.accelAxisRightToLeft) ∧
      Shown t.motion.accY (-1) (t.log.map SdFrame.accelAxisFrontToBack) ∧
      Shown t.motion.accZ 1 (t.log.map SdFrame.accelAxisTopToBottom) := by
  obtain ⟨x, y, z⟩ := (run_sound run).shown some_frame
  rw [x, y, z]
  exact ⟨shown_neg (shown_g _), shown_neg (shown_g _), shown_g _⟩

theorem acceleration_never_drifts_tilted :
    ∃ t, Run (State.step tilted) (construct anyMemory true unset) oneFrame.reverse t ∧
      Approximates t.motion.accX (-1 * ideal [2 ^ 14]) := by
  obtain ⟨t, run, log⟩ := oneFrame_accepted
  have shown := acceleration_never_drifts run (by rw [log]; exact List.cons_ne_nil _ _)
  rw [log, show [frames tilted 1].map SdFrame.accelAxisRightToLeft = [2 ^ 14] by decide] at shown
  have clear : Clear [2 ^ 14] := by
    refine ⟨?_, trivial⟩
    decide +kernel
  exact ⟨t, run, shown.1.2 clear⟩

end Acceleration
