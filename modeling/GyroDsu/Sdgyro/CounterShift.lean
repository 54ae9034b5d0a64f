import GyroDsu.Lib.GapTwins
import GyroDsu.Sdgyro.Timeline

/-
A session on a stream and on the stream with all counters moved on. The adapter compares
counters as integers and keeps 0 for no counter, so the two differ where a frame close to
the one before it lies on the other side of 0.
-/
namespace CounterShift
open SdHidFrame CemuhookAdapter AdapterSession Timeline LittleEndian

def addIncrement (c : UInt32) (frame : Frame) : Frame :=
  (List.range 4).map (memory frame) ++ encode 4 ((getSdFrame frame).increment + c).toNat ++ frame.drop 8

def shifted (c : UInt32) (stream : Nat → Frame) : Nat → Frame := fun i => addIncrement c (stream i)

def fresh (memory : Adapter) (persistent : Bool) (motion : MotionData) : Session :=
  enter (construct memory persistent) motion

instance (stream : Nat → Frame) (overwritten : Nat → MotionData) (s : Session) (j p : Nat) :
    Decidable (EmitsFor stream overwritten s j p) :=
  inferInstanceAs (Decidable ((s.callAt stream overwritten j).exit ≠ .repeated ∧
    (s.at stream overwritten (j + 1)).source = some p))

def samplesOf (stream : Nat → Frame) (overwritten : Nat → MotionData) (s : Session) (n p : Nat) : Nat :=
  (List.range n).countP fun j => EmitsFor stream overwritten s j p

/-- Call by call the same, whether the counters are moved on or not. -/
structure Uniform (c : UInt32) (stream : Nat → Frame) (overwritten : Nat → MotionData) (s : Session) :
    Prop where
  returned : ∀ k, (s.callAt stream overwritten k).returned =
    (s.callAt (shifted c stream) overwritten k).returned
  exit : ∀ k, (s.callAt stream overwritten k).exit = (s.callAt (shifted c stream) overwritten k).exit
  next : ∀ k, (s.callAt stream overwritten k).next = (s.callAt (shifted c stream) overwritten k).next
  samples : ∀ n p, samplesOf stream overwritten s n p = samplesOf (shifted c stream) overwritten s n p

def ahead (x y : UInt32) : Nat := (y - x).toNat

def counter (stream : Nat → Frame) (p : Nat) : UInt32 := (frames stream p).increment

/-- A repeated frame gives no sample, and a gap of 2 to 100 as many as it is wide. -/
structure Regular (stream : Nat → Frame) (overwritten : Nat → MotionData) (s : Session) : Prop where
  repeated : ∀ k p q, Examines stream overwritten s k p → (s.at stream overwritten k).source = some q →
    ahead (counter stream q) (counter stream p) = 0 → ∀ j, ¬EmitsFor stream overwritten s j p
  filled : ∀ k p q, Examines stream overwritten s k p → (s.at stream overwritten k).source = some q →
    2 ≤ ahead (counter stream q) (counter stream p) → ahead (counter stream q) (counter stream p) ≤ 100 →
    ∀ j, EmitsFor stream overwritten s j p ↔ k ≤ j ∧ j < k + ahead (counter stream q) (counter stream p)

def Close (x y : UInt32) : Prop :=
  x ≠ 0 ∧ -100 < (y.toNat : Int) - x.toNat ∧ (y.toNat : Int) - x.toNat ≤ 100

theorem memory_addIncrement (c : UInt32) (frame : Frame) {i : Nat} (elsewhere : i < 4 ∨ 8 ≤ i) :
    memory (addIncrement c frame) i = memory frame i := by
  unfold memory addIncrement
  rw [List.getD_eq_getElem?_getD, List.getD_eq_getElem?_getD]
  rcases elsewhere with front | behind
  · rw [List.append_assoc, List.getElem?_append_left (by simpa using front), List.getElem?_map,
      List.getElem?_range front]
    simp [memory]
  · rw [List.getElem?_append_right (by simp [encode_length]; omega)]
    simp only [List.length_append, List.length_map, List.length_range, encode_length, List.getElem?_drop]
    rw [show 8 + (i - (4 + 4)) = i by omega]

theorem loadI16_addIncrement (c : UInt32) (frame : Frame) {offset : Nat} (behind : 8 ≤ offset) :
    loadI16 (addIncrement c frame) offset = loadI16 frame offset := by
  unfold loadI16
  rw [load_agree fun i _ => memory_addIncrement c frame (Or.inr (by omega))]

theorem getSdFrame_addIncrement (c : UInt32) (frame : Frame) :
    getSdFrame (addIncrement c frame) =
      { getSdFrame frame with increment := (getSdFrame frame).increment + c } := by
  have header : loadU32 (addIncrement c frame) 0 = loadU32 frame 0 := by
    unfold loadU32
    rw [load_agree fun i small => memory_addIncrement c frame (Or.inl (by omega))]
  have increment : loadU32 (addIncrement c frame) 4 = (getSdFrame frame).increment + c := by
    have place : ((List.range 4).map (memory frame)).length = 4 := by simp
    rw [loadU32, addIncrement, load_field _ _ 4 _ 4 place]
    have small := ((getSdFrame frame).increment + c).toNat_lt
    rw [Nat.mod_eq_of_lt (by omega), UInt32.ofNat_toNat]
  have behind := fun offset (h : 8 ≤ offset) => loadI16_addIncrement c frame h
  simp only [getSdFrame] at increment ⊢
  rw [header, increment, behind 24 (by omega), behind 26 (by omega), behind 28 (by omega),
    behind 30 (by omega), behind 32 (by omega), behind 34 (by omega)]

theorem counter_shifted (c : UInt32) (stream : Nat → Frame) (p : Nat) :
    counter (shifted c stream) p = counter stream p + c := by
  simp only [counter, frames, shifted, getSdFrame_addIncrement]

instance (x y : UInt32) : Decidable (Close x y) :=
  inferInstanceAs (Decidable (x ≠ 0 ∧ -100 < (y.toNat : Int) - x.toNat ∧ (y.toNat : Int) - x.toNat ≤ 100))

def share (x y : UInt32) : Nat := if Close x y then y.toNat - x.toNat else 1

theorem samples_share (x : UInt32) (frame : SdFrame) :
    GapTwins.samples rules (if x = 0 then none else some x.toNat) frame = share x frame.increment := by
  by_cases zero : x = 0
  · simp [GapTwins.samples, GapFill.repeats, GapFill.laterTicks, GapFill.fills, share, Close, zero]
  · simp only [GapTwins.samples, GapFill.repeats, GapFill.laterTicks, GapFill.fills, share, Close, zero,
      if_false, ne_eq, not_false_eq_true, true_and, rules_tick, rules_back, rules_gap, Option.getD_some]
    split_ifs <;> (try simp only [List.length_range', List.length_nil]) <;> omega

theorem samples_first (frame : SdFrame) : GapTwins.samples rules none frame = 1 := by
  simp [GapTwins.samples, GapFill.repeats, GapFill.laterTicks, GapFill.fills]

theorem share_shifted (x y c : UInt32) :
    share x y = share (x + c) (y + c) ↔ ahead x y = 1 ∨ (Close x y ↔ Close (x + c) (y + c)) := by
  have bound := x.toNat_lt
  have bound' := y.toNat_lt
  have bound'' := c.toNat_lt
  have distance : ahead x y = (2 ^ 32 - x.toNat + y.toNat) % 2 ^ 32 := UInt32.toNat_sub y x
  by_cases near : Close x y <;> by_cases near' : Close (x + c) (y + c) <;>
    simp only [share, near, near', if_true, if_false, iff_true, iff_false, or_true, or_false, not_true] <;>
    simp only [Close, UInt32.toNat_add, distance] at near near' ⊢ <;> omega

theorem share_repeated {x y : UInt32} (same : ahead x y = 0) : share x y = 0 ↔ Close x y := by
  have bound := x.toNat_lt
  have bound' := y.toNat_lt
  have distance : ahead x y = (2 ^ 32 - x.toNat + y.toNat) % 2 ^ 32 := UInt32.toNat_sub y x
  by_cases near : Close x y <;> simp only [share, near, if_true, if_false, iff_true, iff_false] <;> omega

theorem share_gap {x y : UInt32} (wide : 2 ≤ ahead x y) (narrow : ahead x y ≤ 100) :
    share x y = if Close x y then ahead x y else 1 := by
  have bound := x.toNat_lt
  have bound' := y.toNat_lt
  have distance : ahead x y = (2 ^ 32 - x.toNat + y.toNat) % 2 ^ 32 := UInt32.toNat_sub y x
  by_cases near : Close x y
  · simp only [share, near, if_true]
    simp only [Close] at near
    omega
  · simp only [share, near, if_false]

variable {stream : Nat → Frame} {overwritten : Nat → MotionData} {s : Session} {line : Line}

theorem exit_beside (h : Follows stream s line) (k : Nat) :
    (s.callAt stream overwritten k).exit =
      if (line.at rules (frames stream) k).pending.length ≠ 0 then .replicated
      else if (line.emitted rules (frames stream) k).isSome then
        .accepted ((line.at rules (frames stream) (k + 1)).source.getD 0)
      else .repeated := by
  rw [GapFill.Line.emitted, GapFill.Line.at]
  rcases callAt_follows overwritten h k with
    ⟨_, ⟨exit, busy, _⟩ | ⟨exit, empty, out, _⟩ | ⟨p, exit, empty, result, _⟩⟩
  · rw [exit, if_pos (fun none_left => busy (List.eq_nil_of_length_eq_zero none_left))]
  · rw [exit, empty, out]
    rfl
  · rw [exit, empty, result]
    rfl

theorem examines_beside (h : Follows stream s line) (k p : Nat) :
    Examines stream overwritten s k p ↔
      (line.at rules (frames stream) k).next ≤ p ∧ p < (line.at rules (frames stream) (k + 1)).next := by
  rw [Examines, next_beside overwritten h, (after_beside overwritten h k).2.1]

theorem uniform_source {c : UInt32} (uniform : Uniform c stream overwritten s) (k : Nat) :
    (s.at stream overwritten k).source = (s.at (shifted c stream) overwritten k).source := by
  induction k with
  | zero => rfl
  | succ k ih =>
    have exit := uniform.exit k
    simp only [Session.callAt] at exit
    simp only [Session.at, Session.after, exit, ih]

theorem together_of_uniform {c : UInt32} (h : Follows stream s line) (h' : Follows (shifted c stream) s line)
    (uniform : Uniform c stream overwritten s) (k : Nat) :
    GapTwins.Together rules (frames stream) (frames (shifted c stream))
      (line.at rules (frames stream) k) (line.at rules (frames (shifted c stream)) k) := by
  obtain ⟨_, next, returned, _⟩ := after_beside overwritten h k
  obtain ⟨_, next', returned', _⟩ := after_beside overwritten h' k
  have same_source := uniform_source uniform (k + 1)
  rw [source_beside overwritten h, source_beside overwritten h'] at same_source
  have same_count := uniform.returned k
  rw [returned, returned'] at same_count
  refine ⟨⟨same_source, next.symm.trans ((uniform.next k).trans next'), Int.ofNat_inj.mp same_count⟩, ?_⟩
  have emits := (emitted_beside overwritten h k).1
  rw [uniform.exit k, (emitted_beside overwritten h' k).1] at emits
  exact Bool.eq_iff_iff.mpr emits.symm

theorem twins_of_together {c : UInt32}
    (together : ∀ k, GapTwins.Together rules (frames stream) (frames (shifted c stream))
      (line.at rules (frames stream) k) (line.at rules (frames (shifted c stream)) k)) (k : Nat) :
    GapTwins.Twin (line.at rules (frames stream) k) (line.at rules (frames (shifted c stream)) k) := by
  cases k with
  | zero =>
    have start : ∀ stream, line.at rules (frames stream) 0 = line := fun _ => rfl
    rw [start, start]
    exact ⟨rfl, rfl, rfl⟩
  | succ k => exact (together k).after

theorem uniform_beside {c : UInt32} (h : Follows stream s line) (h' : Follows (shifted c stream) s line) :
    Uniform c stream overwritten s ↔ ∀ k, GapTwins.Together rules (frames stream) (frames (shifted c stream))
      (line.at rules (frames stream) k) (line.at rules (frames (shifted c stream)) k) := by
  constructor
  · exact together_of_uniform h h'
  · intro together
    have twins := twins_of_together together
    have exit : ∀ k, (s.callAt stream overwritten k).exit = (s.callAt (shifted c stream) overwritten k).exit := by
      intro k
      have emits : (line.emitted rules (frames stream) k).isSome =
          (line.emitted rules (frames (shifted c stream)) k).isSome := (together k).emits
      rw [exit_beside h, exit_beside h', (twins k).left, (twins (k + 1)).source, emits]
    constructor
    · intro k
      rw [(after_beside overwritten h k).2.2.1, (after_beside overwritten h' k).2.2.1, (twins (k + 1)).left]
    · exact exit
    · intro k
      rw [(after_beside overwritten h k).2.1, (after_beside overwritten h' k).2.1, (twins (k + 1)).next]
    · intro n p
      refine List.countP_congr fun j _ => ?_
      simp only [decide_eq_true_eq, EmitsFor, exit j, source_beside overwritten h,
        source_beside overwritten h', (twins (j + 1)).source]

theorem samples_beside (stream' : Nat → Frame) (h : Follows stream s line) {k p q : Nat}
    (source : (s.at stream overwritten k).source = some q) :
    GapTwins.samples rules ((line.at rules (frames stream) k).last rules (frames stream'))
      (frames stream' p) = share (counter stream' q) (counter stream' p) := by
  rw [source_beside overwritten h] at source
  rw [GapFill.Line.last, source]
  exact samples_share (counter stream' q) (frames stream' p)

theorem samples_beside_first (stream' : Nat → Frame) (h : Follows stream s line) {k p : Nat}
    (source : (s.at stream overwritten k).source = none) :
    GapTwins.samples rules ((line.at rules (frames stream) k).last rules (frames stream'))
      (frames stream' p) = 1 := by
  rw [source_beside overwritten h] at source
  rw [GapFill.Line.last, source]
  exact samples_first (frames stream' p)

theorem uniform_share {c : UInt32} (h : Follows stream s line) (h' : Follows (shifted c stream) s line) :
    Uniform c stream overwritten s ↔ ∀ k p q, Examines stream overwritten s k p →
      (s.at stream overwritten k).source = some q →
      ahead (counter stream q) (counter stream p) = 1 ∨
        (Close (counter stream q) (counter stream p) ↔
          Close (counter stream q + c) (counter stream p + c)) := by
  rw [uniform_beside h h', GapTwins.together_iff ⟨rfl, rfl, rfl⟩]
  constructor
  · intro same k p q examined source
    obtain ⟨from_here, taken⟩ := (examines_beside h k p).mp examined
    have level := same k p from_here taken
    rw [samples_beside stream h source, samples_beside (shifted c stream) h source,
      counter_shifted, counter_shifted] at level
    exact (share_shifted _ _ c).mp level
  · intro close k p from_here taken
    cases source : (s.at stream overwritten k).source with
    | none => rw [samples_beside_first stream h source, samples_beside_first (shifted c stream) h source]
    | some q =>
      rw [samples_beside stream h source, samples_beside (shifted c stream) h source,
        counter_shifted, counter_shifted]
      exact (share_shifted _ _ c).mpr
        (close k p q ((examines_beside h k p).mpr ⟨from_here, taken⟩) source)

theorem emitsFor_share (h : Follows stream s line) (ordered : line.Ordered) {k p q : Nat}
    (examined : Examines stream overwritten s k p) (source : (s.at stream overwritten k).source = some q)
    (j : Nat) : EmitsFor stream overwritten s j p ↔
      k ≤ j ∧ j < k + share (counter stream q) (counter stream p) := by
  obtain ⟨from_here, taken⟩ := (examines_beside h k p).mp examined
  rw [emitsFor_beside h, GapTwins.emits_iff ordered from_here taken, samples_beside stream h source]

theorem regular_close (h : Follows stream s line) (ordered : line.Ordered) :
    Regular stream overwritten s ↔ ∀ k p q, Examines stream overwritten s k p →
      (s.at stream overwritten k).source = some q →
      ahead (counter stream q) (counter stream p) = 0 ∨
        2 ≤ ahead (counter stream q) (counter stream p) ∧ ahead (counter stream q) (counter stream p) ≤ 100 →
      Close (counter stream q) (counter stream p) := by
  constructor
  · rintro regular k p q examined source (same | ⟨wide, narrow⟩)
    · have silent := regular.repeated k p q examined source same k
      rw [emitsFor_share h ordered examined source] at silent
      exact (share_repeated same).mp (by omega)
    · have second := regular.filled k p q examined source wide narrow (k + 1)
      rw [emitsFor_share h ordered examined source, share_gap wide narrow] at second
      by_contra far
      rw [if_neg far] at second
      omega
  · intro close
    constructor
    · intro k p q examined source same j
      rw [emitsFor_share h ordered examined source,
        (share_repeated same).mpr (close k p q examined source (Or.inl same))]
      omega
    · intro k p q examined source wide narrow j
      rw [emitsFor_share h ordered examined source, share_gap wide narrow,
        if_pos (close k p q examined source (Or.inr ⟨wide, narrow⟩))]

/-- A stream and the one with its counters moved on are handled alike exactly if closeness
    of every frame looked at to the one accepted before it is not lost or gained by the
    move, unless they are one apart; and repeated frames and small gaps are handled as such
    exactly if they are close. -/
theorem uniform_iff (memory : Adapter) (persistent : Bool) (motion : MotionData)
    (stream : Nat → Frame) (overwritten : Nat → MotionData) (c : UInt32) :
    (Uniform c stream overwritten (fresh memory persistent motion) ↔
      ∀ k p q, Examines stream overwritten (fresh memory persistent motion) k p →
        ((fresh memory persistent motion).at stream overwritten k).source = some q →
        ahead (counter stream q) (counter stream p) = 1 ∨
          (Close (counter stream q) (counter stream p) ↔
            Close (counter stream q + c) (counter stream p + c))) ∧
    (Regular stream overwritten (fresh memory persistent motion) ↔
      ∀ k p q, Examines stream overwritten (fresh memory persistent motion) k p →
        ((fresh memory persistent motion).at stream overwritten k).source = some q →
        ahead (counter stream q) (counter stream p) = 0 ∨
          2 ≤ ahead (counter stream q) (counter stream p) ∧
            ahead (counter stream q) (counter stream p) ≤ 100 →
        Close (counter stream q) (counter stream p)) := by
  have follows : ∀ stream, Follows stream (fresh memory persistent motion)
      (startLine (construct memory persistent).smoothing) :=
    fun stream => enter_follows (construct memory persistent) motion rfl
  have ordered : (startLine (construct memory persistent).smoothing).Ordered :=
    fun p none_yet => by cases none_yet
  exact ⟨uniform_share (follows stream) (follows (shifted c stream)), regular_close (follows stream) ordered⟩

def repeatedOnce (i : Nat) : Frame := [0, 0, 0, 0, if i < 3 then 5 else 6]

/-- Moved on by -5 the repeated frame has Increment 0 and is emitted again. -/
theorem repeated_at_zero :
    ¬Uniform 4294967291 repeatedOnce (fun _ => still) (fresh idleAdapter true still) ∧
      ¬Regular (shifted 4294967291 repeatedOnce) (fun _ => still) (fresh idleAdapter true still) := by
  constructor
  · intro uniform
    have exit := uniform.exit 1
    revert exit
    decide
  · intro regular
    exact regular.repeated 1 2 1 (by unfold Examines; decide) (by decide) (by decide) 1 (by decide)

end CounterShift
