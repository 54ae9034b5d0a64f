import GyroDsu.Lib.Runs
import GyroDsu.Sdgyro.Session

/-
The loop of SetMotionDataNewFrame as the source has it: while(true) around a body with
three exits, and a counter that only the branch of a repeated frame takes down.
-/
namespace RepeatedFrames
open SdHidFrame CemuhookAdapter AdapterSession Runs

structure LoopState where
  adapter : Adapter
  motion : MotionData
  next : Nat
  repeatedLoop : Int

def turn (stream : Nat → Frame) (l : LoopState) : LoopState ⊕ CallResult :=
  if l.adapter.toReplicate = 0 then
    let frame := getSdFrame (stream l.next)
    let a := l.adapter.signalNoGyro frame
    if a.repeated frame then
      if l.repeatedLoop ≤ 0 then .inr ⟨a, l.motion, l.next + 1, .repeated⟩
      else .inl ⟨a, l.motion, l.next + 1, l.repeatedLoop - 1⟩
    else
      let (a, motion) := a.accept frame l.motion
      .inr ⟨a, motion, l.next + 1, .accepted l.next⟩
  else
    let (a, motion) := l.adapter.replicate l.motion
    .inr ⟨a, motion, l.next, .replicated⟩

def loopEntry (a : Adapter) (motion : MotionData) (next : Nat) : LoopState :=
  let (a, next) := enterCall a next
  ⟨a, motion, next, maxRepeatedLoop⟩

variable {stream : Nat → Frame}

def LoopState.frame (stream : Nat → Frame) (l : LoopState) : SdFrame := frames stream l.next

def LoopState.signalled (stream : Nat → Frame) (l : LoopState) : Adapter :=
  l.adapter.signalNoGyro (l.frame stream)

theorem turn_replicates {l : LoopState} (busy : l.adapter.toReplicate ≠ 0) :
    turn stream l =
      .inr ⟨(l.adapter.replicate l.motion).1, (l.adapter.replicate l.motion).2, l.next, .replicated⟩ := by
  simp only [turn, busy, if_false]

theorem turn_accepts {l : LoopState} (idle : l.adapter.toReplicate = 0)
    (fresh : (l.signalled stream).repeated (l.frame stream) = false) :
    turn stream l =
      .inr ⟨((l.signalled stream).accept (l.frame stream) l.motion).1,
        ((l.signalled stream).accept (l.frame stream) l.motion).2, l.next + 1, .accepted l.next⟩ := by
  unfold LoopState.signalled LoopState.frame frames at *
  simp only [turn, idle, if_true, fresh, Bool.false_eq_true, if_false]

theorem turn_gives_up {l : LoopState} (idle : l.adapter.toReplicate = 0)
    (again : (l.signalled stream).repeated (l.frame stream) = true) (spent : l.repeatedLoop ≤ 0) :
    turn stream l = .inr ⟨l.signalled stream, l.motion, l.next + 1, .repeated⟩ := by
  unfold LoopState.signalled LoopState.frame frames at *
  simp only [turn, idle, if_true, again, spent]

theorem turn_passes {l : LoopState} (idle : l.adapter.toReplicate = 0)
    (again : (l.signalled stream).repeated (l.frame stream) = true) (more : ¬l.repeatedLoop ≤ 0) :
    turn stream l = .inl ⟨l.signalled stream, l.motion, l.next + 1, l.repeatedLoop - 1⟩ := by
  unfold LoopState.signalled LoopState.frame frames at *
  simp only [turn, idle, if_true, again, more, if_false]

theorem returns_grabLoop (n : Nat) (a : Adapter) (motion : MotionData) (next : Nat) :
    Returns (turn stream) ⟨a, motion, next, n⟩ (grabLoop stream n a motion next) := by
  by_cases idle : a.toReplicate = 0
  · induction n generalizing a next with
    | zero =>
      rw [grabLoop_turn 0 motion next idle]
      by_cases again : (a.signalNoGyro (frames stream next)).repeated (frames stream next) = true
      · rw [if_pos again]
        exact .leaves (turn_gives_up idle again (by simp))
      · rw [if_neg again]
        exact .leaves (turn_accepts idle (eq_false_of_ne_true again))
    | succ n ih =>
      rw [grabLoop_turn (n + 1) motion next idle]
      by_cases again : (a.signalNoGyro (frames stream next)).repeated (frames stream next) = true
      · rw [if_pos again]
        have more : ¬((n + 1 : Nat) : Int) ≤ 0 := by omega
        have one_less : ((n + 1 : Nat) : Int) - 1 = n := by omega
        have passes := turn_passes (l := ⟨a, motion, next, (n + 1 : Nat)⟩) idle again more
        have rest := ih (a.signalNoGyro (frames stream next)) (next + 1) (by simp [idle])
        rw [← one_less] at rest
        exact .again passes rest
      · rw [if_neg again]
        exact .leaves (turn_accepts idle (eq_false_of_ne_true again))
  · rw [grabLoop_replicates n motion next idle]
    exact .leaves (turn_replicates idle)

theorem returns_call (a : Adapter) (motion : MotionData) (next : Nat) :
    Returns (turn stream) (loopEntry a motion next) (setMotionDataNewFrame stream a motion next) :=
  returns_grabLoop maxRepeatedLoop _ motion _

def firstFrame (a : Adapter) (next : Nat) : Nat := next + a.ignoreFirst.toNat

/-- The fields a repeated frame has nothing to do with. -/
structure Untouched (a b : Adapter) : Prop where
  isPersistent : b.isPersistent = a.isPersistent
  lastInc : b.lastInc = a.lastInc
  lastTimestamp : b.lastTimestamp = a.lastTimestamp
  toReplicate : b.toReplicate = a.toReplicate
  data : b.data = a.data
  smoothing : b.smoothing = a.smoothing

theorem untouched_signalNoGyro (a : Adapter) (frame : SdFrame) : Untouched a (a.signalNoGyro frame) := by
  obtain ⟨_, _, quiet⟩ := signalNoGyro_eq a frame
  rw [quiet]
  exact ⟨rfl, rfl, rfl, rfl, rfl, rfl⟩

theorem untouched_trans {a b c : Adapter} (first : Untouched a b) (second : Untouched b c) :
    Untouched a c :=
  ⟨second.isPersistent.trans first.isPersistent, second.lastInc.trans first.lastInc,
    second.lastTimestamp.trans first.lastTimestamp, second.toReplicate.trans first.toReplicate,
    second.data.trans first.data, second.smoothing.trans first.smoothing⟩

theorem enterCall_untouched (a : Adapter) (next : Nat) :
    Untouched a (enterCall a next).1 ∧ (enterCall a next).2 = firstFrame a next := by
  cases dropped : a.ignoreFirst <;> by_cases cooling : a.noGyroCooldown > 0 <;>
    simp only [enterCall, firstFrame, dropped, cooling, if_true, if_false, Bool.false_eq_true] <;>
    exact ⟨⟨rfl, rfl, rfl, rfl, rfl, rfl⟩, rfl⟩

def Repeats (a : Adapter) (frame : SdFrame) : Prop := -100 < a.diff frame ∧ a.diff frame < 1

theorem diff_untouched {a b : Adapter} (same : Untouched a b) (frame : SdFrame) : b.diff frame = a.diff frame := by
  rw [Adapter.diff, Adapter.diff, same.lastInc]

theorem repeated_iff {a b : Adapter} (same : Untouched a b) (frame : SdFrame) :
    b.repeated frame = true ↔ a.lastInc ≠ 0 ∧ Repeats a frame := by
  rw [Adapter.repeated, decide_eq_true_iff, diff_untouched same, same.lastInc]
  constructor
  · rintro ⟨known, below, above⟩
    exact ⟨known, above, below⟩
  · rintro ⟨known, above, below⟩
    exact ⟨known, below, above⟩

structure Passed (stream : Nat → Frame) (a : Adapter) (motion : MotionData) (start : Nat)
    (l : LoopState) (i : Nat) : Prop where
  counter : l.repeatedLoop = (maxRepeatedLoop : Int) - i
  next : l.next = start + i
  motion : l.motion = motion
  untouched : Untouched a l.adapter
  repeats : ∀ j, j < i → Repeats a (frames stream (start + j))

/-- A call that has taken frame `p`: the frames before it were repeated, it is not, and it became
    the motion data. -/
structure Accepted (stream : Nat → Frame) (a : Adapter) (motion : MotionData) (start p : Nat)
    (r : CallResult) : Prop where
  first : start ≤ p
  next : r.next = p + 1
  passed : ∀ q, start ≤ q → q < p → Repeats a (frames stream q)
  fresh : ¬(a.lastInc ≠ 0 ∧ Repeats a (frames stream p))
  taken : ∃ b, Untouched a b ∧ b.accept (frames stream p) motion = (r.adapter, r.motion)

structure GivenUp (stream : Nat → Frame) (a : Adapter) (motion : MotionData) (start : Nat)
    (r : CallResult) : Prop where
  next : r.next = start + 1001
  known : a.lastInc ≠ 0
  repeats : ∀ j, j < 1001 → Repeats a (frames stream (start + j))
  returned : r.returned = 0
  motion : r.motion = motion
  untouched : Untouched a r.adapter

inductive Outcome (stream : Nat → Frame) (a : Adapter) (motion : MotionData) (start : Nat)
    (r : CallResult) : Prop where
  | accepted (p : Nat) (exit : r.exit = .accepted p) (bounded : p ≤ start + 1000)
      (taken : Accepted stream a motion start p r)
  | repeated (exit : r.exit = .repeated) (given_up : GivenUp stream a motion start r)

theorem passed_kept {a : Adapter} {motion : MotionData} {start : Nat} (idle : a.toReplicate = 0)
    {l l' : LoopState} (h : ∃ i, i ≤ 1000 ∧ Passed stream a motion start l i)
    (pass : turn stream l = .inl l') : ∃ i, i ≤ 1000 ∧ Passed stream a motion start l' i := by
  obtain ⟨i, small, h⟩ := h
  have still_idle : l.adapter.toReplicate = 0 := h.untouched.toReplicate.trans idle
  have counter := h.counter
  unfold maxRepeatedLoop at counter
  cases again : (l.signalled stream).repeated (l.frame stream) with
  | false => cases (turn_accepts still_idle again).symm.trans pass
  | true =>
    by_cases spent : l.repeatedLoop ≤ 0
    · cases (turn_gives_up still_idle again spent).symm.trans pass
    · obtain rfl := Sum.inl.inj ((turn_passes still_idle again spent).symm.trans pass)
      have signalled := untouched_trans h.untouched (untouched_signalNoGyro l.adapter (l.frame stream))
      refine ⟨i + 1, by omega, ⟨?_, ?_, h.motion, signalled, ?_⟩⟩
      · simp only [maxRepeatedLoop]
        omega
      · simp only [h.next]
        omega
      · intro j before
        rcases Nat.lt_succ_iff_lt_or_eq.mp before with earlier | rfl
        · exact h.repeats j earlier
        · have now := ((repeated_iff signalled (l.frame stream)).mp again).2
          rwa [LoopState.frame, h.next] at now

theorem passed_left {a : Adapter} {motion : MotionData} {start : Nat} (idle : a.toReplicate = 0)
    {l : LoopState} {r : CallResult} (h : ∃ i, i ≤ 1000 ∧ Passed stream a motion start l i)
    (pass : turn stream l = .inr r) : Outcome stream a motion start r := by
  obtain ⟨i, small, h⟩ := h
  have still_idle : l.adapter.toReplicate = 0 := h.untouched.toReplicate.trans idle
  have counter := h.counter
  have next := h.next
  unfold maxRepeatedLoop at counter
  have signalled := untouched_trans h.untouched (untouched_signalNoGyro l.adapter (l.frame stream))
  have now := repeated_iff signalled (l.frame stream)
  rw [LoopState.frame, next] at now
  cases again : (l.signalled stream).repeated (l.frame stream) with
  | false =>
    obtain rfl := Sum.inr.inj ((turn_accepts still_idle again).symm.trans pass)
    refine .accepted l.next rfl (by omega) ⟨by omega, rfl, ?_, ?_, l.signalled stream, signalled, ?_⟩
    · intro q from_start before
      have earlier := h.repeats (q - start) (by omega)
      rwa [Nat.add_sub_cancel' from_start] at earlier
    · intro repeats
      rw [next] at repeats
      rw [LoopState.signalled, LoopState.frame, next] at again
      exact absurd (now.mpr repeats) (by simp [again])
    · rw [← h.motion]
      rfl
  | true =>
    by_cases spent : l.repeatedLoop ≤ 0
    · obtain rfl := Sum.inr.inj ((turn_gives_up still_idle again spent).symm.trans pass)
      have last := now.mp (by rwa [LoopState.signalled, LoopState.frame, next] at again)
      refine .repeated rfl ⟨by simp only; omega, last.1, ?_, signalled.toReplicate.trans idle, h.motion, signalled⟩
      intro j before
      by_cases earlier : j < i
      · exact h.repeats j earlier
      · obtain rfl : j = i := by omega
        exact last.2
    · cases (turn_passes still_idle again spent).symm.trans pass

/-- The loop is left after the pass it is entered with when there is something to replicate. -/
theorem busy_outcome {l : LoopState} {r : CallResult} (busy : l.adapter.toReplicate ≠ 0)
    (done : Returns (turn stream) l r) :
    r.exit = .replicated ∧ r.next = l.next ∧ l.adapter.replicate l.motion = (r.adapter, r.motion) := by
  obtain rfl := returns_unique (.leaves (turn_replicates busy)) done
  exact ⟨rfl, rfl, rfl⟩

theorem idle_outcome {a : Adapter} (idle : a.toReplicate = 0) (motion : MotionData) (next : Nat) :
    Outcome stream a motion (firstFrame a next) (setMotionDataNewFrame stream a motion next) := by
  obtain ⟨entered, first⟩ := enterCall_untouched a next
  have start : Passed stream a motion (firstFrame a next) (loopEntry a motion next) 0 :=
    ⟨by simp [loopEntry], first, rfl, entered, fun j none_yet => by omega⟩
  exact returns_invariant _ _ (fun l l' => passed_kept idle) (fun l r => passed_left idle)
    (returns_call a motion next) ⟨0, by omega, start⟩

theorem gives_up_iff {a : Adapter} {motion : MotionData} {start : Nat} {r : CallResult}
    (outcome : Outcome stream a motion start r) :
    r.exit = .repeated ↔ a.lastInc ≠ 0 ∧ ∀ j, j < 1001 → Repeats a (frames stream (start + j)) := by
  cases outcome with
  | accepted p exit bounded taken =>
    constructor
    · intro gave_up
      cases exit.symm.trans gave_up
    · rintro ⟨known, repeats⟩
      have here := repeats (p - start) (by omega)
      rw [Nat.add_sub_cancel' taken.first] at here
      exact absurd ⟨known, here⟩ taken.fresh
  | repeated exit given_up => exact ⟨fun _ => ⟨given_up.known, given_up.repeats⟩, fun _ => exit⟩

/-- A call returns, once and after at most 1001 frames. Where there is nothing to replicate it
    takes the first frame that is not repeated, or it has met 1001 repeated frames and
    changed nothing. -/
theorem repeated_frames_harmless (stream : Nat → Frame) (a : Adapter) (motion : MotionData)
    (next : Nat) :
    ∃ r, r = setMotionDataNewFrame stream a motion next ∧
      Returns (turn stream) (loopEntry a motion next) r ∧
      (∀ r', Returns (turn stream) (loopEntry a motion next) r' → r' = r) ∧
      r.next ≤ firstFrame a next + 1001 ∧
      (a.toReplicate ≠ 0 → r.exit = .replicated ∧ r.next = firstFrame a next ∧
        ∃ b, Untouched a b ∧ b.replicate motion = (r.adapter, r.motion)) ∧
      (a.toReplicate = 0 →
        (r.exit = .repeated ↔ a.lastInc ≠ 0 ∧ ∀ j, j < 1001 → Repeats a (frames stream (firstFrame a next + j))) ∧
        (∀ p, r.exit = .accepted p → Accepted stream a motion (firstFrame a next) p r) ∧
        ((∀ p, r.exit ≠ .accepted p) → r.next = firstFrame a next + 1001 ∧
          (∀ j, j < 1001 → Repeats a (frames stream (firstFrame a next + j))) ∧
          r.returned = 0 ∧ r.motion = motion ∧ Untouched a r.adapter)) := by
  have returns : Returns (turn stream) (loopEntry a motion next) _ := returns_call a motion next
  refine ⟨_, rfl, returns, fun r' other => returns_unique other returns, ?_⟩
  by_cases idle : a.toReplicate = 0
  · have outcome : Outcome stream a motion _ _ := idle_outcome idle motion next
    have gives_up := gives_up_iff outcome
    cases outcome with
    | accepted p exit bounded taken =>
      refine ⟨by rw [taken.next]; omega, fun busy => absurd idle busy, fun _ => ⟨gives_up, ?_, ?_⟩⟩
      · intro p' exit'
        obtain rfl := Exit.accepted.inj (exit.symm.trans exit')
        exact taken
      · intro refused
        exact absurd exit (refused p)
    | repeated exit given_up =>
      refine ⟨given_up.next.le, fun busy => absurd idle busy, fun _ => ⟨gives_up, ?_, ?_⟩⟩
      · intro p exit'
        cases exit.symm.trans exit'
      · intro _
        exact ⟨given_up.next, given_up.repeats, given_up.returned, given_up.motion, given_up.untouched⟩
  · obtain ⟨entered, first⟩ := enterCall_untouched a next
    have busy : (loopEntry a motion next).adapter.toReplicate ≠ 0 := by
      rw [show (loopEntry a motion next).adapter = (enterCall a next).1 from rfl, entered.toReplicate]
      exact idle
    obtain ⟨exit, same, replicated⟩ := busy_outcome busy returns
    have here : (loopEntry a motion next).next = firstFrame a next := first
    rw [here] at same
    exact ⟨by omega, fun _ => ⟨exit, same, _, entered, replicated⟩, fun none_due => absurd none_due idle⟩

def silence : MotionData := ⟨0, 0, 0, 0, 0, 0, 0, 0⟩

def seven : Adapter :=
  ⟨false, true, silence, 7, 0, ⟨0, 0, 0⟩, 0, 0, {}, true⟩

/-- A source that repeats one frame of zeros for ever makes a call give up. -/
theorem repeated_frames_harmless_gives_up :
    ∃ r, r = setMotionDataNewFrame (fun _ => List.replicate 64 0) seven silence 0 ∧ r.exit = .repeated ∧
      r.next = 1001 ∧ r.returned = 0 ∧ r.motion = silence ∧ Untouched seven r.adapter := by
  obtain ⟨r, result, _, _, _, _, idle⟩ := repeated_frames_harmless (fun _ => List.replicate 64 0) seven silence 0
  obtain ⟨gives_up, _, untouched⟩ := idle rfl
  have all : ∀ j, j < 1001 →
      Repeats seven (frames (fun _ => List.replicate 64 0) (firstFrame seven 0 + j)) := by
    intro j _
    show -100 < seven.diff (getSdFrame (List.replicate 64 0)) ∧ seven.diff (getSdFrame (List.replicate 64 0)) < 1
    decide
  have exit := gives_up.mpr ⟨by decide, all⟩
  obtain ⟨next, _, rest⟩ := untouched fun p other => by cases exit.symm.trans other
  exact ⟨r, result, exit, next, rest⟩

end RepeatedFrames
