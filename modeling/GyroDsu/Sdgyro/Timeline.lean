import GyroDsu.Sdgyro.Session
import GyroDsu.Sdgyro.Smoothing

/-
The timeline of a session: which calls emit samples for a frame, and with which
timestamps. Counters are compared as integers, as the adapter does.
-/
namespace Timeline
open SdHidFrame CemuhookAdapter AdapterSession

variable (stream : Nat → Frame) (overwritten : Nat → MotionData)

def increment (p : Nat) : Int := ((frames stream p).increment.toNat : Int)

/-- Call `j` emits a sample for the frame at position `p`: it hands out motion data,
    and that frame is the last one accepted. -/
def EmitsFor (s : Session) (j p : Nat) : Prop :=
  (s.callAt stream overwritten j).exit ≠ .repeated ∧
    (s.at stream overwritten (j + 1)).source = some p

/-- Call `k` takes the frame at position `p` and looks at it; the frame dropped after
    a start is not looked at. -/
def Examines (s : Session) (k p : Nat) : Prop :=
  (s.at stream overwritten k).next + (s.at stream overwritten k).adapter.ignoreFirst.toNat ≤ p ∧
    p < (s.callAt stream overwritten k).next

/-- From call `k` on, `n - last` calls emit the ticks after `last` for frame `p`. -/
structure FilledGap (s : Session) (k p : Nat) (last n : Int) : Prop where
  samples : ∀ i : Nat, (i : Int) < n - last →
    EmitsFor stream overwritten s (k + i) p ∧
    (timestamp (s.callAt stream overwritten (k + i)).motion : Int) = 4000 * (last + 1 + i) ∧
    values (s.callAt stream overwritten (k + i)).motion =
      (observe (s.at stream overwritten k).adapter.smoothing (frames stream p)).2 ∧
    (s.callAt stream overwritten (k + i)).adapter.smoothing =
      (observe (s.at stream overwritten k).adapter.smoothing (frames stream p)).1 ∧
    (s.callAt stream overwritten (k + i)).returned = n - last - 1 - i
  onlyFirstConsumes : ∀ i : Nat, 0 < i → (i : Int) < n - last →
    (s.callAt stream overwritten (k + i)).next = (s.at stream overwritten (k + i)).next
  noOthers : ∀ j, EmitsFor stream overwritten s j p → k ≤ j ∧ (j : Int) < k + (n - last)

structure SingleSample (s : Session) (k p : Nat) (n : Int) : Prop where
  stamp : (timestamp (s.callAt stream overwritten k).motion : Int) = 4000 * n
  onlyHere : ∀ j, EmitsFor stream overwritten s j p ↔ j = k

theorem observe_formula {last : CemuhookAdapter.Smoothing} {a b c : ℚ}
    (rtl : Ieee.value last.lastAccelRtL = some a) (ftb : Ieee.value last.lastAccelFtB = some b)
    (ttb : Ieee.value last.lastAccelTtB = some c) (small : |a| ≤ 2 ^ 15) (small' : |b| ≤ 2 ^ 15)
    (small'' : |c| ≤ 2 ^ 15) (frame : SdFrame) :
    Ieee.value (observe last frame).2.accX = some (-Ieee.single.nearest
      (Smoothing.following last.lastAccelRtL a frame.accelAxisRightToLeft / 2 ^ 14)) ∧
    Ieee.value (observe last frame).2.accY = some (-Ieee.single.nearest
      (Smoothing.following last.lastAccelFtB b frame.accelAxisFrontToBack / 2 ^ 14)) ∧
    Ieee.value (observe last frame).2.accZ = some (Ieee.single.nearest
      (Smoothing.following last.lastAccelTtB c frame.accelAxisTopToBottom / 2 ^ 14)) := by
  have x := Ieee.value_neg (Smoothing.smoothAccel_formula rtl small frame.accelAxisRightToLeft).2
  have y := Ieee.value_neg (Smoothing.smoothAccel_formula ftb small' frame.accelAxisFrontToBack).2
  have z := (Smoothing.smoothAccel_formula ttb small'' frame.accelAxisTopToBottom).2
  cases suppressed : gyroSuppressed frame.header <;>
    simp only [observe, setMotionData, suppressed, if_true, Bool.false_eq_true, if_false, values] <;>
    exact ⟨x, y, z⟩

variable {stream} {s : Session} {line : Line}

theorem source_beside (h : Follows stream s line) (k : Nat) :
    (s.at stream overwritten k).source = (line.at rules (frames stream) k).source :=
  (run_follows overwritten h k).source.symm

theorem next_beside (h : Follows stream s line) (k : Nat) :
    (s.at stream overwritten k).next + (s.at stream overwritten k).adapter.ignoreFirst.toNat =
      (line.at rules (frames stream) k).next :=
  (run_follows overwritten h k).next.symm

theorem after_beside (h : Follows stream s line) (k : Nat) :
    (s.at stream overwritten (k + 1)).adapter.ignoreFirst = false ∧
      (s.callAt stream overwritten k).next = (line.at rules (frames stream) (k + 1)).next ∧
      (s.callAt stream overwritten k).returned =
        (line.at rules (frames stream) (k + 1)).pending.length ∧
      (s.callAt stream overwritten k).adapter.smoothing =
        (line.at rules (frames stream) (k + 1)).hidden := by
  have started : (s.callAt stream overwritten k).adapter.ignoreFirst = false := (callAt_follows overwritten h k).1
  have later := run_follows overwritten h (k + 1)
  have next := later.next
  simp only [Session.at, Session.after] at next
  change _ = (s.callAt stream overwritten k).next +
    (s.callAt stream overwritten k).adapter.ignoreFirst.toNat at next
  rw [started] at next
  exact ⟨started, next.symm, later.count, later.hidden.symm⟩

theorem emitted_beside (h : Follows stream s line) (k : Nat) :
    ((s.callAt stream overwritten k).exit ≠ .repeated ↔
      (line.emitted rules (frames stream) k).isSome) ∧
    ∀ t v, line.emitted rules (frames stream) k = some (t, v) →
      timestamp (s.callAt stream overwritten k).motion = 4000 * t ∧
      values (s.callAt stream overwritten k).motion = v := by
  rw [GapFill.Line.emitted]
  rcases callAt_follows overwritten h k with
    ⟨_, ⟨exit, _, _, t, v, out, stamp, value⟩ | ⟨exit, _, out, _⟩ |
      ⟨p, exit, _, _, _, t, v, out, stamp, value⟩⟩
  all_goals rw [exit, out]
  · refine ⟨by simp, fun t' v' same => ?_⟩
    obtain ⟨rfl, rfl⟩ : t = t' ∧ v = v' := by simpa using same
    exact ⟨stamp, value⟩
  · exact ⟨by simp, fun t v no => by simp at no⟩
  · refine ⟨by simp, fun t' v' same => ?_⟩
    obtain ⟨rfl, rfl⟩ : t = t' ∧ v = v' := by simpa using same
    exact ⟨stamp, value⟩

variable {overwritten}

theorem accepted_beside (h : Follows stream s line) {k p : Nat}
    (exit : (s.callAt stream overwritten k).exit = .accepted p) :
    (line.at rules (frames stream) k).pending = [] ∧
      (line.at rules (frames stream) k).call rules (frames stream) =
        (line.at rules (frames stream) k).accept rules (frames stream) p ∧
      (line.at rules (frames stream) k).next ≤ p ∧
      ¬GapFill.repeats rules ((line.at rules (frames stream) k).last rules (frames stream))
        (frames stream p) := by
  rcases callAt_follows overwritten h k with
    ⟨_, ⟨other, _⟩ | ⟨other, _⟩ | ⟨q, other, empty, result, _⟩⟩
  · rw [exit] at other; cases other
  · rw [exit] at other; cases other
  · obtain rfl : p = q := by rw [exit] at other; exact Exit.accepted.inj other
    refine ⟨empty, result, ?_⟩
    rcases GapFill.call_cases rules (frames stream) (line.at rules (frames stream) k) with
      ⟨_, _, some_pending, _⟩ | ⟨_, result', _⟩ | ⟨i, _, _, stops, _, result'⟩
    · rw [empty] at some_pending; cases some_pending
    · rw [result] at result'
      simp [GapFill.Line.accept] at result'
    · rw [result] at result'
      obtain rfl : p = (line.at rules (frames stream) k).next + i := by
        have := congrArg (fun out => out.2.source) result'
        exact Option.some.inj this
      exact ⟨Nat.le_add_right _ _, stops⟩

theorem emitsFor_beside (h : Follows stream s line) (j p : Nat) :
    EmitsFor stream overwritten s j p ↔
      (line.emitted rules (frames stream) j).isSome ∧
        (line.at rules (frames stream) (j + 1)).source = some p := by
  rw [EmitsFor, (emitted_beside overwritten h j).1, source_beside overwritten h]

/-- The counter the line remembers is that of the frame accepted last. -/
theorem last_beside (counted : ∀ i, (frames stream i).increment ≠ 0) {line : Line} {q : Nat}
    (source : line.source = some q) :
    line.last rules (frames stream) = some (frames stream q).increment.toNat := by
  simp only [GapFill.Line.last, source, Option.bind_some, rules, counted q, if_false]

theorem emits_from (h : Follows stream s line) (ordered : line.Ordered) {j k p : Nat}
    (ahead : (line.at rules (frames stream) k).next ≤ p) (emits : EmitsFor stream overwritten s j p) :
    k ≤ j := by
  obtain ⟨_, from_p⟩ := (emitsFor_beside h _ _).mp emits
  by_contra before
  have taken := GapFill.ordered_at rules (frames stream) line ordered (j + 1) p from_p
  have onward := GapFill.next_monotone rules (frames stream) line ordered (show j + 1 ≤ k by omega)
  omega

theorem emits_until (h : Follows stream s line) (ordered : line.Ordered) {j m p : Nat}
    (source : (line.at rules (frames stream) m).source = some p)
    (empty : (line.at rules (frames stream) m).pending = []) (emits : EmitsFor stream overwritten s j p) :
    j < m := by
  obtain ⟨some_sample, from_p⟩ := (emitsFor_beside h _ _).mp emits
  by_contra beyond
  obtain ⟨i, rfl⟩ := Nat.exists_eq_add_of_le (not_lt.mp beyond)
  have spent := GapFill.no_more_samples rules (frames stream) _
    (GapFill.ordered_at rules (frames stream) line ordered _) source empty i
  rw [GapFill.emitted_shift, GapFill.at_shift] at spent
  exact spent some_sample from_p

theorem filled_gap (h : Follows stream s line) (ordered : line.Ordered)
    (counted : ∀ i, (frames stream i).increment ≠ 0) {k p q : Nat}
    (exit : (s.callAt stream overwritten k).exit = .accepted p)
    (source : (s.at stream overwritten k).source = some q)
    (gap : 1 ≤ increment stream p - increment stream q ∧
      increment stream p - increment stream q ≤ 100) :
    FilledGap stream overwritten s k p (increment stream q) (increment stream p) := by
  unfold increment at gap ⊢
  have hidden := (run_follows overwritten h k).hidden
  obtain ⟨_, accepts, ahead, _⟩ := accepted_beside h exit
  rw [source_beside overwritten h] at source
  have last := last_beside counted source
  have fill : GapFill.fills rules (some (frames stream q).increment.toNat) (frames stream p) := by
    constructor
    · simp only [rules_tick]; omega
    · simp only [rules_tick, rules_gap]; omega
  have run := GapFill.filled_run rules (frames stream) (line.at rules (frames stream) k) accepts last fill
  simp only [GapFill.emitted_shift, GapFill.at_shift, rules_tick, rules_observe, hidden] at run
  constructor
  · intro i bound
    obtain ⟨out, from_p, smoothing, left, _⟩ := run i (by omega)
    obtain ⟨_, _, returned, smoothed⟩ := after_beside overwritten h (k + i)
    obtain ⟨stamp, value⟩ := (emitted_beside overwritten h (k + i)).2 _ _ out
    refine ⟨(emitsFor_beside h _ _).mpr ⟨by rw [out]; rfl, from_p⟩, ?_, value, smoothed.trans smoothing, ?_⟩
    · rw [stamp]
      push_cast
      ring
    · have left' : (line.at rules (frames stream) (k + i + 1)).pending.length =
          (frames stream p).increment.toNat - (frames stream q).increment.toNat - 1 - i := left
      rw [returned, left']
      omega
  · intro i positive bound
    obtain ⟨_, _, _, _, next⟩ := run (i - 1) (by omega)
    obtain ⟨_, _, _, _, next'⟩ := run i (by omega)
    rw [show k + (i - 1 + 1) = k + i by omega] at next
    obtain ⟨started, _⟩ := after_beside overwritten h (k + i - 1)
    have found := next_beside overwritten h (k + i)
    rw [show k + i - 1 + 1 = k + i by omega] at started
    rw [started, next] at found
    have left := (after_beside overwritten h (k + i)).2.1
    rw [left]
    simp only [Bool.toNat_false, Nat.add_zero] at found
    exact next'.trans found.symm
  · intro j emits
    obtain ⟨_, from_p, _, left, _⟩ := run
      ((frames stream p).increment.toNat - (frames stream q).increment.toNat - 1) (by omega)
    rw [Nat.sub_self] at left
    have earliest := emits_from h ordered ahead emits
    have latest := emits_until h ordered from_p (List.eq_nil_of_length_eq_zero left) emits
    exact ⟨earliest, by omega⟩

theorem single_sample (h : Follows stream s line) (ordered : line.Ordered)
    (counted : ∀ i, (frames stream i).increment ≠ 0) {k p q : Nat}
    (exit : (s.callAt stream overwritten k).exit = .accepted p)
    (source : (s.at stream overwritten k).source = some q)
    (jump : increment stream p - increment stream q > 100 ∨
      increment stream p - increment stream q ≤ -100) :
    SingleSample stream overwritten s k p (increment stream p) := by
  unfold increment at jump ⊢
  obtain ⟨_, accepts, ahead, _⟩ := accepted_beside h exit
  rw [source_beside overwritten h] at source
  have last := last_beside counted source
  have no_fill : ¬GapFill.fills rules ((line.at rules (frames stream) k).last rules (frames stream))
      (frames stream p) := by
    rw [last]
    intro fill
    have above := fill.1
    have within_gap := fill.2
    simp only [rules_tick, rules_gap] at above within_gap
    omega
  obtain ⟨first, later⟩ := GapFill.single_tick rules no_fill
  have after : line.at rules (frames stream) (k + 1) =
      ((line.at rules (frames stream) k).accept rules (frames stream) p).2 := by
    simp only [GapFill.Line.at, accepts]
  have from_p : (line.at rules (frames stream) (k + 1)).source = some p := by
    simp only [after, GapFill.Line.accept]
  have empty : (line.at rules (frames stream) (k + 1)).pending = [] := by
    simp only [after, GapFill.Line.accept, later, List.map_nil]
  have out : line.emitted rules (frames stream) k = some ((frames stream p).increment.toNat,
      (observe (line.at rules (frames stream) k).hidden (frames stream p)).2) := by
    unfold GapFill.Line.emitted
    simp only [accepts, GapFill.Line.accept, first, rules_tick, rules_observe]
  constructor
  · rw [((emitted_beside overwritten h k).2 _ _ out).1]
    push_cast
    ring
  · intro j
    constructor
    · intro emits
      have earliest := emits_from h ordered ahead emits
      have latest := emits_until h ordered from_p empty emits
      omega
    · rintro rfl
      exact (emitsFor_beside h _ _).mpr ⟨by rw [out]; rfl, from_p⟩

theorem rejected_silent (h : Follows stream s line) (ordered : line.Ordered) {k p : Nat}
    (examined : Examines stream overwritten s k p)
    (rejected : (s.callAt stream overwritten k).exit ≠ .accepted p) (j : Nat) :
    ¬EmitsFor stream overwritten s j p := by
  intro emits
  obtain ⟨_, source_p⟩ := (emitsFor_beside h _ _).mp emits
  obtain ⟨from_here, taken⟩ := examined
  rw [next_beside overwritten h] at from_here
  rw [(after_beside overwritten h k).2.1] at taken
  apply GapFill.passed_over rules (frames stream) line ordered from_here taken _ j source_p
  intro moved
  -- Only a call that accepts the frame makes it the source, and none took it before.
  rw [← source_beside overwritten h] at moved
  have kept : (s.at stream overwritten (k + 1)).source = (s.at stream overwritten k).source ∨
      ∃ r, (s.callAt stream overwritten k).exit = .accepted r ∧
        (s.at stream overwritten (k + 1)).source = some r := by
    simp only [Session.at, Session.after]
    cases exit : (s.callAt stream overwritten k).exit with
    | accepted r => exact Or.inr ⟨r, rfl, by rw [Session.callAt] at exit; rw [exit]⟩
    | repeated => exact Or.inl (by rw [Session.callAt] at exit; rw [exit])
    | replicated => exact Or.inl (by rw [Session.callAt] at exit; rw [exit])
  rcases kept with same | ⟨r, exit, moved'⟩
  · rw [moved, source_beside overwritten h] at same
    have := GapFill.ordered_at rules (frames stream) line ordered k p same.symm
    omega
  · obtain rfl : r = p := Option.some.inj (moved'.symm.trans moved)
    exact rejected exit

theorem stamps_monotone (h : Follows stream s line) (start : line.pending = [])
    (counted : ∀ i, (frames stream i).increment ≠ 0) {j k : Nat} (earlier : j < k)
    (first : (s.callAt stream overwritten j).exit ≠ .repeated)
    (second : (s.callAt stream overwritten k).exit ≠ .repeated) :
    timestamp (s.callAt stream overwritten j).motion ≤ timestamp (s.callAt stream overwritten k).motion ∨
      ∃ i p q, j < i ∧ i ≤ k ∧ (s.callAt stream overwritten i).exit = .accepted p ∧
        (s.at stream overwritten i).source = some q ∧
        increment stream p + 100 ≤ increment stream q := by
  obtain ⟨⟨t, v⟩, out⟩ := Option.isSome_iff_exists.mp ((emitted_beside overwritten h j).1.mp first)
  obtain ⟨⟨u, w⟩, out'⟩ := Option.isSome_iff_exists.mp ((emitted_beside overwritten h k).1.mp second)
  rw [((emitted_beside overwritten h j).2 _ _ out).1, ((emitted_beside overwritten h k).2 _ _ out').1]
  have marked : ∀ i, rules.mark (frames stream i) = some (rules.tick (frames stream i)) := by
    intro i
    simp only [rules, counted i, if_false]
  rcases GapFill.emitted_monotone rules (frames stream) marked line start earlier out out' with
    grows | ⟨i, after, before, p, l, source, last, falls⟩
  · exact Or.inl (by omega)
  · refine Or.inr ?_
    obtain ⟨q, source_q, mark_q⟩ := Option.bind_eq_some_iff.mp last
    have counter : (frames stream q).increment.toNat = l := by
      rw [marked] at mark_q
      exact Option.some.inj mark_q
    have back : (frames stream p).increment.toNat + 100 ≤ l := falls
    -- The counter cannot fall below itself, so the call has moved the source.
    have moved : ((line.at rules (frames stream) i).call rules (frames stream)).2.source ≠
        (s.at stream overwritten i).source := by
      intro same
      rw [source, source_beside overwritten h, source_q] at same
      obtain rfl : p = q := Option.some.inj same
      omega
    rcases callAt_follows overwritten h i with
      ⟨_, ⟨_, _, follows, _⟩ | ⟨_, _, _, _, follows⟩ | ⟨r, exit, _, result, _⟩⟩
    · exact absurd follows.source moved
    · exact absurd follows.source moved
    · rw [result] at source
      obtain rfl : r = p := Option.some.inj source
      refine ⟨i, r, q, after, before, exit, ?_, ?_⟩
      · rw [source_beside overwritten h]
        exact source_q
      · unfold increment
        omega

/-- A session fills every small gap, gives every other accepted frame one sample, never
    samples a repeated frame, and its timestamps fall only where the counter falls. -/
theorem gap_filling_unbroken (a : Adapter) (motion : MotionData) (stream : Nat → Frame)
    (overwritten : Nat → MotionData) (idle : a.toReplicate = 0)
    (counted : ∀ i, (frames stream i).increment ≠ 0) :
    (∀ k p q, ((enter a motion).callAt stream overwritten k).exit = .accepted p →
      ((enter a motion).at stream overwritten k).source = some q →
      (1 ≤ increment stream p - increment stream q ∧
          increment stream p - increment stream q ≤ 100 →
        FilledGap stream overwritten (enter a motion) k p (increment stream q) (increment stream p)) ∧
      (increment stream p - increment stream q > 100 ∨
          increment stream p - increment stream q ≤ -100 →
        SingleSample stream overwritten (enter a motion) k p (increment stream p))) ∧
    (∀ k p q, Examines stream overwritten (enter a motion) k p →
      ((enter a motion).at stream overwritten k).source = some q →
      -100 < increment stream p - increment stream q →
      increment stream p - increment stream q < 1 →
      ∀ j, ¬EmitsFor stream overwritten (enter a motion) j p) ∧
    ∀ j k, j < k →
      ((enter a motion).callAt stream overwritten j).exit ≠ .repeated →
      ((enter a motion).callAt stream overwritten k).exit ≠ .repeated →
      timestamp ((enter a motion).callAt stream overwritten j).motion ≤
          timestamp ((enter a motion).callAt stream overwritten k).motion ∨
        ∃ i p q, j < i ∧ i ≤ k ∧
          ((enter a motion).callAt stream overwritten i).exit = .accepted p ∧
          ((enter a motion).at stream overwritten i).source = some q ∧
          increment stream p ≤ increment stream q - 100 := by
  have follows : Follows stream (enter a motion) (startLine a.smoothing) := enter_follows a motion idle
  have ordered : (startLine a.smoothing).Ordered := fun p none_yet => by cases none_yet
  constructor
  · intro k p q exit source
    constructor
    · intro gap
      exact filled_gap follows ordered counted exit source gap
    · intro jump
      exact single_sample follows ordered counted exit source jump
  constructor
  · intro k p q examined source above below
    apply rejected_silent follows ordered examined
    intro exit
    obtain ⟨_, _, _, stops⟩ := accepted_beside follows exit
    rw [source_beside overwritten follows] at source
    rw [last_beside counted source] at stops
    apply stops
    unfold increment at above below
    constructor
    · simp only [rules_tick]
      omega
    · simp only [rules_tick, rules_back]
      omega
  · intro j k earlier first second
    rcases stamps_monotone follows rfl counted earlier first second with
      grows | ⟨i, p, q, after, before, exit, source, falls⟩
    · exact Or.inl grows
    · exact Or.inr ⟨i, p, q, after, before, exit, source, by omega⟩

def still : MotionData := ⟨0, 0, 0, 0, 0, 0, 0, 0⟩

def idleAdapter : Adapter :=
  construct ⟨false, false, still, 0, 0, ⟨0, 0, 0⟩, 0, 0, {}, false⟩ true

def shortGap (i : Nat) : Frame := [0, 0, 0, 0, if i < 2 then 10 else 13]

theorem gap_filling_unbroken_short :
    FilledGap shortGap (fun _ => still) (enter idleAdapter still) 1 2 10 13 := by
  have counted : ∀ i, (frames shortGap i).increment ≠ 0 := by
    intro i
    by_cases first : i < 2
    · simp only [frames, shortGap, first, if_true]; decide
    · simp only [frames, shortGap, first, if_false]; decide
  exact ((gap_filling_unbroken idleAdapter still shortGap (fun _ => still) rfl counted).1 1 2 1
    (by decide) (by decide)).1 (by decide)

end Timeline
