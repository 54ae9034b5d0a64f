import GyroDsu.Lib.GapFill
import GyroDsu.Sdgyro.CemuhookAdapter
import Mathlib.Tactic.NormNum

/-
A session of the adapter is what happens between StartFrameGrab and StopFrameGrab:
calls of setMotionDataNewFrame on one stream of frames. Every session follows the
gap filling line of its stream.
-/
namespace AdapterSession
open SdHidFrame CemuhookAdapter

/-- What stands between two calls. `source` is the position of the frame that last
    caused setMotionData in this session. -/
structure Session where
  adapter : Adapter
  motion : MotionData
  next : Nat
  source : Option Nat

def enter (a : Adapter) (motion : MotionData) : Session := ⟨a.startFrameGrab, motion, 0, none⟩

/-- A caller of a persistent adapter does not modify the motion structure between
    calls; any other caller may leave anything in it. -/
def Session.after (s : Session) (r : CallResult) (overwritten : MotionData) : Session where
  adapter := r.adapter
  motion := if r.adapter.isPersistent then r.motion else overwritten
  next := r.next
  source := match r.exit with
    | .accepted p => some p
    | _ => s.source

variable (stream : Nat → Frame) (overwritten : Nat → MotionData)

def Session.call (s : Session) : CallResult :=
  setMotionDataNewFrame stream s.adapter s.motion s.next

def Session.at (s : Session) : Nat → Session
  | 0 => s
  | k + 1 => (s.at k).after ((s.at k).call stream) (overwritten k)

def Session.callAt (s : Session) (k : Nat) : CallResult := (s.at stream overwritten k).call stream

def timestamp (m : MotionData) : Nat := m.timestampH.toNat * 2 ^ 32 + m.timestampL.toNat

structure Values where
  accX : Single
  accY : Single
  accZ : Single
  pitch : Single
  yaw : Single
  roll : Single
  deriving DecidableEq

def values (m : MotionData) : Values := ⟨m.accX, m.accY, m.accZ, m.pitch, m.yaw, m.roll⟩

def observe (last : Smoothing) (frame : SdFrame) : Smoothing × Values :=
  let (motion, smoothing) := setMotionData frame ⟨0, 0, 0, 0, 0, 0, 0, 0⟩ last
  (smoothing, values motion)

theorem toTimestamp_toNat (increment : UInt32) :
    (toTimestamp increment).toNat = 4000 * increment.toNat := by
  have small := increment.toNat_lt
  rw [toTimestamp, UInt64.toNat_mul, UInt32.toNat_toUInt64]
  simp only [scanTimeUs, UInt64.toNat_ofNat']
  omega

theorem timestamp_setTimestamp (m : MotionData) (t : UInt64) :
    timestamp (m.setTimestamp t) = t.toNat := by
  have low : (t &&& 0xFFFFFFFF).toUInt32.toNat = t.toNat % 2 ^ 32 := by
    rw [UInt64.toNat_toUInt32, UInt64.toNat_and]
    simp [Nat.and_two_pow_sub_one_eq_mod _ 32]
  have high : (t >>> 32).toUInt32.toNat = t.toNat / 2 ^ 32 := by
    have := t.toNat_lt
    rw [UInt64.toNat_toUInt32, UInt64.toNat_shiftRight]
    simp [Nat.shiftRight_eq_div_pow]
    omega
  simp only [timestamp, MotionData.setTimestamp, low, high]
  omega

@[simp] theorem values_setTimestamp (m : MotionData) (t : UInt64) :
    values (m.setTimestamp t) = values m := rfl

theorem setMotionData_spec (frame : SdFrame) (m : MotionData) (last : Smoothing) :
    timestamp (setMotionData frame m last).1 = 4000 * frame.increment.toNat ∧
      values (setMotionData frame m last).1 = (observe last frame).2 ∧
      (setMotionData frame m last).2 = (observe last frame).1 := by
  have stamp := timestamp_setTimestamp m (toTimestamp frame.increment)
  rw [toTimestamp_toNat] at stamp
  rw [← stamp]
  cases suppressed : gyroSuppressed frame.header <;>
    simp only [setMotionData, observe, suppressed, values, timestamp, MotionData.setTimestamp,
      if_true, Bool.false_eq_true, if_false, and_self]

/-- The gap filling the adapter performs. A frame with Increment 0 is not remembered:
    lastInc = 0 stands for no previous frame. -/
def rules : GapFill.Rules SdFrame Smoothing Values where
  tick frame := frame.increment.toNat
  mark frame := if frame.increment = 0 then none else some frame.increment.toNat
  gap := 100
  back := 100
  tries := maxRepeatedLoop
  observe := observe

@[simp] theorem rules_tick (frame : SdFrame) : rules.tick frame = frame.increment.toNat := rfl
@[simp] theorem rules_gap : rules.gap = 100 := rfl
@[simp] theorem rules_back : rules.back = 100 := rfl
@[simp] theorem rules_observe (last : Smoothing) (frame : SdFrame) :
    rules.observe last frame = observe last frame := rfl

abbrev Line := GapFill.Line Smoothing Values

def frames : Nat → SdFrame := fun i => getSdFrame (stream i)

def Session.held (s : Session) : MotionData :=
  if s.adapter.isPersistent then s.motion else s.adapter.data

structure Follows (s : Session) (line : Line) : Prop where
  next : line.next = s.next + s.adapter.ignoreFirst.toNat
  source : line.source = s.source
  counter : s.adapter.lastInc = s.source.elim 0 fun p => (frames stream p).increment
  hidden : line.hidden = s.adapter.smoothing
  count : s.adapter.toReplicate = line.pending.length
  pending : ∃ tick, tick + line.pending.length < 2 ^ 32 ∧
    (line.pending ≠ [] → s.adapter.lastTimestamp.toNat = 4000 * tick) ∧
    line.pending = (List.range' (tick + 1) line.pending.length).map (·, values s.held)

variable {stream}

theorem follows_last {s : Session} {line : Line} (h : Follows stream s line) :
    line.last rules (frames stream) =
      if s.adapter.lastInc = 0 then none else some s.adapter.lastInc.toNat := by
  rw [GapFill.Line.last, h.source, h.counter]
  cases s.source with
  | none => rfl
  | some p => rfl

theorem follows_repeated {s : Session} {line : Line} (h : Follows stream s line) (frame : SdFrame) :
    s.adapter.repeated frame = true ↔
      GapFill.repeats rules (line.last rules (frames stream)) frame := by
  rw [follows_last h]
  by_cases zero : s.adapter.lastInc = 0
  · simp [Adapter.repeated, GapFill.repeats, zero]
  · simp only [Adapter.repeated, Adapter.diff, GapFill.repeats, rules_tick, rules_back, zero, ne_eq,
      not_false_eq_true, true_and, decide_eq_true_eq, if_false]
    omega

theorem follows_fills {s : Session} {line : Line} (h : Follows stream s line) (frame : SdFrame) :
    GapFill.fills rules (line.last rules (frames stream)) frame ↔
      s.adapter.lastInc ≠ 0 ∧ s.adapter.diff frame ≥ 1 ∧ s.adapter.diff frame ≤ maxDiffReplicate := by
  rw [follows_last h]
  by_cases zero : s.adapter.lastInc = 0
  · simp [GapFill.fills, zero]
  · simp only [Adapter.diff, GapFill.fills, rules_tick, rules_gap, maxDiffReplicate, zero, ne_eq,
      not_false_eq_true, true_and, if_false]
    omega

theorem signalNoGyro_eq (a : Adapter) (frame : SdFrame) :
    ∃ cooldown signal, a.signalNoGyro frame =
      { a with noGyroCooldown := cooldown, noGyro := signal } := by
  unfold Adapter.signalNoGyro
  split
  · exact ⟨_, _, rfl⟩
  · exact ⟨_, _, rfl⟩

@[simp] theorem signalNoGyro_toReplicate (a : Adapter) (frame : SdFrame) :
    (a.signalNoGyro frame).toReplicate = a.toReplicate := by
  obtain ⟨_, _, quiet⟩ := signalNoGyro_eq a frame
  rw [quiet]

@[simp] theorem signalNoGyro_ignoreFirst (a : Adapter) (frame : SdFrame) :
    (a.signalNoGyro frame).ignoreFirst = a.ignoreFirst := by
  obtain ⟨_, _, quiet⟩ := signalNoGyro_eq a frame
  rw [quiet]

theorem accept_gap (a : Adapter) (frame : SdFrame) (m : MotionData)
    (gap : a.lastInc ≠ 0 ∧ a.diff frame > 1 ∧ a.diff frame ≤ maxDiffReplicate) :
    a.accept frame m =
      ({ a with
         toReplicate := a.diff frame - 1
         smoothing := (setMotionData frame m a.smoothing).2
         lastTimestamp := toTimestamp (a.lastInc + 1)
         data := if a.isPersistent then a.data
           else (setMotionData frame m a.smoothing).1.setTimestamp (toTimestamp (a.lastInc + 1))
         lastInc := frame.increment },
       (setMotionData frame m a.smoothing).1.setTimestamp (toTimestamp (a.lastInc + 1))) := by
  have positive : a.diff frame - 1 > 0 := by omega
  simp only [Adapter.accept, gap, ne_eq, not_false_eq_true, and_self, if_true, positive]

theorem accept_single (a : Adapter) (frame : SdFrame) (m : MotionData) (idle : a.toReplicate = 0)
    (single : ¬(a.lastInc ≠ 0 ∧ a.diff frame > 1 ∧ a.diff frame ≤ maxDiffReplicate)) :
    a.accept frame m =
      ({ a with
         smoothing := (setMotionData frame m a.smoothing).2
         lastInc := frame.increment },
       (setMotionData frame m a.smoothing).1) := by
  simp only [Adapter.accept, single, if_false, idle, gt_iff_lt, lt_self_iff_false]

/-- The motion data of an accepted frame, and what the session holds after it, are the
    first sample of the line and its pending ones. -/
def Accepted (stream : Nat → Frame) (a : Adapter) (m : MotionData) (next : Nat) (line : Line) : Prop :=
  let r := a.accept (frames stream next) m
  let out := line.accept rules (frames stream) next
  Follows stream ⟨r.1, r.2, next + 1, some next⟩ out.2 ∧
    ∃ t v, out.1 = some (t, v) ∧ timestamp r.2 = 4000 * t ∧ values r.2 = v

theorem accepted_gap {a : Adapter} {m : MotionData} {next : Nat} {source : Option Nat}
    {line : Line} (started : a.ignoreFirst = false)
    (h : Follows stream ⟨a, m, next, source⟩ line)
    (gap : a.lastInc ≠ 0 ∧ a.diff (frames stream next) > 1 ∧
      a.diff (frames stream next) ≤ maxDiffReplicate) : Accepted stream a m next line := by
  obtain ⟨_, valued, smooth⟩ := setMotionData_spec (frames stream next) m a.smoothing
  have hidden : line.hidden = a.smoothing := h.hidden
  have last := follows_last h
  have fill := (follows_fills h (frames stream next)).mpr ⟨gap.1, by have := gap.2.1; simp only; omega, gap.2.2⟩
  rw [if_neg gap.1] at last
  rw [last] at fill
  have above : a.lastInc.toNat + 1 < (frames stream next).increment.toNat := by
    have more := gap.2.1
    simp only [Adapter.diff] at more
    omega
  have bound := (frames stream next).increment.toNat_lt
  have succ : (a.lastInc + 1).toNat = a.lastInc.toNat + 1 := by
    rw [UInt32.toNat_add]
    simp only [UInt32.toNat_ofNat]
    omega
  have first : GapFill.firstTick rules (some a.lastInc.toNat) (frames stream next) =
      a.lastInc.toNat + 1 := by
    simp only [GapFill.firstTick, fill, if_true, Option.getD_some]
  have later : GapFill.laterTicks rules (some a.lastInc.toNat) (frames stream next) =
      List.range' (a.lastInc.toNat + 2) ((frames stream next).increment.toNat - a.lastInc.toNat - 1) := by
    simp only [GapFill.laterTicks, fill, if_true, Option.getD_some, rules_tick]
  unfold Accepted
  rw [accept_gap a _ m gap]
  refine ⟨⟨?_, rfl, rfl, ?_, ?_, a.lastInc.toNat + 1, ?_, fun _ => ?_, ?_⟩,
    GapFill.firstTick rules (line.last rules (frames stream)) (frames stream next),
    (rules.observe line.hidden (frames stream next)).2, rfl, ?_, ?_⟩
  · simp [GapFill.Line.accept, started]
  · simp [GapFill.Line.accept, smooth, hidden]
  · simp only [GapFill.Line.accept, last, later, List.length_map, List.length_range', Adapter.diff]
    omega
  · simp only [GapFill.Line.accept, last, later, List.length_map, List.length_range']
    omega
  · simp only [toTimestamp_toNat, succ]
  · simp only [GapFill.Line.accept, last, later, List.length_map, List.length_range', Session.held]
    congr 2
    funext t
    simp only [Prod.mk.injEq, true_and, rules_observe, hidden, ← valued]
    cases a.isPersistent <;> rfl
  · rw [timestamp_setTimestamp, toTimestamp_toNat, succ, last, first]
  · simp [valued, hidden]

theorem accepted_single {a : Adapter} {m : MotionData} {next : Nat} {source : Option Nat}
    {line : Line} (idle : a.toReplicate = 0) (started : a.ignoreFirst = false)
    (h : Follows stream ⟨a, m, next, source⟩ line)
    (single : ¬(a.lastInc ≠ 0 ∧ a.diff (frames stream next) > 1 ∧
      a.diff (frames stream next) ≤ maxDiffReplicate)) : Accepted stream a m next line := by
  obtain ⟨stamp, valued, smooth⟩ := setMotionData_spec (frames stream next) m a.smoothing
  have hidden : line.hidden = a.smoothing := h.hidden
  have last := follows_last h
  have fill_iff := follows_fills h (frames stream next)
  simp only at last fill_iff
  -- A gap of exactly one tick is filled by the frame itself.
  have ticks : GapFill.laterTicks rules (line.last rules (frames stream)) (frames stream next) = [] ∧
      GapFill.firstTick rules (line.last rules (frames stream)) (frames stream next) =
        (frames stream next).increment.toNat := by
    by_cases fill : GapFill.fills rules (line.last rules (frames stream)) (frames stream next)
    · have one := fill_iff.mp fill
      have exactly : (frames stream next).increment.toNat = a.lastInc.toNat + 1 := by
        have no_more : ¬a.diff (frames stream next) > 1 := fun more => single ⟨one.1, more, one.2.2⟩
        have some_more := one.2.1
        simp only [Adapter.diff] at no_more some_more
        omega
      rw [if_neg one.1] at last
      rw [last] at fill ⊢
      simp only [GapFill.laterTicks, GapFill.firstTick, fill, if_true, Option.getD_some,
        rules_tick, exactly]
      exact ⟨by simp, trivial⟩
    · exact (GapFill.single_tick rules fill).symm
  have pending : (line.accept rules (frames stream) next).2.pending = [] := by
    simp [GapFill.Line.accept, ticks.1]
  unfold Accepted
  rw [accept_single a _ m idle single]
  refine ⟨⟨?_, rfl, rfl, ?_, ?_, 0, ?_, fun some_pending => absurd pending some_pending, ?_⟩,
    GapFill.firstTick rules (line.last rules (frames stream)) (frames stream next),
    (rules.observe line.hidden (frames stream next)).2, rfl, ?_, ?_⟩
  · simp [GapFill.Line.accept, started]
  · simp [GapFill.Line.accept, smooth, hidden]
  · simp [pending, idle]
  · simp [pending]
  · simp [pending]
  · rw [stamp, ticks.2]
  · simp [valued, hidden]

@[simp] theorem accept_ignoreFirst (a : Adapter) (frame : SdFrame) (m : MotionData) :
    (a.accept frame m).1.ignoreFirst = a.ignoreFirst := by
  simp only [Adapter.accept]
  split <;> split <;> rfl

@[simp] theorem replicate_ignoreFirst (a : Adapter) (m : MotionData) :
    (a.replicate m).1.ignoreFirst = a.ignoreFirst := by
  simp only [Adapter.replicate]
  split <;> rfl

theorem accept_follows {a : Adapter} {m : MotionData} {next : Nat} {source : Option Nat}
    {line : Line} (idle : a.toReplicate = 0) (started : a.ignoreFirst = false)
    (h : Follows stream ⟨a, m, next, source⟩ line) : Accepted stream a m next line := by
  by_cases gap : a.lastInc ≠ 0 ∧ a.diff (frames stream next) > 1 ∧
      a.diff (frames stream next) ≤ maxDiffReplicate
  · exact accepted_gap started h gap
  · exact accepted_single idle started h gap

theorem follows_signalNoGyro {a : Adapter} {m : MotionData} {next : Nat} {source : Option Nat}
    {line : Line} (h : Follows stream ⟨a, m, next, source⟩ line) (frame : SdFrame) :
    Follows stream ⟨a.signalNoGyro frame, m, next, source⟩ line := by
  obtain ⟨cooldown, signal, quiet⟩ := signalNoGyro_eq a frame
  rw [quiet]
  exact ⟨h.next, h.source, h.counter, h.hidden, h.count, h.pending⟩

theorem follows_pass {a : Adapter} {m : MotionData} {next : Nat} {source : Option Nat}
    {line : Line} (h : Follows stream ⟨a, m, next, source⟩ line) :
    Follows stream ⟨a, m, next + 1, source⟩ { line with next := line.next + 1 } :=
  ⟨by have := h.next; simp only at this ⊢; omega, h.source, h.counter, h.hidden, h.count, h.pending⟩

theorem follows_idle {s : Session} {line : Line} (h : Follows stream s line)
    (idle : s.adapter.toReplicate = 0) : line.pending = [] := by
  have count := h.count
  rw [idle] at count
  exact List.eq_nil_of_length_eq_zero (by simpa using count.symm)

def Agrees (stream : Nat → Frame) (m : MotionData) (source : Option Nat) (r : CallResult)
    (line : Line) (out : Option (Nat × Values) × Line) : Prop :=
  r.adapter.ignoreFirst = false ∧
  ((r.exit = .replicated ∧ line.pending ≠ [] ∧
    Follows stream ⟨r.adapter, r.motion, r.next, source⟩ out.2 ∧
    ∃ t v, out.1 = some (t, v) ∧ timestamp r.motion = 4000 * t ∧ values r.motion = v) ∨
  (r.exit = .repeated ∧ line.pending = [] ∧ out.1 = none ∧ r.motion = m ∧
    Follows stream ⟨r.adapter, r.motion, r.next, source⟩ out.2) ∨
  ∃ p, r.exit = .accepted p ∧ line.pending = [] ∧ out = line.accept rules (frames stream) p ∧
    Follows stream ⟨r.adapter, r.motion, r.next, some p⟩ out.2 ∧
    ∃ t v, out.1 = some (t, v) ∧ timestamp r.motion = 4000 * t ∧ values r.motion = v)

theorem grabLoop_turn (n : Nat) {a : Adapter} (m : MotionData) (next : Nat)
    (idle : a.toReplicate = 0) :
    grabLoop stream n a m next =
      if (a.signalNoGyro (frames stream next)).repeated (frames stream next) then
        match n with
        | 0 => ⟨a.signalNoGyro (frames stream next), m, next + 1, .repeated⟩
        | n + 1 => grabLoop stream n (a.signalNoGyro (frames stream next)) m (next + 1)
      else
        ⟨((a.signalNoGyro (frames stream next)).accept (frames stream next) m).1,
         ((a.signalNoGyro (frames stream next)).accept (frames stream next) m).2,
         next + 1, .accepted next⟩ := by
  cases n <;> rw [grabLoop, if_pos idle] <;> rfl

theorem grabLoop_replicates (n : Nat) {a : Adapter} (m : MotionData) (next : Nat)
    (busy : a.toReplicate ≠ 0) :
    grabLoop stream n a m next =
      ⟨(a.replicate m).1, (a.replicate m).2, next, .replicated⟩ := by
  cases n <;> rw [grabLoop, if_neg busy]

theorem grabLoop_search (n : Nat) {a : Adapter} {m : MotionData} {next : Nat}
    {source : Option Nat} {line : Line} (idle : a.toReplicate = 0) (started : a.ignoreFirst = false)
    (h : Follows stream ⟨a, m, next, source⟩ line) :
    Agrees stream m source (grabLoop stream n a m next) line (line.search rules (frames stream) n) := by
  induction n generalizing a next line with
  | zero =>
    have empty : line.pending = [] := follows_idle h idle
    obtain rfl : line.next = next := by have := h.next; simpa [started] using this
    have calm := follows_signalNoGyro h (frames stream line.next)
    rw [grabLoop_turn 0 m line.next idle, GapFill.Line.search]
    by_cases again : GapFill.repeats rules (line.last rules (frames stream)) (frames stream line.next)
    · rw [if_pos ((follows_repeated calm _).mpr again), if_pos again]
      exact ⟨by simp [started], Or.inr (Or.inl ⟨rfl, empty, rfl, rfl, follows_pass calm⟩)⟩
    · rw [if_neg (fun yes => again ((follows_repeated calm _).mp yes)), if_neg again]
      obtain ⟨follows, out⟩ := accept_follows (by simp [idle]) (by simp [started]) calm
      exact ⟨by simp [started], Or.inr (Or.inr ⟨line.next, rfl, empty, rfl, follows, out⟩)⟩
  | succ n ih =>
    have empty : line.pending = [] := follows_idle h idle
    obtain rfl : line.next = next := by have := h.next; simpa [started] using this
    have calm := follows_signalNoGyro h (frames stream line.next)
    rw [grabLoop_turn (n + 1) m line.next idle, GapFill.Line.search]
    by_cases again : GapFill.repeats rules (line.last rules (frames stream)) (frames stream line.next)
    · rw [if_pos ((follows_repeated calm _).mpr again), if_pos again]
      rcases ih (by simp [idle]) (by simp [started]) (follows_pass calm) with
        ⟨_, ⟨_, some_pending, _⟩ | ⟨exit, _, rest⟩ | ⟨p, exit, _, result, rest⟩⟩
      · exact absurd empty some_pending
      · exact ⟨by assumption, Or.inr (Or.inl ⟨exit, empty, rest⟩)⟩
      · exact ⟨by assumption, Or.inr (Or.inr ⟨p, exit, empty, result, rest⟩)⟩
    · rw [if_neg (fun yes => again ((follows_repeated calm _).mp yes)), if_neg again]
      obtain ⟨follows, out⟩ := accept_follows (by simp [idle]) (by simp [started]) calm
      exact ⟨by simp [started], Or.inr (Or.inr ⟨line.next, rfl, empty, rfl, follows, out⟩)⟩

theorem enterCall_toReplicate (a : Adapter) (next : Nat) :
    (enterCall a next).1.toReplicate = a.toReplicate := by
  cases dropped : a.ignoreFirst <;> by_cases cooling : a.noGyroCooldown > 0 <;>
    simp only [enterCall, dropped, cooling, if_true, if_false, Bool.false_eq_true]

theorem enterCall_follows {a : Adapter} {m : MotionData} {next : Nat} {source : Option Nat}
    {line : Line} (h : Follows stream ⟨a, m, next, source⟩ line) :
    Follows stream ⟨(enterCall a next).1, m, (enterCall a next).2, source⟩ line ∧
      (enterCall a next).1.ignoreFirst = false := by
  have place := h.next
  simp only at place
  cases dropped : a.ignoreFirst <;> by_cases cooling : a.noGyroCooldown > 0 <;>
    simp only [enterCall, dropped, cooling, if_true, if_false, Bool.false_eq_true] <;>
    exact ⟨⟨by simp [place, dropped], h.source, h.counter, h.hidden, h.count, h.pending⟩,
      by trivial⟩

theorem replicate_follows {a : Adapter} {m : MotionData} {next : Nat} {source : Option Nat}
    {line : Line} (busy : a.toReplicate ≠ 0) (h : Follows stream ⟨a, m, next, source⟩ line) :
    ∃ t v rest, line.pending = (t, v) :: rest ∧
      Follows stream ⟨(a.replicate m).1, (a.replicate m).2, next, source⟩ { line with pending := rest } ∧
      timestamp (a.replicate m).2 = 4000 * t ∧ values (a.replicate m).2 = v := by
  obtain ⟨tick, bound, stamp, pending⟩ := h.pending
  have count : a.toReplicate = line.pending.length := h.count
  obtain ⟨n, more⟩ : ∃ n, line.pending.length = n + 1 :=
    ⟨line.pending.length - 1, by omega⟩
  have stamped := stamp (by intro empty; simp [empty] at more)
  simp only at stamped
  rw [more, List.range'_succ, List.map_cons] at pending
  rw [more] at bound count
  have later : (a.lastTimestamp + UInt64.ofNat scanTimeUs).toNat = 4000 * (tick + 1) := by
    rw [UInt64.toNat_add, stamped]
    simp only [scanTimeUs, UInt64.toNat_ofNat']
    omega
  refine ⟨tick + 1, values (Session.held ⟨a, m, next, source⟩),
    (List.range' (tick + 1 + 1) n).map (·, values (Session.held ⟨a, m, next, source⟩)), pending, ?_⟩
  cases kept : a.isPersistent <;>
    simp only [Adapter.replicate, kept, if_true, if_false, Bool.false_eq_true]
  all_goals
    refine ⟨⟨h.next, h.source, h.counter, h.hidden, ?_, tick + 1, ?_, fun _ => later, ?_⟩,
      (timestamp_setTimestamp _ _).trans later, ?_⟩
    · simp only [List.length_map, List.length_range']
      omega
    · simp only [List.length_map, List.length_range']
      omega
    · simp [Session.held, kept]
    · simp [Session.held, kept]

theorem call_follows {s : Session} {line : Line} (h : Follows stream s line) :
    Agrees stream s.motion s.source (s.call stream) line (line.call rules (frames stream)) := by
  obtain ⟨entered, started⟩ := enterCall_follows h
  have same := enterCall_toReplicate s.adapter s.next
  have enters : s.call stream = grabLoop stream maxRepeatedLoop (enterCall s.adapter s.next).1
      s.motion (enterCall s.adapter s.next).2 := rfl
  rw [enters]
  by_cases idle : s.adapter.toReplicate = 0
  · have search : line.call rules (frames stream) = line.search rules (frames stream) maxRepeatedLoop := by
      rw [GapFill.Line.call, follows_idle h idle]
      rfl
    rw [search]
    exact grabLoop_search maxRepeatedLoop (same.trans idle) started entered
  · obtain ⟨t, v, rest, pending, follows, stamp, value⟩ :=
      replicate_follows (by rw [same]; exact idle) entered
    have pops : line.call rules (frames stream) = (some (t, v), { line with pending := rest }) := by
      simp only [GapFill.Line.call, pending]
    rw [pops, grabLoop_replicates _ _ _ (by rw [same]; exact idle)]
    exact ⟨by simp [started], Or.inl ⟨rfl, by simp [pending], follows, t, v, rfl, stamp, value⟩⟩

theorem after_follows {s : Session} {line : Line} (h : Follows stream s line) (other : MotionData) :
    Follows stream (s.after (s.call stream) other) (line.call rules (frames stream)).2 := by
  have keep : ∀ {a : Adapter} {m : MotionData} {next : Nat} {source : Option Nat} {line' : Line},
      Follows stream ⟨a, m, next, source⟩ line' →
        Follows stream ⟨a, if a.isPersistent then m else other, next, source⟩ line' := by
    intro a m next source line' h'
    refine ⟨h'.next, h'.source, h'.counter, h'.hidden, h'.count, ?_⟩
    have pending := h'.pending
    cases kept : a.isPersistent <;> simpa [Session.held, kept] using pending
  rcases call_follows h with
    ⟨_, ⟨exit, _, follows, _⟩ | ⟨exit, _, _, _, follows⟩ | ⟨p, exit, _, _, follows, _⟩⟩
  all_goals
    rw [Session.after, exit]
    exact keep follows

theorem run_follows {s : Session} {line : Line} (h : Follows stream s line) (k : Nat) :
    Follows stream (s.at stream overwritten k) (line.at rules (frames stream) k) := by
  induction k with
  | zero => exact h
  | succ k ih => exact after_follows ih (overwritten k)

theorem callAt_follows {s : Session} {line : Line} (h : Follows stream s line) (k : Nat) :
    Agrees stream (s.at stream overwritten k).motion (s.at stream overwritten k).source
      (s.callAt stream overwritten k) (line.at rules (frames stream) k)
      ((line.at rules (frames stream) k).call rules (frames stream)) :=
  call_follows (run_follows overwritten h k)

def startLine (last : Smoothing) : Line := ⟨none, last, [], 1⟩

theorem enter_follows (a : Adapter) (m : MotionData) (idle : a.toReplicate = 0) :
    Follows stream (enter a m) (startLine a.smoothing) :=
  ⟨rfl, rfl, rfl, rfl, idle, 0, by simp [startLine], fun some_pending => absurd rfl some_pending, rfl⟩

end AdapterSession
