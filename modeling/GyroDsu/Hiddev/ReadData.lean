import GyroDsu.Lib.Runs
import GyroDsu.Hiddev.DeviceRead
import GyroDsu.Pipeline.PipeOut
import GyroDsu.Pipeline.SignalOut

/-
ReadDataApi and ReadDataFile: the loop that reads a frame into Data and publishes it,
beside the next stage of the pipeline. A run starts where Execute starts, with anything
in the three buffers, and may end anywhere: Stop is a run that is not continued, a
restart is a new run. Counting of missed ticks only writes to the log and is left out.
-/
namespace ReadData
open SdHidFrame DeviceRead Pipe SignalOut LittleEndian

/-- An int or ssize_t compared with a size_t is converted to one. -/
def asSize (n : Int) : Nat := (n % 2 ^ 64).toNat

theorem asSize_count {n : Nat} (small : n < 2 ^ 64) : asSize n = n := by
  unfold asSize
  omega

inductive Verdict where
  | again
  | unsynced
  | publish
  deriving DecidableEq, Repr

/-- Execute of ReadDataApi, after the Read. -/
def examineApi (readCnt : Int) (data : Frame) : Verdict :=
  if asSize readCnt < data.length then .again
  else if readCnt = 0 then .again
  else .publish

def cInputRecordLen : Nat := 8
def cByteposInput : Nat := 4

def extractFirst4Bytes (data : Frame) : UInt32 := loadU32 data 0

/-- The loop over the special start marker, which stops at the first difference. -/
def markerFits : List UInt8 → Nat → Frame → Bool
  | [], _, _ => true
  | byte :: marker, i, data => byte == memory data i && markerFits marker (i + cInputRecordLen) data

def startsFrame (startMarker : List UInt8) (data : Frame) : Bool :=
  extractFirst4Bytes data == 0xFFFF0002 ||
    startMarker.length > 0 && extractFirst4Bytes data == 0xFFFF0001 &&
      markerFits startMarker cByteposInput data

def checkData (startMarker : List UInt8) (data : Frame) (readCnt : Int) : Bool :=
  let inputFail := asSize readCnt < data.length
  let startMarkerFail := !inputFail && !startsFrame startMarker data
  !(inputFail || startMarkerFail)

/-- Execute of ReadDataFile, after the Read. -/
def examineFile (startMarker : List UInt8) (readCnt : Int) (data : Frame) : Verdict :=
  if readCnt = 0 then .again
  else if !checkData startMarker data readCnt then .unsynced
  else .publish

structure Reader (R : Type) where
  read : Bool → R → Frame → Option (Int × Frame)
  examine : Int → Frame → Verdict

def readDataApi : Reader (List LowRead) := ⟨hidApiDevRead, examineApi⟩
def readDataFile (startMarker : List UInt8) : Reader FileResults :=
  ⟨hidDevFileRead, examineFile startMarker⟩

variable {R : Type}

/-- A turn of the loop. `buffer` is the vector Read was given, `before` its content then;
    `tested` is the vector the result is checked against and `current` the one that is
    to be sent, with their contents. -/
structure Turn (R : Type) where
  buffer : Inst
  before : Frame
  opened : Bool
  results : R
  tested : Inst × Frame
  current : Inst × Frame
  published : Bool

inductive Pc (R : Type) where
  | top
  | reading (buffer : Inst)
  | examining (buffer : Inst) (before : Frame) (results : R) (readCnt : Int)
  | sending (buffer : Inst) (before : Frame) (results : R) (tested : Inst × Frame)

/-- noGyro is null for ReadDataFile. `turns` is the history, newest first. -/
structure State (R : Type) where
  pipe : PipeOut Frame
  pc : Pc R
  opened : Bool
  noGyro : Option Signal
  unsynced : Signal
  turns : List (Turn R)

/-- The last three belong to other threads: the consumer of the signal NoGyro, the next
    stage receiving, and the next stage flushing its pipe while it is being stopped. -/
inductive Action (R : Type) where
  | tryNoGyro
  | enterRead
  | read (results : R)
  | examine (reopened : Bool)
  | send
  | signalNoGyro
  | receive
  | flush

def State.step (reader : Reader R) (s : State R) : Action R → Option (State R)
  | .tryNoGyro =>
    match s.pc, s.noGyro with
    | .top, some signal =>
      if signal.trySignal.1 then some { s with noGyro := some signal.trySignal.2 } else none
    | _, _ => none
  | .enterRead =>
    match s.pc with
    | .top =>
      if (s.noGyro.map fun signal => signal.trySignal.1) = some true then none
      else some { s with pc := .reading s.pipe.bufMod }
    | _ => none
  | .read results =>
    match s.pc with
    | .reading buffer =>
      (reader.read s.opened results (s.pipe.object buffer)).map fun done =>
        { s with
          pipe := s.pipe.write buffer done.2
          pc := .examining buffer (s.pipe.object buffer) results done.1 }
    | _ => none
  | .examine reopened =>
    match s.pc with
    | .examining buffer before results readCnt =>
      let tested := (s.pipe.bufMod, s.pipe.toFill)
      let turn : Turn R := ⟨buffer, before, s.opened, results, tested, tested, false⟩
      match reader.examine readCnt s.pipe.toFill with
      | .again => some { s with pc := .top, turns := turn :: s.turns }
      | .unsynced =>
        some { s with
          pc := .top
          opened := reopened
          unsynced := s.unsynced.sendSignal
          turns := turn :: s.turns }
      | .publish => some { s with pc := .sending buffer before results tested }
    | _ => none
  | .send =>
    match s.pc with
    | .sending buffer before results tested =>
      let current := (s.pipe.bufMod, s.pipe.toFill)
      some { s with
        pc := .top
        pipe := s.pipe.sendData
        turns := ⟨buffer, before, s.opened, results, tested, current, true⟩ :: s.turns }
    | _ => none
  | .signalNoGyro => some { s with noGyro := s.noGyro.map fun signal => signal.sendSignal }
  | .receive => s.pipe.waitForData.map fun pipe => { s with pipe := pipe }
  | .flush => some { s with pipe := s.pipe.sendData }

structure Starts (frameLen : Nat) (s : State R) : Prop where
  sizes : ∀ i, (s.pipe.object i).length = frameLen
  top : s.pc = .top
  opened : s.opened = true
  noTurns : s.turns = []

/-- A finished turn did what the code says: the Read gave `readCnt`, the vector tested
    and the vector sent hold what the Read left if they are the one it filled. -/
def Done (reader : Reader R) (frameLen : Nat) (turn : Turn R) : Prop :=
  ∃ readCnt after, turn.before.length = frameLen ∧ turn.tested.2.length = frameLen ∧
    reader.read turn.opened turn.results turn.before = some (readCnt, after) ∧
    (turn.tested.1 = turn.buffer → turn.tested.2 = after) ∧
    (turn.current.1 = turn.buffer → turn.current.2 = after) ∧
    (turn.published = true ↔ reader.examine readCnt turn.tested.2 = .publish)

def Underway (reader : Reader R) (frameLen : Nat) (s : State R) : Prop :=
  match s.pc with
  | .top => True
  | .reading _ => True
  | .examining buffer before results readCnt =>
    before.length = frameLen ∧
      reader.read s.opened results before = some (readCnt, s.pipe.object buffer)
  | .sending buffer before results tested =>
    ∃ readCnt, before.length = frameLen ∧ tested.2.length = frameLen ∧
      reader.read s.opened results before = some (readCnt, s.pipe.object buffer) ∧
      (tested.1 = buffer → tested.2 = s.pipe.object buffer) ∧
      reader.examine readCnt tested.2 = .publish

structure Sound (reader : Reader R) (frameLen : Nat) (s : State R) : Prop where
  sizes : ∀ i, (s.pipe.object i).length = frameLen
  underway : Underway reader frameLen s
  turns : ∀ turn ∈ s.turns, Done reader frameLen turn

variable {reader : Reader R} {frameLen : Nat}

theorem sound_swap {s : State R} (h : Sound reader frameLen s) (pipe : PipeOut Frame)
    (same : pipe.object = s.pipe.object) : Sound reader frameLen { s with pipe := pipe } := by
  constructor
  · intro i
    rw [same]
    exact h.sizes i
  · have underway := h.underway
    unfold Underway at underway ⊢
    simp only [same]
    exact underway
  · exact h.turns

theorem read_sound (keeps : ∀ opened results data ret data',
      reader.read opened results data = some (ret, data') → data'.length = data.length)
    {s t : State R} {results : R} (h : Sound reader frameLen s)
    (step : s.step reader (.read results) = some t) : Sound reader frameLen t := by
  cases pc : s.pc with
  | reading buffer =>
    simp only [State.step, pc] at step
    obtain ⟨⟨readCnt, after⟩, done, rfl⟩ := Option.map_eq_some_iff.mp step
    constructor
    · intro i
      by_cases here : i = buffer
      · subst here
        rw [write_same, keeps _ _ _ _ _ done]
        exact h.sizes i
      · rw [write_other _ _ here]
        exact h.sizes i
    · unfold Underway
      simp only [write_same]
      exact ⟨h.sizes buffer, done⟩
    · exact h.turns
  | top => simp [State.step, pc] at step
  | examining => simp [State.step, pc] at step
  | sending => simp [State.step, pc] at step

theorem examine_sound {s t : State R} {reopened : Bool} (h : Sound reader frameLen s)
    (step : s.step reader (.examine reopened) = some t) : Sound reader frameLen t := by
  cases pc : s.pc with
  | examining buffer before results readCnt =>
    have underway := h.underway
    simp only [Underway, pc] at underway
    obtain ⟨size, done⟩ := underway
    have content : s.pipe.bufMod = buffer → s.pipe.toFill = s.pipe.object buffer :=
      fun same => congrArg s.pipe.object same
    -- Whatever the verdict, a turn that ends here has not published anything.
    have ends : ∀ verdict, reader.examine readCnt s.pipe.toFill = verdict → verdict ≠ .publish →
        Done reader frameLen ⟨buffer, before, s.opened, results, (s.pipe.bufMod, s.pipe.toFill),
          (s.pipe.bufMod, s.pipe.toFill), false⟩ := by
      intro verdict same other
      refine ⟨readCnt, s.pipe.object buffer, size, h.sizes _, done, content, content, ?_⟩
      simp only [same, other, Bool.false_eq_true]
    simp only [State.step, pc] at step
    cases verdict : reader.examine readCnt s.pipe.toFill with
    | again =>
      rw [verdict] at step
      obtain rfl := Option.some.inj step
      refine ⟨h.sizes, trivial, ?_⟩
      intro turn member
      rcases List.mem_cons.mp member with rfl | earlier
      · exact ends .again verdict (by decide)
      · exact h.turns turn earlier
    | unsynced =>
      rw [verdict] at step
      obtain rfl := Option.some.inj step
      refine ⟨h.sizes, trivial, ?_⟩
      intro turn member
      rcases List.mem_cons.mp member with rfl | earlier
      · exact ends .unsynced verdict (by decide)
      · exact h.turns turn earlier
    | publish =>
      rw [verdict] at step
      obtain rfl := Option.some.inj step
      exact ⟨h.sizes, ⟨readCnt, size, h.sizes _, done, content, verdict⟩, h.turns⟩
  | top => simp [State.step, pc] at step
  | reading => simp [State.step, pc] at step
  | sending => simp [State.step, pc] at step

theorem send_sound {s t : State R} (h : Sound reader frameLen s)
    (step : s.step reader .send = some t) : Sound reader frameLen t := by
  cases pc : s.pc with
  | sending buffer before results tested =>
    have underway := h.underway
    simp only [Underway, pc] at underway
    obtain ⟨readCnt, size, size', done, content, verdict⟩ := underway
    simp only [State.step, pc] at step
    obtain rfl := Option.some.inj step
    refine ⟨h.sizes, trivial, ?_⟩
    intro turn member
    rcases List.mem_cons.mp member with rfl | earlier
    · exact ⟨readCnt, s.pipe.object buffer, size, size', done, content,
        fun same => congrArg s.pipe.object same, by simp [verdict]⟩
    · exact h.turns turn earlier
  | top => simp [State.step, pc] at step
  | reading => simp [State.step, pc] at step
  | examining => simp [State.step, pc] at step

theorem step_sound (keeps : ∀ opened results data ret data',
      reader.read opened results data = some (ret, data') → data'.length = data.length)
    {s t : State R} {a : Action R} (h : Sound reader frameLen s) (step : s.step reader a = some t) :
    Sound reader frameLen t := by
  cases a with
  | tryNoGyro =>
    simp only [State.step] at step
    split at step
    · split at step
      · obtain rfl := Option.some.inj step
        exact ⟨h.sizes, h.underway, h.turns⟩
      · cases step
    · cases step
  | enterRead =>
    simp only [State.step] at step
    split at step
    · split at step
      · cases step
      · obtain rfl := Option.some.inj step
        exact ⟨h.sizes, trivial, h.turns⟩
    · cases step
  | read results => exact read_sound keeps h step
  | examine reopened => exact examine_sound h step
  | send => exact send_sound h step
  | signalNoGyro =>
    obtain rfl := Option.some.inj step
    exact ⟨h.sizes, h.underway, h.turns⟩
  | receive =>
    obtain ⟨pipe, waited, rfl⟩ := Option.map_eq_some_iff.mp step
    obtain ⟨_, rfl⟩ := waitForData_cases waited
    exact sound_swap h _ rfl
  | flush =>
    obtain rfl := Option.some.inj step
    exact sound_swap h _ rfl

theorem run_sound (keeps : ∀ opened results data ret data',
      reader.read opened results data = some (ret, data') → data'.length = data.length)
    {s t : State R} {actions : List (Action R)} (starts : Starts frameLen s)
    (run : Runs.Run (State.step reader) s actions t) : Sound reader frameLen t := by
  refine Runs.run_invariant (Sound reader frameLen) (fun _ _ _ h step => step_sound keeps h step) run ?_
  refine ⟨starts.sizes, ?_, ?_⟩
  · simp only [Underway, starts.top]
  · rw [starts.noTurns]
    intro turn member
    cases member

end ReadData
