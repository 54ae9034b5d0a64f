import GyroDsu.Lib.MachineInt
import GyroDsu.Hiddev.ReadData
import Mathlib.Data.List.Basic

/-
CheckData of ReadDataFile and the loop of ProcessData that takes the frame out of the
records. Both walk over the raw buffer with an int; no result means that an index left
a buffer.
-/
namespace FrameCheck
open SdHidFrame ReadData LittleEndian MachineInt

/-- A raw buffer for frames of `frameLen` bytes. Its length is computed as an int. -/
structure RawBuffer (frameLen : Nat) where
  bytes : Frame
  size : bytes.length = frameLen * cInputRecordLen
  int : frameLen * cInputRecordLen < 2 ^ 31

def at? (data : Frame) (i : Int) : Option UInt8 := data[asSize i]?

def extractFirst4Bytes? (data : Frame) : Option UInt32 :=
  if 4 ≤ data.length then some (extractFirst4Bytes data) else none

def markerFits? : List UInt8 → Int → Frame → Option Bool
  | [], _, _ => some true
  | byte :: marker, i, data =>
    (at? data i).bind fun b =>
      if byte ≠ b then some false else markerFits? marker (toInt (i + cInputRecordLen)) data

inductive Event where
  | closed
  | opened
  | unsynced
  | published
  deriving DecidableEq, Repr

def disconnectInput (isOpen : Bool) : List Event := if isOpen then [.closed] else []

def reconnectInput (isOpen : Bool) : List Event := disconnectInput isOpen ++ [.opened]

def checkData? (startMarker : List UInt8) (data : Frame) (readCnt : Int) (isOpen : Bool) :
    Option (Bool × List Event) :=
  let startMarkerFail? : Option Bool :=
    if asSize readCnt < data.length then some false
    else
      (extractFirst4Bytes? data).bind fun first =>
        if first ≠ 0xFFFF0002 ∧ 0 < startMarker.length ∧ first = 0xFFFF0001 then
          (markerFits? startMarker cByteposInput data).map fun fits => !fits
        else some (first ≠ 0xFFFF0002)
  startMarkerFail?.map fun startMarkerFail =>
    if asSize readCnt < data.length ∨ startMarkerFail = true then
      (false, reconnectInput isOpen ++ [.unsynced])
    else (true, [])

def examined (startMarker : List UInt8) (data : Frame) (readCnt : Int) (isOpen : Bool) : Option (List Event) :=
  if readCnt = 0 then some []
  else
    (checkData? startMarker data readCnt isOpen).map fun checked =>
      if checked.1 then checked.2 ++ [.published] else checked.2

/-- The loop of ProcessData with at most `turns` turns: `i` goes over the frame and `j` over
    the raw buffer. -/
def extractLoop (hidData : Frame) : Nat → Int → Int → Frame → Option Frame
  | 0, i, _, frame => if asSize i < frame.length then none else some frame
  | turns + 1, i, j, frame =>
    if asSize i < frame.length then
      (at? hidData j).bind fun byte =>
        extractLoop hidData turns (toInt (i + 1)) (toInt (j + cInputRecordLen)) (frame.set (asSize i) byte)
    else some frame

def extract (hidData frame : Frame) : Option Frame :=
  extractLoop hidData frame.length 0 cByteposInput frame

def records (data : Frame) (first : Nat) : Nat → List UInt8
  | 0 => []
  | count + 1 => memory data (cByteposInput + cInputRecordLen * first) :: records data (first + 1) count

theorem records_length (data : Frame) (first count : Nat) : (records data first count).length = count := by
  induction count generalizing first with
  | zero => rfl
  | succ count ih => rw [records, List.length_cons, ih]

theorem records_prefix (data : Frame) (first : Nat) {few many : Nat} (le : few ≤ many) :
    records data first few <+: records data first many := by
  induction few generalizing first many with
  | zero => exact List.nil_prefix
  | succ few ih =>
    obtain ⟨rest, rfl⟩ : ∃ rest, many = rest + 1 := ⟨many - 1, by omega⟩
    exact List.cons_prefix_cons.mpr ⟨rfl, ih (first + 1) (by omega)⟩

theorem prefix_records (data : Frame) {marker : List UInt8} {frameLen : Nat}
    (short : marker.length ≤ frameLen) :
    marker <+: records data 0 frameLen ↔ marker = records data 0 marker.length := by
  have first := records_prefix data 0 short
  constructor
  · intro begins
    have both := List.prefix_of_prefix_length_le begins first (by rw [records_length])
    exact both.eq_of_length (records_length data 0 marker.length).symm
  · intro same
    rw [same]
    exact first

theorem at_record {frameLen : Nat} (raw : RawBuffer frameLen) {k : Nat} (inside : k < frameLen) :
    at? raw.bytes (cByteposInput + cInputRecordLen * k : Nat) =
      some (memory raw.bytes (cByteposInput + cInputRecordLen * k)) := by
  have size := raw.size
  have int := raw.int
  have position : asSize (cByteposInput + cInputRecordLen * k : Nat) = cByteposInput + cInputRecordLen * k := by
    apply asSize_count
    simp only [cByteposInput, cInputRecordLen] at int ⊢
    omega
  have bound : cByteposInput + cInputRecordLen * k < raw.bytes.length := by
    simp only [cByteposInput, cInputRecordLen] at size ⊢
    omega
  rw [at?, position, memory, List.getD_eq_getElem?_getD, List.getElem?_eq_getElem bound, Option.getD_some]

theorem next_record {frameLen : Nat} (raw : RawBuffer frameLen) {k : Nat} (inside : k < frameLen) :
    toInt ((cByteposInput + cInputRecordLen * k : Nat) + cInputRecordLen : Int) =
      (cByteposInput + cInputRecordLen * (k + 1) : Nat) := by
  have int := raw.int
  simp only [cByteposInput, cInputRecordLen] at int ⊢
  rw [toInt_small] <;> omega

theorem marker_records {frameLen : Nat} (raw : RawBuffer frameLen) (marker : List UInt8) (first : Nat)
    (inside : first + marker.length ≤ frameLen) :
    markerFits? marker (cByteposInput + cInputRecordLen * first : Nat) raw.bytes =
      some (marker == records raw.bytes first marker.length) := by
  induction marker generalizing first with
  | nil => rfl
  | cons byte marker ih =>
    rw [List.length_cons] at inside
    rw [markerFits?, at_record raw (by omega), Option.bind_some, next_record raw (by omega),
      ih (first + 1) (by omega), List.length_cons, records]
    by_cases same : byte = memory raw.bytes (cByteposInput + cInputRecordLen * first)
    · rw [if_neg (not_not.mpr same), List.cons_beq_cons, beq_iff_eq.mpr same, Bool.true_and]
    · rw [if_pos same, List.cons_beq_cons, beq_eq_false_iff_ne.mpr same, Bool.false_and]

theorem markerFits_records (marker : List UInt8) (data : Frame) (first : Nat) :
    markerFits marker (cByteposInput + cInputRecordLen * first) data =
      (marker == records data first marker.length) := by
  induction marker generalizing first with
  | nil => rfl
  | cons byte marker ih =>
    have next : cByteposInput + cInputRecordLen * first + cInputRecordLen =
        cByteposInput + cInputRecordLen * (first + 1) := by
      rw [Nat.mul_succ, Nat.add_assoc]
    rw [markerFits, next, ih, List.length_cons, records, List.cons_beq_cons]

theorem extractLoop_records {frameLen : Nat} (raw : RawBuffer frameLen) (done rest : Frame)
    (size : done.length + rest.length = frameLen) :
    extractLoop raw.bytes rest.length done.length (cByteposInput + cInputRecordLen * done.length : Nat)
        (done ++ rest) =
      some (done ++ records raw.bytes done.length rest.length) := by
  have int := raw.int
  simp only [cInputRecordLen] at int
  have index : asSize done.length = done.length := asSize_count (by omega)
  induction rest generalizing done with
  | nil => simp [extractLoop, records, index]
  | cons old rest ih =>
    rw [List.length_cons] at size
    have moved : toInt ((done.length : Int) + 1) = (done ++ [memory raw.bytes (cByteposInput +
        cInputRecordLen * done.length)]).length := by
      rw [List.length_append, List.length_singleton, toInt_small (by omega) (by omega)]
      rfl
    have written : (done ++ old :: rest).set done.length (memory raw.bytes (cByteposInput +
        cInputRecordLen * done.length)) = done ++ [memory raw.bytes (cByteposInput +
        cInputRecordLen * done.length)] ++ rest := by
      simp
    rw [List.length_cons, extractLoop, index, if_pos (by simp), at_record raw (by omega), Option.bind_some,
      next_record raw (by omega), written, moved]
    have later := ih (done ++ [memory raw.bytes (cByteposInput + cInputRecordLen * done.length)])
      (by simp; omega) (asSize_count (by simp; omega))
    simp only [List.length_append, List.length_singleton] at later ⊢
    rw [later, records, List.append_assoc, List.singleton_append]

theorem extract_records {frameLen : Nat} (raw : RawBuffer frameLen) (frame : Frame)
    (size : frame.length = frameLen) :
    extract raw.bytes frame = some (records raw.bytes 0 frameLen) := by
  have loop := extractLoop_records raw [] frame (by simpa using size)
  rw [size] at loop
  rw [extract, size]
  exact loop

theorem extractFirst4Bytes_iff {data : Frame} (enough : 4 ≤ data.length) (word : UInt32) :
    extractFirst4Bytes data = word ↔ decode (data.take 4) = word.toNat := by
  have bound := decode_lt (data.take 4)
  rw [List.length_take, Nat.min_eq_left enough] at bound
  rw [extractFirst4Bytes, loadU32, load_memory data 4 enough, ← UInt32.toNat_inj, UInt32.toNat_ofNat']
  rw [Nat.mod_eq_of_lt (show _ < 2 ^ 32 from bound)]

/-- A completely read buffer is long enough for all that CheckData looks at. -/
theorem checkData_complete {frameLen : Nat} (positive : 0 < frameLen) (raw : RawBuffer frameLen)
    {startMarker : List UInt8} (short : startMarker.length ≤ frameLen) (isOpen : Bool) :
    checkData? startMarker raw.bytes raw.bytes.length isOpen =
      some (if startsFrame startMarker raw.bytes then (true, [])
        else (false, reconnectInput isOpen ++ [.unsynced])) := by
  have size := raw.size
  have int := raw.int
  simp only [cInputRecordLen] at size int
  have count : ¬asSize raw.bytes.length < raw.bytes.length := by
    rw [asSize_count (by omega)]
    exact Nat.lt_irrefl _
  have enough : 4 ≤ raw.bytes.length := by omega
  have marker := marker_records raw startMarker 0 (by omega)
  have same := markerFits_records startMarker raw.bytes 0
  rw [Nat.mul_zero, Nat.add_zero] at marker same
  simp only [checkData?, count, if_false, false_or, extractFirst4Bytes?, if_pos enough, Option.bind_some,
    marker, ← same, Option.map_some, startsFrame]
  by_cases first : extractFirst4Bytes raw.bytes = 0xFFFF0002
  · simp [first]
  · by_cases alternative : 0 < startMarker.length ∧ extractFirst4Bytes raw.bytes = 0xFFFF0001
    · by_cases fits : markerFits startMarker cByteposInput raw.bytes = true
      · simp [alternative, fits]
      · simp [alternative, Bool.not_eq_true _ ▸ fits]
    · rcases not_and_or.mp alternative with empty | other
      · simp [first, empty]
      · simp [first, other]

theorem startsFrame_iff {frameLen : Nat} (positive : 0 < frameLen) (raw : RawBuffer frameLen)
    {startMarker : List UInt8} (short : startMarker.length ≤ frameLen) :
    startsFrame startMarker raw.bytes = true ↔
      decode (raw.bytes.take 4) = 0xFFFF0002 ∨
        decode (raw.bytes.take 4) = 0xFFFF0001 ∧ startMarker ≠ [] ∧
          startMarker <+: records raw.bytes 0 frameLen := by
  have size := raw.size
  simp only [cInputRecordLen] at size
  have enough : 4 ≤ raw.bytes.length := by omega
  have same := markerFits_records startMarker raw.bytes 0
  rw [Nat.mul_zero, Nat.add_zero] at same
  rw [prefix_records raw.bytes short, ← List.length_pos_iff]
  simp only [startsFrame, Bool.or_eq_true, Bool.and_eq_true, beq_iff_eq, decide_eq_true_eq, same]
  rw [extractFirst4Bytes_iff enough, extractFirst4Bytes_iff enough]
  constructor
  · rintro (first | ⟨⟨some_marker, first⟩, fits⟩)
    · exact Or.inl first
    · exact Or.inr ⟨first, some_marker, fits⟩
  · rintro (first | ⟨first, some_marker, fits⟩)
    · exact Or.inl first
    · exact Or.inr ⟨⟨some_marker, first⟩, fits⟩

/-- CheckData and the loop of ProcessData agree about a completely read buffer: neither looks
    outside it, and an alternative start is the marker at the front of the extracted frame. -/
theorem frame_check_agrees (frameLen : Nat) (positive : 0 < frameLen) (startMarker : List UInt8)
    (short : startMarker.length ≤ frameLen) (raw : RawBuffer frameLen) (frame : Frame)
    (size : frame.length = frameLen) (isOpen : Bool) :
    ∃ extracted accepted events,
      extract raw.bytes frame = some extracted ∧ extracted.length = frameLen ∧
      checkData? startMarker raw.bytes raw.bytes.length isOpen = some (accepted, events) ∧
      (accepted = true ↔
        decode (raw.bytes.take 4) = 0xFFFF0002 ∨
          decode (raw.bytes.take 4) = 0xFFFF0001 ∧ startMarker ≠ [] ∧ startMarker <+: extracted) ∧
      (accepted = true → events = [] ∧
        examined startMarker raw.bytes raw.bytes.length isOpen = some [.published]) ∧
      (accepted = false → events = (if isOpen then [.closed] else []) ++ [.opened, .unsynced] ∧
        examined startMarker raw.bytes raw.bytes.length isOpen = some events) := by
  have checked := checkData_complete positive raw short isOpen
  have starts := startsFrame_iff positive raw short
  have nonzero : (raw.bytes.length : Int) ≠ 0 := by
    have length := raw.size
    simp only [cInputRecordLen] at length
    omega
  refine ⟨records raw.bytes 0 frameLen, startsFrame startMarker raw.bytes,
    if startsFrame startMarker raw.bytes then [] else reconnectInput isOpen ++ [.unsynced],
    extract_records raw frame size, records_length _ _ _, ?_, starts, ?_, ?_⟩
  · rw [checked]
    cases startsFrame startMarker raw.bytes <;> rfl
  · intro accepted
    rw [examined, if_neg nonzero, checked, accepted]
    exact ⟨rfl, rfl⟩
  · intro rejected
    rw [examined, if_neg nonzero, checked, rejected]
    refine ⟨?_, rfl⟩
    simp [reconnectInput, disconnectInput]

def alternative : RawBuffer 2 where
  bytes := [1, 0, 0xFF, 0xFF, 7, 0, 0, 0, 1, 0, 0xFF, 0xFF, 9, 0, 0, 0]
  size := rfl
  int := by decide

theorem frame_check_agrees_alternative :
    ∃ extracted events, extract alternative.bytes [0, 0] = some extracted ∧ [7] <+: extracted ∧
      checkData? [7] alternative.bytes alternative.bytes.length true = some (true, events) ∧ events = [] := by
  obtain ⟨extracted, accepted, events, extraction, _, checked, starts, silent, _⟩ :=
    frame_check_agrees 2 (by decide) [7] (by decide) alternative [0, 0] rfl true
  obtain rfl : [7, 9] = extracted := Option.some.inj extraction
  obtain rfl : accepted = true := starts.mpr (Or.inr ⟨by decide, by decide, by decide⟩)
  exact ⟨_, events, extraction, by decide, checked, (silent rfl).1⟩

/-- A frame of no bytes: the read returns -1, and CheckData looks at four bytes that are not there. -/
theorem empty_frame_checked_outside :
    ∃ raw : RawBuffer 0, checkData? [] raw.bytes raw.bytes.length true = none ∧
      DeviceRead.hidDevFileRead true ⟨.ready, [.idle]⟩ raw.bytes = some (-1, raw.bytes) ∧
      examined [] raw.bytes (-1) true = none :=
  ⟨⟨[], rfl, by decide⟩, rfl, rfl, rfl⟩

end FrameCheck
