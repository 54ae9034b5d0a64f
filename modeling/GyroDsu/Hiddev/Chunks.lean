import GyroDsu.Lib.MachineInt
import GyroDsu.Hiddev.ReadData
import Mathlib.Data.List.Basic

/-
The loop of both Read methods with its int count, its size_t requests and whatever the
device returns: `results i` is the result of the i-th low-level read, should there be one.
-/
namespace Chunks
open SdHidFrame DeviceRead ReadData MachineInt

structure Request where
  offset : Int
  length : Nat
  deriving DecidableEq, Repr

def request (readCnt : Int) (data : Frame) : Request := ⟨readCnt, asSize (data.length - readCnt)⟩

inductive Progress where
  | more (readCnt : Int) (data : Frame)
  | returned (ret : Int) (data : Frame)
  deriving DecidableEq, Repr

/-- The body of the do-while loop and its exit test. No turn of the loop starts with a
    negative count, which would point before the vector. -/
def pass (readCnt : Int) (data : Frame) : LowRead → Progress
  | .failed code => .returned (negative code) data
  | .idle => .returned (if readCnt = 0 then -1 else readCnt) data
  | .got bytes =>
    let data := overlay data readCnt.toNat bytes
    let readCnt := toInt (readCnt + bytes.length)
    if asSize readCnt < data.length then .more readCnt data else .returned readCnt data

/-- At most `turns` turns of the loop: the requests it makes, and what it returns and leaves
    in the vector if it has ended. -/
def run : Nat → (Nat → LowRead) → Int → Frame → List Request × Option (Int × Frame)
  | 0, _, _, _ => ([], none)
  | turns + 1, results, readCnt, data =>
    match pass readCnt data (results 0) with
    | .returned ret data' => ([request readCnt data], some (ret, data'))
    | .more readCnt' data' =>
      let later := run turns (fun i => results (i + 1)) readCnt' data'
      (request readCnt data :: later.1, later.2)

def hidApiDevRead (opened : Bool) (turns : Nat) (results : Nat → LowRead) (data : Frame) :
    List Request × Option (Int × Frame) :=
  if opened then run turns results 0 data else ([], some (0, data))

def hidDevFileRead (opened : Bool) (poll : Poll) (turns : Nat) (results : Nat → LowRead) (data : Frame) :
    List Request × Option (Int × Frame) :=
  match opened, poll with
  | false, _ => ([], some (0, data))
  | true, .timeout => ([], some (0, data))
  | true, .failed code => ([], some (negative code, data))
  | true, .ready => run turns results 0 data

inductive Device where
  | hidApiDev
  | hidDevFile

def Device.read : Device → Nat → (Nat → LowRead) → Frame → List Request × Option (Int × Frame)
  | .hidApiDev => hidApiDevRead true
  | .hidDevFile => hidDevFileRead true .ready

/-- Every positive result is at most what was asked for. -/
def Obeys (results : Nat → LowRead) (requests : List Request) : Prop :=
  ∀ i request, requests[i]? = some request → ∀ bytes, results i = .got bytes →
    bytes ≠ [] ∧ bytes.length ≤ request.length

structure Request.Inside (size : Nat) (request : Request) : Prop where
  start : 0 ≤ request.offset
  asks : 0 < request.length
  ends : request.offset + request.length = size

def Begins (results : Nat → LowRead) (chunks : List (List UInt8)) : Prop :=
  ∀ i chunk, chunks[i]? = some chunk → chunk ≠ [] ∧ results i = .got chunk

theorem placed_cons {α : Type} {P : Nat → α → Prop} {first : α} {rest : List α} :
    (∀ i x, (first :: rest)[i]? = some x → P i x) ↔ P 0 first ∧ ∀ i x, rest[i]? = some x → P (i + 1) x := by
  constructor
  · intro all
    exact ⟨all 0 first rfl, fun i x found => all (i + 1) x found⟩
  · rintro ⟨here, later⟩ i x found
    cases i with
    | zero =>
      obtain rfl : first = x := Option.some.inj found
      exact here
    | succ i => exact later i x found

theorem obeys_cons {results : Nat → LowRead} {request : Request} {requests : List Request} :
    Obeys results (request :: requests) ↔
      (∀ bytes, results 0 = .got bytes → bytes ≠ [] ∧ bytes.length ≤ request.length) ∧
        Obeys (fun i => results (i + 1)) requests :=
  placed_cons

theorem begins_cons {results : Nat → LowRead} {chunk : List UInt8} {chunks : List (List UInt8)} :
    Begins results (chunk :: chunks) ↔
      (chunk ≠ [] ∧ results 0 = .got chunk) ∧ Begins (fun i => results (i + 1)) chunks :=
  placed_cons

abbrev onward (turns : Nat) (results : Nat → LowRead) (data before : List UInt8) :
    List Request × Option (Int × Frame) :=
  run turns results before.length (overlay data 0 before)

variable {data : Frame}

theorem request_inside (small : data.length < 2 ^ 31) {before : List UInt8}
    (unfinished : before.length < data.length) :
    request before.length (overlay data 0 before) = ⟨before.length, data.length - before.length⟩ := by
  rw [request, length_overlay data 0 before (by omega), ← Nat.cast_sub (by omega), asSize_count (by omega)]

theorem pass_chunk (small : data.length < 2 ^ 31) {before bytes : List UInt8}
    (fits : before.length + bytes.length ≤ data.length) :
    pass before.length (overlay data 0 before) (.got bytes) =
      if (before ++ bytes).length < data.length then
        .more (before ++ bytes).length (overlay data 0 (before ++ bytes))
      else .returned (before ++ bytes).length (overlay data 0 (before ++ bytes)) := by
  have count : toInt ((before.length : Int) + bytes.length) = (before ++ bytes).length := by
    rw [List.length_append, toInt_small (by omega) (by omega)]
    rfl
  have size : (overlay data 0 (before ++ bytes)).length = data.length :=
    length_overlay data 0 _ (by rw [List.length_append]; omega)
  have index : asSize (before ++ bytes).length = (before ++ bytes).length :=
    asSize_count (by rw [List.length_append]; omega)
  simp only [pass, Int.toNat_natCast, overlay_overlay, count, size, index]

theorem run_more {results : Nat → LowRead} {readCnt readCnt' : Int} {data' : Frame} (turns : Nat)
    (turn : pass readCnt data (results 0) = .more readCnt' data') :
    run (turns + 1) results readCnt data =
      (request readCnt data :: (run turns (fun i => results (i + 1)) readCnt' data').1,
        (run turns (fun i => results (i + 1)) readCnt' data').2) := by
  rw [run, turn]

theorem run_returned {results : Nat → LowRead} {readCnt ret : Int} {data' : Frame} (turns : Nat)
    (turn : pass readCnt data (results 0) = .returned ret data') :
    run (turns + 1) results readCnt data = ([request readCnt data], some (ret, data')) := by
  rw [run, turn]

theorem onward_got (small : data.length < 2 ^ 31) {before bytes : List UInt8} {turns : Nat}
    {results : Nat → LowRead} (first : results 0 = .got bytes)
    (less : (before ++ bytes).length < data.length) :
    onward (turns + 1) results data before =
      (request before.length (overlay data 0 before) ::
          (onward turns (fun i => results (i + 1)) data (before ++ bytes)).1,
        (onward turns (fun i => results (i + 1)) data (before ++ bytes)).2) := by
  have fits := less
  rw [List.length_append] at fits
  apply run_more
  rw [first, pass_chunk small (by omega), if_pos less]

theorem onward_full (small : data.length < 2 ^ 31) {before bytes : List UInt8} {turns : Nat}
    {results : Nat → LowRead} (first : results 0 = .got bytes)
    (full : (before ++ bytes).length = data.length) :
    onward (turns + 1) results data before =
      ([request before.length (overlay data 0 before)], some ((data.length : Int), before ++ bytes)) := by
  have fits := full
  rw [List.length_append] at fits
  apply run_returned
  rw [first, pass_chunk small (by omega), if_neg (by omega), overlay_full data _ full, full]

theorem onward_returns {before : List UInt8} {turns : Nat} {results : Nat → LowRead} (ret : Int)
    (first : results 0 = .idle ∧ ret = (if before.length = 0 then -1 else (before.length : Int)) ∨
      ∃ code, results 0 = .failed code ∧ ret = negative code) :
    onward (turns + 1) results data before =
      ([request before.length (overlay data 0 before)], some (ret, overlay data 0 before)) := by
  apply run_returned
  rcases first with ⟨idle, result⟩ | ⟨code, failed, result⟩
  · simp only [idle, pass, Int.natCast_eq_zero, result]
  · simp only [failed, pass, result]

structure Ends (size left : Nat) (outcome : List Request × Option (Int × Frame)) : Prop where
  soon : outcome.1.length ≤ left
  inside : ∀ request ∈ outcome.1, request.Inside size
  returns : ∃ ret data', outcome.2 = some (ret, data') ∧ ret ≤ size ∧ data'.length = size

theorem asked_inside (small : data.length < 2 ^ 31) {before : List UInt8}
    (unfinished : before.length < data.length) :
    (request before.length (overlay data 0 before)).Inside data.length := by
  rw [request_inside small unfinished]
  exact ⟨by simp, by simp; omega, by simp; omega⟩

theorem ends_here (small : data.length < 2 ^ 31) {before : List UInt8} {left : Nat} {ret : Int} {data' : Frame}
    (unfinished : before.length < data.length) (some_left : 1 ≤ left) (bound : ret ≤ data.length)
    (size : data'.length = data.length) :
    Ends data.length left ([request before.length (overlay data 0 before)], some (ret, data')) := by
  refine ⟨some_left, ?_, ret, data', rfl, bound, size⟩
  intro asked member
  rw [List.mem_singleton.mp member]
  exact asked_inside small unfinished

theorem first_chunk (small : data.length < 2 ^ 31) {turns : Nat} {results : Nat → LowRead}
    {before bytes : List UInt8} (unfinished : before.length < data.length)
    (obeys : Obeys results (onward (turns + 1) results data before).1) (first : results 0 = .got bytes) :
    0 < bytes.length ∧ before.length + bytes.length ≤ data.length := by
  have asked : (onward (turns + 1) results data before).1[0]? =
      some (request before.length (overlay data 0 before)) := by
    rw [onward, run]
    cases pass before.length (overlay data 0 before) (results 0) <;> rfl
  obtain ⟨some_bytes, at_most⟩ := obeys 0 _ asked bytes first
  rw [request_inside small unfinished] at at_most
  simp only at at_most
  exact ⟨List.length_pos_iff.mpr some_bytes, by omega⟩

theorem onward_ends (small : data.length < 2 ^ 31) (turns : Nat) (results : Nat → LowRead)
    (before : List UInt8)
    (unfinished : before.length < data.length) (enough : data.length - before.length ≤ turns)
    (obeys : Obeys results (onward turns results data before).1) :
    Ends data.length (data.length - before.length) (onward turns results data before) := by
  have size : (overlay data 0 before).length = data.length := length_overlay data 0 before (by omega)
  induction turns generalizing results before with
  | zero => omega
  | succ turns ih =>
    cases first : results 0 with
    | idle =>
      rw [onward_returns _ (Or.inl ⟨first, rfl⟩)]
      exact ends_here small unfinished (by omega) (by split <;> omega) size
    | failed code =>
      rw [onward_returns _ (Or.inr ⟨code, first, rfl⟩)]
      exact ends_here small unfinished (by omega) (by unfold negative; omega) size
    | got bytes =>
      obtain ⟨positive, at_most⟩ := first_chunk small unfinished obeys first
      have longer : (before ++ bytes).length = before.length + bytes.length := List.length_append
      by_cases less : (before ++ bytes).length < data.length
      · rw [onward_got small first less] at obeys ⊢
        have later := ih (fun i => results (i + 1)) (before ++ bytes) less (by omega) (obeys_cons.mp obeys).2
          (length_overlay data 0 _ (by omega))
        refine ⟨?_, ?_, later.returns⟩
        · have soon := later.soon
          rw [List.length_cons]
          omega
        · intro asked member
          rcases List.mem_cons.mp member with rfl | member
          · exact asked_inside small unfinished
          · exact later.inside asked member
      · have full : (before ++ bytes).length = data.length := by omega
        rw [onward_full small first full]
        exact ends_here small unfinished (by omega) (by omega) full

theorem onward_chunks (small : data.length < 2 ^ 31) (chunks : List (List UInt8)) (turns : Nat)
    (results : Nat → LowRead) (before : List UInt8) (begins : Begins results chunks)
    (less : (before ++ chunks.flatten).length < data.length) (enough : chunks.length ≤ turns) :
    (onward turns results data before).2 =
      (onward (turns - chunks.length) (fun i => results (i + chunks.length)) data
        (before ++ chunks.flatten)).2 := by
  induction chunks generalizing turns results before with
  | nil => simp
  | cons chunk chunks ih =>
    obtain ⟨left, rfl⟩ : ∃ left, turns = left + 1 := by
      rw [List.length_cons] at enough
      exact ⟨turns - 1, by omega⟩
    obtain ⟨⟨_, first⟩, later⟩ := begins_cons.mp begins
    rw [List.flatten_cons, ← List.append_assoc] at less ⊢
    rw [List.length_append] at less
    rw [onward_got small first (by omega), ih left _ _ later (by rw [List.length_append]; omega)
      (by rw [List.length_cons] at enough; omega)]
    simp only [List.length_cons, Nat.add_sub_add_right, Nat.add_assoc]

theorem begins_append {results : Nat → LowRead} {chunks : List (List UInt8)} {last : List UInt8}
    (begins : Begins results (chunks ++ [last])) :
    Begins results chunks ∧ last ≠ [] ∧ results chunks.length = .got last := by
  constructor
  · intro i chunk found
    refine begins i chunk ?_
    rw [List.getElem?_append_left (List.getElem?_eq_some_iff.mp found).1]
    exact found
  · exact begins chunks.length last (by simp)

theorem begins_length {results : Nat → LowRead} {chunks : List (List UInt8)}
    (begins : Begins results chunks) :
    chunks.length ≤ chunks.flatten.length := by
  induction chunks generalizing results with
  | nil => exact Nat.le_refl 0
  | cons chunk chunks ih =>
    obtain ⟨⟨some_bytes, _⟩, later⟩ := begins_cons.mp begins
    have positive := List.length_pos_iff.mpr some_bytes
    have shorter := ih later
    rw [List.length_cons, List.flatten_cons, List.length_append]
    omega

theorem read_stopped (small : data.length < 2 ^ 31) {chunks : List (List UInt8)} {results : Nat → LowRead}
    {ret : Int} (begins : Begins results chunks) (less : chunks.flatten.length < data.length)
    (stops : results chunks.length = .idle ∧
        ret = (if chunks.flatten.length = 0 then -1 else (chunks.flatten.length : Int)) ∨
      ∃ code, results chunks.length = .failed code ∧ ret = negative code) :
    (onward data.length results data []).2 = some (ret, overlay data 0 chunks.flatten) := by
  have bound := begins_length begins
  obtain ⟨left, more⟩ : ∃ left, data.length - chunks.length = left + 1 :=
    ⟨data.length - chunks.length - 1, by omega⟩
  rw [onward_chunks small chunks data.length results [] begins less (by omega), more, List.nil_append,
    onward_returns ret]
  rwa [Nat.zero_add]

theorem read_filled (small : data.length < 2 ^ 31) (some_data : data ≠ []) {chunks : List (List UInt8)}
    {results : Nat → LowRead} (begins : Begins results chunks) (full : chunks.flatten.length = data.length) :
    (onward data.length results data []).2 = some ((data.length : Int), chunks.flatten) := by
  rcases List.eq_nil_or_concat chunks with rfl | ⟨earlier, last, rfl⟩
  · exact absurd (List.eq_nil_of_length_eq_zero full.symm) some_data
  · rw [List.concat_eq_append] at begins full ⊢
    obtain ⟨begins_earlier, some_bytes, final⟩ := begins_append begins
    have positive := List.length_pos_iff.mpr some_bytes
    have bound := begins_length begins_earlier
    have together : (earlier ++ [last]).flatten = earlier.flatten ++ last := by simp
    rw [together] at full ⊢
    have less := full
    rw [List.length_append] at less
    obtain ⟨left, more⟩ : ∃ left, data.length - earlier.length = left + 1 :=
      ⟨data.length - earlier.length - 1, by omega⟩
    rw [onward_chunks small earlier data.length results [] begins_earlier (by rw [List.nil_append]; omega)
      (by omega), more, List.nil_append, onward_full small _ full]
    rw [Nat.zero_add]
    exact final

theorem run_settled (extra : Nat) {turns : Nat} {results : Nat → LowRead} {readCnt : Int}
    (ended : (run turns results readCnt data).2.isSome = true) :
    run (turns + extra) results readCnt data = run turns results readCnt data := by
  induction turns generalizing results readCnt data with
  | zero => cases ended
  | succ turns ih =>
    rw [Nat.add_right_comm, run]
    rw [run] at ended ⊢
    cases turn : pass readCnt data (results 0) with
    | returned ret data' => rfl
    | more readCnt' data' =>
      simp only [turn] at ended ⊢
      rw [ih ended]

theorem device_run (device : Device) (turns : Nat) (results : Nat → LowRead) :
    device.read turns results data = run turns results 0 data := by
  cases device <;> rfl

theorem device_read (device : Device) (turns : Nat) (results : Nat → LowRead) :
    device.read turns results data = onward turns results data [] := by
  have untouched : overlay data 0 [] = data := by simp [overlay]
  rw [device_run, onward, untouched]
  rfl

theorem readLoop_chunk (rest : List LowRead) {before bytes : List UInt8} (positive : 0 < bytes.length)
    (fits : before.length + bytes.length ≤ data.length) :
    readLoop (.got bytes :: rest) before.length (overlay data 0 before) =
      if (before ++ bytes).length < data.length then
        readLoop rest (before ++ bytes).length (overlay data 0 (before ++ bytes))
      else if rest = [] then some (((before ++ bytes).length : Nat), overlay data 0 (before ++ bytes))
      else none := by
  have size : (overlay data 0 before).length = data.length := length_overlay data 0 before (by omega)
  have next_size : (overlay data 0 (before ++ bytes)).length = data.length :=
    length_overlay data 0 _ (by rw [List.length_append]; omega)
  have possible : ¬(bytes = [] ∨ data.length - before.length < bytes.length) := by
    rw [not_or]
    exact ⟨List.length_pos_iff.mp positive, by omega⟩
  rw [readLoop, size, if_neg possible, overlay_overlay]
  simp only [next_size, List.length_append]

theorem onward_readLoop (small : data.length < 2 ^ 31) (turns : Nat) (results : Nat → LowRead)
    (before : List UInt8)
    (unfinished : before.length < data.length) (enough : data.length - before.length ≤ turns)
    (obeys : Obeys results (onward turns results data before).1) :
    readLoop ((List.range (onward turns results data before).1.length).map results) before.length
        (overlay data 0 before) =
      (onward turns results data before).2 := by
  induction turns generalizing results before with
  | zero => omega
  | succ turns ih =>
    have size : (overlay data 0 before).length = data.length := length_overlay data 0 before (by omega)
    cases first : results 0 with
    | idle =>
      rw [onward_returns _ (Or.inl ⟨first, rfl⟩)]
      simp [readLoop, first]
    | failed code =>
      rw [onward_returns _ (Or.inr ⟨code, first, rfl⟩)]
      simp [readLoop, first]
    | got bytes =>
      obtain ⟨positive, at_most⟩ := first_chunk small unfinished obeys first
      have longer : (before ++ bytes).length = before.length + bytes.length := List.length_append
      by_cases less : (before ++ bytes).length < data.length
      · rw [onward_got small first less] at obeys ⊢
        have later := ih (fun i => results (i + 1)) (before ++ bytes) less (by omega) (obeys_cons.mp obeys).2
        rw [List.length_cons, List.range_succ_eq_map, List.map_cons, List.map_map, first,
          readLoop_chunk _ positive at_most, if_pos less]
        exact later
      · have full : (before ++ bytes).length = data.length := by omega
        rw [onward_full small first full, List.length_singleton, List.range_one, List.map_singleton, first,
          readLoop_chunk _ positive at_most, if_neg less, if_pos rfl, full, overlay_full data _ full]

theorem read_scripted (device : Device) (some_data : data ≠ []) (small : data.length < 2 ^ 31)
    {results : Nat → LowRead} (obeys : Obeys results (device.read data.length results data).1) :
    readLoop ((List.range (device.read data.length results data).1.length).map results) 0 data =
      (device.read data.length results data).2 := by
  have untouched : overlay data 0 [] = data := by simp [overlay]
  rw [device_read] at obeys ⊢
  have scripted := onward_readLoop small data.length results [] (List.length_pos_iff.mpr some_data)
    (Nat.sub_le _ _) obeys
  rw [untouched] at scripted
  exact scripted

/-- How a Read depends on the low-level reads: on the bytes they bring, not on where they
    are cut. -/
theorem read_in_chunks (device : Device) (data : Frame) (some_data : data ≠ []) (small : data.length < 2 ^ 31)
    (results : Nat → LowRead) (obeys : Obeys results (device.read data.length results data).1) :
    Ends data.length data.length (device.read data.length results data) ∧
    (∀ turns, data.length ≤ turns →
      device.read turns results data = device.read data.length results data) ∧
    (∀ chunks, Begins results chunks → chunks.flatten.length = data.length →
      (device.read data.length results data).2 = some ((data.length : Int), chunks.flatten)) ∧
    (∀ results' chunks chunks', Begins results chunks → Begins results' chunks' →
      chunks.flatten = chunks'.flatten → chunks.flatten.length = data.length →
      (device.read data.length results data).2 = (device.read data.length results' data).2) ∧
    (∀ chunks, Begins results chunks → chunks ≠ [] → chunks.flatten.length < data.length →
      results chunks.length = .idle →
      (device.read data.length results data).2 =
        some ((chunks.flatten.length : Int), chunks.flatten ++ data.drop chunks.flatten.length)) ∧
    (results 0 = .idle → (device.read data.length results data).2 = some (-1, data)) := by
  have positive := List.length_pos_iff.mpr some_data
  have filled : ∀ chunks results', Begins results' chunks → chunks.flatten.length = data.length →
      (device.read data.length results' data).2 = some ((data.length : Int), chunks.flatten) := by
    intro chunks results' begins full
    rw [device_read]
    exact read_filled small some_data begins full
  have ends : Ends data.length data.length (device.read data.length results data) := by
    rw [device_read] at obeys ⊢
    exact onward_ends small data.length results [] positive (Nat.sub_le _ _) obeys
  refine ⟨ends, ?_, fun chunks => filled chunks results, ?_, ?_, ?_⟩
  · intro turns enough
    obtain ⟨ret, data', returned, _⟩ := ends.returns
    obtain ⟨extra, rfl⟩ := Nat.exists_eq_add_of_le enough
    rw [device_read] at returned
    rw [device_read, device_read]
    exact run_settled extra (by rw [returned]; rfl)
  · intro results' chunks chunks' begins begins' same full
    rw [filled chunks results begins full, filled chunks' results' begins' (same ▸ full), same]
  · intro chunks begins some_chunks less idle
    have bound := begins_length begins
    have some_read := List.length_pos_iff.mpr some_chunks
    rw [device_read, read_stopped small begins less (Or.inl ⟨idle, rfl⟩), if_neg (by omega)]
    simp [overlay]
  · intro idle
    have begins : Begins results [] := by
      intro i chunk found
      cases found
    rw [device_read, read_stopped small begins positive (Or.inl ⟨idle, rfl⟩)]
    simp [overlay]

/-- Two bytes and two more come as one chunk of four or as three chunks. -/
theorem read_in_chunks_four :
    (Device.hidApiDev.read 4 (fun _ => .got [1, 2, 3, 4]) [0, 0, 0, 0]).2 =
      (Device.hidApiDev.read 4 (fun i => .got (if i = 0 then [1] else if i = 1 then [2, 3] else [4]))
        [0, 0, 0, 0]).2 := by
  have obeys : Obeys (fun _ => .got [1, 2, 3, 4])
      (Device.hidApiDev.read 4 (fun _ => .got [1, 2, 3, 4]) [0, 0, 0, 0]).1 := by
    intro i asked found bytes first
    obtain rfl : [1, 2, 3, 4] = bytes := LowRead.got.inj first
    cases i with
    | zero =>
      obtain rfl := Option.some.inj found
      exact ⟨by decide, by decide⟩
    | succ i => cases found
  refine (read_in_chunks .hidApiDev [0, 0, 0, 0] (by decide) (by decide) _ obeys).2.2.2.1 _
    [[1, 2, 3, 4]] [[1], [2, 3], [4]] ?_ ?_ rfl rfl
  · intro i chunk found
    match i with
    | 0 =>
      obtain rfl := Option.some.inj found
      exact ⟨by decide, rfl⟩
    | _ + 1 => cases found
  · intro i chunk found
    match i with
    | 0 | 1 | 2 =>
      obtain rfl := Option.some.inj found
      exact ⟨by decide, rfl⟩
    | _ + 3 => cases found

theorem first_half {half : List UInt8} (half_size : half.length = 2 ^ 30)
    (size : (overlay data 0 half).length = 2 ^ 31) :
    pass 0 data (.got half) = .more (2 ^ 30) (overlay data 0 half) := by
  have count : toInt (0 + (2 ^ 30 : Nat)) = 2 ^ 30 := by decide
  have less : asSize (2 ^ 30) < 2 ^ 31 := by decide
  simp only [pass, Int.toNat_zero, half_size, count, size, if_pos less]

theorem second_half {half : List UInt8} (half_size : half.length = 2 ^ 30)
    (full : (half ++ half).length = data.length) (size : data.length = 2 ^ 31) :
    pass (2 ^ 30) (overlay data 0 half) (.got half) = .returned (-2 ^ 31) (half ++ half) := by
  have count : toInt (2 ^ 30 + (2 ^ 30 : Nat)) = -2 ^ 31 := by decide
  have index : ((2 : Int) ^ 30).toNat = half.length := by omega
  have enough : ¬asSize (-2 ^ 31) < 2 ^ 31 := by decide
  simp only [pass, index, overlay_overlay, overlay_full data _ full, full, size]
  rw [half_size, count, if_neg enough]

theorem halves_wrap {half : List UInt8} (size : data.length = 2 ^ 31) (half_size : half.length = 2 ^ 30)
    (device : Device) (turns : Nat) :
    device.read (turns + 2) (fun _ => .got half) data =
      ([⟨0, 2 ^ 31⟩, ⟨2 ^ 30, 2 ^ 30⟩], some (-2 ^ 31, half ++ half)) := by
  have first_size : (overlay data 0 half).length = 2 ^ 31 := by
    rw [length_overlay data 0 half (by omega), size]
  have full : (half ++ half).length = data.length := by
    rw [List.length_append]
    omega
  have first_length : asSize ((2 ^ 31 : Nat) - 0) = 2 ^ 31 := by decide
  have second_length : asSize ((2 ^ 31 : Nat) - 2 ^ 30) = 2 ^ 30 := by decide
  have first_request : request 0 data = ⟨0, 2 ^ 31⟩ := by rw [request, size, first_length]
  have second_request : request (2 ^ 30) (overlay data 0 half) = ⟨2 ^ 30, 2 ^ 30⟩ := by
    rw [request, first_size, second_length]
  rw [device_run, run_more (turns + 1) (first_half half_size first_size),
    run_returned turns (second_half half_size full size), first_request, second_request]

/-- The count returned for a vector of 2^31 bytes that two chunks fill is -2^31. -/
theorem long_vector_count_wraps :
    ∃ (data half : Frame) (results : Nat → LowRead),
      data = List.replicate (2 ^ 31) 0 ∧ half = List.replicate (2 ^ 30) 1 ∧ results = (fun _ => .got half) ∧
      data ≠ [] ∧ Obeys results (Device.hidApiDev.read data.length results data).1 ∧
      Begins results [half, half] ∧ [half, half].flatten.length = data.length ∧
      (Device.hidApiDev.read data.length results data).2 = some (-2 ^ 31, [half, half].flatten) := by
  refine ⟨_, _, _, rfl, rfl, rfl, ?_⟩
  have size : (List.replicate (2 ^ 31) (0 : UInt8)).length = 2 ^ 31 := List.length_replicate
  have half_size : (List.replicate (2 ^ 30) (1 : UInt8)).length = 2 ^ 30 := List.length_replicate
  generalize List.replicate (2 ^ 31) (0 : UInt8) = data at size
  generalize List.replicate (2 ^ 30) (1 : UInt8) = half at half_size
  have some_half : half ≠ [] := List.length_pos_iff.mp (by omega)
  have read := halves_wrap size half_size .hidApiDev (2 ^ 31 - 2)
  rw [show (2 ^ 31 - 2 + 2 : Nat) = data.length by omega] at read
  rw [read]
  refine ⟨List.length_pos_iff.mp (by omega), ?_, ?_, ?_, ?_⟩
  · intro i asked found bytes got
    obtain rfl : half = bytes := LowRead.got.inj got
    refine ⟨some_half, ?_⟩
    match i with
    | 0 =>
      obtain rfl := Option.some.inj found
      simp only
      omega
    | 1 =>
      obtain rfl := Option.some.inj found
      simp only
      omega
    | _ + 2 => cases found
  · intro i chunk found
    match i with
    | 0 | 1 =>
      obtain rfl := Option.some.inj found
      exact ⟨some_half, rfl⟩
    | _ + 2 => cases found
  · simp only [List.flatten_cons, List.flatten_nil, List.append_nil, List.length_append]
    omega
  · simp

end Chunks
