import GyroDsu.Sdgyro.SdHidFrame
import Mathlib.Data.List.Basic

/-
HidApiDev and HidDevFile: Read fills a vector from as many low-level reads as it takes.
The low-level reads are scripted: a list of what they returned, of which the loop uses
all.
-/
namespace DeviceRead
open SdHidFrame

/-- What hid_read_timeout or read returned: a positive count of bytes written, 0, or a
    negative int. -/
inductive LowRead where
  | got (bytes : List UInt8)
  | idle
  | failed (code : Fin (2 ^ 31))
  deriving DecidableEq, Repr

def negative (code : Fin (2 ^ 31)) : Int := -(code.val + 1 : Int)

def overlay (data : Frame) (offset : Nat) (bytes : List UInt8) : Frame :=
  data.take offset ++ bytes ++ data.drop (offset + bytes.length)

/-- The do-while loop of both Read methods: the result and the content of the vector.
    No result means that no device returns this list: a chunk is empty or longer than
    requested, or the list ends before the loop does or goes on after it. -/
def readLoop : List LowRead → Nat → Frame → Option (Int × Frame)
  | [], _, _ => none
  | .got bytes :: rest, readCnt, data =>
    if bytes = [] ∨ data.length - readCnt < bytes.length then none
    else
      let data := overlay data readCnt bytes
      let readCnt := readCnt + bytes.length
      if readCnt < data.length then readLoop rest readCnt data
      else if rest = [] then some (readCnt, data) else none
  | .idle :: rest, readCnt, data =>
    if rest = [] then some (if readCnt = 0 then -1 else (readCnt : Int), data) else none
  | .failed code :: rest, _, data => if rest = [] then some (negative code, data) else none

def hidApiDevRead (opened : Bool) (results : List LowRead) (data : Frame) : Option (Int × Frame) :=
  if opened then readLoop results 0 data else if results = [] then some (0, data) else none

inductive Poll where
  | ready
  | timeout
  | failed (code : Fin (2 ^ 31))
  deriving DecidableEq, Repr

structure FileResults where
  poll : Poll
  reads : List LowRead
  deriving DecidableEq, Repr

def hidDevFileRead (opened : Bool) (results : FileResults) (data : Frame) : Option (Int × Frame) :=
  match opened, results.poll with
  | false, _ => if results.reads = [] then some (0, data) else none
  | true, .timeout => if results.reads = [] then some (0, data) else none
  | true, .failed code => if results.reads = [] then some (negative code, data) else none
  | true, .ready => readLoop results.reads 0 data

def written : List LowRead → List UInt8
  | [] => []
  | .got bytes :: rest => bytes ++ written rest
  | _ :: rest => written rest

def Filled (results : List LowRead) (size : Nat) : Prop :=
  (∀ r ∈ results, ∃ bytes, r = .got bytes) ∧ written results ≠ [] ∧ (written results).length = size

/-- A low-level read failed, or not a single byte came. -/
def Refused (results : List LowRead) : Prop :=
  written results = [] ∨ ∃ code, .failed code ∈ results

theorem length_overlay (data : Frame) (offset : Nat) (bytes : List UInt8)
    (fits : offset + bytes.length ≤ data.length) : (overlay data offset bytes).length = data.length := by
  simp only [overlay, List.length_append, List.length_take, List.length_drop]
  omega

theorem overlay_overlay (data : Frame) (first second : List UInt8) :
    overlay (overlay data 0 first) first.length second = overlay data 0 (first ++ second) := by
  simp only [overlay, List.take_zero, List.nil_append, Nat.zero_add]
  rw [List.take_left, ← List.drop_drop, List.drop_left, List.drop_drop, List.length_append]

theorem overlay_full (data : Frame) (bytes : List UInt8) (same : bytes.length = data.length) :
    overlay data 0 bytes = bytes := by
  simp [overlay, same]

inductive ReadTurn (rest : List LowRead) (readCnt : Nat) (data : Frame) (ret : Int) (data' : Frame) :
    LowRead → Prop where
  | more (bytes : List UInt8) (some_bytes : bytes ≠ []) (less : readCnt + bytes.length < data.length)
      (onward : readLoop rest (readCnt + bytes.length) (overlay data readCnt bytes) = some (ret, data')) :
      ReadTurn rest readCnt data ret data' (.got bytes)
  | full (bytes : List UInt8) (some_bytes : bytes ≠ []) (full : readCnt + bytes.length = data.length)
      (ends : rest = []) (result : ret = data.length) (content : data' = overlay data readCnt bytes) :
      ReadTurn rest readCnt data ret data' (.got bytes)
  | idle (ends : rest = []) (result : ret = if readCnt = 0 then -1 else (readCnt : Int))
      (content : data' = data) : ReadTurn rest readCnt data ret data' .idle
  | failed (code : Fin (2 ^ 31)) (ends : rest = []) (result : ret = negative code) (content : data' = data) :
      ReadTurn rest readCnt data ret data' (.failed code)

theorem readLoop_turn {r : LowRead} {rest : List LowRead} {readCnt : Nat} {data data' : Frame} {ret : Int}
    (done : readLoop (r :: rest) readCnt data = some (ret, data')) :
    ReadTurn rest readCnt data ret data' r := by
  cases r with
  | got bytes =>
    rw [readLoop] at done
    split at done
    · cases done
    · rename_i possible
      rw [not_or, Nat.not_lt] at possible
      obtain ⟨some_bytes, fits⟩ := possible
      have positive := List.length_pos_iff.mpr some_bytes
      have within_size : readCnt + bytes.length ≤ data.length := by omega
      have same := length_overlay data readCnt bytes within_size
      simp only [same] at done
      split at done
      · rename_i less
        exact .more bytes some_bytes less done
      · rename_i enough
        split at done
        · rename_i ends
          obtain ⟨rfl, rfl⟩ : ((readCnt + bytes.length : Nat) : Int) = ret ∧ _ = data' := by simpa using done
          have full : readCnt + bytes.length = data.length := by omega
          exact .full bytes some_bytes full ends (by rw [full]) rfl
        · cases done
  | idle =>
    rw [readLoop] at done
    split at done
    · rename_i ends
      obtain ⟨result, content⟩ : (if readCnt = 0 then -1 else (readCnt : Int)) = ret ∧ data = data' := by
        simpa using done
      exact .idle ends result.symm content.symm
    · cases done
  | failed code =>
    rw [readLoop] at done
    split at done
    · rename_i ends
      obtain ⟨result, content⟩ : negative code = ret ∧ data = data' := by simpa using done
      exact .failed code ends result.symm content.symm
    · cases done

inductive ReadEnd (size : Nat) (results : List LowRead) (ret : Int) (all : List UInt8) : Prop where
  | full (reads : ∀ r ∈ results, ∃ bytes, r = .got bytes) (some_bytes : all ≠ [])
      (length : all.length = size) (result : ret = size)
  | short (last : .idle ∈ results) (fine : ∀ code, .failed code ∉ results)
      (length : all.length < size ∨ all = []) (result : ret = if all = [] then -1 else (all.length : Int))
  | failed (code : Fin (2 ^ 31)) (member : .failed code ∈ results) (result : ret = negative code)

theorem readEnd_cons {size : Nat} {results : List LowRead} {ret : Int} {all bytes : List UInt8}
    (ending : ReadEnd size results ret all) : ReadEnd size (.got bytes :: results) ret all := by
  cases ending with
  | full reads some_bytes length result =>
    refine .full ?_ some_bytes length result
    intro r member
    rcases List.mem_cons.mp member with first | later
    · exact ⟨bytes, first⟩
    · exact reads r later
  | short last fine length result =>
    refine .short (List.mem_cons_of_mem _ last) ?_ length result
    intro code member
    rcases List.mem_cons.mp member with first | later
    · cases first
    · exact fine code later
  | failed code member result => exact .failed code (List.mem_cons_of_mem _ member) result

/-- The loop after `before` has been read, by induction on the low-level reads. -/
theorem readLoop_cases (results : List LowRead) (before : List UInt8) (data : Frame)
    (unfinished : before.length < data.length ∨ before = []) {ret : Int} {data' : Frame}
    (done : readLoop results before.length (overlay data 0 before) = some (ret, data')) :
    data' = overlay data 0 (before ++ written results) ∧
      (before ++ written results).length ≤ data.length ∧
      ReadEnd data.length results ret (before ++ written results) := by
  have fits : before.length ≤ data.length := by
    rcases unfinished with less | rfl
    · omega
    · exact Nat.zero_le _
  induction results generalizing before with
  | nil => cases done
  | cons r rest ih =>
    have same : (overlay data 0 before).length = data.length := length_overlay data 0 before (by omega)
    have joined := overlay_overlay data before
    cases readLoop_turn done with
    | more bytes some_bytes less onward =>
      rw [same] at less
      rw [joined, ← List.length_append] at onward
      rw [← List.length_append] at less
      have reads : before ++ written (.got bytes :: rest) = before ++ bytes ++ written rest := by
        rw [written, List.append_assoc]
      obtain ⟨content, within_size, ending⟩ := ih (before ++ bytes) (Or.inl less) onward (by omega)
      rw [reads]
      exact ⟨content, within_size, readEnd_cons ending⟩
    | full bytes some_bytes full ends result content =>
      subst ends
      rw [same] at full result
      rw [joined] at content
      rw [← List.length_append] at full
      simp only [written, List.append_nil]
      refine ⟨content, by omega, .full ?_ (by simp [some_bytes]) full result⟩
      intro r member
      exact ⟨bytes, List.mem_singleton.mp member⟩
    | idle ends result content =>
      subst ends
      simp only [written, List.append_nil]
      simp only [List.length_eq_zero_iff] at result
      exact ⟨content, fits, .short (by simp) (by simp) unfinished result⟩
    | failed code ends result content =>
      subst ends
      simp only [written, List.append_nil]
      exact ⟨content, fits, .failed code (by simp) result⟩

theorem refused_not_filled {results : List LowRead} {size : Nat} (refused : Refused results) :
    ¬Filled results size := by
  rintro ⟨all, some_bytes, _⟩
  rcases refused with empty | ⟨code, failed⟩
  · exact some_bytes empty
  · obtain ⟨bytes, other⟩ := all _ failed
    cases other

structure ReadDone (results : List LowRead) (data data' : Frame) (ret : Int) : Prop where
  content : data' = overlay data 0 (written results)
  fits : (written results).length ≤ data.length
  ending : Filled results data.length ∧ ret = data.length ∨
    Refused results ∧ (∃ code, ret = negative code) ∨
    ¬Filled results data.length ∧ ¬Refused results ∧ 0 < ret ∧ ret < data.length

theorem readLoop_done {results : List LowRead} {data data' : Frame} {ret : Int}
    (done : readLoop results 0 data = some (ret, data')) : ReadDone results data data' ret := by
  have untouched : overlay data 0 [] = data := by simp [overlay]
  obtain ⟨content, within_size, ending⟩ := readLoop_cases results [] data (Or.inr rfl)
    (by rwa [untouched])
  rw [List.nil_append] at content within_size ending
  refine ⟨content, within_size, ?_⟩
  cases ending with
  | full reads some_bytes length result => exact Or.inl ⟨⟨reads, some_bytes, length⟩, result⟩
  | failed code member result => exact Or.inr (Or.inl ⟨Or.inr ⟨code, member⟩, code, result⟩)
  | short last fine length result =>
    by_cases empty : written results = []
    · rw [if_pos empty] at result
      exact Or.inr (Or.inl ⟨Or.inl empty, ⟨0, by decide⟩, by rw [result]; rfl⟩)
    · have not_filled : ¬Filled results data.length := by
        rintro ⟨reads, _⟩
        obtain ⟨bytes, other⟩ := reads _ last
        cases other
      have not_refused : ¬Refused results := by
        rintro (nothing | ⟨code, failed⟩)
        · exact empty nothing
        · exact fine code failed
      have positive := List.length_pos_iff.mpr empty
      have less := length.resolve_right empty
      rw [if_neg empty] at result
      exact Or.inr (Or.inr ⟨not_filled, not_refused, by omega, by omega⟩)

end DeviceRead
