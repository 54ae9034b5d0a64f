import GyroDsu.Hiddev.ReadData

/-
Which turns of the reading loops publish a frame that their own Read wrote from the
first byte to the last. The count Read returns is compared as a size_t, so a negative
one is taken for more than enough.
-/
namespace CompleteFrames
open SdHidFrame DeviceRead Pipe SignalOut ReadData

variable {R : Type}

/-- What is sent is the vector the Read was given, and the low-level reads wrote all of
    it: `reads` picks them from the results. -/
def Complete (reads : R → List LowRead) (turn : Turn R) : Prop :=
  turn.current.1 = turn.buffer ∧ Filled (reads turn.results) turn.before.length ∧
    turn.current.2 = written (reads turn.results)

/-- The vector the Read was given is the one to be sent: the next stage has not flushed
    the pipe since. -/
def Kept (turn : Turn R) : Prop := turn.current.1 = turn.buffer

def CleanApi (turn : Turn (List LowRead)) : Prop :=
  ¬(turn.opened = true ∧ Refused turn.results) ∧
    (Filled turn.results turn.before.length → Kept turn)

def RefusedFile (results : FileResults) : Prop :=
  (∃ code, results.poll = .failed code) ∨ results.poll = .ready ∧ Refused results.reads

def CleanFile (startMarker : List UInt8) (turn : Turn FileResults) : Prop :=
  startsFrame startMarker turn.tested.2 = true →
    ¬(turn.opened = true ∧ RefusedFile turn.results) ∧
      (Filled turn.results.reads turn.before.length → Kept turn)

theorem asSize_negative (code : Fin (2 ^ 31)) : 2 ^ 31 ≤ asSize (negative code) := by
  have bound := code.isLt
  unfold asSize negative
  omega

theorem examineApi_full {data : Frame} (some_data : data ≠ []) (small : data.length < 2 ^ 31) :
    examineApi data.length data = .publish := by
  have positive := List.length_pos_iff.mpr some_data
  have same := asSize_count (n := data.length) (by omega)
  unfold examineApi
  rw [same, if_neg (by omega), if_neg (by omega)]

theorem examineApi_negative (code : Fin (2 ^ 31)) {data : Frame} (small : data.length < 2 ^ 31) :
    examineApi (negative code) data = .publish := by
  have large := asSize_negative code
  unfold examineApi
  rw [if_neg (by omega), if_neg (by unfold negative; omega)]

theorem examineApi_short {n : Int} {data : Frame} (positive : 0 ≤ n) (less : n < data.length ∨ n = 0)
    (small : data.length < 2 ^ 31) : examineApi n data ≠ .publish := by
  unfold examineApi
  split
  · decide
  · split
    · decide
    · rename_i enough nonzero
      unfold asSize at enough
      omega

theorem examineFile_enough (startMarker : List UInt8) {n : Int} {data : Frame} (nonzero : n ≠ 0)
    (enough : data.length ≤ asSize n) :
    examineFile startMarker n data = .publish ↔ startsFrame startMarker data = true := by
  have not_less : ¬asSize n < data.length := by omega
  unfold examineFile checkData
  simp only [nonzero, if_false, not_less, decide_false, Bool.not_false, Bool.true_and, Bool.false_or,
    Bool.not_not]
  cases startsFrame startMarker data <;> simp

theorem examineFile_short (startMarker : List UInt8) {n : Int} {data : Frame} (positive : 0 ≤ n)
    (less : n < data.length ∨ n = 0) (small : data.length < 2 ^ 31) :
    examineFile startMarker n data ≠ .publish := by
  unfold examineFile checkData
  by_cases zero : n = 0
  · rw [if_pos zero]
    decide
  · have short : asSize n < data.length := by
      unfold asSize
      omega
    simp [zero, short]

theorem filled_content {results : List LowRead} {data data' : Frame} {ret : Int}
    (done : ReadDone results data data' ret) (filled : Filled results data.length) :
    data' = written results := by
  rw [done.content]
  exact overlay_full data (written results) filled.2.2

theorem not_filled_nil (size : Nat) : ¬Filled [] size := fun filled => filled.2.1 rfl

theorem api_read_cases {opened : Bool} {results : List LowRead} {data data' : Frame} {ret : Int}
    (done : hidApiDevRead opened results data = some (ret, data')) :
    (opened = true ∧ ReadDone results data data' ret) ∨
      (opened = false ∧ results = [] ∧ data' = data ∧ ret = 0) := by
  cases opened with
  | true => exact Or.inl ⟨rfl, readLoop_done done⟩
  | false =>
    simp only [hidApiDevRead, Bool.false_eq_true, if_false] at done
    split at done
    · rename_i none_read
      obtain ⟨rfl, rfl⟩ : (0 : Int) = ret ∧ data = data' := by simpa using done
      exact Or.inr ⟨rfl, none_read, rfl, rfl⟩
    · cases done

theorem done_keeps {results : List LowRead} {data data' : Frame} {ret : Int}
    (done : ReadDone results data data' ret) : data'.length = data.length := by
  rw [done.content]
  apply length_overlay
  rw [Nat.zero_add]
  exact done.fits

theorem api_keeps (opened : Bool) (results : List LowRead) (data : Frame) (ret : Int) (data' : Frame)
    (done : hidApiDevRead opened results data = some (ret, data')) : data'.length = data.length := by
  rcases api_read_cases done with ⟨_, read⟩ | ⟨_, _, same, _⟩
  · exact done_keeps read
  · rw [same]

theorem file_read_cases {opened : Bool} {results : FileResults} {data data' : Frame} {ret : Int}
    (done : hidDevFileRead opened results data = some (ret, data')) :
    (opened = true ∧ results.poll = .ready ∧ ReadDone results.reads data data' ret) ∨
    (results.reads = [] ∧ data' = data ∧
      ((opened = true ∧ ∃ code, results.poll = .failed code ∧ ret = negative code) ∨
        ((opened = false ∨ results.poll = .timeout) ∧ ret = 0))) := by
  unfold hidDevFileRead at done
  split at done
  · split at done
    · rename_i none_read
      obtain ⟨rfl, rfl⟩ : (0 : Int) = ret ∧ data = data' := by simpa using done
      exact Or.inr ⟨none_read, rfl, Or.inr ⟨Or.inl rfl, rfl⟩⟩
    · cases done
  · rename_i poll
    split at done
    · rename_i none_read
      obtain ⟨rfl, rfl⟩ : (0 : Int) = ret ∧ data = data' := by simpa using done
      exact Or.inr ⟨none_read, rfl, Or.inr ⟨Or.inr poll, rfl⟩⟩
    · cases done
  · rename_i code poll
    split at done
    · rename_i none_read
      obtain ⟨rfl, rfl⟩ : negative code = ret ∧ data = data' := by simpa using done
      exact Or.inr ⟨none_read, rfl, Or.inl ⟨rfl, code, poll, rfl⟩⟩
    · cases done
  · rename_i poll
    exact Or.inl ⟨rfl, poll, readLoop_done done⟩

theorem file_keeps (opened : Bool) (results : FileResults) (data : Frame) (ret : Int) (data' : Frame)
    (done : hidDevFileRead opened results data = some (ret, data')) : data'.length = data.length := by
  rcases file_read_cases done with ⟨_, _, read⟩ | ⟨_, same, _⟩
  · exact done_keeps read
  · rw [same]

theorem complete_iff {reads : R → List LowRead} {turn : Turn R} {after : Frame}
    (content : turn.current.1 = turn.buffer → turn.current.2 = after)
    (fills : Filled (reads turn.results) turn.before.length → after = written (reads turn.results)) :
    Complete reads turn ↔ Kept turn ∧ Filled (reads turn.results) turn.before.length := by
  constructor
  · rintro ⟨kept, filled, _⟩
    exact ⟨kept, filled⟩
  · rintro ⟨kept, filled⟩
    exact ⟨kept, filled, (content kept).trans (fills filled)⟩

inductive Outcome (filled refused published starts : Prop) : Prop where
  | filled (full : filled) (fine : ¬refused) (publishes : published ↔ starts)
  | refused (negative : refused) (partly : ¬filled) (publishes : published ↔ starts)
  | short (partly : ¬filled) (fine : ¬refused) (silent : ¬published)

/-- A refused Read is published like a full one, so only the first two endings matter. -/
theorem outcome_iff {filled refused published starts kept complete : Prop}
    (outcome : Outcome filled refused published starts) (parts : complete ↔ kept ∧ filled) :
    (published → complete) ↔ (starts → ¬refused ∧ (filled → kept)) := by
  rw [parts]
  cases outcome with
  | filled full fine publishes =>
    rw [publishes]
    constructor
    · intro complete start
      exact ⟨fine, fun _ => (complete start).1⟩
    · intro clean start
      exact ⟨(clean start).2 full, full⟩
  | refused negative partly publishes =>
    rw [publishes]
    constructor
    · intro complete start
      exact absurd (complete start).2 partly
    · intro clean start
      exact absurd negative (clean start).1
  | short partly fine silent =>
    constructor
    · intro _ _
      exact ⟨fine, fun full => absurd full partly⟩
    · intro _ publishes
      exact absurd publishes silent

theorem filled_positive {results : List LowRead} {size : Nat} (filled : Filled results size) : 0 < size := by
  have some_bytes := List.length_pos_iff.mpr filled.2.1
  rw [filled.2.2] at some_bytes
  exact some_bytes

theorem api_outcome {opened : Bool} {results : List LowRead} {before after : Frame} {readCnt : Int}
    (small : before.length < 2 ^ 31) (read : hidApiDevRead opened results before = some (readCnt, after))
    (tested : Frame) (same : tested.length = before.length) :
    Outcome (Filled results before.length) (opened = true ∧ Refused results)
      (examineApi readCnt tested = .publish) True := by
  rcases api_read_cases read with ⟨is_open, result⟩ | ⟨closed, none_read, _, zero⟩
  · rcases result.ending with ⟨filled, full⟩ | ⟨refused, code, negative_count⟩ |
      ⟨not_filled, not_refused, positive, less⟩
    · have nonempty : tested ≠ [] := by
        rw [← List.length_pos_iff, same]
        exact filled_positive filled
      have publishes := examineApi_full nonempty (by omega)
      rw [same, ← full] at publishes
      exact .filled filled (fun both => refused_not_filled both.2 filled) (iff_of_true publishes trivial)
    · have publishes : examineApi (negative code) tested = .publish := examineApi_negative code (by omega)
      rw [← negative_count] at publishes
      exact .refused ⟨is_open, refused⟩ (refused_not_filled refused) (iff_of_true publishes trivial)
    · exact .short not_filled (fun both => not_refused both.2)
        (examineApi_short (by omega) (Or.inl (by omega)) (by omega))
  · have not_refused : ¬(opened = true ∧ Refused results) := by
      rintro ⟨is_open, _⟩
      rw [is_open] at closed
      cases closed
    rw [none_read]
    rw [none_read] at not_refused
    exact .short (not_filled_nil _) not_refused (examineApi_short (by omega) (Or.inr zero) (by omega))

theorem clean_api_iff {frameLen : Nat} (small : frameLen < 2 ^ 31) {turn : Turn (List LowRead)}
    (done : Done readDataApi frameLen turn) :
    (turn.published = true → Complete id turn) ↔ CleanApi turn := by
  obtain ⟨readCnt, after, size, size', read, _, content, published⟩ := done
  have outcome := api_outcome (by omega) read turn.tested.2 (by omega)
  have fills : Filled turn.results turn.before.length → after = written turn.results := by
    intro filled
    rcases api_read_cases read with ⟨_, result⟩ | ⟨_, none_read, _⟩
    · exact filled_content result filled
    · rw [none_read] at filled
      exact absurd filled (not_filled_nil _)
  rw [published]
  exact (outcome_iff outcome (complete_iff content fills)).trans true_imp_iff

theorem file_outcome (startMarker : List UInt8) {opened : Bool} {results : FileResults}
    {before after : Frame} {readCnt : Int} (small : before.length < 2 ^ 31)
    (read : hidDevFileRead opened results before = some (readCnt, after))
    (tested : Frame) (same : tested.length = before.length) :
    Outcome (Filled results.reads before.length) (opened = true ∧ RefusedFile results)
      (examineFile startMarker readCnt tested = .publish) (startsFrame startMarker tested = true) := by
  -- With a count that is large enough, the start marker alone decides.
  have negative_publishes : ∀ code, readCnt = negative code →
      (examineFile startMarker readCnt tested = .publish ↔ startsFrame startMarker tested = true) := by
    intro code negative_count
    have large := asSize_negative code
    rw [negative_count]
    exact examineFile_enough startMarker (by unfold negative; omega) (by omega)
  rcases file_read_cases read with ⟨is_open, ready, result⟩ |
    ⟨none_read, _, ⟨is_open, code, poll, negative_count⟩ | ⟨idle, zero⟩⟩
  · have refused_iff : RefusedFile results ↔ Refused results.reads := by
      simp [RefusedFile, ready]
    rcases result.ending with ⟨filled, full⟩ | ⟨refused, code, negative_count⟩ |
      ⟨not_filled, not_refused, positive, less⟩
    · have some_bytes := filled_positive filled
      have counted := asSize_count (n := before.length) (by omega)
      rw [← full] at counted
      exact .filled filled (fun both => refused_not_filled (refused_iff.mp both.2) filled)
        (examineFile_enough startMarker (by omega) (by omega))
    · exact .refused ⟨is_open, refused_iff.mpr refused⟩ (refused_not_filled refused)
        (negative_publishes code negative_count)
    · exact .short not_filled (fun both => not_refused (refused_iff.mp both.2))
        (examineFile_short startMarker (by omega) (Or.inl (by omega)) (by omega))
  · have not_filled : ¬Filled results.reads before.length := by
      rw [none_read]
      exact not_filled_nil _
    exact .refused ⟨is_open, Or.inl ⟨code, poll⟩⟩ not_filled (negative_publishes code negative_count)
  · have not_filled : ¬Filled results.reads before.length := by
      rw [none_read]
      exact not_filled_nil _
    have fine : ¬(opened = true ∧ RefusedFile results) := by
      rintro ⟨is_open, refused⟩
      rcases idle with closed | timeout
      · rw [is_open] at closed
        cases closed
      · simp [RefusedFile, timeout] at refused
    exact .short not_filled fine (examineFile_short startMarker (by omega) (Or.inr zero) (by omega))

theorem clean_file_iff {frameLen : Nat} (small : frameLen < 2 ^ 31) {startMarker : List UInt8}
    {turn : Turn FileResults} (done : Done (readDataFile startMarker) frameLen turn) :
    (turn.published = true → Complete FileResults.reads turn) ↔ CleanFile startMarker turn := by
  obtain ⟨readCnt, after, size, size', read, _, content, published⟩ := done
  have outcome := file_outcome startMarker (by omega) read turn.tested.2 (by omega)
  have fills : Filled turn.results.reads turn.before.length → after = written turn.results.reads := by
    intro filled
    rcases file_read_cases read with ⟨_, _, result⟩ | ⟨none_read, _⟩
    · exact filled_content result filled
    · rw [none_read] at filled
      exact absurd filled (not_filled_nil _)
  rw [published]
  exact outcome_iff outcome (complete_iff content fills)

/-- Exactly the runs whose turns are all clean publish complete frames only. -/
theorem complete_frames_iff (frameLen : Nat) (small : frameLen < 2 ^ 31) (startMarker : List UInt8) :
    (∀ (s t : State (List LowRead)) (actions : List (Action (List LowRead))),
      Starts frameLen s → Runs.Run (State.step readDataApi) s actions t →
      ((∀ turn ∈ t.turns, turn.published = true → Complete id turn) ↔
        ∀ turn ∈ t.turns, CleanApi turn)) ∧
    ∀ (s t : State FileResults) (actions : List (Action FileResults)),
      Starts frameLen s → Runs.Run (State.step (readDataFile startMarker)) s actions t →
      ((∀ turn ∈ t.turns, turn.published = true → Complete FileResults.reads turn) ↔
        ∀ turn ∈ t.turns, CleanFile startMarker turn) := by
  constructor
  · intro s t actions starts run
    have sound := run_sound api_keeps starts run
    exact forall₂_congr fun turn member => clean_api_iff small (sound.turns turn member)
  · intro s t actions starts run
    have sound := run_sound file_keeps starts run
    exact forall₂_congr fun turn member => clean_file_iff small (sound.turns turn member)

def starting (old : Frame) : State R where
  pipe := construct fun _ => old
  pc := .top
  opened := true
  noGyro := none
  unsynced := {}
  turns := []

theorem starting_starts (old : Frame) : Starts old.length (starting old : State R) :=
  ⟨fun _ => rfl, rfl, rfl, rfl⟩

def fullThenShort : List (Action (List LowRead)) :=
  [.enterRead, .read [.got [4], .got [5, 6]], .examine true, .send,
    .enterRead, .read [.got [6], .idle], .examine true]

theorem complete_frames_full_then_short :
    ∃ t, Runs.Run (State.step readDataApi) (starting [1, 2, 3]) fullThenShort.reverse t ∧
      t.turns.map Turn.published = [false, true] ∧
      ∀ turn ∈ t.turns, turn.published = true → Complete id turn := by
  have run : Runs.Run (State.step readDataApi) (starting [1, 2, 3]) fullThenShort.reverse _ :=
    Runs.run_of_execute rfl
  refine ⟨_, run, rfl, ?_⟩
  apply ((complete_frames_iff 3 (by decide) []).1 _ _ _ (starting_starts [1, 2, 3]) run).mpr
  intro turn member
  rcases List.mem_cons.mp member with rfl | member
  · exact ⟨fun both => by simp [Refused, written] at both, fun filled => by simp [Filled] at filled⟩
  · obtain rfl := List.mem_singleton.mp member
    exact ⟨fun both => by simp [Refused, written] at both, fun _ => rfl⟩

def timedOut : List (Action (List LowRead)) :=
  [.enterRead, .read [.idle], .examine true, .send]

def brokenOff : List (Action FileResults) :=
  [.enterRead, .read ⟨.ready, [.got [2], .failed 0]⟩, .examine true, .send]

/-- Old content goes out after a timeout, and after a failure that followed a chunk. -/
theorem stale_frame_published :
    (∃ t, Runs.Run (State.step readDataApi) (starting [1, 2, 3]) timedOut.reverse t ∧
      ∃ turn ∈ t.turns, turn.published = true ∧ ¬Complete id turn) ∧
    ∃ t, Runs.Run (State.step (readDataFile [])) (starting [1, 0, 0xFF, 0xFF, 9, 9, 9, 9])
        brokenOff.reverse t ∧
      ∃ turn ∈ t.turns, turn.published = true ∧ ¬Complete FileResults.reads turn := by
  constructor
  · refine ⟨_, Runs.run_of_execute rfl, _, List.mem_cons_self, rfl, ?_⟩
    rintro ⟨_, filled, _⟩
    exact refused_not_filled (Or.inl rfl) filled
  · refine ⟨_, Runs.run_of_execute rfl, _, List.mem_cons_self, rfl, ?_⟩
    rintro ⟨_, filled, _⟩
    exact refused_not_filled (Or.inr ⟨0, by simp⟩) filled

end CompleteFrames
