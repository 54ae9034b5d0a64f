import Mathlib.Data.List.Basic
import Mathlib.Data.List.Range
import Mathlib.Algebra.Order.Group.Nat

/-!
Turning a stream of counted frames into a stream of samples with one sample for
each tick. A frame that repeats an earlier counter is passed over, a small gap is
filled with samples of the frame that ends it, and any other frame gives one
sample. A call emits one sample and takes frames only when none is pending.
-/
namespace GapFill
variable {F H V W : Type}

/-- `mark` is the counter remembered of an accepted frame, `observe` its value
    together with the next hidden state. -/
structure Rules (F H V : Type) where
  tick : F → Nat
  mark : F → Option Nat
  gap : Nat
  back : Nat
  tries : Nat
  observe : H → F → H × V

/-- `source` is the position of the frame accepted last, `next` that of the first
    frame not yet taken; `pending` holds tick and value of samples still to emit. -/
structure Line (H V : Type) where
  source : Option Nat
  hidden : H
  pending : List (Nat × V)
  next : Nat

variable (r : Rules F H V) (stream : Nat → F)

def Line.last (line : Line H V) : Option Nat := line.source.bind fun p => r.mark (stream p)

def repeats (last : Option Nat) (f : F) : Prop :=
  match last with
  | none => False
  | some l => r.tick f ≤ l ∧ l < r.tick f + r.back

instance (last : Option Nat) (f : F) : Decidable (repeats r last f) := by
  cases last <;> simp only [repeats] <;> infer_instance

def fills (last : Option Nat) (f : F) : Prop :=
  match last with
  | none => False
  | some l => l < r.tick f ∧ r.tick f ≤ l + r.gap

instance (last : Option Nat) (f : F) : Decidable (fills r last f) := by
  cases last <;> simp only [fills] <;> infer_instance

def firstTick (last : Option Nat) (f : F) : Nat :=
  if fills r last f then last.getD 0 + 1 else r.tick f

def laterTicks (last : Option Nat) (f : F) : List Nat :=
  if fills r last f then List.range' (last.getD 0 + 2) (r.tick f - last.getD 0 - 1) else []

def Line.accept (line : Line H V) (p : Nat) : Option (Nat × V) × Line H V :=
  let last := line.last r stream
  let (hidden, value) := r.observe line.hidden (stream p)
  (some (firstTick r last (stream p), value),
    ⟨some p, hidden, (laterTicks r last (stream p)).map (·, value), p + 1⟩)

def Line.search : Nat → Line H V → Option (Nat × V) × Line H V
  | tries, line =>
    if repeats r (line.last r stream) (stream line.next) then
      match tries with
      | 0 => (none, { line with next := line.next + 1 })
      | tries + 1 => Line.search tries { line with next := line.next + 1 }
    else line.accept r stream line.next

def Line.call (line : Line H V) : Option (Nat × V) × Line H V :=
  match line.pending with
  | sample :: rest => (some sample, { line with pending := rest })
  | [] => line.search r stream r.tries

def Line.at (line : Line H V) : Nat → Line H V
  | 0 => line
  | k + 1 => ((line.at k).call r stream).2

def Line.emitted (line : Line H V) (k : Nat) : Option (Nat × V) :=
  ((line.at r stream k).call r stream).1

theorem search_cases (tries : Nat) (line : Line H V) :
    (line.search r stream tries = (none, { line with next := line.next + tries + 1 }) ∧
      ∀ i, i ≤ tries → repeats r (line.last r stream) (stream (line.next + i))) ∨
    ∃ i, i ≤ tries ∧ ¬repeats r (line.last r stream) (stream (line.next + i)) ∧
      (∀ j, j < i → repeats r (line.last r stream) (stream (line.next + j))) ∧
      line.search r stream tries = line.accept r stream (line.next + i) := by
  induction tries generalizing line with
  | zero =>
    by_cases again : repeats r (line.last r stream) (stream line.next)
    · refine Or.inl ⟨by simp [Line.search, again], fun i hi => ?_⟩
      obtain rfl : i = 0 := by omega
      exact again
    · refine Or.inr ⟨0, by omega, again, by omega, by simp [Line.search, again]⟩
  | succ tries ih =>
    by_cases again : repeats r (line.last r stream) (stream line.next)
    · have unfold_once : line.search r stream (tries + 1) =
          Line.search r stream tries { line with next := line.next + 1 } := by
        simp [Line.search, again]
      rcases ih { line with next := line.next + 1 } with ⟨result, all⟩ | ⟨i, hi, stops, before, result⟩
      · refine Or.inl ⟨?_, fun i hi => ?_⟩
        · rw [unfold_once, result]
          simp only [Prod.mk.injEq, Line.mk.injEq, true_and]
          omega
        · cases i with
          | zero => exact again
          | succ i =>
            have h := all i (by omega)
            rwa [show line.next + (i + 1) = line.next + 1 + i by omega]
      · refine Or.inr ⟨i + 1, by omega, ?_, fun j hj => ?_, ?_⟩
        · rwa [show line.next + (i + 1) = line.next + 1 + i by omega]
        · cases j with
          | zero => exact again
          | succ j =>
            have h := before j (by omega)
            rwa [show line.next + (j + 1) = line.next + 1 + j by omega]
        · rw [unfold_once, result, show line.next + (i + 1) = line.next + 1 + i by omega]
          rfl
    · exact Or.inr ⟨0, by omega, again, by omega, by simp [Line.search, again]⟩

theorem single_tick {last : Option Nat} {f : F} (jump : ¬fills r last f) :
    firstTick r last f = r.tick f ∧ laterTicks r last f = [] := by
  simp [firstTick, laterTicks, jump]

theorem at_shift (line : Line H V) (k i : Nat) :
    (line.at r stream k).at r stream i = line.at r stream (k + i) := by
  induction i with
  | zero => rfl
  | succ i ih => rw [Line.at, ih]; rfl

theorem emitted_shift (line : Line H V) (k i : Nat) :
    (line.at r stream k).emitted r stream i = line.emitted r stream (k + i) := by
  simp only [Line.emitted, at_shift]

theorem pending_drained (line : Line H V) (i : Nat) (bound : i ≤ line.pending.length) :
    line.at r stream i = { line with pending := line.pending.drop i } := by
  induction i with
  | zero => rfl
  | succ i ih =>
    have inside : i < line.pending.length := by omega
    rw [Line.at, ih (by omega), Line.call, List.drop_eq_getElem_cons inside]

theorem pending_emitted (line : Line H V) (i : Nat) (bound : i < line.pending.length) :
    line.emitted r stream i = some line.pending[i] := by
  rw [Line.emitted, pending_drained r stream line i (by omega), Line.call,
    List.drop_eq_getElem_cons bound]

theorem call_cases (line : Line H V) :
    (∃ sample rest, line.pending = sample :: rest ∧
      line.call r stream = (some sample, { line with pending := rest })) ∨
    (line.pending = [] ∧
      line.call r stream = (none, { line with next := line.next + r.tries + 1 }) ∧
      ∀ i, i ≤ r.tries → repeats r (line.last r stream) (stream (line.next + i))) ∨
    ∃ i, line.pending = [] ∧ i ≤ r.tries ∧
      ¬repeats r (line.last r stream) (stream (line.next + i)) ∧
      (∀ j, j < i → repeats r (line.last r stream) (stream (line.next + j))) ∧
      line.call r stream = line.accept r stream (line.next + i) := by
  by_cases empty : line.pending = []
  · have calls : line.call r stream = line.search r stream r.tries := by
      simp only [Line.call, empty]
    rcases search_cases r stream r.tries line with ⟨result, all⟩ | ⟨i, hi, stops, before, result⟩
    · exact Or.inr (Or.inl ⟨empty, calls.trans result, all⟩)
    · exact Or.inr (Or.inr ⟨i, empty, hi, stops, before, calls.trans result⟩)
  · obtain ⟨sample, rest, pending⟩ := List.exists_cons_of_ne_nil empty
    exact Or.inl ⟨sample, rest, pending, by simp only [Line.call, pending]⟩

def Line.Ordered (line : Line H V) : Prop := ∀ p, line.source = some p → p < line.next

theorem ordered_call (line : Line H V) (h : line.Ordered) :
    (line.call r stream).2.Ordered ∧ line.next ≤ (line.call r stream).2.next := by
  rcases call_cases r stream line with
    ⟨sample, rest, _, result⟩ | ⟨_, result, _⟩ | ⟨i, _, _, _, _, result⟩
  · rw [result]; exact ⟨h, Nat.le_refl _⟩
  · rw [result]
    exact ⟨fun p hp => by have := h p hp; simp only; omega, by simp only; omega⟩
  · rw [result]
    refine ⟨fun p hp => ?_, by simp only [Line.accept]; omega⟩
    obtain rfl : line.next + i = p := Option.some.inj hp
    simp [Line.accept]

theorem ordered_at (line : Line H V) (h : line.Ordered) (k : Nat) :
    (line.at r stream k).Ordered := by
  induction k with
  | zero => exact h
  | succ k ih => exact (ordered_call r stream _ ih).1

theorem next_monotone (line : Line H V) (h : line.Ordered) {j k : Nat} (le : j ≤ k) :
    (line.at r stream j).next ≤ (line.at r stream k).next := by
  induction le with
  | refl => exact Nat.le_refl _
  | @step k le ih => exact Nat.le_trans ih (ordered_call r stream _ (ordered_at r stream line h k)).2

theorem source_later (line : Line H V) (h : line.Ordered) (j : Nat) :
    (line.at r stream j).source = line.source ∨
      ∃ q, line.next ≤ q ∧ (line.at r stream j).source = some q := by
  induction j with
  | zero => exact Or.inl rfl
  | succ j ih =>
    have onward := next_monotone r stream line h (Nat.zero_le j)
    rw [Line.at]
    rcases call_cases r stream (line.at r stream j) with
      ⟨_, _, _, result⟩ | ⟨_, result, _⟩ | ⟨i, _, _, _, _, result⟩
    · rw [result]; exact ih
    · rw [result]; exact ih
    · rw [result]
      exact Or.inr ⟨(line.at r stream j).next + i, Nat.le_add_right_of_le onward, rfl⟩

theorem passed_over (line : Line H V) (h : line.Ordered) {k p : Nat}
    (from_here : (line.at r stream k).next ≤ p) (taken : p < (line.at r stream (k + 1)).next)
    (passed : (line.at r stream (k + 1)).source ≠ some p) (j : Nat) :
    (line.at r stream (j + 1)).source ≠ some p := by
  intro source
  rcases Nat.lt_or_ge j k with before | after
  · have := ordered_at r stream line h (j + 1) p source
    have := next_monotone r stream line h (show j + 1 ≤ k from before)
    omega
  · have later := source_later r stream (line.at r stream (k + 1))
      (ordered_at r stream line h (k + 1)) (j - k)
    rw [at_shift, show k + 1 + (j - k) = j + 1 by omega] at later
    rcases later with same | ⟨q, beyond, moved⟩
    · exact passed (same ▸ source)
    · have := Option.some.inj (moved.symm.trans source)
      omega

theorem filled_run (line : Line H V) {p l : Nat}
    (accepts : line.call r stream = line.accept r stream p)
    (last : line.last r stream = some l) (fill : fills r (some l) (stream p))
    (i : Nat) (bound : i < r.tick (stream p) - l) :
    line.emitted r stream i = some (l + 1 + i, (r.observe line.hidden (stream p)).2) ∧
      (line.at r stream (i + 1)).source = some p ∧
      (line.at r stream (i + 1)).hidden = (r.observe line.hidden (stream p)).1 ∧
      (line.at r stream (i + 1)).pending.length = r.tick (stream p) - l - 1 - i ∧
      (line.at r stream (i + 1)).next = p + 1 := by
  have later : laterTicks r (some l) (stream p) = List.range' (l + 2) (r.tick (stream p) - l - 1) := by
    simp only [laterTicks, fill, if_true, Option.getD_some]
  have pending : (line.at r stream 1).pending =
      (List.range' (l + 2) (r.tick (stream p) - l - 1)).map (·, (r.observe line.hidden (stream p)).2) := by
    simp only [Line.at, accepts, Line.accept, last, later]
  have length : (line.at r stream 1).pending.length = r.tick (stream p) - l - 1 := by
    rw [pending, List.length_map, List.length_range']
  have drained := pending_drained r stream (line.at r stream 1) i (by omega)
  rw [at_shift, Nat.add_comm] at drained
  rw [drained]
  refine ⟨?_, by simp only [Line.at, accepts, Line.accept], by simp only [Line.at, accepts, Line.accept],
    by simp only [List.length_drop, length], by simp only [Line.at, accepts, Line.accept]⟩
  cases i with
  | zero =>
    unfold Line.emitted
    simp only [Line.at, accepts, Line.accept, last, firstTick, fill, if_true, Option.getD_some,
      Nat.add_zero]
  | succ i =>
    have inside : i < (line.at r stream 1).pending.length := by omega
    have out := pending_emitted r stream (line.at r stream 1) i inside
    rw [emitted_shift, Nat.add_comm] at out
    rw [out]
    simp only [pending, List.getElem_map, List.getElem_range', Option.some.injEq, Prod.mk.injEq,
      and_true]
    omega

theorem source_stays (line : Line H V) {p : Nat} (h : line.Ordered)
    (source : line.source = some p) (empty : line.pending = []) (k : Nat) :
    ((line.at r stream k).source = some p ∧ (line.at r stream k).pending = []) ∨
      ∃ q, p < q ∧ (line.at r stream k).source = some q := by
  induction k with
  | zero => exact Or.inl ⟨source, empty⟩
  | succ k ih =>
    have beyond : p < (line.at r stream k).next :=
      Nat.lt_of_lt_of_le (h p source) (next_monotone r stream line h (Nat.zero_le k))
    rw [Line.at]
    rcases call_cases r stream (line.at r stream k) with
      ⟨sample, rest, some_pending, result⟩ | ⟨none_pending, result, _⟩ | ⟨i, _, _, _, _, result⟩
    · rw [result]
      rcases ih with ⟨_, none_pending⟩ | moved
      · rw [none_pending] at some_pending; cases some_pending
      · exact Or.inr moved
    · rw [result]
      rcases ih with ⟨same, _⟩ | moved
      · exact Or.inl ⟨same, none_pending⟩
      · exact Or.inr moved
    · rw [result]
      exact Or.inr ⟨(line.at r stream k).next + i, by omega, rfl⟩

theorem no_more_samples (line : Line H V) {p : Nat} (h : line.Ordered)
    (source : line.source = some p) (empty : line.pending = []) (j : Nat)
    (some_sample : (line.emitted r stream j).isSome) :
    (line.at r stream (j + 1)).source ≠ some p := by
  have beyond : p < (line.at r stream j).next :=
    Nat.lt_of_lt_of_le (h p source) (next_monotone r stream line h (Nat.zero_le j))
  rw [Line.emitted] at some_sample
  rw [Line.at]
  intro same
  rcases call_cases r stream (line.at r stream j) with
    ⟨sample, rest, some_pending, result⟩ | ⟨_, result, _⟩ | ⟨i, _, _, _, _, result⟩
  · rw [result] at same
    rcases source_stays r stream line h source empty j with ⟨_, none_pending⟩ | ⟨q, hq, moved⟩
    · rw [none_pending] at some_pending; cases some_pending
    · have := Option.some.inj (moved.symm.trans same)
      omega
  · rw [result] at some_sample; cases some_sample
  · rw [result] at same
    have : (line.at r stream j).next + i = p := Option.some.inj same
    omega

def Line.Falls (line : Line H V) : Prop :=
  ∃ p l, (line.call r stream).2.source = some p ∧ line.last r stream = some l ∧
    r.tick (stream p) + r.back ≤ l

def Line.Level (line : Line H V) (t : Nat) : Prop :=
  ∃ l, line.last r stream = some l ∧ t ≤ l ∧
    (line.pending.map Prod.fst).Pairwise (· ≤ ·) ∧
    ∀ u ∈ line.pending.map Prod.fst, t ≤ u ∧ u ≤ l

theorem ticks_level (last : Option Nat) (f : F) :
    firstTick r last f ≤ r.tick f ∧ (laterTicks r last f).Pairwise (· ≤ ·) ∧
      ∀ u ∈ laterTicks r last f, firstTick r last f ≤ u ∧ u ≤ r.tick f := by
  by_cases fill : fills r last f
  · obtain ⟨l, rfl⟩ : ∃ l, last = some l := by
      cases last with
      | none => exact False.elim fill
      | some l => exact ⟨l, rfl⟩
    have above : l < r.tick f := fill.1
    simp only [firstTick, laterTicks, fill, if_true, Option.getD_some]
    refine ⟨by omega, List.pairwise_le_range', fun u hu => ?_⟩
    rw [List.mem_range'_1] at hu
    omega
  · obtain ⟨first, later⟩ := single_tick r fill
    rw [first, later]
    exact ⟨Nat.le_refl _, List.Pairwise.nil, fun u hu => by cases hu⟩

theorem level_accept (marked : ∀ i, r.mark (stream i) = some (r.tick (stream i)))
    (line : Line H V) (p : Nat) :
    (line.accept r stream p).2.Level r stream
      (firstTick r (line.last r stream) (stream p)) := by
  obtain ⟨first, sorted, between⟩ := ticks_level r (line.last r stream) (stream p)
  have ticks : (line.accept r stream p).2.pending.map Prod.fst =
      laterTicks r (line.last r stream) (stream p) := by
    simp [Line.accept, Function.comp_def]
  refine ⟨r.tick (stream p), by simp [Line.last, Line.accept, marked], first, ?_, ?_⟩
  · rwa [ticks]
  · rwa [ticks]

theorem level_call (marked : ∀ i, r.mark (stream i) = some (r.tick (stream i)))
    {line : Line H V} {t : Nat} (level : line.Level r stream t) :
    ((line.call r stream).1 = none → (line.call r stream).2.Level r stream t) ∧
    ∀ u v, (line.call r stream).1 = some (u, v) →
      (line.call r stream).2.Level r stream u ∧ (t ≤ u ∨ line.Falls r stream) := by
  obtain ⟨l, last, below, sorted, between⟩ := level
  rcases call_cases r stream line with
    ⟨⟨w, x⟩, rest, some_pending, result⟩ | ⟨_, result, _⟩ | ⟨i, _, _, stops, _, result⟩
  · rw [result]
    rw [some_pending] at sorted between
    obtain ⟨above, sorted_rest⟩ := List.pairwise_cons.mp sorted
    have bounds := between w (by simp)
    refine ⟨fun no => by simp at no, fun u v same => ?_⟩
    obtain ⟨rfl, rfl⟩ : w = u ∧ x = v := by simpa using same
    exact ⟨⟨l, last, bounds.2, sorted_rest, fun y hy =>
      ⟨above y hy, (between y (List.mem_cons_of_mem _ hy)).2⟩⟩, Or.inl bounds.1⟩
  · rw [result]
    exact ⟨fun _ => ⟨l, last, below, sorted, between⟩, fun u v no => by simp at no⟩
  · rw [result]
    refine ⟨fun no => by simp [Line.accept] at no, fun u v same => ?_⟩
    obtain ⟨rfl, rfl⟩ : firstTick r (line.last r stream) (stream (line.next + i)) = u ∧
        (r.observe line.hidden (stream (line.next + i))).2 = v := by
      simpa [Line.accept] using same
    refine ⟨level_accept r stream marked line _, ?_⟩
    rw [last] at stops ⊢
    by_cases falls : r.tick (stream (line.next + i)) + r.back ≤ l
    · exact Or.inr ⟨_, l, by rw [result]; rfl, last, falls⟩
    · refine Or.inl ?_
      simp only [repeats, not_and, not_lt] at stops
      have forward : l < r.tick (stream (line.next + i)) := by omega
      unfold firstTick
      split
      · simp only [Option.getD_some]; omega
      · omega

/-- Outside the samples of a frame nothing is pending. -/
theorem level_or_idle (marked : ∀ i, r.mark (stream i) = some (r.tick (stream i)))
    (line : Line H V) (start : line.pending = []) (i : Nat) :
    (∃ t, (line.at r stream i).Level r stream t) ∨ (line.at r stream i).pending = [] := by
  induction i with
  | zero => exact Or.inr start
  | succ i ih =>
    rw [Line.at]
    rcases call_cases r stream (line.at r stream i) with
      ⟨⟨y, z⟩, rest, some_pending, result⟩ | ⟨none_pending, result, _⟩ | ⟨n, _, _, _, _, result⟩
    · rcases ih with ⟨x, level⟩ | none_pending
      · exact Or.inl ⟨y, ((level_call r stream marked level).2 y z (by rw [result])).1⟩
      · rw [none_pending] at some_pending; cases some_pending
    · rw [result]; exact Or.inr none_pending
    · rw [result]; exact Or.inl ⟨_, level_accept r stream marked _ _⟩

theorem level_emitted (marked : ∀ i, r.mark (stream i) = some (r.tick (stream i)))
    (line : Line H V) (start : line.pending = []) {j t : Nat} {v : V}
    (out : line.emitted r stream j = some (t, v)) : (line.at r stream (j + 1)).Level r stream t := by
  rw [Line.emitted] at out
  rcases level_or_idle r stream marked line start j with ⟨x, level⟩ | none_pending
  · exact ((level_call r stream marked level).2 t v out).1
  · rw [Line.at]
    rcases call_cases r stream (line.at r stream j) with
      ⟨_, _, some_pending, _⟩ | ⟨_, result, _⟩ | ⟨n, _, _, _, _, result⟩
    · rw [none_pending] at some_pending; cases some_pending
    · rw [result] at out; cases out
    · rw [result] at out ⊢
      obtain ⟨rfl, _⟩ : firstTick r ((line.at r stream j).last r stream)
          (stream ((line.at r stream j).next + n)) = t ∧ _ = v := by
        simpa [Line.accept] using out
      exact level_accept r stream marked _ _

theorem level_onward (marked : ∀ i, r.mark (stream i) = some (r.tick (stream i)))
    (line : Line H V) {t : Nat} (level : line.Level r stream t) (n : Nat) :
    (∃ u, (line.at r stream n).Level r stream u ∧ t ≤ u) ∨
      ∃ i, i < n ∧ (line.at r stream i).Falls r stream := by
  induction n with
  | zero => exact Or.inl ⟨t, level, Nat.le_refl t⟩
  | succ n ih =>
    rcases ih with ⟨x, level, above⟩ | ⟨i, before, falls⟩
    · have step := level_call r stream marked level
      rw [Line.at]
      cases out : ((line.at r stream n).call r stream).1 with
      | none => exact Or.inl ⟨x, step.1 out, above⟩
      | some s =>
        obtain ⟨level', grows | falls⟩ := step.2 s.1 s.2 out
        · exact Or.inl ⟨s.1, level', by omega⟩
        · exact Or.inr ⟨n, by omega, falls⟩
    · exact Or.inr ⟨i, by omega, falls⟩

/-- Ticks never decrease unless a frame is accepted that lies far behind the one before. -/
theorem emitted_monotone (marked : ∀ i, r.mark (stream i) = some (r.tick (stream i)))
    (line : Line H V) (start : line.pending = []) {j k t u : Nat} {v w : V} (earlier : j < k)
    (first : line.emitted r stream j = some (t, v)) (second : line.emitted r stream k = some (u, w)) :
    t ≤ u ∨ ∃ i, j < i ∧ i ≤ k ∧ (line.at r stream i).Falls r stream := by
  have after_first := level_emitted r stream marked line start first
  rcases level_onward r stream marked _ after_first (k - (j + 1)) with
    ⟨x, level, above⟩ | ⟨i, before, falls⟩
  · rw [at_shift, show j + 1 + (k - (j + 1)) = k by omega] at level
    obtain ⟨_, grows | falls⟩ := (level_call r stream marked level).2 u w second
    · exact Or.inl (by omega)
    · exact Or.inr ⟨k, earlier, Nat.le_refl k, falls⟩
  · rw [at_shift] at falls
    exact Or.inr ⟨j + 1 + i, by omega, by omega, falls⟩

structure Alike (view : V → W) (l m : Line H V) : Prop where
  source : l.source = m.source
  next : l.next = m.next
  pending : l.pending.map (Prod.map id view) = m.pending.map (Prod.map id view)

theorem alike_call (view : V → W) (shown : F → W)
    (seen : ∀ h f, view (r.observe h f).2 = shown f) {l m : Line H V} (same : Alike view l m) :
    Alike view (l.call r stream).2 (m.call r stream).2 ∧
      (l.call r stream).1.map (Prod.map id view) = (m.call r stream).1.map (Prod.map id view) := by
  have last : l.last r stream = m.last r stream := by simp only [Line.last, same.source]
  have next := same.next
  rcases call_cases r stream l with
    ⟨sample, rest, some_pending, result⟩ | ⟨none_pending, result, all⟩ |
      ⟨i, none_pending, hi, stops, before, result⟩
  · have pending := same.pending
    rw [some_pending, List.map_cons] at pending
    obtain ⟨sample', rest', other, first, others⟩ := List.map_eq_cons_iff.mp pending.symm
    have result' : m.call r stream = (some sample', { m with pending := rest' }) := by
      simp only [Line.call, other]
    rw [result, result']
    exact ⟨⟨same.source, next, others.symm⟩, by simp [first]⟩
  · have empty : m.pending = [] := by
      have pending := same.pending
      rw [none_pending] at pending
      exact List.map_eq_nil_iff.mp pending.symm
    rcases call_cases r stream m with
      ⟨_, _, some_pending, _⟩ | ⟨_, result', _⟩ | ⟨i, _, hi, stops, _, _⟩
    · rw [empty] at some_pending; cases some_pending
    · rw [result, result']
      exact ⟨⟨same.source, by simp only [next], same.pending⟩, rfl⟩
    · rw [← last, ← next] at stops
      exact absurd (all i hi) stops
  · have empty : m.pending = [] := by
      have pending := same.pending
      rw [none_pending] at pending
      exact List.map_eq_nil_iff.mp pending.symm
    rcases call_cases r stream m with
      ⟨_, _, some_pending, _⟩ | ⟨_, _, all⟩ | ⟨i', _, hi', stops', before', result'⟩
    · rw [empty] at some_pending; cases some_pending
    · rw [last, next] at stops
      exact absurd (all i hi) stops
    · rw [last, next] at stops before
      obtain rfl : i = i' := by
        rcases Nat.lt_trichotomy i i' with lt | eq | gt
        · exact absurd (before' i lt) stops
        · exact eq
        · exact absurd (before i' gt) stops'
      rw [result, result']
      refine ⟨⟨by simp [Line.accept, next], by simp [Line.accept, next], ?_⟩, ?_⟩
      · simp [Line.accept, last, next, Function.comp_def, seen]
      · simp [Line.accept, last, next, seen]

theorem alike_run (view : V → W) (shown : F → W)
    (seen : ∀ h f, view (r.observe h f).2 = shown f) {l m : Line H V} (same : Alike view l m)
    (k : Nat) :
    Alike view (l.at r stream k) (m.at r stream k) ∧
      (l.emitted r stream k).map (Prod.map id view) = (m.emitted r stream k).map (Prod.map id view) := by
  have states : ∀ k, Alike view (l.at r stream k) (m.at r stream k) := by
    intro k
    induction k with
    | zero => exact same
    | succ k ih => exact (alike_call r stream view shown seen ih).1
  exact ⟨states k, (alike_call r stream view shown seen (states k)).2⟩

theorem pending_shown (view : V → W) (shown : F → W)
    (seen : ∀ h f, view (r.observe h f).2 = shown f) (line : Line H V) (start : line.pending = [])
    (k : Nat) : ∀ s ∈ (line.at r stream k).pending,
      ∃ p, (line.at r stream k).source = some p ∧ view s.2 = shown (stream p) := by
  induction k with
  | zero => intro s hs; rw [Line.at, start] at hs; cases hs
  | succ k ih =>
    intro s hs
    rw [Line.at] at hs ⊢
    rcases call_cases r stream (line.at r stream k) with
      ⟨_, rest, some_pending, result⟩ | ⟨none_pending, result, _⟩ | ⟨i, _, _, _, _, result⟩
    · rw [result] at hs ⊢
      exact ih s (by rw [some_pending]; exact List.mem_cons_of_mem _ hs)
    · rw [result] at hs ⊢
      exact ih s hs
    · rw [result] at hs ⊢
      obtain ⟨tick, _, rfl⟩ : ∃ tick, _ ∧ (tick, _) = s := by simpa [Line.accept] using hs
      exact ⟨_, rfl, seen _ _⟩

theorem emitted_shown (view : V → W) (shown : F → W)
    (seen : ∀ h f, view (r.observe h f).2 = shown f) (line : Line H V) (start : line.pending = [])
    (k t : Nat) (v : V) (out : line.emitted r stream k = some (t, v)) :
    ∃ p, (line.at r stream (k + 1)).source = some p ∧ view v = shown (stream p) := by
  rw [Line.emitted] at out
  rw [Line.at]
  rcases call_cases r stream (line.at r stream k) with
    ⟨_, rest, some_pending, result⟩ | ⟨_, result, _⟩ | ⟨i, _, _, _, _, result⟩
  · rw [result] at out ⊢
    obtain rfl := Option.some.inj out
    exact pending_shown r stream view shown seen line start k (t, v)
      (by rw [some_pending]; exact List.mem_cons_self)
  · rw [result] at out; cases out
  · rw [result] at out ⊢
    obtain ⟨_, rfl⟩ : _ = t ∧ (r.observe (line.at r stream k).hidden _).2 = v := by
      simpa [Line.accept] using out
    exact ⟨_, rfl, seen _ _⟩

end GapFill
