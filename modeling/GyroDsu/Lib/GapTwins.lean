import GyroDsu.Lib.GapFill

/-!
How many samples a frame gives, and two lines over two streams. The lines stay
together, accepting frames at the same positions and emitting in the same calls,
exactly as long as every frame they take gives as many samples on either side.
-/
namespace GapTwins
open GapFill
variable {F H V : Type} (r : Rules F H V) (f g : Nat → F)

def samples (last : Option Nat) (x : F) : Nat :=
  if repeats r last x then 0 else (laterTicks r last x).length + 1

theorem samples_zero {last : Option Nat} {x : F} : samples r last x = 0 ↔ repeats r last x := by
  unfold samples
  split <;> simp_all

theorem samples_accepted {last : Option Nat} {x : F} (new : ¬repeats r last x) :
    samples r last x = (laterTicks r last x).length + 1 := if_neg new

structure Twin (l m : Line H V) : Prop where
  source : l.source = m.source
  next : l.next = m.next
  left : l.pending.length = m.pending.length

structure Together (l m : Line H V) : Prop where
  after : Twin (l.call r f).2 (m.call r g).2
  emits : (l.call r f).1.isSome = (m.call r g).1.isSome

variable {r f g}

theorem taken_cases {l : Line H V} {p : Nat} (from_here : l.next ≤ p) (taken : p < (l.call r f).2.next) :
    (repeats r (l.last r f) (f p) ∧
        ((l.call r f).1 = none ∧ (l.call r f).2.source = l.source ∨
          ∃ q, p < q ∧ l.call r f = l.accept r f q)) ∨
      (¬repeats r (l.last r f) (f p) ∧ l.call r f = l.accept r f p) := by
  rcases call_cases r f l with ⟨sample, rest, _, result⟩ | ⟨_, result, all⟩ | ⟨i, _, _, stops, before, result⟩
  · rw [result] at taken
    simp only at taken
    omega
  · rw [result] at taken
    have again := all (p - l.next) (by simp only at taken; omega)
    rw [Nat.add_sub_cancel' from_here] at again
    exact Or.inl ⟨again, Or.inl (by rw [result]; exact ⟨rfl, rfl⟩)⟩
  · rw [result] at taken
    simp only [Line.accept] at taken
    rcases Nat.lt_or_ge p (l.next + i) with earlier | here
    · have again := before (p - l.next) (by omega)
      rw [Nat.add_sub_cancel' from_here] at again
      exact Or.inl ⟨again, Or.inr ⟨l.next + i, earlier, result⟩⟩
    · obtain rfl : p = l.next + i := by omega
      exact Or.inr ⟨stops, result⟩

theorem accept_left (l : Line H V) (p : Nat) :
    (l.accept r f p).2.pending.length = (laterTicks r (l.last r f) (f p)).length := by
  simp [Line.accept]

theorem together_samples {l m : Line H V} (twin : Twin l m) (together : Together r f g l m) {p : Nat}
    (from_here : l.next ≤ p) (taken : p < (l.call r f).2.next) :
    samples r (l.last r f) (f p) = samples r (m.last r g) (g p) := by
  obtain ⟨source, next, left⟩ := together.after
  have emits := together.emits
  rcases taken_cases from_here taken with ⟨again, l_passes⟩ | ⟨new, l_accepts⟩ <;>
  rcases taken_cases (twin.next ▸ from_here) (next ▸ taken) with ⟨again', m_passes⟩ | ⟨new', m_accepts⟩
  · rw [(samples_zero r).mpr again, (samples_zero r).mpr again']
  · rcases l_passes with ⟨silent, _⟩ | ⟨q, later, l_accepts⟩
    · rw [silent, m_accepts] at emits
      cases emits
    · rw [l_accepts, m_accepts] at source
      have := Option.some.inj source
      omega
  · rcases m_passes with ⟨silent, _⟩ | ⟨q, later, m_accepts⟩
    · rw [silent, l_accepts] at emits
      cases emits
    · rw [l_accepts, m_accepts] at source
      have := Option.some.inj source
      omega
  · rw [l_accepts, m_accepts, accept_left, accept_left] at left
    rw [samples_accepted r new, samples_accepted r new', left]

theorem samples_together {l m : Line H V} (twin : Twin l m)
    (same : ∀ p, l.next ≤ p → p < (l.call r f).2.next →
      samples r (l.last r f) (f p) = samples r (m.last r g) (g p)) : Together r f g l m := by
  obtain ⟨source, next, left⟩ := twin
  have empty_iff : l.pending = [] ↔ m.pending = [] := by
    rw [← List.length_eq_zero_iff, ← List.length_eq_zero_iff, left]
  have again_iff : ∀ i, l.next + i < (l.call r f).2.next →
      (repeats r (l.last r f) (f (l.next + i)) ↔ repeats r (m.last r g) (g (m.next + i))) := by
    intro i taken
    rw [← samples_zero, ← samples_zero, same _ (Nat.le_add_right _ _) taken, next]
  rcases call_cases r f l with
    ⟨sample, rest, some_pending, result⟩ | ⟨empty, result, all⟩ | ⟨i, empty, hi, stops, before, result⟩
  · obtain ⟨sample', rest', some_pending'⟩ : ∃ sample' rest', m.pending = sample' :: rest' := by
      apply List.exists_cons_of_ne_nil
      rw [ne_eq, ← empty_iff, some_pending]
      exact List.cons_ne_nil _ _
    have result' : m.call r g = (some sample', { m with pending := rest' }) := by
      simp only [Line.call, some_pending']
    rw [some_pending, some_pending'] at left
    constructor
    · rw [result, result']
      exact ⟨source, next, Nat.succ.inj left⟩
    · rw [result, result']
      rfl
  · rw [result] at again_iff
    rcases call_cases r g m with ⟨_, _, some_pending, _⟩ | ⟨_, result', _⟩ | ⟨i, _, hi, stops, _⟩
    · rw [empty_iff.mp empty] at some_pending
      cases some_pending
    · constructor
      · rw [result, result']
        exact ⟨source, by simp only [next], left⟩
      · rw [result, result']
    · exact absurd ((again_iff i (by simp only; omega)).mp (all i hi)) stops
  · have same_here := same (l.next + i)
    rw [result] at again_iff same_here
    simp only [Line.accept] at again_iff same_here
    have stops' : ¬repeats r (m.last r g) (g (m.next + i)) := fun again => stops ((again_iff i (by omega)).mpr again)
    rcases call_cases r g m with ⟨_, _, some_pending, _⟩ | ⟨_, _, all⟩ | ⟨i', _, _, new, earlier, result'⟩
    · rw [empty_iff.mp empty] at some_pending
      cases some_pending
    · exact absurd (all i hi) stops'
    · obtain rfl : i = i' := by
        rcases Nat.lt_trichotomy i i' with lt | eq | gt
        · exact absurd (earlier i lt) stops'
        · exact eq
        · exact absurd ((again_iff i' (by omega)).mp (before i' gt)) new
      have level := same_here (by omega) (by omega)
      rw [samples_accepted r stops, next, samples_accepted r stops'] at level
      constructor
      · rw [result, result']
        refine ⟨by simp [Line.accept, next], by simp [Line.accept, next], ?_⟩
        rw [accept_left, accept_left, next]
        omega
      · rw [result, result']
        rfl

theorem twin_last {l m : Line H V} (twin : Twin l m) : m.last r g = l.last r g := by
  rw [Line.last, Line.last, twin.source]

/-- Two lines that start alike stay together through all their calls exactly if every
    frame the first one takes would give as many samples on the other stream. -/
theorem together_iff {l m : Line H V} (twin : Twin l m) :
    (∀ k, Together r f g (l.at r f k) (m.at r g k)) ↔
      ∀ k p, (l.at r f k).next ≤ p → p < (l.at r f (k + 1)).next →
        samples r ((l.at r f k).last r f) (f p) = samples r ((l.at r f k).last r g) (g p) := by
  constructor
  · intro together k p from_here taken
    have twins : Twin (l.at r f k) (m.at r g k) := by
      cases k with
      | zero => exact twin
      | succ k => exact (together k).after
    rw [← twin_last (g := g) twins]
    exact together_samples twins (together k) from_here taken
  · intro same k
    have step : ∀ k, Twin (l.at r f k) (m.at r g k) → Together r f g (l.at r f k) (m.at r g k) := by
      intro k twins
      apply samples_together twins
      rw [twin_last (g := g) twins]
      exact same k
    have twins : Twin (l.at r f k) (m.at r g k) := by
      induction k with
      | zero => exact twin
      | succ k ih => exact (step k ih).after
    exact step k twins

theorem emits_from {line : Line H V} (h : line.Ordered) {j k p : Nat}
    (from_here : (line.at r f k).next ≤ p) (source : (line.at r f (j + 1)).source = some p) : k ≤ j := by
  by_contra before
  have taken := ordered_at r f line h (j + 1) p source
  have onward := next_monotone r f line h (show j + 1 ≤ k by omega)
  omega

theorem accepted_run {line : Line H V} {k p : Nat}
    (accepts : (line.at r f k).call r f = (line.at r f k).accept r f p) {n : Nat}
    (length : (laterTicks r ((line.at r f k).last r f) (f p)).length = n) :
    (∀ i, i ≤ n → (line.emitted r f (k + i)).isSome ∧ (line.at r f (k + i + 1)).source = some p) ∧
      (line.at r f (k + n + 1)).pending = [] := by
  have after : line.at r f (k + 1) = ((line.at r f k).accept r f p).2 := by rw [Line.at, accepts]
  have source : (line.at r f (k + 1)).source = some p := by rw [after]; rfl
  have left : (line.at r f (k + 1)).pending.length = n := by rw [after, accept_left, length]
  have drained : ∀ i, i ≤ n → line.at r f (k + 1 + i) =
      { line.at r f (k + 1) with pending := (line.at r f (k + 1)).pending.drop i } := by
    intro i bound
    rw [← at_shift]
    exact pending_drained r f _ i (by omega)
  constructor
  · intro i bound
    constructor
    · cases i with
      | zero =>
        rw [Line.emitted, Nat.add_zero, accepts]
        rfl
      | succ i =>
        have out := pending_emitted r f (line.at r f (k + 1)) i (by omega)
        rw [emitted_shift, show k + 1 + i = k + (i + 1) by omega] at out
        rw [out]
        rfl
    · rw [show k + i + 1 = k + 1 + i by omega, drained i bound]
      exact source
  · rw [show k + n + 1 = k + 1 + n by omega, drained n (le_refl n), ← left]
    exact List.drop_length

theorem emits_iff {line : Line H V} (h : line.Ordered) {k p : Nat}
    (from_here : (line.at r f k).next ≤ p) (taken : p < (line.at r f (k + 1)).next) (j : Nat) :
    (line.emitted r f j).isSome ∧ (line.at r f (j + 1)).source = some p ↔
      k ≤ j ∧ j < k + samples r ((line.at r f k).last r f) (f p) := by
  rcases taken_cases from_here taken with ⟨again, passes⟩ | ⟨new, accepts⟩
  · rw [(samples_zero r).mpr again]
    refine iff_of_false (fun emits => ?_) (by omega)
    refine passed_over r f line h from_here taken (fun source => ?_) j emits.2
    rcases passes with ⟨_, same⟩ | ⟨q, later, accepts⟩
    · have before := ordered_at r f line h k p (same.symm.trans source)
      omega
    · rw [Line.at, accepts] at source
      have same := Option.some.inj source
      omega
  · obtain ⟨run, empty⟩ := accepted_run accepts rfl
    rw [samples_accepted r new]
    constructor
    · rintro ⟨emits, source⟩
      have earliest := emits_from h from_here source
      refine ⟨earliest, ?_⟩
      by_contra late
      have last := (run _ (le_refl _)).2
      refine no_more_samples r f _ (ordered_at r f line h _) last empty
        (j - (k + (laterTicks r ((line.at r f k).last r f) (f p)).length + 1)) ?_ ?_
      · rw [emitted_shift, Nat.add_sub_cancel' (by omega)]
        exact emits
      · rw [at_shift, ← Nat.add_assoc, Nat.add_sub_cancel' (by omega)]
        exact source
    · rintro ⟨after, before⟩
      have now := run (j - k) (by omega)
      rwa [Nat.add_sub_cancel' after] at now

end GapTwins
