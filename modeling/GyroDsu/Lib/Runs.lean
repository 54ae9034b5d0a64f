import Mathlib.Data.List.Basic

/-!
Runs of a partial step function. An action a state does not allow has no
successor. The actions of a run are listed newest first, so that a fact about
what has happened so far is a recursion on that list.
-/
namespace Runs
variable {S A : Type}

inductive Run (step : S → A → Option S) (s : S) : List A → S → Prop where
  | nil : Run step s [] s
  | next {as : List A} {a : A} {t u : S} (before : Run step s as t)
      (last : step t a = some u) : Run step s (a :: as) u

/-- The oldest action comes first here: a schedule to be carried out. -/
def execute (step : S → A → Option S) : S → List A → Option S
  | s, [] => some s
  | s, a :: as => (step s a).bind fun t => execute step t as

theorem run_append {step : S → A → Option S} {s t u : S} {as bs : List A}
    (first : Run step s as t) (second : Run step t bs u) : Run step s (bs ++ as) u := by
  induction second with
  | nil => exact first
  | next before last ih => exact Run.next ih last

theorem run_of_execute {step : S → A → Option S} {s t : S} {as : List A}
    (done : execute step s as = some t) : Run step s as.reverse t := by
  induction as generalizing s with
  | nil =>
    obtain rfl : s = t := by simpa [execute] using done
    exact Run.nil
  | cons a as ih =>
    obtain ⟨m, hm, rest⟩ := Option.bind_eq_some_iff.mp done
    rw [List.reverse_cons]
    exact run_append (Run.next Run.nil hm) (ih rest)

/-- What every allowed action preserves holds at the end of every run. -/
theorem run_invariant {step : S → A → Option S} {s t : S} {as : List A} (I : S → Prop)
    (preserved : ∀ u a v, I u → step u a = some v → I v)
    (run : Run step s as t) (start : I s) : I t := by
  induction run with
  | nil => exact start
  | next before last ih => exact preserved _ _ _ ih last

theorem run_invariant_of {step : S → A → Option S} {s t : S} {as : List A} (I : S → Prop)
    (ok : A → Prop) (preserved : ∀ u a v, I u → ok a → step u a = some v → I v)
    (run : Run step s as t) (allowed : ∀ a ∈ as, ok a) (start : I s) : I t := by
  induction run with
  | nil => exact start
  | next before last ih =>
    exact preserved _ _ _ (ih fun b hb => allowed b (List.mem_cons_of_mem _ hb))
      (allowed _ List.mem_cons_self) last

/-- A rank that the actions of a kind lower, and none raises, bounds how many of them a run has. -/
theorem run_ranked {step : S → A → Option S} {s t : S} {as : List A} (I : S → Prop) (ok : A → Prop)
    (kind : A → Bool) (rank : S → Nat) (preserved : ∀ u a v, I u → ok a → step u a = some v → I v)
    (lowers : ∀ u a v, I u → ok a → step u a = some v → kind a = true → rank v < rank u)
    (keeps : ∀ u a v, I u → ok a → step u a = some v → rank v ≤ rank u)
    (run : Run step s as t) (allowed : ∀ a ∈ as, ok a) (start : I s) : as.countP kind + rank t ≤ rank s := by
  induction run with
  | nil => simp
  | next before last ih =>
    rename_i as a u v
    have earlier : ∀ b ∈ as, ok b := fun b member => allowed b (List.mem_cons_of_mem _ member)
    have allowed_last := allowed a List.mem_cons_self
    have so_far := ih earlier
    have here := run_invariant_of I ok preserved before earlier start
    cases counted : kind a with
    | true =>
      have less := lowers _ _ _ here allowed_last last counted
      rw [List.countP_cons_of_pos counted]
      omega
    | false =>
      have kept := keeps _ _ _ here allowed_last last
      rw [List.countP_cons_of_neg (by simp [counted])]
      omega

/-- If something can lower the rank wherever it is not done, it can be done. -/
theorem run_finishes {step : S → A → Option S} {s : S} (I done : S → Prop) (rank : S → Nat)
    (preserved : ∀ u a v, I u → step u a = some v → I v)
    (goes : ∀ u, I u → done u ∨ ∃ a v, step u a = some v ∧ rank v < rank u) (start : I s) :
    ∃ as t, Run step s as t ∧ done t ∧ as.length ≤ rank s := by
  induction bound : rank s using Nat.strongRecOn generalizing s with
  | _ n ih =>
    rcases goes s start with finished | ⟨a, v, step_a, less⟩
    · exact ⟨[], s, .nil, finished, Nat.zero_le _⟩
    · obtain ⟨as, t, run, finished, short⟩ := ih (rank v) (bound ▸ less) (preserved _ _ _ start step_a) rfl
      refine ⟨as ++ [a], t, run_append (.next .nil step_a) run, finished, ?_⟩
      rw [List.length_append, List.length_singleton]
      omega

structure Move (S A : Type) where
  before : S
  action : A
  after : S

inductive Path (step : S → A → Option S) (s : S) : List (Move S A) → S → Prop where
  | nil : Path step s [] s
  | next {moves : List (Move S A)} {a : A} {t u : S} (before : Path step s moves t)
      (last : step t a = some u) : Path step s (⟨t, a, u⟩ :: moves) u

def record (step : S → A → Option S) : S → List A → List (Move S A) → Option (List (Move S A) × S)
  | s, [], moves => some (moves, s)
  | s, a :: as, moves => (step s a).bind fun t => record step t as (⟨s, a, t⟩ :: moves)

theorem path_of_record {step : S → A → Option S} {start s t : S} (as : List A)
    {moves moves' : List (Move S A)} (so_far : Path step start moves s)
    (done : record step s as moves = some (moves', t)) : Path step start moves' t := by
  induction as generalizing s moves with
  | nil =>
    obtain ⟨rfl, rfl⟩ : moves = moves' ∧ s = t := by simpa [record] using done
    exact so_far
  | cons a as ih =>
    obtain ⟨m, hm, rest⟩ := Option.bind_eq_some_iff.mp done
    exact ih (Path.next so_far hm) rest

theorem path_invariant {step : S → A → Option S} {s t : S} {moves : List (Move S A)} (I : S → Prop)
    (preserved : ∀ u a v, I u → step u a = some v → I v)
    (path : Path step s moves t) (start : I s) : I t := by
  induction path with
  | nil => exact start
  | next before last ih => exact preserved _ _ _ ih last

theorem path_invariant_of {step : S → A → Option S} {s t : S} {moves : List (Move S A)} (I : S → Prop)
    (ok : S → A → Prop) (preserved : ∀ u a v, I u → ok u a → step u a = some v → I v)
    (path : Path step s moves t) (allowed : ∀ move ∈ moves, ok move.before move.action)
    (start : I s) : I t := by
  induction path with
  | nil => exact start
  | next before last ih =>
    exact preserved _ _ _ (ih fun move earlier => allowed move (List.mem_cons_of_mem _ earlier))
      (allowed _ List.mem_cons_self) last

theorem path_moves {step : S → A → Option S} {s t : S} {moves : List (Move S A)} (I : S → Prop)
    (preserved : ∀ u a v, I u → step u a = some v → I v) (path : Path step s moves t) (start : I s) :
    ∀ move ∈ moves, I move.before ∧ step move.before move.action = some move.after := by
  induction path with
  | nil =>
    intro move member
    cases member
  | next before last ih =>
    intro move member
    cases member with
    | head => exact ⟨path_invariant I preserved before start, last⟩
    | tail _ earlier => exact ih move earlier

/-- A run goes well exactly when all its steps meet a condition, if a step that meets it goes
    well and keeps what such steps need, and one that goes well where this holds has met it. -/
theorem path_iff {step : S → A → Option S} {s t : S} {moves : List (Move S A)} (I G : S → Prop)
    (ok : S → A → Prop) (good : Move S A → Prop)
    (preserved : ∀ u a v, I u → step u a = some v → I v)
    (enough : ∀ u a v, I u → G u → step u a = some v → ok u a → good ⟨u, a, v⟩ ∧ G v)
    (needed : ∀ u a v, I u → G u → step u a = some v → good ⟨u, a, v⟩ → ok u a)
    (path : Path step s moves t) (start : I s) (start' : G s) :
    (∀ move ∈ moves, good move) ↔ ∀ move ∈ moves, ok move.before move.action := by
  constructor
  · intro well
    suffices both : (∀ move ∈ moves, ok move.before move.action) ∧ G t from both.1
    induction path with
    | nil =>
      constructor
      · intro move member
        cases member
      · exact start'
    | next before last ih =>
      obtain ⟨met, kept⟩ := ih fun move h => well move (List.mem_cons_of_mem _ h)
      have sound := path_invariant I preserved before start
      have met_last := needed _ _ _ sound kept last (well _ List.mem_cons_self)
      refine ⟨fun move member => ?_, (enough _ _ _ sound kept last met_last).2⟩
      rcases List.mem_cons.mp member with rfl | earlier
      · exact met_last
      · exact met move earlier
  · intro met
    suffices both : (∀ move ∈ moves, good move) ∧ G t from both.1
    induction path with
    | nil =>
      constructor
      · intro move member
        cases member
      · exact start'
    | next before last ih =>
      obtain ⟨well, kept⟩ := ih fun move h => met move (List.mem_cons_of_mem _ h)
      obtain ⟨good_last, kept'⟩ := enough _ _ _ (path_invariant I preserved before start) kept last
        (met _ List.mem_cons_self)
      refine ⟨fun move member => ?_, kept'⟩
      rcases List.mem_cons.mp member with rfl | earlier
      · exact good_last
      · exact well move earlier

def Reachable (step : S → A → Option S) (init : S → Prop) (t : S) : Prop :=
  ∃ s as, init s ∧ Run step s as t

theorem reachable_next {step : S → A → Option S} {init : S → Prop} {s t : S} {a : A}
    (reached : Reachable step init s) (last : step s a = some t) : Reachable step init t := by
  obtain ⟨s₀, as, begins, run⟩ := reached
  exact ⟨s₀, a :: as, begins, .next run last⟩

theorem reachable_invariant {step : S → A → Option S} {init : S → Prop} {t : S} (I : S → Prop)
    (base : ∀ s, init s → I s) (preserved : ∀ u a v, I u → step u a = some v → I v)
    (reached : Reachable step init t) : I t := by
  obtain ⟨s, as, hs, run⟩ := reached
  exact run_invariant I preserved run (base s hs)

variable {R : Type}

/-- A while(true) loop: a pass of the body goes on with another state or leaves with a result. -/
inductive Returns (body : S → S ⊕ R) : S → R → Prop where
  | leaves {s : S} {r : R} (pass : body s = .inr r) : Returns body s r
  | again {s t : S} {r : R} (pass : body s = .inl t) (rest : Returns body t r) : Returns body s r

theorem returns_unique {body : S → S ⊕ R} {s : S} {r r' : R} (first : Returns body s r)
    (second : Returns body s r') : r = r' := by
  induction first with
  | leaves pass =>
    cases second with
    | leaves pass' => exact Sum.inr.inj (pass.symm.trans pass')
    | again pass' => cases pass.symm.trans pass'
  | again pass rest ih =>
    cases second with
    | leaves pass' => cases pass.symm.trans pass'
    | again pass' rest' =>
      obtain rfl := Sum.inl.inj (pass.symm.trans pass')
      exact ih rest'

theorem returns_invariant {body : S → S ⊕ R} {s : S} {r : R} (I : S → Prop) (Q : R → Prop)
    (kept : ∀ s t, I s → body s = .inl t → I t) (left : ∀ s r, I s → body s = .inr r → Q r)
    (done : Returns body s r) (start : I s) : Q r := by
  induction done with
  | leaves pass => exact left _ _ start pass
  | again pass rest ih => exact ih (kept _ _ start pass)

end Runs
