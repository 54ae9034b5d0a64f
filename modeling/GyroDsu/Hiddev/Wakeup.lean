import GyroDsu.Hiddev.Registry

/-
The serving thread's wait on framesCv. GetServe changes the vector under the mutex the
wait uses; Thread::Stop sets its flag under another one, so its notify_all may fall between
the evaluation of the predicate and the wait.
-/
namespace Wakeup
open Registry Runs

structure Lost (s : State) : Prop where
  waits : s.place = .waiting
  happened : s.stop = true ∨ s.frames ≠ []
  stopNotified : s.stopper ≠ .flushing
  serveNotified : s.notifying = 0

/-- The wait begins with a notify_all still to come, or before Thread::Stop has issued its own. -/
def InTime (s : State) : Action → Prop
  | .wait => s.stopper ≠ .joining ∨ s.notifying > 0
  | _ => True

instance (s : State) : (a : Action) → Decidable (InTime s a)
  | .wait => inferInstanceAs (Decidable (s.stopper ≠ .joining ∨ s.notifying > 0))
  | .getServe | .notifyServe | .search _ | .erase _ | .start | .shouldContinue | .evaluate
  | .enter | .leave | .setStop | .flushPipes | .join => .isTrue trivial

structure Sound (s : State) : Prop where
  evaluated : s.place = .evaluated → s.frames = []
  stopping : s.stop = true ↔ s.stopper ≠ .none

theorem notified_waits (place : Place) : place.notified ≠ .waiting := by
  cases place <;> decide

theorem notified_evaluated {place : Place} (h : place.notified = .evaluated) : place = .evaluated := by
  cases place <;> first | rfl | cases h

theorem step_sound {s t : State} {a : Action} (h : Sound s) (step : s.step a = some t) : Sound t := by
  obtain ⟨evaluated, stopping⟩ := h
  cases step_cases step with
  | getServe unlocked =>
    refine ⟨fun place => ?_, stopping⟩
    simp only at place
    rw [place] at unlocked
    cases unlocked
  | erase call found unlocked =>
    refine ⟨fun place => ?_, stopping⟩
    simp only at place
    rw [place] at unlocked
    cases unlocked
  | evaluated _ frames stop => exact ⟨fun _ => frames, stopping⟩
  | notifyServe => exact ⟨fun place => evaluated (notified_evaluated place), stopping⟩
  | flushPipes flushing =>
    refine ⟨fun place => evaluated (notified_evaluated place), ?_⟩
    rw [flushing] at stopping
    exact iff_of_true (stopping.mpr (by decide)) (by simp)
  | start _ idle => exact ⟨fun place => (by cases place), by simp [idle]⟩
  | setStop => exact ⟨evaluated, by simp⟩
  | join => exact ⟨evaluated, by simp⟩
  | found => exact ⟨evaluated, stopping⟩
  | unknown => exact ⟨evaluated, stopping⟩
  | _ => exact ⟨fun place => (by cases place), stopping⟩

/-- A wait is lost from the moment it begins or not at all. -/
theorem lost_late {s t : State} {a : Action} (step : s.step a = some t) (lost : Lost t) :
    Lost s ∨ a = .wait := by
  obtain ⟨waits, happened, stopNotified, serveNotified⟩ := lost
  cases step_cases step with
  | wait => exact Or.inr rfl
  | getServe => cases serveNotified
  | notifyServe => exact absurd waits (notified_waits _)
  | flushPipes => exact absurd waits (notified_waits _)
  | setStop => exact absurd rfl stopNotified
  | join _ place =>
    simp only [place] at waits
    cases waits
  | erase call found =>
    refine Or.inl ⟨waits, ?_, stopNotified, serveNotified⟩
    rcases happened with stop | some_left
    · exact Or.inl stop
    · refine Or.inr fun none_before => some_left ?_
      simp only [none_before, List.eraseIdx_nil]
  | found => exact Or.inl ⟨waits, happened, stopNotified, serveNotified⟩
  | unknown => exact Or.inl ⟨waits, happened, stopNotified, serveNotified⟩
  | _ => cases waits

/-- At the beginning of a wait the vector is empty, so only a stop can have happened. -/
theorem wait_lost {s t : State} (h : Sound s) (step : s.step .wait = some t) :
    Lost t ↔ ¬InTime s .wait := by
  cases step_cases step with
  | wait place =>
    have empty := h.evaluated place
    simp only [InTime, not_or, not_not, gt_iff_lt, Nat.not_lt, Nat.le_zero_eq]
    constructor
    · intro lost
      obtain ⟨_, happened, stopNotified, serveNotified⟩ := lost
      have stop : s.stop = true := happened.resolve_right fun some_left => some_left empty
      refine ⟨?_, serveNotified⟩
      cases stopper : s.stopper with
      | none => exact absurd stopper (h.stopping.mp stop)
      | flushing => exact absurd stopper stopNotified
      | joining => rfl
    · intro late
      have stop : s.stop = true := h.stopping.mpr (by rw [late.1]; decide)
      exact ⟨rfl, Or.inl stop, by simp [late.1], late.2⟩

theorem step_lost {s t : State} {a : Action} (h : Sound s) (awake : ¬Lost s)
    (step : s.step a = some t) (in_time : InTime s a) : ¬Lost t := by
  intro lost
  rcases lost_late step lost with before | rfl
  · exact awake before
  · exact (wait_lost h step).mp lost in_time

theorem lost_step {s t : State} {a : Action} (h : Sound s) (step : s.step a = some t)
    (awake : ¬Lost t) : InTime s a := by
  cases a with
  | wait =>
    by_contra late
    exact awake ((wait_lost h step).mpr late)
  | _ => trivial

/-- In every run, the serving thread never waits for what has been notified already if and
    only if no wait begins after the notification of Thread::Stop. -/
theorem no_wakeup_lost_iff {moves : List (Move State Action)} {t : State}
    (path : Path State.step construct moves t) :
    (∀ move ∈ moves, ¬Lost move.after) ↔ ∀ move ∈ moves, InTime move.before move.action := by
  have sound : Sound construct := ⟨by decide, by decide⟩
  have awake : ¬Lost construct := by
    intro lost
    cases lost.waits
  refine path_iff Sound (fun s => ¬Lost s) InTime (fun move => ¬Lost move.after) ?_ ?_ ?_ path sound awake
  · intro u a v h step
    exact step_sound h step
  · intro u a v h awake step in_time
    exact ⟨step_lost h awake step in_time, step_lost h awake step in_time⟩
  · intro u a v h _ step awake
    exact lost_step h step awake

def stoppedWaiting : List Action :=
  [.start, .shouldContinue, .evaluate, .wait, .getServe, .notifyServe, .evaluate, .shouldContinue,
    .enter, .leave, .search 0, .erase 0, .shouldContinue, .evaluate, .setStop, .wait, .flushPipes,
    .evaluate, .shouldContinue, .join]

theorem no_wakeup_lost_waiting :
    ∃ moves t, Path State.step construct moves t ∧ t.place = .off ∧
      ∀ move ∈ moves, ¬Lost move.after := by
  have path : Path State.step construct _ _ := path_of_record stoppedWaiting Path.nil rfl
  exact ⟨_, _, path, rfl, (no_wakeup_lost_iff path).mpr (by decide)⟩

def stoppedBetween : List Action :=
  [.start, .shouldContinue, .evaluate, .setStop, .flushPipes, .wait]

theorem stop_wakeup_lost : ∃ moves t, Path State.step construct moves t ∧ Lost t := by
  have path : Path State.step construct _ _ := path_of_record stoppedBetween Path.nil rfl
  exact ⟨_, _, path, rfl, Or.inl rfl, by decide, rfl⟩

end Wakeup
