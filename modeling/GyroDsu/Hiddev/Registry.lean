import GyroDsu.Lib.Runs

/-
ServeFrame's list of consumers: GetServe and StopServe from any number of threads, the
serving thread's wait for a first consumer, and Thread::Stop. A section under framesMutex
is one step, except where the serving thread keeps the mutex for longer. A condition wait
evaluates its predicate with the mutex held and then, in a step of its own, gives the
mutex back and becomes a waiter. What is served is left out.
-/
namespace Registry

/-- A StopServe that has found its Serve and released the shared lock. `passed` is history:
    the positions at which others have erased since. -/
structure Found where
  serve : Nat
  position : Nat
  passed : List Nat
  deriving DecidableEq, Repr

/-- Where Execute stands. It has framesMutex to itself in `evaluated`, with the predicate of
    the wait found false, and in `serving`. -/
inductive Place where
  | off
  | top
  | waitForServes
  | evaluated
  | waiting
  | passed
  | entering
  | serving
  deriving DecidableEq, Repr

inductive Stopper where
  | none
  | flushing
  | joining
  deriving DecidableEq, Repr

/-- A Serve is known by the number of its `new`. `notifying` counts the calls of GetServe
    that have not come to notify_all. `stopped` is history: the Serves a StopServe has
    erased for. -/
structure State where
  frames : List Nat
  made : Nat
  notifying : Nat
  stops : List Found
  stopped : List Nat
  place : Place
  stop : Bool
  stopper : Stopper
  deriving DecidableEq, Repr

inductive Action where
  | getServe
  | notifyServe
  | search (serve : Nat)
  | erase (call : Nat)
  | start
  | shouldContinue
  | evaluate
  | wait
  | enter
  | leave
  | setStop
  | flushPipes
  | join
  deriving DecidableEq, Repr

def Place.locks : Place → Bool
  | .evaluated => true
  | .serving => true
  | _ => false

/-- notify_all wakes the serving thread only if it waits at this moment; it then has to
    evaluate the predicate again. -/
def Place.notified : Place → Place
  | .waiting => .waitForServes
  | place => place

def Found.pass (position : Nat) (found : Found) : Found :=
  { found with passed := position :: found.passed }

def State.step (s : State) : Action → Option State
  | .getServe =>
    if s.place.locks then none
    else some { s with
      frames := s.frames ++ [s.made]
      made := s.made + 1
      notifying := s.notifying + 1 }
  | .notifyServe =>
    if s.notifying > 0 then
      some { s with notifying := s.notifying - 1, place := s.place.notified }
    else none
  | .search serve =>
    if s.place.locks then none
    else if serve ∈ s.frames then
      some { s with stops := ⟨serve, s.frames.idxOf serve, []⟩ :: s.stops }
    else some s
  | .erase call =>
    if s.place.locks then none
    else (s.stops[call]?).map fun found =>
      { s with
        frames := s.frames.eraseIdx found.position
        stops := (s.stops.eraseIdx call).map (Found.pass found.position)
        stopped := found.serve :: s.stopped }
  | .start =>
    if s.place = .off ∧ s.stopper = .none then some { s with place := .top, stop := false } else none
  | .shouldContinue =>
    match s.place with
    | .top => some { s with place := if s.stop then .off else .waitForServes }
    | .passed => some { s with place := if s.stop then .off else .entering }
    | _ => none
  | .evaluate =>
    if s.place = .waitForServes then
      some { s with place := if s.frames.length > 0 ∨ s.stop = true then .passed else .evaluated }
    else none
  | .wait => if s.place = .evaluated then some { s with place := .waiting } else none
  | .enter => if s.place = .entering then some { s with place := .serving } else none
  | .leave => if s.place = .serving then some { s with place := .top } else none
  | .setStop =>
    if s.place ≠ .off ∧ s.stopper = .none then some { s with stop := true, stopper := .flushing }
    else none
  | .flushPipes =>
    if s.stopper = .flushing then some { s with stopper := .joining, place := s.place.notified }
    else none
  | .join =>
    if s.stopper = .joining ∧ s.place = .off then some { s with stop := false, stopper := .none }
    else none

def construct : State := ⟨[], 0, 0, [], [], .off, false, .none⟩

inductive Step (s : State) : Action → State → Prop where
  | getServe (unlocked : s.place.locks = false) :
      Step s .getServe { s with
        frames := s.frames ++ [s.made]
        made := s.made + 1
        notifying := s.notifying + 1 }
  | notifyServe (some_due : s.notifying > 0) :
      Step s .notifyServe { s with notifying := s.notifying - 1, place := s.place.notified }
  | found (serve : Nat) (unlocked : s.place.locks = false) (registered : serve ∈ s.frames) :
      Step s (.search serve) { s with stops := ⟨serve, s.frames.idxOf serve, []⟩ :: s.stops }
  | unknown (serve : Nat) (unregistered : serve ∉ s.frames) : Step s (.search serve) s
  | erase (call : Nat) (found : Found) (unlocked : s.place.locks = false)
      (here : s.stops[call]? = some found) :
      Step s (.erase call) { s with
        frames := s.frames.eraseIdx found.position
        stops := (s.stops.eraseIdx call).map (Found.pass found.position)
        stopped := found.serve :: s.stopped }
  | start (place : s.place = .off) (idle : s.stopper = .none) :
      Step s .start { s with place := .top, stop := false }
  | finished (place : s.place = .top ∨ s.place = .passed) (stop : s.stop = true) :
      Step s .shouldContinue { s with place := .off }
  | goes (place : s.place = .top) (stop : s.stop = false) :
      Step s .shouldContinue { s with place := .waitForServes }
  | goesOn (place : s.place = .passed) (stop : s.stop = false) :
      Step s .shouldContinue { s with place := .entering }
  | passed (place : s.place = .waitForServes) (holds : s.frames ≠ [] ∨ s.stop = true) :
      Step s .evaluate { s with place := .passed }
  | evaluated (place : s.place = .waitForServes) (frames : s.frames = []) (stop : s.stop = false) :
      Step s .evaluate { s with place := .evaluated }
  | wait (place : s.place = .evaluated) : Step s .wait { s with place := .waiting }
  | enter (place : s.place = .entering) : Step s .enter { s with place := .serving }
  | leave (place : s.place = .serving) : Step s .leave { s with place := .top }
  | setStop (place : s.place ≠ .off) (idle : s.stopper = .none) :
      Step s .setStop { s with stop := true, stopper := .flushing }
  | flushPipes (flushing : s.stopper = .flushing) :
      Step s .flushPipes { s with stopper := .joining, place := s.place.notified }
  | join (joining : s.stopper = .joining) (place : s.place = .off) :
      Step s .join { s with stop := false, stopper := .none }

theorem shouldContinue_cases {s t : State} (step : s.step .shouldContinue = some t) :
    Step s .shouldContinue t := by
  simp only [State.step] at step
  split at step
  · rename_i place
    obtain rfl := Option.some.inj step
    by_cases stop : s.stop = true
    · rw [if_pos stop]
      exact .finished (Or.inl place) stop
    · rw [if_neg stop]
      exact .goes place (eq_false_of_ne_true stop)
  · rename_i place
    obtain rfl := Option.some.inj step
    by_cases stop : s.stop = true
    · rw [if_pos stop]
      exact .finished (Or.inr place) stop
    · rw [if_neg stop]
      exact .goesOn place (eq_false_of_ne_true stop)
  · cases step

theorem evaluate_cases {s t : State} (step : s.step .evaluate = some t) : Step s .evaluate t := by
  simp only [State.step] at step
  split at step
  · rename_i place
    obtain rfl := Option.some.inj step
    by_cases holds : s.frames.length > 0 ∨ s.stop = true
    · rw [if_pos holds]
      refine .passed place ?_
      rw [← List.length_pos_iff]
      exact holds
    · rw [if_neg holds]
      rw [not_or, Bool.not_eq_true, gt_iff_lt, List.length_pos_iff, not_not] at holds
      exact .evaluated place holds.1 holds.2
  · cases step

theorem step_cases {s t : State} {a : Action} (step : s.step a = some t) : Step s a t := by
  cases a with
  | getServe =>
    simp only [State.step] at step
    split at step
    · cases step
    · rename_i unlocked
      obtain rfl := Option.some.inj step
      exact .getServe (eq_false_of_ne_true unlocked)
  | notifyServe =>
    simp only [State.step] at step
    split at step
    · rename_i some_due
      obtain rfl := Option.some.inj step
      exact .notifyServe some_due
    · cases step
  | search serve =>
    simp only [State.step] at step
    split at step
    · cases step
    · rename_i unlocked
      split at step
      · rename_i registered
        obtain rfl := Option.some.inj step
        exact .found serve (eq_false_of_ne_true unlocked) registered
      · rename_i unregistered
        obtain rfl := Option.some.inj step
        exact .unknown serve unregistered
  | erase call =>
    simp only [State.step] at step
    split at step
    · cases step
    · rename_i unlocked
      obtain ⟨found, here, rfl⟩ := Option.map_eq_some_iff.mp step
      exact .erase call found (eq_false_of_ne_true unlocked) here
  | shouldContinue => exact shouldContinue_cases step
  | evaluate => exact evaluate_cases step
  | wait =>
    simp only [State.step] at step
    split at step
    · rename_i place
      obtain rfl := Option.some.inj step
      exact .wait place
    · cases step
  | enter =>
    simp only [State.step] at step
    split at step
    · rename_i place
      obtain rfl := Option.some.inj step
      exact .enter place
    · cases step
  | leave =>
    simp only [State.step] at step
    split at step
    · rename_i place
      obtain rfl := Option.some.inj step
      exact .leave place
    · cases step
  | flushPipes =>
    simp only [State.step] at step
    split at step
    · rename_i flushing
      obtain rfl := Option.some.inj step
      exact .flushPipes flushing
    · cases step
  | start =>
    simp only [State.step] at step
    split at step
    · rename_i idle
      obtain rfl := Option.some.inj step
      exact .start idle.1 idle.2
    · cases step
  | setStop =>
    simp only [State.step] at step
    split at step
    · rename_i running
      obtain rfl := Option.some.inj step
      exact .setStop running.1 running.2
    · cases step
  | join =>
    simp only [State.step] at step
    split at step
    · rename_i joined
      obtain rfl := Option.some.inj step
      exact .join joined.1 joined.2
    · cases step

end Registry
