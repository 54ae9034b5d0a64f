import GyroDsu.Lib.Runs

/-!
An object behind a mutex with one condition variable, used by any number of threads. A method
either changes the object and goes, perhaps with a notify_all once the mutex is free again, or
it waits until the object is ready. Giving the mutex back and falling asleep are one step of a
wait; waking up and getting the mutex again are two. A wait may wake up for no reason.
-/
namespace Monitor
variable {S M Thread : Type}

/-- A wait that has come to its end takes something from the object. With `release`, the
    method keeps the mutex until it is called off, and then leaves the object changed again. -/
inductive Call (S : Type) where
  | change (update : S → S) (notifies : Bool)
  | wait (timed : Bool) (take : S → S) (release : Option (S → S))

structure Object (S M : Type) where
  ready : S → Bool
  method : M → Call S

inductive Place (M : Type) where
  | outside
  | inside (m : M)
  | holding (m : M)
  | notifying
  | asleep (m : M)
  | woken (m : M)

structure State (S M Thread : Type) where
  object : S
  owner : Option Thread
  place : Thread → Place M

inductive Action (M Thread : Type) where
  | call (t : Thread) (m : M)
  | run (t : Thread)
  | giveUp (t : Thread)
  | notifyAll (t : Thread)
  | wake (t : Thread)
  | relock (t : Thread)

def Place.wakeUp : Place M → Place M
  | .asleep m => .woken m
  | place => place

def Place.owns : Place M → Bool
  | .inside _ => true
  | .holding _ => true
  | _ => false

variable [DecidableEq Thread]

def State.move (s : State S M Thread) (t : Thread) (place : Place M) : Thread → Place M :=
  fun u => if u = t then place else s.place u

def State.run (o : Object S M) (s : State S M Thread) (t : Thread) : Option (State S M Thread) :=
  match s.place t with
  | .inside m =>
    match o.method m with
    | .change update notifies =>
      some ⟨update s.object, none, s.move t (if notifies then .notifying else .outside)⟩
    | .wait _ take release =>
      if o.ready s.object then
        if release.isSome then some ⟨take s.object, s.owner, s.move t (.holding m)⟩
        else some ⟨take s.object, none, s.move t .outside⟩
      else some ⟨s.object, none, s.move t (.asleep m)⟩
  | .holding m =>
    match o.method m with
    | .wait _ _ (some release) => some ⟨release s.object, none, s.move t .outside⟩
    | _ => none
  | _ => none

def State.giveUp (o : Object S M) (s : State S M Thread) (t : Thread) : Option (State S M Thread) :=
  match s.place t with
  | .inside m =>
    match o.method m with
    | .wait true _ _ => if o.ready s.object then none else some ⟨s.object, none, s.move t .outside⟩
    | _ => none
  | _ => none

def State.step (o : Object S M) (s : State S M Thread) : Action M Thread → Option (State S M Thread)
  | .call t m =>
    match s.place t, s.owner with
    | .outside, none => some ⟨s.object, some t, s.move t (.inside m)⟩
    | _, _ => none
  | .run t => s.run o t
  | .giveUp t => s.giveUp o t
  | .notifyAll t =>
    match s.place t with
    | .notifying =>
      some ⟨s.object, s.owner, fun u => if u = t then .outside else (s.place u).wakeUp⟩
    | _ => none
  | .wake t =>
    match s.place t with
    | .asleep m => some ⟨s.object, s.owner, s.move t (.woken m)⟩
    | _ => none
  | .relock t =>
    match s.place t, s.owner with
    | .woken m, none => some ⟨s.object, some t, s.move t (.inside m)⟩
    | _, _ => none

/-- Whoever makes the object ready tells. -/
structure Tells (o : Object S M) : Prop where
  change : ∀ m update notifies s, o.method m = .change update notifies →
    o.ready s = false → o.ready (update s) = true → notifies = true
  release : ∀ m timed take release s, o.method m = .wait timed take (some release) →
    o.ready s = false → o.ready (release s) = false

def starts (object : S) : State S M Thread := ⟨object, none, fun _ => .outside⟩

inductive Step (o : Object S M) (s : State S M Thread) : Action M Thread → State S M Thread → Prop where
  | call (t : Thread) (m : M) (place : s.place t = .outside) (free : s.owner = none) :
      Step o s (.call t m) ⟨s.object, some t, s.move t (.inside m)⟩
  | change (t : Thread) (m : M) (update : S → S) (notifies : Bool) (place : s.place t = .inside m)
      (method : o.method m = .change update notifies) :
      Step o s (.run t) ⟨update s.object, none, s.move t (if notifies then .notifying else .outside)⟩
  | take (t : Thread) (m : M) (take : S → S) (place : s.place t = .inside m)
      (ready : o.ready s.object = true) : Step o s (.run t) ⟨take s.object, none, s.move t .outside⟩
  | hold (t : Thread) (m : M) (timed : Bool) (take release : S → S) (place : s.place t = .inside m)
      (method : o.method m = .wait timed take (some release)) (ready : o.ready s.object = true) :
      Step o s (.run t) ⟨take s.object, s.owner, s.move t (.holding m)⟩
  | sleep (t : Thread) (m : M) (place : s.place t = .inside m) (idle : o.ready s.object = false) :
      Step o s (.run t) ⟨s.object, none, s.move t (.asleep m)⟩
  | release (t : Thread) (m : M) (timed : Bool) (take release : S → S) (place : s.place t = .holding m)
      (method : o.method m = .wait timed take (some release)) :
      Step o s (.run t) ⟨release s.object, none, s.move t .outside⟩
  | giveUp (t : Thread) (m : M) (place : s.place t = .inside m) :
      Step o s (.giveUp t) ⟨s.object, none, s.move t .outside⟩
  | notifyAll (t : Thread) (place : s.place t = .notifying) :
      Step o s (.notifyAll t) ⟨s.object, s.owner, fun u => if u = t then .outside else (s.place u).wakeUp⟩
  | wake (t : Thread) (m : M) (place : s.place t = .asleep m) :
      Step o s (.wake t) ⟨s.object, s.owner, s.move t (.woken m)⟩
  | relock (t : Thread) (m : M) (place : s.place t = .woken m) (free : s.owner = none) :
      Step o s (.relock t) ⟨s.object, some t, s.move t (.inside m)⟩

theorem run_cases {o : Object S M} {s s' : State S M Thread} {t : Thread} (done : s.run o t = some s') :
    Step o s (.run t) s' := by
  cases place : s.place t with
  | inside m =>
    cases method : o.method m with
    | change update notifies =>
      simp only [State.run, place, method, Option.some.injEq] at done
      subst done
      exact .change t m update notifies place method
    | wait timed take release =>
      cases ready : o.ready s.object with
      | true =>
        cases release with
        | none =>
          simp only [State.run, place, method, ready, Option.isSome_none, Bool.false_eq_true, if_true,
            if_false, Option.some.injEq] at done
          subst done
          exact .take t m take place ready
        | some release =>
          simp only [State.run, place, method, ready, Option.isSome_some, if_true, Option.some.injEq] at done
          subst done
          exact .hold t m timed take release place method ready
      | false =>
        simp only [State.run, place, method, ready, Bool.false_eq_true, if_false, Option.some.injEq] at done
        subst done
        exact .sleep t m place ready
  | holding m =>
    cases method : o.method m with
    | change update notifies =>
      simp only [State.run, place, method] at done
      cases done
    | wait timed take release =>
      cases release with
      | none =>
        simp only [State.run, place, method] at done
        cases done
      | some release =>
        simp only [State.run, place, method, Option.some.injEq] at done
        subst done
        exact .release t m timed take release place method
  | outside | notifying | asleep m | woken m =>
    simp only [State.run, place] at done
    cases done

theorem step_cases {o : Object S M} {s s' : State S M Thread} {a : Action M Thread}
    (step : s.step o a = some s') : Step o s a s' := by
  cases a with
  | call t m =>
    simp only [State.step] at step
    split at step
    · rename_i place free
      obtain rfl := Option.some.inj step
      exact .call t m place free
    · cases step
  | run t => exact run_cases step
  | giveUp t =>
    cases place : s.place t with
    | inside m =>
      simp only [State.step, State.giveUp, place] at step
      split at step
      · obtain ⟨_, done⟩ := Option.ite_none_left_eq_some.mp step
        obtain rfl := Option.some.inj done
        exact .giveUp t m place
      · cases step
    | outside | holding m | notifying | asleep m | woken m =>
      simp only [State.step, State.giveUp, place] at step
      cases step
  | notifyAll t =>
    simp only [State.step] at step
    split at step
    · rename_i place
      obtain rfl := Option.some.inj step
      exact .notifyAll t place
    · cases step
  | wake t =>
    simp only [State.step] at step
    split at step
    · rename_i m place
      obtain rfl := Option.some.inj step
      exact .wake t m place
    · cases step
  | relock t =>
    simp only [State.step] at step
    split at step
    · rename_i m place free
      obtain rfl := Option.some.inj step
      exact .relock t m place free
    · cases step

@[simp] theorem move_same (s : State S M Thread) (t : Thread) (place : Place M) : s.move t place t = place := by
  simp [State.move]

theorem move_other (s : State S M Thread) {t u : Thread} (place : Place M) (other : u ≠ t) :
    s.move t place u = s.place u := by
  simp [State.move, other]

structure Sound (o : Object S M) (s : State S M Thread) : Prop where
  owner : ∀ t, (s.place t).owns = true ↔ s.owner = some t
  due : ∀ t m, s.place t = .asleep m → o.ready s.object = true → ∃ u, s.place u = .notifying

def Held (o : Object S M) (s : State S M Thread) : Prop :=
  ∀ t m, s.place t = .holding m → ∃ timed take release, o.method m = .wait timed take (some release)

theorem owner_moved {s : State S M Thread} (owner : ∀ t, (s.place t).owns = true ↔ s.owner = some t)
    (t : Thread) (place : Place M) (owner' : Option Thread)
    (here : place.owns = true ↔ owner' = some t)
    (others : ∀ u, u ≠ t → (s.owner = some u ↔ owner' = some u)) (u : Thread) :
    (s.move t place u).owns = true ↔ owner' = some u := by
  by_cases same : u = t
  · subst same
    rw [move_same]
    exact here
  · rw [move_other s place same, owner u]
    exact others u same

omit [DecidableEq Thread] in
theorem owner_left {o : Object S M} {s : State S M Thread} (h : Sound o s) {t : Thread}
    (owns : (s.place t).owns = true) (u : Thread) (other : u ≠ t) :
    s.owner = some u ↔ (none : Option Thread) = some u := by
  rw [(h.owner t).mp owns]
  constructor
  · intro same
    exact absurd (Option.some.inj same).symm other
  · intro same
    cases same

omit [DecidableEq Thread] in
theorem owner_taken {s : State S M Thread} (free : s.owner = none) {t : Thread} (u : Thread) (other : u ≠ t) :
    s.owner = some u ↔ some t = some u := by
  rw [free]
  constructor
  · intro same
    cases same
  · intro same
    exact absurd (Option.some.inj same).symm other

/-- A notification that was due is still due when another thread has moved. -/
theorem due_moved {s : State S M Thread} {t : Thread} {place : Place M} (before : s.place t ≠ .notifying)
    (due : ∃ u, s.place u = .notifying) : ∃ u, s.move t place u = .notifying := by
  obtain ⟨u, notifying⟩ := due
  refine ⟨u, ?_⟩
  rw [move_other]
  · exact notifying
  · rintro rfl
    exact before notifying

theorem elsewhere_moved {s : State S M Thread} {t u : Thread} {place place' : Place M} (other : place ≠ place')
    (there : s.move t place u = place') : s.place u = place' := by
  by_cases same : u = t
  · subst same
    rw [move_same] at there
    exact absurd there other
  · rwa [move_other s place same] at there

theorem step_sound {o : Object S M} (tells : Tells o) {s s' : State S M Thread} {a : Action M Thread}
    (h : Sound o s) (step : s.step o a = some s') : Sound o s' := by
  cases step_cases step with
  | call t m place free =>
    refine ⟨owner_moved h.owner t _ _ (by simp [Place.owns]) (owner_taken free), fun u m' asleep ready => ?_⟩
    exact due_moved (by simp [place]) (h.due u m' (elsewhere_moved (by simp) asleep) ready)
  | change t m update notifies place method =>
    have inside : (s.place t).owns = true := by rw [place]; rfl
    refine ⟨owner_moved h.owner t _ _ (by cases notifies <;> simp [Place.owns]) (owner_left h inside),
      fun u m' asleep ready => ?_⟩
    cases before : o.ready s.object with
    | true =>
      have old : s.place u = .asleep m' := elsewhere_moved (by cases notifies <;> simp) asleep
      exact due_moved (by simp [place]) (h.due u m' old before)
    | false =>
      obtain rfl := tells.change m update notifies s.object method before ready
      exact ⟨t, by simp⟩
  | take t m take place ready =>
    have inside : (s.place t).owns = true := by rw [place]; rfl
    refine ⟨owner_moved h.owner t _ _ (by simp [Place.owns]) (owner_left h inside), fun u m' asleep _ => ?_⟩
    exact due_moved (by simp [place]) (h.due u m' (elsewhere_moved (by simp) asleep) ready)
  | hold t m timed take release place method ready =>
    have inside : (s.place t).owns = true := by rw [place]; rfl
    have owned := (h.owner t).mp inside
    refine ⟨owner_moved h.owner t _ _ (by simp [Place.owns, owned]) (fun _ _ => Iff.rfl), fun u m' asleep _ => ?_⟩
    exact due_moved (by simp [place]) (h.due u m' (elsewhere_moved (by simp) asleep) ready)
  | sleep t m place idle =>
    have inside : (s.place t).owns = true := by rw [place]; rfl
    refine ⟨owner_moved h.owner t _ _ (by simp [Place.owns]) (owner_left h inside), fun u m' _ ready => ?_⟩
    cases idle.symm.trans ready
  | release t m timed take release place method =>
    have inside : (s.place t).owns = true := by rw [place]; rfl
    refine ⟨owner_moved h.owner t _ _ (by simp [Place.owns]) (owner_left h inside), fun u m' asleep ready => ?_⟩
    cases before : o.ready s.object with
    | true => exact due_moved (by simp [place]) (h.due u m' (elsewhere_moved (by simp) asleep) before)
    | false => cases (tells.release m timed take release s.object method before).symm.trans ready
  | giveUp t m place =>
    have inside : (s.place t).owns = true := by rw [place]; rfl
    refine ⟨owner_moved h.owner t _ _ (by simp [Place.owns]) (owner_left h inside), fun u m' asleep ready => ?_⟩
    exact due_moved (by simp [place]) (h.due u m' (elsewhere_moved (by simp) asleep) ready)
  | notifyAll t place =>
    refine ⟨fun u => ?_, fun u m' asleep _ => ?_⟩
    · rw [← h.owner u]
      by_cases same : u = t
      · simp [same, place, Place.owns]
      · simp only [same, if_false]
        cases s.place u <;> simp [Place.wakeUp, Place.owns]
    · -- All that slept have been woken up.
      exfalso
      by_cases same : u = t
      · simp [same] at asleep
      · simp only [same, if_false] at asleep
        cases elsewhere : s.place u <;> simp [elsewhere, Place.wakeUp] at asleep
  | wake t m place =>
    have outside : ¬s.owner = some t := by
      rw [← h.owner t, place]
      simp [Place.owns]
    refine ⟨owner_moved h.owner t _ _ (by simp [Place.owns, outside]) (fun _ _ => Iff.rfl),
      fun u m' asleep ready => ?_⟩
    exact due_moved (by simp [place]) (h.due u m' (elsewhere_moved (by simp) asleep) ready)
  | relock t m place free =>
    refine ⟨owner_moved h.owner t _ _ (by simp [Place.owns]) (owner_taken free), fun u m' asleep ready => ?_⟩
    exact due_moved (by simp [place]) (h.due u m' (elsewhere_moved (by simp) asleep) ready)

theorem step_held {o : Object S M} {s s' : State S M Thread} {a : Action M Thread}
    (h : Held o s) (step : s.step o a = some s') : Held o s' := by
  intro u m' holding
  cases step_cases step with
  | hold t m timed take release place method ready =>
    by_cases same : u = t
    · subst same
      simp only [move_same, Place.holding.injEq] at holding
      subst holding
      exact ⟨timed, take, release, method⟩
    · simp only [move_other s _ same] at holding
      exact h u m' holding
  | change t m update notifies =>
    exact h u m' (elsewhere_moved (by cases notifies <;> simp) holding)
  | notifyAll t place =>
    by_cases same : u = t
    · simp [same] at holding
    · simp only [same, if_false] at holding
      apply h u m'
      cases elsewhere : s.place u <;> simp [elsewhere, Place.wakeUp] at holding ⊢
      exact holding
  | call | take | sleep | release | giveUp | wake | relock => exact h u m' (elsewhere_moved (by simp) holding)

theorem run_sound {o : Object S M} (tells : Tells o) {object : S} {actions : List (Action M Thread)}
    {s : State S M Thread} (run : Runs.Run (State.step o) (starts object) actions s) : Sound o s ∧ Held o s :=
  Runs.run_invariant (fun s => Sound o s ∧ Held o s)
    (fun _ _ _ h step => ⟨step_sound tells h.1 step, step_held h.2 step⟩) run
    ⟨⟨fun t => by simp [starts, Place.owns], fun t m asleep => by simp [starts] at asleep⟩,
      fun t m holding => by simp [starts] at holding⟩

theorem object_changes {o : Object S M} {s s' : State S M Thread} {a : Action M Thread} (h : Sound o s)
    (step : s.step o a = some s') : s'.object = s.object ∨ ∃ t, a = .run t ∧ s.owner = some t := by
  cases step_cases step with
  | change t m update notifies place | take t m take place | hold t m timed take release place | sleep t m place
  | release t m timed take release place => exact Or.inr ⟨t, rfl, (h.owner t).mp (by rw [place]; rfl)⟩
  | call | giveUp | notifyAll | wake | relock => exact Or.inl rfl

/-- A thread in a method that is not asleep over an object that is not ready. -/
def Busy (o : Object S M) (s : State S M Thread) (t : Thread) : Prop :=
  match s.place t with
  | .outside => False
  | .asleep _ => o.ready s.object = true
  | _ => True

theorem owner_runs {o : Object S M} {s : State S M Thread} (h : Sound o s) (held : Held o s) {t : Thread}
    (owner : s.owner = some t) : ∃ s', s.step o (.run t) = some s' := by
  have owns := (h.owner t).mpr owner
  cases place : s.place t with
  | inside m =>
    cases method : o.method m with
    | change update notifies => exact ⟨_, by simp only [State.step, State.run, place, method]; rfl⟩
    | wait timed take release =>
      simp only [State.step, State.run, place, method]
      split
      · split <;> exact ⟨_, rfl⟩
      · exact ⟨_, rfl⟩
  | holding m =>
    obtain ⟨timed, take, release, method⟩ := held t m place
    exact ⟨_, by simp only [State.step, State.run, place, method]; rfl⟩
  | outside | notifying | asleep m | woken m => simp [place, Place.owns] at owns

/-- No deadlock: as long as one thread has something to do, one of the threads can go on, and
    not by a wake-up for no reason. -/
theorem someone_goes_on {o : Object S M} {s : State S M Thread} (h : Sound o s) (held : Held o s) {t : Thread}
    (busy : Busy o s t) :
    ∃ u s', s.step o (.run u) = some s' ∨ s.step o (.notifyAll u) = some s' ∨ s.step o (.relock u) = some s' := by
  have notifies : ∀ u, s.place u = .notifying → ∃ s', s.step o (.notifyAll u) = some s' := by
    intro u place
    exact ⟨_, by simp only [State.step, place]; rfl⟩
  cases owner : s.owner with
  | some u =>
    obtain ⟨s', step⟩ := owner_runs h held owner
    exact ⟨u, s', Or.inl step⟩
  | none =>
    have without : (s.place t).owns = false := by
      apply eq_false_of_ne_true
      rw [h.owner t, owner]
      exact nofun
    cases place : s.place t with
    | outside => simp [Busy, place] at busy
    | inside m | holding m => simp [place, Place.owns] at without
    | notifying =>
      obtain ⟨s', step⟩ := notifies t place
      exact ⟨t, s', Or.inr (Or.inl step)⟩
    | asleep m =>
      simp only [Busy, place] at busy
      obtain ⟨u, due⟩ := h.due t m place busy
      obtain ⟨s', step⟩ := notifies u due
      exact ⟨u, s', Or.inr (Or.inl step)⟩
    | woken m =>
      exact ⟨t, _, Or.inr (Or.inr (by simp only [State.step, place, owner]; rfl))⟩

end Monitor
