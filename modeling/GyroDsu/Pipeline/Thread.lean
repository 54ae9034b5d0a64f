import Mathlib.Data.List.Basic

/-
Thread: a member of the pipeline with its std::thread, its stop flag and the executions it
has launched. Start and Stop are taken apart into the steps another thread may come
between; TryStopThenKill runs Stop in a task of its own and waits for it.
-/
namespace PipelineThread
variable {Stage P : Type} [DecidableEq Stage]

/-- The number of an execution stands for its std::thread and for its handle. -/
structure Thread where
  executeThread : Option Nat
  threadHandle : Nat
  stop : Bool
  deriving DecidableEq, Repr

structure Execution (Stage P : Type) where
  stage : Stage
  pc : P
  ended : Bool
  cancelled : Bool

def Execution.cancel (e : Execution Stage P) : Execution Stage P := { e with cancelled := true }

structure Machine (Stage P : Type) where
  thread : Stage → Thread
  executions : List (Execution Stage P)

def Machine.set (m : Machine Stage P) (i : Stage) (t : Thread) : Machine Stage P :=
  { m with thread := fun j => if j = i then t else m.thread j }

def Machine.setStop (m : Machine Stage P) (i : Stage) (stop : Bool) : Machine Stage P :=
  m.set i { m.thread i with stop := stop }

def Machine.modify (m : Machine Stage P) (id : Nat) (f : Execution Stage P → Execution Stage P) :
    Machine Stage P :=
  { m with executions := m.executions.modify id f }

def Machine.ended (m : Machine Stage P) (id : Nat) : Bool :=
  (m.executions[id]?).elim false Execution.ended

/-- executeThread.reset(new std::thread(..)), and its handle. -/
def Machine.create (m : Machine Stage P) (i : Stage) (pc : P) : Machine Stage P where
  thread := (m.set i ⟨some m.executions.length, m.executions.length, (m.thread i).stop⟩).thread
  executions := m.executions ++ [⟨i, pc, false, false⟩]

inductive Stopping where
  | check
  | setStop
  | flushPipes
  | join
  | reset
  | clear
  | done
  deriving DecidableEq, Repr

inductive Waiting where
  | waitFor
  | cancel
  | wait
  deriving DecidableEq, Repr

inductive Starting where
  | check
  | clear
  | create
  deriving DecidableEq, Repr

/-- What a caller is doing with a Thread. -/
inductive Op where
  | stop (caller : Waiting) (task : Stopping)
  | start (pc : Starting)
  deriving DecidableEq, Repr

def tryStopThenKill : Op := .stop .waitFor .check

inductive OpMove where
  | task
  | ready
  | timeout
  | cancel
  | start
  deriving DecidableEq, Repr

/-- A step of Stop. A join waits for the execution to end. -/
def Machine.stopStep (m : Machine Stage P) (i : Stage) : Stopping → Option (Machine Stage P × Stopping)
  | .check => some (m, if (m.thread i).executeThread = none then .done else .setStop)
  | .setStop => some (m.setStop i true, .flushPipes)
  | .flushPipes => some (m, .join)
  | .join =>
    match (m.thread i).executeThread with
    | none => none
    | some id => if m.ended id then some (m, .reset) else none
  | .reset => some (m.set i { m.thread i with executeThread := none }, .clear)
  | .clear => some (m.setStop i false, .done)
  | .done => none

def Machine.startStep (m : Machine Stage P) (i : Stage) (pc : P) :
    Starting → Machine Stage P × Option Starting
  | .check => if (m.thread i).executeThread = none then (m, some .clear) else (m, none)
  | .clear => (m.setStop i false, some .create)
  | .create => (m.create i pc, none)

/-- A step of a caller or of its task, and what is left of the call. The future is waited
    for in any case, if not by wait_for then by its destructor. -/
def Machine.opStep (m : Machine Stage P) (i : Stage) (pc : P) :
    Op → OpMove → Option (Machine Stage P × Option Op)
  | .stop caller task, .task => (m.stopStep i task).map fun (m, task) => (m, some (.stop caller task))
  | .stop .waitFor .done, .ready => some (m, none)
  | .stop .wait .done, .ready => some (m, none)
  | .stop .waitFor task, .timeout => some (m, some (.stop .cancel task))
  | .stop .cancel task, .cancel =>
    some (m.modify (m.thread i).threadHandle Execution.cancel, some (.stop .wait task))
  | .start starting, .start => some ((m.startStep i pc starting).map id (Option.map .start))
  | _, _ => none

def Machine.down (m : Machine Stage P) (i : Stage) : Prop :=
  (m.thread i).executeThread = none ∧ (m.thread i).stop = false

def Fits (m : Machine Stage P) (i : Stage) : Op → Prop
  | .stop _ .check => (m.thread i).stop = false
  | .stop _ .setStop => (m.thread i).executeThread ≠ none ∧ (m.thread i).stop = false
  | .stop _ .flushPipes => (m.thread i).executeThread ≠ none ∧ (m.thread i).stop = true
  | .stop _ .join => (m.thread i).executeThread ≠ none ∧ (m.thread i).stop = true
  | .stop _ .reset =>
    (∃ id, (m.thread i).executeThread = some id ∧ m.ended id = true) ∧ (m.thread i).stop = true
  | .stop _ .clear => (m.thread i).executeThread = none ∧ (m.thread i).stop = true
  | .stop _ .done => m.down i
  | .start _ => m.down i

/-- An execution that has not ended is the one its Thread knows of. -/
structure Sound (m : Machine Stage P) : Prop where
  live : ∀ (id : Nat) e, m.executions[id]? = some e → e.ended = false →
    (m.thread e.stage).executeThread = some id
  known : ∀ i id, (m.thread i).executeThread = some id →
    ∃ e, m.executions[id]? = some e ∧ e.stage = i

inductive OpStep (m : Machine Stage P) (i : Stage) (pc : P) :
    Op → OpMove → Machine Stage P → Option Op → Prop where
  | checkNull {caller} (null : (m.thread i).executeThread = none) :
      OpStep m i pc (.stop caller .check) .task m (some (.stop caller .done))
  | checkSet {caller} (set : (m.thread i).executeThread ≠ none) :
      OpStep m i pc (.stop caller .check) .task m (some (.stop caller .setStop))
  | setStop {caller} :
      OpStep m i pc (.stop caller .setStop) .task (m.setStop i true) (some (.stop caller .flushPipes))
  | flushPipes {caller} : OpStep m i pc (.stop caller .flushPipes) .task m (some (.stop caller .join))
  | join {caller} (id : Nat) (set : (m.thread i).executeThread = some id) (ended : m.ended id = true) :
      OpStep m i pc (.stop caller .join) .task m (some (.stop caller .reset))
  | reset {caller} : OpStep m i pc (.stop caller .reset) .task
      (m.set i { m.thread i with executeThread := none }) (some (.stop caller .clear))
  | clear {caller} :
      OpStep m i pc (.stop caller .clear) .task (m.setStop i false) (some (.stop caller .done))
  | ready {caller} : OpStep m i pc (.stop caller .done) .ready m none
  | timeout {task} : OpStep m i pc (.stop .waitFor task) .timeout m (some (.stop .cancel task))
  | cancel {task} : OpStep m i pc (.stop .cancel task) .cancel
      (m.modify (m.thread i).threadHandle Execution.cancel) (some (.stop .wait task))
  | alreadyStarted (set : (m.thread i).executeThread ≠ none) : OpStep m i pc (.start .check) .start m none
  | startCheck (null : (m.thread i).executeThread = none) :
      OpStep m i pc (.start .check) .start m (some (.start .clear))
  | startClear : OpStep m i pc (.start .clear) .start (m.setStop i false) (some (.start .create))
  | create : OpStep m i pc (.start .create) .start (m.create i pc) none

theorem stop_cases {m m' : Machine Stage P} {i : Stage} {pc : P} {caller : Waiting} {task task' : Stopping}
    (step : m.stopStep i task = some (m', task')) :
    OpStep m i pc (.stop caller task) .task m' (some (.stop caller task')) := by
  cases task with
  | check =>
    by_cases null : (m.thread i).executeThread = none
    · simp only [Machine.stopStep, null, if_true] at step
      cases step
      exact .checkNull null
    · simp only [Machine.stopStep, null, if_false] at step
      cases step
      exact .checkSet null
  | setStop => cases step; exact .setStop
  | flushPipes => cases step; exact .flushPipes
  | join =>
    cases set : (m.thread i).executeThread with
    | none =>
      simp only [Machine.stopStep, set] at step
      cases step
    | some id =>
      simp only [Machine.stopStep, set] at step
      obtain ⟨ended, rest⟩ := Option.ite_none_right_eq_some.mp step
      cases rest
      exact .join id set ended
  | reset => cases step; exact .reset
  | clear => cases step; exact .clear
  | done => cases step

theorem op_cases {m m' : Machine Stage P} {i : Stage} {pc : P} {op : Op} {op' : Option Op} {move : OpMove}
    (step : m.opStep i pc op move = some (m', op')) : OpStep m i pc op move m' op' := by
  cases op with
  | start starting =>
    cases move with
    | start =>
      simp only [Machine.opStep, Option.some.injEq] at step
      cases starting with
      | check =>
        by_cases null : (m.thread i).executeThread = none
        · simp only [Machine.startStep, null, if_true] at step
          cases step
          exact .startCheck null
        · simp only [Machine.startStep, null, if_false] at step
          cases step
          exact .alreadyStarted null
      | clear => cases step; exact .startClear
      | create => cases step; exact .create
    | task | ready | timeout | cancel => cases step
  | stop caller task =>
    cases move with
    | task =>
      simp only [Machine.opStep] at step
      obtain ⟨⟨n, task'⟩, stops, rest⟩ := Option.map_eq_some_iff.mp step
      cases rest
      exact stop_cases stops
    | ready => cases caller <;> cases task <;> cases step <;> exact .ready
    | timeout =>
      cases caller <;> cases step
      exact .timeout
    | cancel =>
      cases caller <;> cases step
      exact .cancel
    | start => cases caller <;> cases task <;> cases step

@[simp] theorem set_executions (m : Machine Stage P) (i : Stage) (t : Thread) :
    (m.set i t).executions = m.executions := rfl

@[simp] theorem set_same (m : Machine Stage P) (i : Stage) (t : Thread) : (m.set i t).thread i = t := by
  simp [Machine.set]

@[simp] theorem set_other (m : Machine Stage P) {i j : Stage} (t : Thread) (other : j ≠ i) :
    (m.set i t).thread j = m.thread j := by
  simp [Machine.set, other]

@[simp] theorem set_ended (m : Machine Stage P) (i : Stage) (t : Thread) (id : Nat) :
    (m.set i t).ended id = m.ended id := rfl

omit [DecidableEq Stage] in
@[simp] theorem modify_thread (m : Machine Stage P) (id : Nat) (f : Execution Stage P → Execution Stage P) :
    (m.modify id f).thread = m.thread := rfl

omit [DecidableEq Stage] in
theorem fits_elsewhere {m m' : Machine Stage P} {i : Stage} {op : Op} (same : m'.thread i = m.thread i)
    (ended : ∀ id, m.ended id = true → m'.ended id = true) (fits : Fits m i op) : Fits m' i op := by
  cases op with
  | start => simpa only [Fits, Machine.down, same] using fits
  | stop caller task =>
    cases task with
    | reset =>
      obtain ⟨⟨id, set, finished⟩, stop⟩ := fits
      exact ⟨⟨id, by rw [same]; exact set, ended id finished⟩, by rw [same]; exact stop⟩
    | check | setStop | flushPipes | join | clear | done => simpa only [Fits, Machine.down, same] using fits

structure Works (m m' : Machine Stage P) (i : Stage) (pc : P) : Prop where
  others : ∀ j, j ≠ i → m'.thread j = m.thread j
  kept : ∀ (id : Nat) e, m.executions[id]? = some e →
    ∃ e', m'.executions[id]? = some e' ∧ e'.stage = e.stage ∧ e'.pc = e.pc ∧ e'.ended = e.ended
  launched : ∀ (id : Nat) e', m'.executions[id]? = some e' → m.executions[id]? = none → e'.pc = pc

omit [DecidableEq Stage] in
theorem modify_executions {m : Machine Stage P} {target id : Nat} {f : Execution Stage P → Execution Stage P}
    {e' : Execution Stage P} (found : (m.modify target f).executions[id]? = some e') :
    ∃ e, m.executions[id]? = some e ∧ e' = if target = id then f e else e := by
  simp only [Machine.modify, List.getElem?_modify, Option.map_eq_map, Option.map_eq_some_iff] at found
  obtain ⟨e, there, rfl⟩ := found
  exact ⟨e, there, rfl⟩

omit [DecidableEq Stage] in
theorem modify_there {m : Machine Stage P} {id : Nat} {e : Execution Stage P}
    (there : m.executions[id]? = some e) (target : Nat) (f : Execution Stage P → Execution Stage P) :
    (m.modify target f).executions[id]? = some (if target = id then f e else e) := by
  simp only [Machine.modify, List.getElem?_modify, there, Option.map_eq_map, Option.map_some]

omit [DecidableEq Stage] in
theorem modify_ended {m : Machine Stage P} {target id : Nat} {f : Execution Stage P → Execution Stage P}
    (running : ∀ e, (f e).ended = false → e.ended = false) (finished : m.ended id = true) :
    (m.modify target f).ended id = true := by
  cases there : m.executions[id]? with
  | none => simp only [Machine.ended, there, Option.elim_none, Bool.false_eq_true] at finished
  | some e =>
    simp only [Machine.ended, there, Option.elim_some] at finished
    simp only [Machine.ended, modify_there there, Option.elim_some]
    split
    · by_contra still
      cases finished.symm.trans (running e (eq_false_of_ne_true still))
    · exact finished

theorem create_executions {m : Machine Stage P} {i : Stage} {pc : P} {id : Nat} {e' : Execution Stage P}
    (found : (m.create i pc).executions[id]? = some e') :
    m.executions[id]? = some e' ∨ id = m.executions.length ∧ e' = ⟨i, pc, false, false⟩ := by
  simp only [Machine.create] at found
  rcases Nat.lt_or_ge id m.executions.length with old | new
  · rw [List.getElem?_append_left old] at found
    exact Or.inl found
  · rw [List.getElem?_append_right new] at found
    obtain ⟨bound, same⟩ := List.getElem?_eq_some_iff.mp found
    have here : id = m.executions.length := by
      simp only [List.length_singleton] at bound
      omega
    subst here
    simp only [Nat.sub_self, List.getElem_cons_zero] at same
    exact Or.inr ⟨rfl, same.symm⟩

theorem create_there {m : Machine Stage P} {id : Nat} {e : Execution Stage P}
    (there : m.executions[id]? = some e) (i : Stage) (pc : P) :
    (m.create i pc).executions[id]? = some e := by
  rw [Machine.create, List.getElem?_append_left (List.getElem?_eq_some_iff.mp there).1, there]

omit [DecidableEq Stage] in
theorem works_beside {m m' : Machine Stage P} {i : Stage} {pc : P}
    (others : ∀ j, j ≠ i → m'.thread j = m.thread j) (same : m'.executions = m.executions) :
    Works m m' i pc := by
  refine ⟨others, fun id e there => ⟨e, by rw [same]; exact there, rfl, rfl, rfl⟩, ?_⟩
  intro id e' found nothing
  rw [same, nothing] at found
  cases found

theorem op_works {m m' : Machine Stage P} {i : Stage} {pc : P} {op : Op} {op' : Option Op} {move : OpMove}
    (step : OpStep m i pc op move m' op') : Works m m' i pc := by
  cases step with
  | checkNull | checkSet | flushPipes | join | ready | timeout | alreadyStarted | startCheck =>
    exact works_beside (fun _ _ => rfl) rfl
  | setStop | clear | startClear | reset => exact works_beside (fun _ other => set_other m _ other) rfl
  | cancel =>
    refine ⟨fun _ _ => rfl, fun id e there => ⟨_, modify_there there _ _, ?_⟩, fun id e' found nothing => ?_⟩
    · split <;> exact ⟨rfl, rfl, rfl⟩
    · obtain ⟨e, there, _⟩ := modify_executions found
      cases nothing.symm.trans there
  | create =>
    refine ⟨fun _ other => set_other m _ other, fun id e there => ⟨e, create_there there i pc, rfl, rfl, rfl⟩, ?_⟩
    intro id e' found nothing
    rcases create_executions found with old | ⟨rfl, rfl⟩
    · cases nothing.symm.trans old
    · rfl

omit [DecidableEq Stage] in
theorem works_ended {m m' : Machine Stage P} {i : Stage} {pc : P} (works : Works m m' i pc) {id : Nat}
    (finished : m.ended id = true) : m'.ended id = true := by
  cases there : m.executions[id]? with
  | none =>
    simp only [Machine.ended, there, Option.elim_none, Bool.false_eq_true] at finished
  | some e =>
    obtain ⟨e', found, _, _, ended⟩ := works.kept id e there
    simp only [Machine.ended, there, found, Option.elim_some, ended] at finished ⊢
    exact finished

omit [DecidableEq Stage] in
theorem works_back {m m' : Machine Stage P} {i : Stage} {pc : P} (works : Works m m' i pc) {id : Nat}
    {e' : Execution Stage P} (found : m'.executions[id]? = some e') (old : e'.pc ≠ pc) :
    ∃ e, m.executions[id]? = some e ∧ e'.stage = e.stage ∧ e'.pc = e.pc ∧ e'.ended = e.ended := by
  cases there : m.executions[id]? with
  | none => exact absurd (works.launched id e' found there) old
  | some e =>
    obtain ⟨e'', found', same⟩ := works.kept id e there
    obtain rfl := Option.some.inj (found.symm.trans found')
    exact ⟨e, rfl, same⟩

theorem op_fits {m m' : Machine Stage P} {i : Stage} {pc : P} {op next : Op} {move : OpMove}
    (fits : Fits m i op) (step : OpStep m i pc op move m' (some next)) : Fits m' i next := by
  have works := op_works step
  cases step with
  | checkNull null => exact ⟨null, fits⟩
  | checkSet set => exact ⟨set, fits⟩
  | setStop => exact ⟨by simpa [Machine.setStop] using fits.1, by simp [Machine.setStop]⟩
  | flushPipes => exact fits
  | join id set finished => exact ⟨⟨id, set, finished⟩, fits.2⟩
  | reset => exact ⟨by simp, by simpa using fits.2⟩
  | clear => exact ⟨by simpa [Machine.setStop] using fits.1, by simp [Machine.setStop]⟩
  | @timeout task => cases task <;> exact fits
  | @cancel task =>
    refine fits_elsewhere (m := m) rfl (fun _ => works_ended works) ?_
    cases task <;> exact fits
  | startCheck null => exact fits
  | startClear => exact ⟨by simpa [Machine.setStop] using fits.1, by simp [Machine.setStop]⟩

theorem stop_over {m m' : Machine Stage P} {i : Stage} {pc : P} {caller : Waiting} {task : Stopping}
    {move : OpMove} (fits : Fits m i (.stop caller task))
    (step : OpStep m i pc (.stop caller task) move m' none) : m'.down i := by
  cases step with
  | ready => exact fits

theorem start_over {m m' : Machine Stage P} {i : Stage} {pc : P} {starting : Starting} {move : OpMove}
    (fits : Fits m i (.start starting)) (step : OpStep m i pc (.start starting) move m' none) :
    starting = .create ∧ (m'.thread i).stop = false := by
  cases step with
  | alreadyStarted set => exact absurd fits.1 set
  | create => exact ⟨rfl, by simpa [Machine.create] using fits.2⟩

theorem set_sound {m : Machine Stage P} {i : Stage} {t : Thread} (h : Sound m)
    (same : t.executeThread = (m.thread i).executeThread) : Sound (m.set i t) := by
  have threads : ∀ j, ((m.set i t).thread j).executeThread = (m.thread j).executeThread := by
    intro j
    by_cases here : j = i
    · rw [here, set_same, same]
    · rw [set_other m t here]
  constructor
  · intro id e found running
    rw [threads]
    exact h.live id e found running
  · intro j id set
    rw [threads] at set
    exact h.known j id set

theorem reset_sound {m : Machine Stage P} {i : Stage} {id : Nat} (h : Sound m)
    (set : (m.thread i).executeThread = some id) (finished : m.ended id = true) :
    Sound (m.set i { m.thread i with executeThread := none }) := by
  constructor
  · intro id' e found running
    have knows := h.live id' e found running
    by_cases here : e.stage = i
    · rw [here, set] at knows
      obtain rfl := Option.some.inj knows
      simp only [set_executions] at found
      simp only [Machine.ended, found, Option.elim_some, running, Bool.false_eq_true] at finished
    · rwa [set_other m _ here]
  · intro j id' knows
    by_cases here : j = i
    · rw [here, set_same] at knows
      cases knows
    · rw [set_other m _ here] at knows
      exact h.known j id' knows

omit [DecidableEq Stage] in
theorem modify_sound {m : Machine Stage P} (h : Sound m) (target : Nat)
    {f : Execution Stage P → Execution Stage P} (stage : ∀ e, (f e).stage = e.stage)
    (running : ∀ e, (f e).ended = false → e.ended = false) : Sound (m.modify target f) := by
  constructor
  · intro id e found still
    obtain ⟨e, there, rfl⟩ := modify_executions found
    split at still
    · rw [if_pos (by assumption), stage]
      exact h.live id e there (running e still)
    · rw [if_neg (by assumption)]
      exact h.live id e there still
  · intro i id set
    obtain ⟨e, there, here⟩ := h.known i id set
    refine ⟨_, modify_there there target f, ?_⟩
    split
    · exact (stage e).trans here
    · exact here

theorem create_sound {m : Machine Stage P} {i : Stage} {pc : P} (h : Sound m)
    (null : (m.thread i).executeThread = none) : Sound (m.create i pc) := by
  constructor
  · intro id e found running
    rcases create_executions found with old | ⟨rfl, rfl⟩
    · have knows := h.live id e old running
      have other : e.stage ≠ i := by
        intro here
        rw [here, null] at knows
        cases knows
      simpa only [Machine.create, set_other m _ other] using knows
    · simp only [Machine.create, set_same]
  · intro j id set
    by_cases here : j = i
    · simp only [Machine.create, here, set_same, Option.some.injEq] at set
      exact ⟨⟨i, pc, false, false⟩, by simp [Machine.create, ← set], here.symm⟩
    · simp only [Machine.create, set_other m _ here] at set
      obtain ⟨e, there, stage⟩ := h.known j id set
      exact ⟨e, create_there there i pc, stage⟩

/-- No step of a call hides an execution or launches a second one. -/
theorem op_sound {m m' : Machine Stage P} {i : Stage} {pc : P} {op : Op} {op' : Option Op} {move : OpMove}
    (h : Sound m) (fits : Fits m i op) (step : OpStep m i pc op move m' op') : Sound m' := by
  cases step with
  | checkNull | checkSet | flushPipes | join | ready | timeout | alreadyStarted | startCheck => exact h
  | setStop | clear | startClear => exact set_sound h rfl
  | reset =>
    obtain ⟨⟨id, set, finished⟩, _⟩ := fits
    exact reset_sound h set finished
  | cancel => exact modify_sound h _ (fun _ => rfl) fun _ still => still
  | create => exact create_sound h fits.1

omit [DecidableEq Stage] in
/-- Of each stage at most one execution is running. -/
theorem running_once {m : Machine Stage P} (h : Sound m) {id id' : Nat} {e e' : Execution Stage P}
    (found : m.executions[id]? = some e) (found' : m.executions[id']? = some e')
    (running : e.ended = false) (running' : e'.ended = false) (stage : e.stage = e'.stage) : id = id' := by
  have knows := h.live id e found running
  rw [stage, h.live id' e' found' running'] at knows
  exact (Option.some.inj knows).symm

end PipelineThread
