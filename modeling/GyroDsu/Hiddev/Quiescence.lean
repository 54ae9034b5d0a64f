import GyroDsu.Lib.Runs
import GyroDsu.Hiddev.Restarts

/-
What a stop of the pipeline leaves behind. Two parties stop and start the reading thread;
they never do so at the same time, because HidDevReader comes to it only when ProcessData
has ended, and ProcessData cannot end with its own stop of the reading thread under way.
-/
namespace Quiescence
open PipelineThread Restarts Runs

def Restarting (p : Pipeline) (id : Nat) (op : Op) : Prop :=
  ∃ e, p.executions[id]? = some e ∧ e.ended = false ∧ e.pc = .restart op

structure Sound (s : State) : Prop where
  machine : PipelineThread.Sound s.pipeline
  owner : ∀ stage op, s.owner.op = some (stage, op) → Fits s.pipeline stage op
  restart : ∀ id op, Restarting s.pipeline id op → Fits s.pipeline .readData op
  processing : ∀ (id : Nat) e, s.pipeline.executions[id]? = some e → e.pc ≠ .loop → e.pc ≠ .leaving →
    e.stage = .processData
  idle : ∀ i, s.owner.idle i → s.pipeline.down i
  calm : ∀ i, (s.pipeline.thread i).stop = true →
    (∃ op, s.owner.op = some (i, op)) ∨ i = .readData ∧ ∃ id op, Restarting s.pipeline id op
  launched : s.owner.inOrder

/-- As long as ProcessData runs, HidDevReader neither holds it to be idle nor works on the
    reading thread. -/
theorem owner_elsewhere {s : State} (h : Sound s) {id : Nat} {e : Execution Stage Pc}
    (found : s.pipeline.executions[id]? = some e) (running : e.ended = false)
    (stage : e.stage = .processData) :
    (∀ op, s.owner.op ≠ some (.readData, op)) ∧ ¬s.owner.idle .readData := by
  have knows := h.machine.live id e found running
  rw [stage] at knows
  have busy : ¬s.owner.idle .processData := by
    intro idle
    cases (h.idle _ idle).1.symm.trans knows
  cases owner : s.owner with
  | stopped => exact absurd (by rw [owner]; trivial) busy
  | starting stage op launched | stopping stage op =>
    rw [owner] at busy
    cases stage with
    | readData => exact absurd (by decide : Stage.readData.place < Stage.processData.place) busy
    | processData | serveFrame => exact ⟨fun op same => (by cases same), fun idle => by cases idle⟩
  | started launched => exact ⟨fun op same => (by cases same), fun idle => idle⟩

/-- Of two executions of ProcessData that have not ended, one is the other. -/
theorem restarting_one {s : State} (h : Sound s) {id id' : Nat} {e : Execution Stage Pc} {op : Op}
    (found : s.pipeline.executions[id]? = some e) (running : e.ended = false)
    (stage : e.stage = .processData) (restarting : Restarting s.pipeline id' op) : id' = id := by
  obtain ⟨e', found', running', pc⟩ := restarting
  have stage' := h.processing id' e' found' (by rw [pc]; simp) (by rw [pc]; simp)
  exact running_once h.machine found' found running' running (stage'.trans stage.symm)

structure Beside (s : State) (stage : Stage) (p : Pipeline) : Prop where
  machine : PipelineThread.Sound p
  others : ∀ i, i ≠ stage → p.thread i = s.pipeline.thread i
  restart : ∀ id op, Restarting p id op → Fits p .readData op
  processing : ∀ (id : Nat) e, p.executions[id]? = some e → e.pc ≠ .loop → e.pc ≠ .leaving →
    e.stage = .processData
  calm : ∀ i, i ≠ stage → (p.thread i).stop = true →
    i = .readData ∧ ∃ id op, Restarting p id op

theorem owner_beside {s : State} (h : Sound s) {stage : Stage} {op : Op} {op' : Option Op} {move : OpMove}
    {p : Pipeline} (working : s.owner.op = some (stage, op))
    (step : OpStep s.pipeline stage .loop op move p op') : Beside s stage p := by
  have works := op_works step
  constructor
  · exact op_sound h.machine (h.owner stage op working) step
  · exact works.others
  · rintro id op ⟨e', found, running, pc⟩
    obtain ⟨e, there, stage', pc', ended⟩ := works_back works found (by rw [pc]; simp)
    have restarting : Restarting s.pipeline id op := ⟨e, there, ended.symm.trans running, pc'.symm.trans pc⟩
    have own := h.processing id e there (by rw [← pc', pc]; simp) (by rw [← pc', pc]; simp)
    have elsewhere : Stage.readData ≠ stage := by
      rintro rfl
      exact (owner_elsewhere h there (ended.symm.trans running) own).1 _ working
    exact fits_elsewhere (works.others _ elsewhere) (fun _ => works_ended works) (h.restart id op restarting)
  · intro id e' found inside inside'
    obtain ⟨e, there, stage', pc', ended⟩ := works_back works found inside
    rw [stage']
    rw [pc'] at inside inside'
    exact h.processing id e there inside inside'
  · intro i other stop
    rw [works.others i other] at stop
    rcases h.calm i stop with ⟨op', here⟩ | ⟨reading, id, op', e, there, running, pc⟩
    · rw [working] at here
      cases here
      exact absurd rfl other
    · obtain ⟨e', found, _, pc', ended⟩ := works.kept id e there
      exact ⟨reading, id, op', e', found, ended.trans running, pc'.trans pc⟩

theorem later_other {i stage : Stage} (later : stage.place < i.place) : i ≠ stage := by
  rintro rfl
  exact Nat.lt_irrefl _ later

theorem beside_down {s : State} {stage i : Stage} {p : Pipeline} (beside : Beside s stage p)
    (other : i ≠ stage) (down : s.pipeline.down i) : p.down i := by
  rw [Machine.down, beside.others i other]
  exact down

theorem beside_sound {s : State} {stage : Stage} {p : Pipeline} (beside : Beside s stage p) (owner : Owner)
    (fits : ∀ i op, owner.op = some (i, op) → Fits p i op) (idle : ∀ i, owner.idle i → p.down i)
    (calm : (p.thread stage).stop = true → ∃ op, owner.op = some (stage, op))
    (inOrder : owner.inOrder) : Sound ⟨p, owner⟩ := by
  refine ⟨beside.machine, fits, beside.restart, beside.processing, idle, fun i stop => ?_, inOrder⟩
  by_cases here : i = stage
  · subst here
    exact Or.inl (calm stop)
  · exact Or.inr (beside.calm i here stop)

theorem starting_sound {s : State} {stage : Stage} {starting : Starting} {op' : Option Op}
    {launched : List Stage} {move : OpMove} {p : Pipeline} (h : Sound s)
    (owner : s.owner = .starting stage (.start starting) launched)
    (step : OpStep s.pipeline stage .loop (.start starting) move p op') :
    Sound ⟨p, match op' with
      | some op' => .starting stage op' launched
      | none => nextStart (launch launched stage (.start starting)) stage⟩ := by
  have working : s.owner.op = some (stage, .start starting) := by rw [owner]; rfl
  have beside := owner_beside h working step
  have fits := h.owner stage _ working
  have idle : ∀ i, stage.place < i.place → p.down i := by
    intro i later
    exact beside_down beside (later_other later) (h.idle i (by rw [owner]; exact later))
  have inOrder := h.launched
  rw [owner] at inOrder
  cases op' with
  | some next =>
    obtain ⟨later, rfl⟩ : ∃ later, next = .start later := by
      cases step <;> exact ⟨_, rfl⟩
    refine beside_sound beside _ ?_ idle (fun _ => ⟨_, rfl⟩) (by cases stage <;> exact inOrder)
    intro i op same
    cases same
    exact op_fits fits step
  | none =>
    obtain ⟨rfl, calm⟩ := start_over fits step
    have quiet : (p.thread stage).stop = true → ∃ op,
        (nextStart (launch launched stage (.start .create)) stage).op = some (stage, op) := by
      intro stop
      rw [calm] at stop
      cases stop
    refine beside_sound beside _ ?_ ?_ quiet ?_
    · intro i op same
      cases stage <;> cases same
      · exact idle .processData (by decide)
      · exact idle .serveFrame (by decide)
    · intro i still
      cases stage with
      | readData => exact idle i (Nat.lt_trans (by decide : Stage.readData.place < Stage.processData.place) still)
      | processData =>
        exact idle i (Nat.lt_trans (by decide : Stage.processData.place < Stage.serveFrame.place) still)
      | serveFrame => cases still
    · cases stage <;> rw [show launched = _ from inOrder] <;> rfl

theorem stopping_sound {s : State} {stage : Stage} {caller : Waiting} {task : Stopping} {op' : Option Op}
    {move : OpMove} {p : Pipeline} (h : Sound s) (owner : s.owner = .stopping stage (.stop caller task))
    (step : OpStep s.pipeline stage .loop (.stop caller task) move p op') :
    Sound ⟨p, match op' with
      | some op' => .stopping stage op'
      | none => nextStop stage⟩ := by
  have working : s.owner.op = some (stage, .stop caller task) := by rw [owner]; rfl
  have beside := owner_beside h working step
  have fits := h.owner stage _ working
  have idle : ∀ i, stage.place < i.place → p.down i := by
    intro i later
    exact beside_down beside (later_other later) (h.idle i (by rw [owner]; exact later))
  cases op' with
  | some next =>
    obtain ⟨caller', task', rfl⟩ : ∃ caller' task', next = .stop caller' task' := by
      cases step <;> exact ⟨_, _, rfl⟩
    refine beside_sound beside _ ?_ idle (fun _ => ⟨_, rfl⟩) trivial
    intro i op same
    cases same
    exact op_fits fits step
  | none =>
    have down := stop_over fits step
    have quiet : (p.thread stage).stop = true → ∃ op, (nextStop stage).op = some (stage, op) := by
      intro stop
      cases down.2.symm.trans stop
    -- The stage before is next, and nobody else stops it: ProcessData is down when it is its turn.
    have earlier : ∀ i, i ≠ stage → (i = .readData → p.down .processData) → (p.thread i).stop = false := by
      intro i other processed
      by_contra raised
      obtain ⟨rfl, id, op, e, found, running, pc⟩ := beside.calm i other (eq_true_of_ne_false raised)
      have knows := beside.machine.live id e found running
      rw [beside.processing id e found (by rw [pc]; simp) (by rw [pc]; simp)] at knows
      cases (processed rfl).1.symm.trans knows
    refine beside_sound beside _ ?_ ?_ quiet (by cases stage <;> trivial)
    · intro i op same
      cases stage <;> cases same
      · exact earlier .readData (by decide) fun _ => down
      · exact earlier .processData (by decide) fun here => (by cases here)
    · intro i still
      cases stage with
      | readData => cases i with
        | readData => exact down
        | processData | serveFrame => exact idle _ (by decide)
      | processData => cases i with
        | readData => cases still
        | processData => exact down
        | serveFrame => exact idle _ (by decide)
      | serveFrame => cases i with
        | readData | processData => exact absurd (show Stage.processData.place < _ from still) (by decide)
        | serveFrame => exact down

theorem owner_sound {s t : State} {move : OpMove} (h : Sound s) (step : s.ownerStep move = some t) :
    Sound t := by
  have inOrder := h.launched
  cases owner : s.owner with
  | stopped | started =>
    simp only [State.ownerStep, owner] at step
    cases step
  | starting stage op launched =>
    simp only [State.ownerStep, owner] at step
    obtain ⟨⟨p, op'⟩, works, rfl⟩ := Option.map_eq_some_iff.mp step
    rw [owner] at inOrder
    cases op with
    | stop => cases stage <;> cases inOrder
    | start starting =>
      have sound := starting_sound h owner (op_cases works)
      cases op' <;> exact sound
  | stopping stage op =>
    simp only [State.ownerStep, owner] at step
    obtain ⟨⟨p, op'⟩, works, rfl⟩ := Option.map_eq_some_iff.mp step
    rw [owner] at inOrder
    cases op with
    | start => cases inOrder
    | stop caller task =>
      have sound := stopping_sound h owner (op_cases works)
      cases op' <;> exact sound

/-- A step of Start launches its stage and adds one running execution of it, or does neither. -/
def Launches (s t : State) (stage : Stage) (launched : List Stage) : Prop :=
  t.owner.launched = launched ∧ t.pipeline.executions = s.pipeline.executions ∨
    t.owner.launched = launched ++ [stage] ∧
      t.pipeline.executions = s.pipeline.executions ++ [⟨stage, .loop, false, false⟩]

theorem owner_launches {s t : State} {stage : Stage} {op : Op} {launched : List Stage} {move : OpMove}
    (h : Sound s) (owner : s.owner = .starting stage op launched) (step : s.ownerStep move = some t) :
    Launches s t stage launched := by
  have inOrder := h.launched
  rw [owner] at inOrder
  simp only [State.ownerStep, owner] at step
  obtain ⟨⟨p, op'⟩, works, rfl⟩ := Option.map_eq_some_iff.mp step
  cases op_cases works with
  | alreadyStarted | startCheck | startClear =>
    left
    cases stage <;> exact ⟨rfl, rfl⟩
  | create =>
    right
    cases stage <;> exact ⟨rfl, rfl⟩
  | _ => cases stage <;> cases inOrder

theorem execute_sound {s : State} (h : Sound s) {id : Nat} {e : Execution Stage Pc}
    {f : Execution Stage Pc → Execution Stage Pc} (found : s.pipeline.executions[id]? = some e)
    (stage : ∀ e, (f e).stage = e.stage) (ended : ∀ e, (f e).ended = false → e.ended = false)
    (inside : (f e).pc ≠ .loop → (f e).pc ≠ .leaving → e.stage = .processData)
    (restarts : ∀ op, (f e).ended = false → (f e).pc = .restart op → Fits s.pipeline .readData op)
    (leaves : ∀ op, e.ended = false → e.pc = .restart op → s.pipeline.down .readData) :
    Sound { s with pipeline := s.pipeline.modify id f } := by
  have finished : ∀ id', s.pipeline.ended id' = true → (s.pipeline.modify id f).ended id' = true :=
    fun _ => modify_ended ended
  refine ⟨modify_sound h.machine id stage ended, fun i op working => ?_, ?_, ?_, h.idle, ?_, h.launched⟩
  · exact fits_elsewhere (m := s.pipeline) rfl finished (h.owner i op working)
  · rintro id' op ⟨e', found', running, pc⟩
    obtain ⟨e'', there, rfl⟩ := modify_executions found'
    by_cases same : id = id'
    · subst same
      obtain rfl := Option.some.inj (found.symm.trans there)
      rw [if_pos rfl] at running pc
      exact fits_elsewhere (m := s.pipeline) rfl finished (restarts op running pc)
    · rw [if_neg same] at running pc
      exact fits_elsewhere (m := s.pipeline) rfl finished (h.restart id' op ⟨e'', there, running, pc⟩)
  · intro id' e' found' out out'
    obtain ⟨e'', there, rfl⟩ := modify_executions found'
    by_cases same : id = id'
    · subst same
      obtain rfl := Option.some.inj (found.symm.trans there)
      rw [if_pos rfl] at out out' ⊢
      exact (stage e).trans (inside out out')
    · rw [if_neg same] at out out' ⊢
      exact h.processing id' e'' there out out'
  · intro i stop
    rcases h.calm i stop with working | ⟨rfl, id', op, e', there, running, pc⟩
    · exact Or.inl working
    · by_cases same : id = id'
      · subst same
        obtain rfl := Option.some.inj (found.symm.trans there)
        cases (leaves op running pc).2.symm.trans stop
      · refine Or.inr ⟨rfl, id', op, e', ?_, running, pc⟩
        rw [modify_there there, if_neg same]

theorem restart_fits {m p : Pipeline} {op other : Op} {op' : Option Op} {move : OpMove}
    (fits : Fits m .readData op) (step : OpStep m .readData .loop op move p op')
    (next : afterRestart op op' = .restart other) : Fits p .readData other := by
  cases op' with
  | some rest =>
    obtain rfl : rest = other := Pc.restart.inj next
    exact op_fits fits step
  | none =>
    cases op with
    | stop caller task =>
      obtain rfl : .start .check = other := Pc.restart.inj next
      exact stop_over fits step
    | start => cases next

theorem restart_sound {s : State} (h : Sound s) {id : Nat} {e : Execution Stage Pc} {op : Op}
    {op' : Option Op} {move : OpMove} {p : Pipeline} (found : s.pipeline.executions[id]? = some e)
    (running : e.ended = false) (pc : e.pc = .restart op)
    (step : OpStep s.pipeline .readData .loop op move p op') :
    Sound { s with pipeline := p.modify id (goTo (afterRestart op op')) } := by
  have works := op_works step
  have stage := h.processing id e found (by rw [pc]; simp) (by rw [pc]; simp)
  obtain ⟨elsewhere, not_idle⟩ := owner_elsewhere h found running stage
  have fits := h.restart id op ⟨e, found, running, pc⟩
  have finished : ∀ id', s.pipeline.ended id' = true →
      (p.modify id (goTo (afterRestart op op'))).ended id' = true :=
    fun _ finished => modify_ended (fun _ still => still) (works_ended works finished)
  obtain ⟨e₁, there, stage₁, pc₁, ended₁⟩ := works.kept id e found
  have now := modify_there there id (goTo (afterRestart op op'))
  rw [if_pos rfl] at now
  refine ⟨modify_sound (op_sound h.machine fits step) id (fun _ => rfl) fun _ still => still, ?_, ?_, ?_,
    ?_, ?_, h.launched⟩
  · intro i other working
    have reading : i ≠ .readData := by
      rintro rfl
      exact elsewhere _ working
    exact fits_elsewhere (works.others i reading) finished (h.owner i other working)
  · intro id' other restarting
    by_cases same : id' = id
    · subst same
      obtain ⟨e', found', _, pc'⟩ := restarting
      obtain rfl := Option.some.inj (now.symm.trans found')
      exact fits_elsewhere (m := p) rfl (fun _ => modify_ended fun _ still => still)
        (restart_fits fits step pc')
    · obtain ⟨e', found', running', pc'⟩ := restarting
      obtain ⟨e₂, there₂, rfl⟩ := modify_executions found'
      rw [if_neg (Ne.symm same)] at running' pc'
      obtain ⟨e₃, there₃, _, pc₃, ended₃⟩ := works_back works there₂ (by rw [pc']; simp)
      exact absurd (restarting_one h found running stage
        ⟨e₃, there₃, ended₃.symm.trans running', pc₃.symm.trans pc'⟩) same
  · intro id' e' found' out out'
    obtain ⟨e₂, there₂, rfl⟩ := modify_executions found'
    by_cases same : id = id'
    · subst same
      obtain rfl := Option.some.inj (there.symm.trans there₂)
      rw [if_pos rfl]
      exact stage₁.trans stage
    · rw [if_neg same] at out out' ⊢
      obtain ⟨e₃, there₃, stage₃, pc₃, _⟩ := works_back works there₂ out
      rw [pc₃] at out out'
      exact stage₃.trans (h.processing id' e₃ there₃ out out')
  · intro i idle
    have reading : i ≠ .readData := by
      rintro rfl
      exact not_idle idle
    rw [Machine.down, modify_thread, works.others i reading]
    exact h.idle i idle
  · intro i stop
    by_cases reading : i = .readData
    · subst reading
      refine Or.inr ⟨rfl, id, ?_⟩
      cases op' with
      | some next => exact ⟨next, _, now, ended₁.trans running, rfl⟩
      | none =>
        cases op with
        | stop caller task => exact ⟨.start .check, _, now, ended₁.trans running, rfl⟩
        | start starting => cases (start_over fits step).2.symm.trans stop
    · rw [modify_thread, works.others i reading] at stop
      rcases h.calm i stop with working | ⟨here, _⟩
      · exact Or.inl working
      · exact absurd here reading

theorem start_sound {s : State} (h : Sound s) (owner : s.owner = .stopped) :
    Sound { s with owner := .starting .readData (.start .check) [] } := by
  have down : ∀ i, s.pipeline.down i := fun i => h.idle i (by rw [owner]; trivial)
  refine ⟨h.machine, ?_, h.restart, h.processing, fun i _ => down i, ?_, rfl⟩
  · intro i op working
    cases working
    exact down .readData
  · intro i stop
    cases (down i).2.symm.trans stop

theorem stop_sound {s : State} (h : Sound s) (nobody : s.owner.op = none) :
    Sound { s with owner := .stopping .serveFrame tryStopThenKill } := by
  refine ⟨h.machine, ?_, h.restart, h.processing, ?_, ?_, trivial⟩
  · intro i op working
    cases working
    change (s.pipeline.thread .serveFrame).stop = false
    by_contra raised
    rcases h.calm .serveFrame (eq_true_of_ne_false raised) with ⟨op, working⟩ | ⟨other, _⟩
    · cases nobody.symm.trans working
    · cases other
  · intro i idle
    cases i <;> exact absurd (show Stage.serveFrame.place < _ from idle) (by decide)
  · intro i stop
    rcases h.calm i stop with ⟨op, working⟩ | restarting
    · cases nobody.symm.trans working
    · exact Or.inr restarting

/-- The wait of ProcessData times out while nobody stops the reading thread. -/
theorem timedOut_fits {s : State} (h : Sound s) {id : Nat} {e : Execution Stage Pc}
    (found : s.pipeline.executions[id]? = some e) (running : e.ended = false) (waits : e.pc = .waitForData) :
    Fits s.pipeline .readData tryStopThenKill := by
  have stage := h.processing id e found (by rw [waits]; simp) (by rw [waits]; simp)
  by_contra raised
  rcases h.calm .readData (eq_true_of_ne_false raised) with ⟨op, working⟩ | ⟨_, id', op, restarting⟩
  · exact (owner_elsewhere h found running stage).1 op working
  · obtain rfl := restarting_one h found running stage restarting
    obtain ⟨e', found', _, pc⟩ := restarting
    obtain rfl := Option.some.inj (found.symm.trans found')
    cases waits.symm.trans pc

/-- An execution that is cut off in a restart has waited for Stop, or not yet come to Start. -/
theorem unwound_down {p : Pipeline} {op : Op} (unwinds : mayUnwind (.restart op) = true)
    (fits : Fits p .readData op) : p.down .readData := by
  cases op with
  | start => exact fits
  | stop caller task =>
    obtain rfl := of_decide_eq_true unwinds
    exact fits

theorem goTo_sound {s : State} (h : Sound s) {id : Nat} {e : Execution Stage Pc}
    (found : s.pipeline.executions[id]? = some e) {pc : Pc} (calm : ∀ op, e.pc ≠ .restart op)
    (inside : pc ≠ .loop → pc ≠ .leaving → e.stage = .processData)
    (restarts : ∀ op, pc = .restart op → e.ended = false → Fits s.pipeline .readData op) :
    Sound { s with pipeline := s.pipeline.modify id (goTo pc) } :=
  execute_sound h found (fun _ => rfl) (fun _ still => still) inside
    (fun op running goes => restarts op goes running) fun op _ restarting => absurd restarting (calm op)

theorem finish_sound {s : State} (h : Sound s) {id : Nat} {e : Execution Stage Pc}
    (found : s.pipeline.executions[id]? = some e) (unwinds : mayUnwind e.pc = true) :
    Sound { s with pipeline := s.pipeline.modify id finish } := by
  refine execute_sound h found (fun _ => rfl) (fun _ still => by cases still) ?_ (fun _ still => by cases still) ?_
  · exact h.processing id e found
  · intro op running pc
    rw [pc] at unwinds
    exact unwound_down unwinds (h.restart id op ⟨e, found, running, pc⟩)

theorem shouldContinue_sound {s : State} (h : Sound s) {id : Nat} {e : Execution Stage Pc} {p : Pipeline}
    (found : s.pipeline.executions[id]? = some e)
    (step : executeStep s.pipeline id e .shouldContinue = some p) : Sound { s with pipeline := p } := by
  cases pc : e.pc with
  | loop =>
    simp only [executeStep, pc, Option.some.injEq] at step
    subst step
    refine goTo_sound h found (by simp [pc]) ?_ ?_
    · intro out out'
      by_contra other
      rw [if_neg other] at out out'
      split at out
      · exact out' (if_pos (by assumption))
      · exact out rfl
    · intro op restarts
      split at restarts
      · cases restarts
      · split at restarts <;> cases restarts
  | received =>
    simp only [executeStep, pc, Option.some.injEq] at step
    subst step
    refine goTo_sound h found (by simp [pc]) (fun _ _ => ?_) ?_
    · exact h.processing id e found (by simp [pc]) (by simp [pc])
    · intro op restarts
      split at restarts <;> cases restarts
  | waitForData | restart | leaving =>
    simp only [executeStep, pc] at step
    cases step

theorem executeStep_sound {s : State} (h : Sound s) {id : Nat} {e : Execution Stage Pc} {p : Pipeline}
    {move : ExecuteMove} (found : s.pipeline.executions[id]? = some e) (running : e.ended = false)
    (step : executeStep s.pipeline id e move = some p) : Sound { s with pipeline := p } := by
  cases move with
  | shouldContinue => exact shouldContinue_sound h found step
  | timedOut =>
    obtain ⟨waits, done⟩ := Option.ite_none_right_eq_some.mp step
    obtain rfl := Option.some.inj done
    refine goTo_sound h found (by simp [waits]) (fun _ _ => ?_) fun op restarts _ => ?_
    · exact h.processing id e found (by simp [waits]) (by simp [waits])
    · obtain rfl := Pc.restart.inj restarts
      exact timedOut_fits h found running waits
  | dataReceived =>
    obtain ⟨waits, done⟩ := Option.ite_none_right_eq_some.mp step
    obtain rfl := Option.some.inj done
    refine goTo_sound h found (by simp [waits]) (fun _ _ => ?_) fun op restarts => by cases restarts
    exact h.processing id e found (by simp [waits]) (by simp [waits])
  | restart move =>
    cases pc : e.pc with
    | restart op =>
      simp only [executeStep, pc] at step
      obtain ⟨⟨p', op'⟩, works, rfl⟩ := Option.map_eq_some_iff.mp step
      exact restart_sound h found running pc (op_cases works)
    | loop | waitForData | received | leaving =>
      simp only [executeStep, pc] at step
      cases step
  | leave =>
    obtain ⟨leaves, done⟩ := Option.ite_none_right_eq_some.mp step
    obtain rfl := Option.some.inj done
    exact finish_sound h found (by rw [leaves]; rfl)
  | forcedExit =>
    obtain ⟨⟨_, unwinds⟩, done⟩ := Option.ite_none_right_eq_some.mp step
    obtain rfl := Option.some.inj done
    exact finish_sound h found unwinds

theorem step_sound {s t : State} {a : Action} (h : Sound s) (step : s.step a = some t) : Sound t := by
  cases a with
  | start =>
    cases owner : s.owner with
    | stopped =>
      simp only [State.step, owner, Option.some.injEq] at step
      subst step
      exact start_sound h owner
    | starting | started | stopping =>
      simp only [State.step, owner] at step
      cases step
  | stop =>
    cases owner : s.owner with
    | stopped | started =>
      simp only [State.step, owner, Option.some.injEq] at step
      subst step
      exact stop_sound h (by rw [owner]; rfl)
    | starting | stopping =>
      simp only [State.step, owner] at step
      cases step
  | owner move => exact owner_sound h step
  | execute id move =>
    cases found : s.pipeline.executions[id]? with
    | none =>
      simp only [State.step, found] at step
      cases step
    | some e =>
      simp only [State.step, found] at step
      obtain ⟨running, done⟩ := Option.ite_none_left_eq_some.mp step
      obtain ⟨p, executes, rfl⟩ := Option.map_eq_some_iff.mp done
      exact executeStep_sound h found (eq_false_of_ne_true running) executes

theorem construct_sound : Sound construct := by
  refine ⟨⟨?_, ?_⟩, ?_, ?_, ?_, fun _ _ => ⟨rfl, rfl⟩, ?_, trivial⟩
  · intro id e found
    cases found
  · intro i id set
    cases set
  · intro stage op working
    cases working
  · rintro id op ⟨e, found, _⟩
    cases found
  · intro id e found
    cases found
  · intro i stop
    cases stop

/-- In every run, when Stop has returned no thread is known or running and no flag is set,
    when Start has returned it has launched each stage once, each with one running execution, and of
    no stage two executions run at a time. -/
theorem stop_quiescent {moves : List (Move State Action)} {t : State}
    (path : Path State.step construct moves t) :
    (t.owner = .stopped → ∀ i, t.pipeline.down i ∧
      ∀ (id : Nat) e, t.pipeline.executions[id]? = some e → e.ended = true) ∧
    (∀ launched, t.owner = .started launched → launched = [.readData, .processData, .serveFrame]) ∧
    (∀ move ∈ moves, ∀ stage op launched m, move.before.owner = .starting stage op launched →
      move.action = .owner m → Launches move.before move.after stage launched) ∧
    ∀ (id id' : Nat) e e', t.pipeline.executions[id]? = some e → t.pipeline.executions[id']? = some e' →
      e.ended = false → e'.ended = false → e.stage = e'.stage → id = id' := by
  have h := path_invariant Sound (fun u a v h step => step_sound h step) path construct_sound
  refine ⟨fun stopped i => ?_, fun launched started => ?_, fun move member stage op launched m owner takes => ?_,
    fun id id' e e' => running_once h.machine⟩
  · have down : ∀ i, t.pipeline.down i := fun i => h.idle i (by rw [stopped]; trivial)
    refine ⟨down i, fun id e found => ?_⟩
    by_contra running
    have knows := h.machine.live id e found (eq_false_of_ne_true running)
    cases (down e.stage).1.symm.trans knows
  · have inOrder := h.launched
    rw [started] at inOrder
    exact inOrder
  · obtain ⟨sound, step⟩ := path_moves Sound (fun u a v h step => step_sound h step) path construct_sound move member
    rw [takes] at step
    exact owner_launches sound owner step

def stoppedInRestart : List Action :=
  [.start, .owner .start, .owner .start, .owner .start, .owner .start, .owner .start, .owner .start,
    .owner .start, .owner .start, .owner .start,
    .execute 1 .shouldContinue, .execute 1 .timedOut, .execute 1 (.restart .task), .execute 1 (.restart .task),
    .stop, .owner .task, .owner .task, .owner .task, .execute 2 .shouldContinue, .execute 2 .leave,
    .owner .task, .owner .task, .owner .task, .owner .ready,
    .owner .task, .owner .task, .owner .task, .owner .timeout, .owner .cancel,
    .execute 1 (.restart .task), .execute 0 .shouldContinue, .execute 0 .leave,
    .execute 1 (.restart .task), .execute 1 (.restart .task), .execute 1 (.restart .task), .execute 1 .forcedExit,
    .owner .task, .owner .task, .owner .task, .owner .ready,
    .owner .task, .owner .ready]

theorem stop_quiescent_in_restart :
    ∃ moves t, Path State.step construct moves t ∧ t.pipeline.executions.length = 3 ∧
      t.owner = .stopped ∧ ∀ i, t.pipeline.down i := by
  have path : Path State.step construct _ _ := path_of_record stoppedInRestart Path.nil rfl
  exact ⟨_, _, path, rfl, rfl, fun i => ((stop_quiescent path).1 rfl i).1⟩

end Quiescence
