import GyroDsu.Hiddev.Quiescence

/-
HidDevFile and its one user: the file of ReadDataFile outlives the executions that open,
read, reconnect and close it, and each of them may be cancelled in between, also when a system
call has been made and its result is not in the member yet. Beside it the other parts of the
process open and close descriptors of their own.
-/
namespace InputFile
open PipelineThread Restarts Runs

inductive Party where
  | inputFile
  | others
  deriving DecidableEq, Repr

inductive Purpose where
  | start
  | reconnect
  | finish
  deriving DecidableEq, Repr

/-- Where Execute of ReadDataFile is with its file. `closing` and `opened` are behind the calls
    of close and open, before the member is set. -/
inductive FilePc where
  | disconnect (purpose : Purpose)
  | close (purpose : Purpose)
  | closing (purpose : Purpose)
  | openFile (purpose : Purpose)
  | opened (purpose : Purpose) (result : Option Nat)
  | check
  | loop
  | finished
  deriving DecidableEq, Repr

structure Call where
  descriptor : Int
  owner : Option Party
  deriving DecidableEq, Repr

/-- `pcs` tells for each execution of ReadDataFile where it is. `terminated`: an exception has
    left a thread. `calls` and `abandoned` are history: the calls of read and close so far,
    newest first, and whether the execution of ReadDataFile that ended last was cancelled. -/
structure State where
  reader : Restarts.State
  file : Int
  table : Nat → Option Party
  pcs : Nat → FilePc
  terminated : Bool
  calls : List Call
  abandoned : Bool

def State.lookup (s : State) (descriptor : Int) : Option Party :=
  if descriptor < 0 then none else s.table descriptor.toNat

def State.goTo (s : State) (id : Nat) (pc : FilePc) : State :=
  { s with pcs := fun i => if i = id then pc else s.pcs i }

def State.setTable (s : State) (descriptor : Nat) (owner : Option Party) : State :=
  { s with table := fun n => if n = descriptor then owner else s.table n }

/-- fcntl with F_GETFD fails with EBADF on a descriptor that is not open. -/
def State.isOpen (s : State) : Bool := 0 ≤ s.file && (s.lookup s.file).isSome

/-- close frees the number whoever has it. -/
def State.closeFile (s : State) : State :=
  { s.setTable s.file.toNat none with calls := ⟨s.file, s.lookup s.file⟩ :: s.calls }

def afterDisconnect : Purpose → FilePc
  | .start => .openFile .start
  | .reconnect => .openFile .reconnect
  | .finish => .finished

def afterOpen : Purpose → FilePc
  | .start => .check
  | _ => .loop

def memberOf (result : Option Nat) : Int := result.elim (-1) Nat.cast

/-- `openFile none`: the file could not be opened. `forget` and `assign` set the member after
    close and open. `reject`: CheckData has failed. -/
inductive FileMove where
  | isOpen
  | close
  | forget
  | openFile (result : Option Nat)
  | assign
  | read
  | reject
  deriving DecidableEq, Repr

def State.fileStep (s : State) (id : Nat) : FileMove → Option State
  | .isOpen =>
    match s.pcs id with
    | .disconnect purpose => some (s.goTo id (if s.isOpen then .close purpose else afterDisconnect purpose))
    | .check => if s.isOpen then some (s.goTo id .loop) else some { s with terminated := true }
    | _ => none
  | .close =>
    match s.pcs id with
    | .close purpose => some (s.closeFile.goTo id (.closing purpose))
    | _ => none
  | .forget =>
    match s.pcs id with
    | .closing purpose => some ({ s with file := -1 }.goTo id (afterDisconnect purpose))
    | _ => none
  | .openFile result =>
    match s.pcs id, result with
    | .openFile purpose, none => some (s.goTo id (.opened purpose none))
    | .openFile purpose, some n =>
      -- the kernel gives a number that is not in use
      if s.table n = none then some ((s.setTable n (some .inputFile)).goTo id (.opened purpose (some n)))
      else none
    | _, _ => none
  | .assign =>
    match s.pcs id with
    | .opened purpose result => some ({ s with file := memberOf result }.goTo id (afterOpen purpose))
    | _ => none
  | .read =>
    match s.pcs id with
    | .loop =>
      if s.file < 0 then some s else some { s with calls := ⟨s.file, s.lookup s.file⟩ :: s.calls }
    | _ => none
  | .reject =>
    match s.pcs id with
    | .loop => some (s.goTo id (.disconnect .reconnect))
    | _ => none

inductive Action where
  | pipeline (a : Restarts.Action)
  | file (id : Nat) (move : FileMove)
  | others (descriptor : Nat)

def reading (r : Restarts.State) (id : Nat) : Bool :=
  (r.pipeline.executions[id]?).any fun e => e.stage = .readData && !e.ended

def State.ready (s : State) : Restarts.Action → Bool
  | .execute id .shouldContinue => !reading s.reader id || s.pcs id = .loop
  | .execute id .leave => !reading s.reader id || s.pcs id = .finished
  | _ => true

def leaving (r : Restarts.State) (id : Nat) : Bool :=
  (r.pipeline.executions[id]?).any fun e => e.pc = .leaving

def State.followed (s : State) (r : Restarts.State) : Restarts.Action → State
  | .execute id .shouldContinue =>
    if reading r id && leaving r id then { s with reader := r }.goTo id (.disconnect .finish)
    else { s with reader := r }
  | .execute id .leave =>
    if reading s.reader id then { s with reader := r, abandoned := false } else { s with reader := r }
  | .execute id .forcedExit =>
    if reading s.reader id then { s with reader := r, abandoned := true } else { s with reader := r }
  | _ => { s with reader := r }

def State.step (s : State) (a : Action) : Option State :=
  if s.terminated then none
  else match a with
    | .pipeline a =>
      if s.ready a then (s.reader.step a).map fun r => s.followed r a else none
    | .file id move => if reading s.reader id then s.fileStep id move else none
    | .others n =>
      match s.table n with
      | none => some (s.setTable n (some .others))
      | some .others => some (s.setTable n none)
      | some .inputFile => none

structure Begins (s : State) : Prop where
  reader : s.reader = construct
  file : s.file = -1
  none_ours : ∀ n, s.table n ≠ some .inputFile
  pcs : ∀ id, s.pcs id = .disconnect .start
  running : s.terminated = false
  calls : s.calls = []
  abandoned : s.abandoned = false

def Place (file : Int) : FilePc → Prop
  | .close _ | .closing _ => 0 ≤ file
  | .openFile _ | .opened _ _ => file = -1
  | .finished => file = -1
  | _ => True

def Held (file : Int) (table : Nat → Option Party) : Prop := ∀ n : Nat, table n = some .inputFile ↔ file = n

def Holding (file : Int) (table : Nat → Option Party) : FilePc → Prop
  | .closing _ => ∀ n, table n ≠ some .inputFile
  | .opened _ result => ∀ n, table n = some .inputFile ↔ result = some n
  | _ => Held file table

structure Sound (s : State) : Prop where
  reader : Quiescence.Sound s.reader
  fresh : ∀ id, s.reader.pipeline.executions[id]? = none → s.pcs id = .disconnect .start
  closed : s.file < 0 → s.file = -1
  place : ∀ id, reading s.reader id = true → Place s.file (s.pcs id)
  holding : ∀ id, reading s.reader id = true → Holding s.file s.table (s.pcs id)
  calls : ∀ call ∈ s.calls, call.owner = some .inputFile
  quiet : (∀ id, reading s.reader id = false) → Held s.file s.table ∧ (s.file = -1 ∨ s.abandoned = true)

theorem lookup_held {s : State} (held : Held s.file s.table) (positive : 0 ≤ s.file) :
    s.lookup s.file = some .inputFile := by
  have number : s.file = s.file.toNat := (Int.toNat_of_nonneg positive).symm
  rw [State.lookup, if_neg (by omega)]
  exact (held s.file.toNat).mpr number

theorem isOpen_iff {s : State} (held : Held s.file s.table) : s.isOpen = true ↔ 0 ≤ s.file := by
  constructor
  · intro is_open
    simp only [State.isOpen, Bool.and_eq_true, decide_eq_true_eq] at is_open
    exact is_open.1
  · intro positive
    simp [State.isOpen, positive, lookup_held held positive]

/- Only one execution of ReadDataFile is alive, so what one does with the file no other
   one has to know. -/
theorem reading_one {r : Restarts.State} (h : Quiescence.Sound r) {id id' : Nat}
    (first : reading r id = true) (second : reading r id' = true) : id = id' := by
  simp only [reading, Option.any_eq_true, Bool.and_eq_true, decide_eq_true_eq, Bool.not_eq_true'] at first second
  obtain ⟨e, found, stage, running⟩ := first
  obtain ⟨e', found', stage', running'⟩ := second
  exact running_once h.machine found found' running running' (stage.trans stage'.symm)

theorem reading_found {r : Restarts.State} {id : Nat} (live : reading r id = true) :
    ∃ e, r.pipeline.executions[id]? = some e ∧ e.stage = .readData ∧ e.ended = false := by
  simpa only [reading, Option.any_eq_true, Bool.and_eq_true, decide_eq_true_eq, Bool.not_eq_true'] using live

@[simp] theorem goTo_here (s : State) (id : Nat) (pc : FilePc) : (s.goTo id pc).pcs id = pc := if_pos rfl

theorem goTo_other (s : State) {id id' : Nat} (pc : FilePc) (other : id' ≠ id) :
    (s.goTo id pc).pcs id' = s.pcs id' := if_neg other

theorem moved_sound {s t : State} (h : Sound s) {id : Nat} (live : reading s.reader id = true)
    (reader : t.reader = s.reader) (pcs : t.pcs = s.pcs) (closed : t.file < 0 → t.file = -1)
    (calls : ∀ call ∈ t.calls, call.owner = some .inputFile) {pc : FilePc} (place : Place t.file pc)
    (holding : Holding t.file t.table pc) : Sound (t.goTo id pc) := by
  have only : ∀ id', reading t.reader id' = true → id' = id := fun id' live' =>
    reading_one h.reader (reader ▸ live') live
  refine ⟨reader ▸ h.reader, ?_, closed, ?_, ?_, calls, ?_⟩
  · intro id' nothing
    have unlaunched : s.reader.pipeline.executions[id']? = none := reader ▸ nothing
    have other : id' ≠ id := by
      rintro rfl
      obtain ⟨e, found, _⟩ := reading_found live
      cases found.symm.trans unlaunched
    rw [goTo_other t pc other, pcs]
    exact h.fresh id' unlaunched
  · intro id' live'
    obtain rfl := only id' live'
    rw [goTo_here]
    exact place
  · intro id' live'
    obtain rfl := only id' live'
    rw [goTo_here]
    exact holding
  · intro none_alive
    cases (none_alive id).symm.trans (reader ▸ live)

theorem goTo_sound {s : State} (h : Sound s) {id : Nat} (live : reading s.reader id = true) {pc : FilePc}
    (place : Place s.file pc) (holding : Holding s.file s.table pc) : Sound (s.goTo id pc) :=
  moved_sound h live rfl rfl h.closed h.calls place holding

theorem place_disconnected (purpose : Purpose) : Place (-1) (afterDisconnect purpose) := by
  cases purpose <;> rfl

theorem holding_disconnected {file : Int} {table : Nat → Option Party} (held : Held file table)
    (purpose : Purpose) : Holding file table (afterDisconnect purpose) := by
  cases purpose <;> exact held

theorem place_opened (file : Int) (purpose : Purpose) : Place file (afterOpen purpose) := by
  cases purpose <;> trivial

theorem holding_opened {file : Int} {table : Nat → Option Party} (held : Held file table) (purpose : Purpose) :
    Holding file table (afterOpen purpose) := by
  cases purpose <;> exact held

theorem close_frees {s : State} (held : Held s.file s.table) (n : Nat) : s.closeFile.table n ≠ some .inputFile := by
  intro ours
  by_cases here : n = s.file.toNat
  · cases (if_pos here : s.closeFile.table n = none).symm.trans ours
  · have before : s.table n = some .inputFile := (if_neg here : s.closeFile.table n = s.table n).symm.trans ours
    have number := (held n).mp before
    omega

theorem open_gives {s : State} (held : Held s.file s.table) (nothing : s.file = -1) (n m : Nat) :
    (s.setTable n (some .inputFile)).table m = some .inputFile ↔ some n = some m := by
  by_cases here : m = n
  · subst here
    exact ⟨fun _ => rfl, fun _ => if_pos rfl⟩
  · constructor
    · intro ours
      have before : s.table m = some .inputFile := (if_neg here).symm.trans ours
      have number := (held m).mp before
      omega
    · intro same
      exact absurd (Option.some.inj same).symm here

theorem assign_held {table : Nat → Option Party} {result : Option Nat}
    (given : ∀ n, table n = some .inputFile ↔ result = some n) : Held (memberOf result) table := by
  intro n
  rw [given]
  cases result with
  | none => exact iff_of_false (by simp) (by simp only [memberOf, Option.elim_none]; omega)
  | some m =>
    simp only [Option.some.injEq, memberOf, Option.elim_some]
    omega

theorem memberOf_closed (result : Option Nat) (negative : memberOf result < 0) : memberOf result = -1 := by
  cases result with
  | none => rfl
  | some n =>
    have below : (n : Int) < 0 := negative
    omega

inductive Moved (s : State) (id : Nat) : State → Prop where
  | probed {purpose : Purpose} (pc : s.pcs id = .disconnect purpose) :
      Moved s id (s.goTo id (if s.isOpen then .close purpose else afterDisconnect purpose))
  | checked (pc : s.pcs id = .check) : Moved s id (s.goTo id .loop)
  | threw (pc : s.pcs id = .check) : Moved s id { s with terminated := true }
  | closed {purpose : Purpose} (pc : s.pcs id = .close purpose) :
      Moved s id (s.closeFile.goTo id (.closing purpose))
  | forgot {purpose : Purpose} (pc : s.pcs id = .closing purpose) :
      Moved s id ({ s with file := -1 }.goTo id (afterDisconnect purpose))
  | notOpened {purpose : Purpose} (pc : s.pcs id = .openFile purpose) :
      Moved s id (s.goTo id (.opened purpose none))
  | opened {purpose : Purpose} {n : Nat} (pc : s.pcs id = .openFile purpose) (free : s.table n = none) :
      Moved s id ((s.setTable n (some .inputFile)).goTo id (.opened purpose (some n)))
  | assigned {purpose : Purpose} {result : Option Nat} (pc : s.pcs id = .opened purpose result) :
      Moved s id ({ s with file := memberOf result }.goTo id (afterOpen purpose))
  | notRead (pc : s.pcs id = .loop) : Moved s id s
  | read (pc : s.pcs id = .loop) (positive : ¬s.file < 0) :
      Moved s id { s with calls := ⟨s.file, s.lookup s.file⟩ :: s.calls }
  | rejected (pc : s.pcs id = .loop) : Moved s id (s.goTo id (.disconnect .reconnect))

theorem file_cases {s t : State} {id : Nat} {move : FileMove} (step : s.fileStep id move = some t) :
    Moved s id t := by
  cases move <;> cases pc : s.pcs id <;>
    simp only [State.fileStep, pc, Option.some.injEq, reduceCtorEq] at step
  case isOpen.disconnect purpose => exact step ▸ .probed pc
  case isOpen.check =>
    split at step
    · exact Option.some.inj step ▸ .checked pc
    · exact Option.some.inj step ▸ .threw pc
  case close.close purpose => exact step ▸ .closed pc
  case forget.closing purpose => exact step ▸ .forgot pc
  case openFile.openFile result purpose =>
    cases result with
    | none => exact Option.some.inj step ▸ .notOpened pc
    | some n =>
      obtain ⟨free, done⟩ := Option.ite_none_right_eq_some.mp step
      exact Option.some.inj done ▸ .opened pc free
  case assign.opened purpose result => exact step ▸ .assigned pc
  case read.loop =>
    split at step
    · exact Option.some.inj step ▸ .notRead pc
    · rename_i positive
      exact Option.some.inj step ▸ .read pc positive
  case reject.loop => exact step ▸ .rejected pc

theorem file_sound {s t : State} (h : Sound s) {id : Nat} (live : reading s.reader id = true)
    (moved : Moved s id t) : Sound t := by
  have place := h.place id live
  have holding := h.holding id live
  cases moved with
  | probed pc =>
    rename_i purpose
    rw [pc] at holding
    have held : Held s.file s.table := holding
    cases probe : s.isOpen with
    | true => exact goTo_sound h live ((isOpen_iff held).mp probe) held
    | false =>
      have shut : s.file = -1 := by
        refine h.closed ?_
        by_contra positive
        cases probe.symm.trans ((isOpen_iff held).mpr (by omega))
      have place_next := place_disconnected purpose
      rw [← shut] at place_next
      exact goTo_sound h live place_next (holding_disconnected held purpose)
  | checked pc =>
    rw [pc] at holding
    exact goTo_sound h live trivial holding
  | threw => exact ⟨h.reader, h.fresh, h.closed, h.place, h.holding, h.calls, h.quiet⟩
  | closed pc =>
    rw [pc] at place holding
    have held : Held s.file s.table := holding
    refine @moved_sound s s.closeFile h id live rfl rfl h.closed ?_ _ place (close_frees held)
    intro call member
    rcases List.mem_cons.mp member with rfl | earlier
    · exact lookup_held held place
    · exact h.calls call earlier
  | forgot pc =>
    rename_i purpose
    rw [pc] at holding
    have held : Held (-1) s.table := fun n => iff_of_false (holding n) (by omega)
    exact @moved_sound s { s with file := -1 } h id live rfl rfl (fun _ => rfl) h.calls _
      (place_disconnected purpose) (holding_disconnected held purpose)
  | notOpened pc =>
    rw [pc] at place holding
    have nothing : s.file = -1 := place
    refine goTo_sound h live place fun n => ?_
    rw [(holding : Held s.file s.table) n, nothing]
    exact iff_of_false (by omega) (by simp)
  | opened pc free =>
    rename_i purpose n
    rw [pc] at place holding
    exact @moved_sound s (s.setTable n (some .inputFile)) h id live rfl rfl h.closed h.calls _ place
      (open_gives holding place n)
  | assigned pc =>
    rename_i purpose result
    rw [pc] at holding
    exact @moved_sound s { s with file := memberOf result } h id live rfl rfl (memberOf_closed result) h.calls _
      (place_opened _ purpose) (holding_opened (assign_held holding) purpose)
  | notRead => exact h
  | read pc positive =>
    rw [pc] at holding
    refine ⟨h.reader, h.fresh, h.closed, h.place, h.holding, fun call member => ?_, h.quiet⟩
    rcases List.mem_cons.mp member with rfl | earlier
    · exact lookup_held holding (by omega)
    · exact h.calls call earlier
  | rejected pc =>
    rw [pc] at holding
    exact goTo_sound h live trivial holding

theorem file_others {s t : State} (h : Sound s) {id : Nat} (live : reading s.reader id = true)
    (moved : Moved s id t) {n : Nat} (theirs : s.table n = some .others) : t.table n = some .others := by
  have place := h.place id live
  have holding := h.holding id live
  cases moved with
  | probed | checked | threw | forgot | notOpened | assigned | notRead | read | rejected => exact theirs
  | closed pc =>
    rw [pc] at place holding
    have positive : 0 ≤ s.file := place
    have other : n ≠ s.file.toNat := by
      rintro rfl
      have ours := (holding s.file.toNat).mpr (Int.toNat_of_nonneg positive).symm
      cases ours.symm.trans theirs
    exact (if_neg other).trans theirs
  | opened pc free =>
    rename_i m
    have other : n ≠ m := by
      rintro rfl
      cases free.symm.trans theirs
    exact (if_neg other).trans theirs

theorem modified_kept {p : Pipeline} {target id : Nat} {e : Execution Stage Pc}
    (found : p.executions[id]? = some e) (f : Execution Stage Pc → Execution Stage Pc)
    (stage : ∀ e, (f e).stage = e.stage) :
    ∃ e', (p.modify target f).executions[id]? = some e' ∧ e'.stage = e.stage ∧
      (e'.ended = e.ended ∨ target = id ∧ e' = f e) := by
  refine ⟨_, modify_there found target f, ?_, ?_⟩
  · split
    · exact stage e
    · rfl
  · by_cases here : target = id
    · exact Or.inr ⟨here, if_pos here⟩
    · exact Or.inl (by rw [if_neg here])

theorem executed_kept {p p' : Pipeline} {target id : Nat} {e₀ e : Execution Stage Pc} {move : ExecuteMove}
    (step : executeStep p target e₀ move = some p') (found : p.executions[id]? = some e) :
    ∃ e', p'.executions[id]? = some e' ∧ e'.stage = e.stage ∧
      (e'.ended = e.ended ∨ e'.ended = true ∧ target = id ∧ (move = .leave ∨ move = .forcedExit)) := by
  have went : ∀ {q : Pipeline} {e : Execution Stage Pc} (pc : Pc), q.executions[id]? = some e →
      ∃ e', (q.modify target (Restarts.goTo pc)).executions[id]? = some e' ∧ e'.stage = e.stage ∧
        (e'.ended = e.ended ∨ e'.ended = true ∧ target = id ∧ (move = .leave ∨ move = .forcedExit)) := by
    intro q e pc there
    obtain ⟨e', found', stage, same⟩ := modified_kept there (Restarts.goTo pc) (fun _ => rfl)
    refine ⟨e', found', stage, Or.inl ?_⟩
    rcases same with same | ⟨_, rfl⟩
    · exact same
    · rfl
  cases move with
  | shouldContinue =>
    simp only [executeStep] at step
    split at step
    · obtain rfl := Option.some.inj step
      exact went _ found
    · obtain rfl := Option.some.inj step
      exact went _ found
    · cases step
  | timedOut | dataReceived =>
    obtain ⟨_, done⟩ := Option.ite_none_right_eq_some.mp step
    obtain rfl := Option.some.inj done
    exact went _ found
  | restart move =>
    cases pc : e₀.pc with
    | restart op =>
      simp only [executeStep, pc] at step
      obtain ⟨⟨q, op'⟩, works, rfl⟩ := Option.map_eq_some_iff.mp step
      obtain ⟨e', there, stage, _, ended⟩ := (op_works (op_cases works)).kept id e found
      rw [← stage, ← ended]
      exact went _ there
    | loop | waitForData | received | leaving =>
      simp only [executeStep, pc] at step
      cases step
  | leave | forcedExit =>
    obtain ⟨_, done⟩ := Option.ite_none_right_eq_some.mp step
    obtain rfl := Option.some.inj done
    obtain ⟨e', found', stage, same⟩ := modified_kept found finish (fun _ => rfl)
    refine ⟨e', found', stage, same.imp_right ?_⟩
    rintro ⟨here, rfl⟩
    exact ⟨rfl, here, by simp⟩

theorem execution_kept {r r' : Restarts.State} {a : Restarts.Action} (step : r.step a = some r') {id : Nat}
    {e : Execution Stage Pc} (found : r.pipeline.executions[id]? = some e) :
    ∃ e', r'.pipeline.executions[id]? = some e' ∧ e'.stage = e.stage ∧
      (e'.ended = e.ended ∨ e'.ended = true ∧ (a = .execute id .leave ∨ a = .execute id .forcedExit)) := by
  have untouched : r'.pipeline = r.pipeline → ∃ e', r'.pipeline.executions[id]? = some e' ∧
      e'.stage = e.stage ∧ (e'.ended = e.ended ∨
        e'.ended = true ∧ (a = .execute id .leave ∨ a = .execute id .forcedExit)) :=
    fun same => ⟨e, by rw [same]; exact found, rfl, Or.inl rfl⟩
  cases a with
  | start =>
    cases owner : r.owner <;> simp only [Restarts.State.step, owner, Option.some.injEq, reduceCtorEq] at step
    exact untouched (by rw [← step])
  | stop =>
    cases owner : r.owner <;> simp only [Restarts.State.step, owner, Option.some.injEq, reduceCtorEq] at step
    all_goals exact untouched (by rw [← step])
  | owner move =>
    cases owner : r.owner with
    | stopped | started =>
      simp only [Restarts.State.step, State.ownerStep, owner] at step
      cases step
    | starting stage op launched | stopping stage op =>
      simp only [Restarts.State.step, State.ownerStep, owner] at step
      obtain ⟨⟨p, op'⟩, works, rfl⟩ := Option.map_eq_some_iff.mp step
      obtain ⟨e', there, same, _, ended⟩ := (op_works (op_cases works)).kept id e found
      refine ⟨e', ?_, same, Or.inl ended⟩
      cases op' <;> exact there
  | execute target move =>
    cases chosen : r.pipeline.executions[target]? with
    | none => simp [Restarts.State.step, chosen] at step
    | some e₀ =>
      simp only [Restarts.State.step, chosen] at step
      obtain ⟨_, done⟩ := Option.ite_none_left_eq_some.mp step
      obtain ⟨p, executes, rfl⟩ := Option.map_eq_some_iff.mp done
      obtain ⟨e', there, stage, same⟩ := executed_kept executes found
      refine ⟨e', there, stage, same.imp_right ?_⟩
      rintro ⟨ended, rfl, rfl | rfl⟩ <;> simp [ended]

theorem still_reading {r r' : Restarts.State} {a : Restarts.Action} (step : r.step a = some r') {id : Nat}
    (live : reading r id = true) :
    reading r' id = true ∨ a = .execute id .leave ∨ a = .execute id .forcedExit := by
  obtain ⟨e, found, stage, running⟩ := reading_found live
  obtain ⟨e', found', stage', same⟩ := execution_kept step found
  rcases same with ended | ⟨_, leaves⟩
  · left
    simp [reading, found', stage', stage, ended, running]
  · exact Or.inr leaves

theorem was_reading {r r' : Restarts.State} {a : Restarts.Action} (step : r.step a = some r') {id : Nat}
    (live : reading r' id = true) : reading r id = true ∨ r.pipeline.executions[id]? = none := by
  obtain ⟨e', found', stage, running⟩ := reading_found live
  cases found : r.pipeline.executions[id]? with
  | none => exact Or.inr rfl
  | some e =>
    obtain ⟨e'', found'', stage', same⟩ := execution_kept step found
    obtain rfl := Option.some.inj (found''.symm.trans found')
    rcases same with ended | ⟨ended, _⟩
    · left
      simp [reading, found, ← stage', stage, ← ended, running]
    · cases running.symm.trans ended

theorem ends_only {r r' : Restarts.State} {id : Nat} {move : ExecuteMove} (ends : move = .leave ∨ move = .forcedExit)
    (step : r.step (.execute id move) = some r') : r' = { r with pipeline := r.pipeline.modify id finish } := by
  cases found : r.pipeline.executions[id]? with
  | none => simp [Restarts.State.step, found] at step
  | some e =>
    simp only [Restarts.State.step, found] at step
    obtain ⟨_, done⟩ := Option.ite_none_left_eq_some.mp step
    obtain ⟨p, executes, rfl⟩ := Option.map_eq_some_iff.mp done
    rcases ends with rfl | rfl
    · obtain ⟨_, ended⟩ := Option.ite_none_right_eq_some.mp executes
      rw [← Option.some.inj ended]
    · obtain ⟨_, ended⟩ := Option.ite_none_right_eq_some.mp executes
      rw [← Option.some.inj ended]

/-- An execution of ReadDataFile is launched only when there is no other. -/
theorem launched_alone {s : State} {r : Restarts.State} {a : Restarts.Action} (h : Sound s)
    (step : s.reader.step a = some r) {id : Nat} (live : reading r id = true)
    (launched : s.reader.pipeline.executions[id]? = none) (id' : Nat) : reading s.reader id' = false := by
  by_contra dead
  have live' := eq_true_of_ne_false dead
  have ended : ∀ move, move = .leave ∨ move = .forcedExit → a ≠ .execute id' move := by
    rintro move ends rfl
    obtain ⟨e', found', _⟩ := reading_found live
    rw [ends_only ends step] at found'
    obtain ⟨e, found, _⟩ := modify_executions found'
    cases launched.symm.trans found
  rcases still_reading step live' with still | left | forced
  · obtain rfl := reading_one (Quiescence.step_sound h.reader step) still live
    obtain ⟨e, found, _⟩ := reading_found live'
    cases launched.symm.trans found
  · exact ended .leave (Or.inl rfl) left
  · exact ended .forcedExit (Or.inr rfl) forced

theorem advanced_sound {s : State} {r : Restarts.State} {a : Restarts.Action} (h : Sound s)
    (step : s.reader.step a = some r) {abandoned : Bool}
    (quiet : (∀ id, reading r id = false) → Held s.file s.table ∧ (s.file = -1 ∨ abandoned = true)) :
    Sound { s with reader := r, abandoned := abandoned } := by
  refine ⟨Quiescence.step_sound h.reader step, ?_, h.closed, ?_, ?_, h.calls, quiet⟩
  · intro id nothing
    refine h.fresh id ?_
    cases found : s.reader.pipeline.executions[id]? with
    | none => rfl
    | some e =>
      obtain ⟨e', found', _⟩ := execution_kept step found
      cases found'.symm.trans nothing
  · intro id live
    rcases was_reading step live with before | launched
    · exact h.place id before
    · show Place s.file (s.pcs id)
      rw [h.fresh id launched]
      trivial
  · intro id live
    rcases was_reading step live with before | launched
    · exact h.holding id before
    · show Holding s.file s.table (s.pcs id)
      rw [h.fresh id launched]
      exact (h.quiet (launched_alone h step live launched)).1

theorem quiet_kept {s : State} {r : Restarts.State} {a : Restarts.Action} (h : Sound s)
    (step : s.reader.step a = some r)
    (goes_on : ∀ id, reading s.reader id = true → a ≠ .execute id .leave ∧ a ≠ .execute id .forcedExit)
    (none_alive : ∀ id, reading r id = false) :
    Held s.file s.table ∧ (s.file = -1 ∨ s.abandoned = true) := by
  refine h.quiet fun id => ?_
  by_contra dead
  have live := eq_true_of_ne_false dead
  rcases still_reading step live with still | left | forced
  · cases still.symm.trans (none_alive id)
  · exact absurd left (goes_on id live).1
  · exact absurd forced (goes_on id live).2

def midway : FilePc → Bool
  | .closing _ => true
  | .opened _ result => result.isSome
  | _ => false

def interrupts (s : State) : Action → Bool
  | .pipeline (.execute id .forcedExit) => reading s.reader id && midway (s.pcs id)
  | _ => false

theorem holding_held {file : Int} {table : Nat → Option Party} {pc : FilePc} (place : Place file pc)
    (holding : Holding file table pc) (calm : midway pc = false) : Held file table := by
  cases pc with
  | closing => cases calm
  | opened purpose result =>
    cases result with
    | some => cases calm
    | none =>
      intro n
      rw [holding n, show file = -1 from place]
      exact iff_of_false (by simp) (by omega)
  | disconnect | close | openFile | check | loop | finished => exact holding

theorem pipeline_sound {s : State} {r : Restarts.State} {a : Restarts.Action} (h : Sound s)
    (ready : s.ready a = true) (step : s.reader.step a = some r) (calm : interrupts s (.pipeline a) = false) :
    Sound (s.followed r a) := by
  have unchanged : (∀ id, reading s.reader id = true → a ≠ .execute id .leave ∧ a ≠ .execute id .forcedExit) →
      Sound { s with reader := r } := fun goes_on => advanced_sound h step (quiet_kept h step goes_on)
  cases a with
  | start | stop | owner => exact unchanged fun id _ => ⟨by simp, by simp⟩
  | execute id move =>
    cases move with
    | timedOut | dataReceived | restart => exact unchanged fun id _ => ⟨by simp, by simp⟩
    | shouldContinue =>
      have sound := unchanged fun id _ => ⟨by simp, by simp⟩
      rw [State.followed]
      split
      · rename_i left
        have live := (Bool.and_eq_true_iff.mp left).1
        have before : reading s.reader id = true := by
          refine (was_reading step live).resolve_right fun nobody => ?_
          simp [Restarts.State.step, nobody] at step
        simp only [State.ready, before, Bool.not_true, Bool.false_or, decide_eq_true_eq] at ready
        have holding := h.holding id before
        rw [ready] at holding
        exact goTo_sound sound live trivial holding
      · exact sound
    | leave =>
      rw [State.followed]
      split
      · rename_i live
        have place := h.place id live
        have holding := h.holding id live
        simp only [State.ready, live, Bool.not_true, Bool.false_or, decide_eq_true_eq] at ready
        rw [ready] at place holding
        exact advanced_sound h step fun _ => ⟨holding, Or.inl place⟩
      · rename_i other
        refine unchanged fun id' live => ⟨?_, by simp⟩
        rintro same
        cases same
        exact other live
    | forcedExit =>
      rw [State.followed]
      split
      · rename_i live
        have settled : midway (s.pcs id) = false := by
          rwa [interrupts, live, Bool.true_and] at calm
        exact advanced_sound h step fun _ => ⟨holding_held (h.place id live) (h.holding id live) settled, Or.inr rfl⟩
      · rename_i other
        refine unchanged fun id' live => ⟨by simp, ?_⟩
        rintro same
        cases same
        exact other live

theorem holding_same {file : Int} {table table' : Nat → Option Party}
    (same : ∀ n, table' n = some .inputFile ↔ table n = some .inputFile) {pc : FilePc}
    (holding : Holding file table pc) : Holding file table' pc := by
  cases pc with
  | closing => exact fun n ours => holding n ((same n).mp ours)
  | opened purpose result => exact fun n => (same n).trans (holding n)
  | disconnect | close | openFile | check | loop | finished => exact fun n => (same n).trans (holding n)

theorem setTable_sound {s : State} (h : Sound s) {n : Nat} {owner : Option Party}
    (theirs : owner ≠ some .inputFile) (not_ours : s.table n ≠ some .inputFile) :
    Sound (s.setTable n owner) := by
  have same : ∀ m, (s.setTable n owner).table m = some .inputFile ↔ s.table m = some .inputFile := by
    intro m
    by_cases here : m = n
    · subst here
      have changed : (s.setTable m owner).table m = owner := if_pos rfl
      rw [changed]
      exact iff_of_false theirs not_ours
    · exact iff_of_eq (congrArg (· = some Party.inputFile) (if_neg here))
  refine ⟨h.reader, h.fresh, h.closed, h.place, fun id live => holding_same same (h.holding id live), h.calls,
    fun none_alive => ?_⟩
  obtain ⟨held, shut⟩ := h.quiet none_alive
  exact ⟨fun m => (same m).trans (held m), shut⟩

theorem followed_table (s : State) (r : Restarts.State) (a : Restarts.Action) :
    (s.followed r a).table = s.table := by
  unfold State.followed
  split
  · split <;> rfl
  · split <;> rfl
  · split <;> rfl
  · rfl

theorem others_step {s t : State} {n : Nat} (step : s.step (.others n) = some t) :
    ∃ owner, t = s.setTable n owner ∧ owner ≠ some .inputFile ∧ s.table n ≠ some .inputFile := by
  simp only [State.step] at step
  obtain ⟨_, step⟩ := Option.ite_none_left_eq_some.mp step
  split at step
  · rename_i free
    exact ⟨_, (Option.some.inj step).symm, by simp, by simp [free]⟩
  · rename_i theirs
    exact ⟨_, (Option.some.inj step).symm, by simp, by simp [theirs]⟩
  · cases step

theorem step_sound {s t : State} {a : Action} (h : Sound s) (step : s.step a = some t) (calm : interrupts s a = false) :
    Sound t ∧ ∀ n, s.table n = some .others → a ≠ .others n → t.table n = some .others := by
  cases a with
  | pipeline a =>
    simp only [State.step] at step
    obtain ⟨_, step⟩ := Option.ite_none_left_eq_some.mp step
    obtain ⟨ready, done⟩ := Option.ite_none_right_eq_some.mp step
    obtain ⟨r, goes, rfl⟩ := Option.map_eq_some_iff.mp done
    refine ⟨pipeline_sound h ready goes calm, fun n theirs _ => ?_⟩
    rw [followed_table]
    exact theirs
  | file id move =>
    simp only [State.step] at step
    obtain ⟨_, step⟩ := Option.ite_none_left_eq_some.mp step
    obtain ⟨live, done⟩ := Option.ite_none_right_eq_some.mp step
    have moved := file_cases done
    exact ⟨file_sound h live moved, fun n theirs _ => file_others h live moved theirs⟩
  | others m =>
    obtain ⟨owner, rfl, theirs, not_ours⟩ := others_step step
    refine ⟨setTable_sound h theirs not_ours, fun n there untouched => ?_⟩
    have other : n ≠ m := by
      rintro rfl
      exact untouched rfl
    exact (if_neg other).trans there

/-- The file has at most one descriptor open, and it is the one in the member, unless Execute is
    between a system call and the assignment: then it has none, or what open has returned. -/
def Kept (s : State) : Prop :=
  Held s.file s.table ∨ ∃ id, reading s.reader id = true ∧
    ((∃ purpose, s.pcs id = .closing purpose) ∧ 0 ≤ s.file ∧ (∀ n, s.table n ≠ some .inputFile) ∨
      ∃ purpose result, s.pcs id = .opened purpose result ∧ s.file = -1 ∧
        ∀ n, s.table n = some .inputFile ↔ result = some n)

theorem sound_kept {s : State} (h : Sound s) : Kept s := by
  by_cases none_alive : ∀ id, reading s.reader id = false
  · exact Or.inl (h.quiet none_alive).1
  · obtain ⟨id, alive⟩ := not_forall.mp none_alive
    have live := eq_true_of_ne_false alive
    have place := h.place id live
    have holding := h.holding id live
    cases pc : s.pcs id with
    | closing purpose =>
      rw [pc] at place holding
      exact Or.inr ⟨id, live, Or.inl ⟨⟨purpose, pc⟩, place, holding⟩⟩
    | opened purpose result =>
      rw [pc] at place holding
      exact Or.inr ⟨id, live, Or.inr ⟨purpose, result, pc, place, holding⟩⟩
    | disconnect | close | openFile | check | loop | finished =>
      rw [pc] at holding
      exact Or.inl holding

/-- A cancellation at the wrong time leaves a number in the member that is not open, or one open
    that is not in the member, and no execution that could put it right. -/
theorem interrupted_lost {s t : State} {id : Nat} (h : Sound s)
    (step : s.step (.pipeline (.execute id .forcedExit)) = some t) (live : reading s.reader id = true)
    (between : midway (s.pcs id) = true) : ¬Kept t := by
  have place := h.place id live
  have holding := h.holding id live
  simp only [State.step] at step
  obtain ⟨_, step⟩ := Option.ite_none_left_eq_some.mp step
  obtain ⟨_, done⟩ := Option.ite_none_right_eq_some.mp step
  obtain ⟨r, goes, rfl⟩ := Option.map_eq_some_iff.mp done
  have only := ends_only (Or.inr rfl) goes
  have none_left : ∀ id', reading r id' = false := by
    intro id'
    by_contra dead
    have live' := eq_true_of_ne_false dead
    obtain ⟨e', found', _, running⟩ := reading_found live'
    rcases was_reading goes live' with before | launched
    · obtain rfl := reading_one h.reader before live
      obtain ⟨e, found, _⟩ := reading_found live
      rw [only, modify_there found, if_pos rfl] at found'
      cases Option.some.inj found'
      cases running
    · rw [only] at found'
      obtain ⟨e, found, _⟩ := modify_executions found'
      cases launched.symm.trans found
  rw [State.followed, if_pos live]
  rintro (held | ⟨id', live', _⟩)
  · cases pc : s.pcs id with
    | closing =>
      rw [pc] at place holding
      have ours := (held s.file.toNat).mpr (Int.toNat_of_nonneg place).symm
      exact holding _ ours
    | opened purpose result =>
      rw [pc] at place holding between
      obtain ⟨n, given⟩ := Option.isSome_iff_exists.mp between
      have number := (held n).mp ((holding n).mpr given)
      have negative : s.file = -1 := place
      have positive : s.file = n := number
      omega
    | disconnect | close | openFile | check | loop | finished =>
      rw [pc] at between
      cases between
  · cases live'.symm.trans (none_left id')

theorem begins_sound {s : State} (begins : Begins s) : Sound s := by
  have unlaunched : ∀ id, reading s.reader id = false := by
    intro id
    rw [begins.reader]
    rfl
  have held : Held s.file s.table := by
    intro n
    rw [begins.file]
    exact iff_of_false (begins.none_ours n) (by omega)
  refine ⟨?_, fun id _ => begins.pcs id, fun _ => begins.file, fun id live => ?_, fun id live => ?_, ?_,
    fun _ => ⟨held, Or.inl begins.file⟩⟩
  · rw [begins.reader]
    exact Quiescence.construct_sound
  · cases live.symm.trans (unlaunched id)
  · cases live.symm.trans (unlaunched id)
  · rw [begins.calls]
    intro call member
    cases member

theorem stopped_sound {s : State} (h : Sound s) (stopped : s.reader.owner = .stopped) :
    Held s.file s.table ∧ (s.abandoned = false → s.file = -1) := by
  have none_alive : ∀ id, reading s.reader id = false := by
    intro id
    by_contra live
    obtain ⟨e, found, stage, running⟩ := reading_found (eq_true_of_ne_false live)
    have knows := h.reader.machine.live id e found running
    have down := h.reader.idle e.stage (by rw [stopped]; trivial)
    cases down.1.symm.trans knows
  obtain ⟨held, shut | forced⟩ := h.quiet none_alive
  · exact ⟨held, fun _ => shut⟩
  · exact ⟨held, fun left => by cases left.symm.trans forced⟩

/-- In every run the member of HidDevFile and the descriptor the file has open stay one exactly as
    long as no execution is cancelled between a call of open or close and the assignment to the
    member. Then the file reads and closes no other descriptor and those of the others are left
    alone, and when HidDevReader has stopped, one is open only if the reading thread had to be
    cancelled. -/
theorem descriptor_kept {s t : State} {moves : List (Move State Action)} (begins : Begins s)
    (path : Path State.step s moves t) :
    ((∀ move ∈ moves, Kept move.after) ↔ ∀ move ∈ moves, interrupts move.before move.action = false) ∧
    ((∀ move ∈ moves, interrupts move.before move.action = false) →
      (∀ call ∈ t.calls, call.owner = some .inputFile) ∧
      (∀ n, s.table n = some .others → (∀ move ∈ moves, move.action ≠ .others n) → t.table n = some .others) ∧
      (t.reader.owner = .stopped → Held t.file t.table ∧ (t.abandoned = false → t.file = -1))) := by
  have start := begins_sound begins
  constructor
  · refine path_iff (fun _ => True) Sound (fun u a => interrupts u a = false) (fun move => Kept move.after)
      (fun _ _ _ _ _ => trivial) ?_ ?_ path trivial start
    · intro u a v _ h step calm
      have sound := (step_sound h step calm).1
      exact ⟨sound_kept sound, sound⟩
    · intro u a v _ h step kept
      by_contra wrong
      have wrong := eq_true_of_ne_false wrong
      unfold interrupts at wrong
      split at wrong
      · obtain ⟨live, between⟩ := Bool.and_eq_true_iff.mp wrong
        exact interrupted_lost h step live between kept
      · cases wrong
  · intro calm
    have h := path_invariant_of Sound (fun u a => interrupts u a = false)
      (fun u a v h calm step => (step_sound h step calm).1) path calm start
    refine ⟨h.calls, fun n theirs untouched => ?_, stopped_sound h⟩
    have both := path_invariant_of (fun u => Sound u ∧ u.table n = some .others)
      (fun u a => interrupts u a = false ∧ a ≠ .others n) ?_ path
      (fun move member => ⟨calm move member, untouched move member⟩) ⟨start, theirs⟩
    · exact both.2
    · rintro u a v ⟨sound, there⟩ ⟨calm, other⟩ step
      have kept := step_sound sound step calm
      exact ⟨kept.1, kept.2 n there other⟩

def before : State :=
  ⟨construct, -1, fun n => if n = 4 then some .others else none, fun _ => .disconnect .start, false, [], false⟩

def openedFive : List Action :=
  [.pipeline .start] ++ List.replicate 9 (.pipeline (.owner .start)) ++
    [.file 0 .isOpen, .file 0 (.openFile (some 5)), .file 0 .assign, .file 0 .isOpen]

def cancelled : List Action :=
  [.pipeline (.execute 1 .shouldContinue), .pipeline (.execute 1 .timedOut),
    .pipeline (.execute 1 (.restart .timeout)), .pipeline (.execute 1 (.restart .cancel)),
    .pipeline (.execute 0 .forcedExit)] ++
    List.replicate 6 (.pipeline (.execute 1 (.restart .task))) ++
    [.pipeline (.execute 1 (.restart .ready))] ++ List.replicate 3 (.pipeline (.execute 1 (.restart .start)))

def cancelledReading : List Action :=
  openedFive ++ [.file 0 .read] ++ cancelled ++
    [.file 3 .isOpen, .file 3 .close, .file 3 .forget, .file 3 (.openFile (some 6)), .file 3 .assign,
      .file 3 .isOpen, .file 3 .read]

/-- It is cancelled when close has been called and 5 is still in the member; somebody else opens a
    file and gets 5, which the next execution closes. -/
def cancelledClosing : List Action :=
  openedFive ++ [.file 0 .reject, .file 0 .isOpen, .file 0 .close] ++ cancelled ++
    [.others 5, .file 3 .isOpen, .file 3 .close]

theorem before_begins : Begins before := by
  refine ⟨rfl, rfl, fun n => ?_, fun _ => rfl, rfl, rfl, rfl⟩
  simp only [before]
  split <;> simp

theorem descriptor_kept_cancelled :
    (∃ moves t, Path State.step before moves t ∧ t.calls.length = 3 ∧ t.file = 6 ∧
      ∀ call ∈ t.calls, call.owner = some .inputFile) ∧
    ∃ moves t, Path State.step before moves t ∧ ⟨5, some .others⟩ ∈ t.calls ∧ ¬∀ move ∈ moves, Kept move.after := by
  have path : Path State.step before _ _ := path_of_record cancelledReading Path.nil rfl
  have path' : Path State.step before _ _ := path_of_record cancelledClosing Path.nil rfl
  obtain ⟨_, safe⟩ := descriptor_kept before_begins path
  obtain ⟨exactly, safe'⟩ := descriptor_kept before_begins path'
  refine ⟨⟨_, _, path, rfl, rfl, (safe (by decide)).1⟩, _, _, path', List.mem_cons_self, fun kept => ?_⟩
  have own := (safe' (exactly.mp kept)).1 ⟨5, some .others⟩ List.mem_cons_self
  cases own

end InputFile
