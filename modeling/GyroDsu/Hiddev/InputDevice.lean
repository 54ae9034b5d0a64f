import GyroDsu.Pipeline.Thread
import GyroDsu.Hiddev.HidApiDev

/-
Execute of ReadDataApi, with its HidApiDev as a local: started, stopped and cancelled by
HidDevReader. A cancelled execution leaves through the destructor of the device, wherever it
is. The signal NoGyro and what becomes of the data are left to the other parts.
-/
namespace InputDevice
open PipelineThread HidApiDev Runs

/-- Where Execute is while its device is constructed; `closing` is inside Close. -/
inductive Place where
  | openDev
  | loop
  | again
  | noGyro
  | enableGyro
  | read
  | closeDev
  | closing
  | destroy
  deriving DecidableEq, Repr

inductive Pc where
  | construct
  | inside (i : Nat) (place : Place)
  | done
  deriving DecidableEq, Repr

inductive Owner where
  | stopped
  | starting (op : Op)
  | started
  | stopping (op : Op)
  deriving DecidableEq, Repr

/-- `terminated`: an exception has left the thread. `interrupted` is history: an execution has been
    cancelled inside Close, between the call of hid_close and the clearing of dev. -/
structure State where
  machine : Machine Unit Pc
  owner : Owner
  hid : HidApiDev.State
  terminated : Bool
  interrupted : Bool

inductive ExecuteMove where
  | construct (done : Bool)
  | openDev (infos : List Info)
  | shouldContinue
  | tryNoGyro (signalled : Bool)
  | enableGyro
  | read (reads : Nat)
  | hidClose
  | forget
  | destroy
  | leave
  | forcedExit

inductive Action where
  | start
  | stop
  | owner (move : OpMove)
  | execute (id : Nat) (move : ExecuteMove)

def goTo (pc : Pc) (e : Execution Unit Pc) : Execution Unit Pc := { e with pc := pc }

def finish (e : Execution Unit Pc) : Execution Unit Pc := { e with ended := true }

def State.moved (s : State) (id : Nat) (pc : Pc) (hid : HidApiDev.State) : State :=
  { s with machine := s.machine.modify id (goTo pc), hid := hid }

def State.finished (s : State) (id : Nat) (hid : HidApiDev.State) : State :=
  { s with machine := s.machine.modify id finish, hid := hid }

def State.ownerStep (s : State) (move : OpMove) : Option State :=
  match s.owner with
  | .starting op =>
    (s.machine.opStep () .construct op move).map fun (machine, op') =>
      { s with machine := machine, owner := op'.elim .started .starting }
  | .stopping op =>
    (s.machine.opStep () .construct op move).map fun (machine, op') =>
      { s with machine := machine, owner := op'.elim .stopped .stopping }
  | _ => none

-- Which device ReadDataApi has been constructed for.
variable (vId pId : UInt16) (interfaceNumber : Int)

def State.insideStep (s : State) (id i : Nat) (d : Device) : Place → ExecuteMove → Option State
  | .openDev, .openDev infos =>
    if (s.hid.shut i d).fresh infos then
      match s.hid.openDevice i d infos with
      | (hid, true) => some (s.moved id (.inside i .loop) hid)
      | (hid, false) => some { s with hid := hid, terminated := true }
    else none
  | .loop, .shouldContinue =>
    some (s.moved id (.inside i (if (s.machine.thread ()).stop then .closeDev else .again)) s.hid)
  | .again, .shouldContinue =>
    some (s.moved id (.inside i (if (s.machine.thread ()).stop then .closeDev else .noGyro)) s.hid)
  | .noGyro, .tryNoGyro signalled =>
    some (s.moved id (.inside i (if signalled then .enableGyro else .read)) s.hid)
  | .enableGyro, .enableGyro => some (s.moved id (.inside i .loop) (s.hid.enableGyro d))
  | .read, .read reads => some (s.moved id (.inside i .loop) (s.hid.read d reads))
  | .closeDev, .hidClose => some (s.moved id (.inside i .closing) (s.hid.hidClose i d))
  | .closing, .forget => some (s.moved id (.inside i .destroy) (s.hid.forget i d))
  | .destroy, .destroy => some (s.moved id .done (s.hid.destroy i d))
  | _, _ => none

def State.executeStep (s : State) (id : Nat) (e : Execution Unit Pc) : ExecuteMove → Option State
  | .construct done =>
    if e.pc = .construct then
      match s.hid.construct vId pId interfaceNumber done with
      | (hid, true) => some (s.moved id (.inside s.hid.devices.length .openDev) hid)
      | (hid, false) => some { s with hid := hid, terminated := true }
    else none
  | .leave => if e.pc = .done then some (s.finished id s.hid) else none
  | .forcedExit =>
    if e.cancelled then
      match e.pc with
      | .inside i place =>
        (s.hid.device i).map fun d =>
          { s.finished id (s.hid.destroy i d) with interrupted := s.interrupted || place = .closing }
      | _ => some (s.finished id s.hid)
    else none
  | move =>
    match e.pc with
    | .inside i place => (s.hid.device i).bind fun d => s.insideStep id i d place move
    | _ => none

def State.step (s : State) (a : Action) : Option State :=
  if s.terminated then none
  else match a with
    | .start => if s.owner = .stopped then some { s with owner := .starting (.start .check) } else none
    | .stop =>
      if s.owner = .stopped ∨ s.owner = .started then some { s with owner := .stopping tryStopThenKill } else none
    | .owner move => s.ownerStep move
    | .execute id move =>
      (s.machine.executions[id]?).bind fun e =>
        if e.ended then none else s.executeStep vId pId interfaceNumber id e move

def begin : State := ⟨⟨fun _ => ⟨none, 0, false⟩, []⟩, .stopped, HidApiDev.begin, false, false⟩

def Settled (m : Machine Unit Pc) : Owner → Prop
  | .stopped => m.down ()
  | .starting (.start starting) => Fits m () (.start starting)
  | .starting (.stop _ _) => False
  | .started => (m.thread ()).stop = false
  | .stopping (.stop caller task) => Fits m () (.stop caller task)
  | .stopping (.start _) => False

def Fitting (d : Device) : Place → Prop
  | .openDev | .destroy => d.dev = none ∧ d.closing = false
  | .closing => d.dev.isSome = true ∧ d.closing = true
  | _ => d.dev.isSome = true ∧ d.closing = false

def At (hid : HidApiDev.State) : Pc → Prop
  | .inside i place => ∃ d, hid.device i = some d ∧ Fitting d place
  | _ => True

/-- Objects are found in the scope of an execution that is running, and nowhere else. -/
structure Sound (s : State) : Prop where
  machine : PipelineThread.Sound s.machine
  owner : Settled s.machine s.owner
  hid : HidApiDev.Sound s.hid
  inside : ∀ (id : Nat) e, s.machine.executions[id]? = some e → e.ended = false → At s.hid e.pc
  alive : ∀ i d, s.hid.device i = some d → ∃ (id : Nat) (e : Execution Unit Pc),
    s.machine.executions[id]? = some e ∧ e.ended = false ∧ ∃ place, e.pc = .inside i place
  lawful : Lawful s.hid.calls ↔ s.interrupted = false

variable {s t : State} {id : Nat} {e : Execution Unit Pc} {hid : HidApiDev.State} {vId pId interfaceNumber}

theorem settled_elsewhere {m m' : Machine Unit Pc} {owner : Owner} (settled : Settled m owner)
    (same : m'.thread () = m.thread ()) (ended : ∀ id, m.ended id = true → m'.ended id = true) :
    Settled m' owner := by
  cases owner with
  | stopped =>
    rw [Settled, Machine.down, same]
    exact settled
  | started =>
    rw [Settled, same]
    exact settled
  | starting op =>
    cases op with
    | start starting => exact @fits_elsewhere _ _ m m' () (.start starting) same ended settled
    | stop => exact settled
  | stopping op =>
    cases op with
    | stop caller task => exact @fits_elsewhere _ _ m m' () (.stop caller task) same ended settled
    | start => exact settled

/-- While an execution is running, every object there is belongs to it. -/
theorem alive_inside (h : Sound s) (found : s.machine.executions[id]? = some e) (running : e.ended = false)
    {i : Nat} {d : Device} (there : s.hid.device i = some d) : ∃ place, e.pc = .inside i place := by
  obtain ⟨id', e', found', running', inside⟩ := h.alive i d there
  obtain rfl := running_once h.machine found found' running running' rfl
  obtain rfl := Option.some.inj (found.symm.trans found')
  exact inside

theorem alone_sound (machine : PipelineThread.Sound s.machine) (owner : Settled s.machine s.owner)
    (hid : HidApiDev.Sound s.hid) (found : s.machine.executions[id]? = some e) (running : e.ended = false)
    (here : At s.hid e.pc) (owned : ∀ j d, s.hid.device j = some d → ∃ place, e.pc = .inside j place)
    (lawful : Lawful s.hid.calls ↔ s.interrupted = false) : Sound s := by
  refine ⟨machine, owner, hid, fun id' e' found' running' => ?_, fun j d there => ?_, lawful⟩
  · obtain rfl := running_once machine found found' running running' rfl
    obtain rfl := Option.some.inj (found.symm.trans found')
    exact here
  · exact ⟨id, e, found, running, owned j d there⟩

theorem moved_sound (h : Sound s) (found : s.machine.executions[id]? = some e) (running : e.ended = false)
    {pc : Pc} (sound : HidApiDev.Sound hid) (here : At hid pc)
    (owned : ∀ j d, hid.device j = some d → ∃ place, pc = .inside j place)
    (lawful : Lawful hid.calls ↔ s.interrupted = false) : Sound (s.moved id pc hid) := by
  have there : (s.machine.modify id (goTo pc)).executions[id]? = some (goTo pc e) := by
    rw [modify_there found, if_pos rfl]
  refine @alone_sound (s.moved id pc hid) id (goTo pc e) ?_ ?_ sound there running here owned lawful
  · exact modify_sound h.machine id (fun _ => rfl) fun _ still => still
  · exact settled_elsewhere h.owner rfl fun _ => modify_ended fun _ still => still

theorem leaves_only {i : Nat} {place : Place} {d : Option Device} (h : Sound s)
    (found : s.machine.executions[id]? = some e) (running : e.ended = false) (pc : e.pc = .inside i place)
    (leaves : Leaves s.hid hid i d) {j : Nat} {d' : Device} (there : hid.device j = some d') : j = i := by
  by_contra other
  obtain ⟨_, inside⟩ := alive_inside h found running ((leaves.others j other).symm.trans there)
  cases pc.symm.trans inside
  exact other rfl

theorem leaves_nobody {i : Nat} {place : Place} (h : Sound s)
    (found : s.machine.executions[id]? = some e) (running : e.ended = false) (pc : e.pc = .inside i place)
    (leaves : Leaves s.hid hid i none) (j : Nat) : hid.device j = none := by
  cases there : hid.device j with
  | none => rfl
  | some d =>
    obtain rfl := leaves_only h found running pc leaves there
    exact there.symm.trans leaves.here

theorem lawful_kept (h : Sound s) (past : Lawful hid.calls → Lawful s.hid.calls)
    (goes_on : Lawful s.hid.calls → Lawful hid.calls) : Lawful hid.calls ↔ s.interrupted = false :=
  ⟨fun lawful => h.lawful.mp (past lawful), fun calm => goes_on (h.lawful.mpr calm)⟩

theorem inside_sound {i : Nat} {place place' : Place} {d' : Device} (h : Sound s)
    (found : s.machine.executions[id]? = some e) (running : e.ended = false) (pc : e.pc = .inside i place)
    (leaves : Leaves s.hid hid i (some d')) (fitting : Fitting d' place')
    (goes_on : Lawful s.hid.calls → Lawful hid.calls) : Sound (s.moved id (.inside i place') hid) :=
  moved_sound h found running leaves.sound ⟨d', leaves.here, fitting⟩
    (fun _ _ there => ⟨place', by rw [leaves_only h found running pc leaves there]⟩)
    (lawful_kept h leaves.past goes_on)

theorem inside_device {i : Nat} {place : Place} {d : Device} (h : Sound s)
    (found : s.machine.executions[id]? = some e) (running : e.ended = false) (pc : e.pc = .inside i place)
    (here : s.hid.device i = some d) : Fitting d place := by
  have inside := h.inside id e found running
  rw [pc] at inside
  obtain ⟨d', there, fitting⟩ := inside
  obtain rfl := Option.some.inj (here.symm.trans there)
  exact fitting

theorem same_leaves {i : Nat} {d : Device} (h : Sound s) (here : s.hid.device i = some d) :
    Leaves s.hid s.hid i (some d) := ⟨h.hid, here, fun _ _ => rfl, fun lawful => lawful⟩

theorem insideStep_sound {i : Nat} {place : Place} {d : Device} {move : ExecuteMove} (h : Sound s)
    (found : s.machine.executions[id]? = some e) (running : e.ended = false) (pc : e.pc = .inside i place)
    (here : s.hid.device i = some d) (step : s.insideStep id i d place move = some t) : Sound t := by
  have fitting := inside_device h found running pc here
  cases place <;> cases move <;> simp only [State.insideStep, reduceCtorEq] at step
  case openDev.openDev infos =>
    obtain ⟨fresh, opens⟩ := Option.ite_none_right_eq_some.mp step
    obtain ⟨d', leaves, calm, found'⟩ := openDevice_leaves h.hid here fitting.2 fresh
    have goes_on := openDevice_lawful h.hid here fitting.2 fresh
    rcases opened : s.hid.openDevice i d infos with ⟨hid, done⟩
    simp only [opened] at opens leaves found' goes_on
    cases done with
    | true =>
      obtain rfl := Option.some.inj opens
      exact inside_sound h found running pc leaves ⟨found', calm⟩ goes_on
    | false =>
      obtain rfl := Option.some.inj opens
      have lawful := lawful_kept h leaves.past goes_on
      refine @alone_sound { s with hid := hid, terminated := true } id e h.machine h.owner leaves.sound found running
        ?_ (fun j d there => ?_) lawful
      · rw [pc]
        exact ⟨d', leaves.here, Option.not_isSome_iff_eq_none.mp (by simp [found']), calm⟩
      · rw [leaves_only h found running pc leaves there]
        exact ⟨_, pc⟩
  case loop.shouldContinue | again.shouldContinue =>
    obtain rfl := Option.some.inj step
    refine inside_sound h found running pc (same_leaves h here) ?_ fun lawful => lawful
    split <;> exact fitting
  case noGyro.tryNoGyro signalled =>
    obtain rfl := Option.some.inj step
    refine inside_sound h found running pc (same_leaves h here) ?_ fun lawful => lawful
    split <;> exact fitting
  case enableGyro.enableGyro =>
    obtain rfl := Option.some.inj step
    exact inside_sound h found running pc (write_leaves h.hid here _) fitting (write_lawful h.hid here fitting.2 _)
  case read.read reads =>
    obtain rfl := Option.some.inj step
    exact inside_sound h found running pc (read_leaves h.hid here reads) fitting
      (read_lawful h.hid here fitting.2 reads)
  case closeDev.hidClose =>
    obtain rfl := Option.some.inj step
    refine inside_sound h found running pc (hidClose_leaves h.hid here (closable_calm fitting.2)) ⟨fitting.1, ?_⟩
      (hidClose_lawful h.hid here fitting.2)
    simp [fitting.1]
  case closing.forget =>
    obtain rfl := Option.some.inj step
    exact inside_sound h found running pc (forget_leaves h.hid here (Or.inr fitting.2)) ⟨rfl, rfl⟩ fun lawful => lawful
  case destroy.destroy =>
    obtain rfl := Option.some.inj step
    have leaves := destroy_leaves h.hid here (closable_calm fitting.2)
    refine moved_sound h found running leaves.sound trivial (fun j d' there => ?_)
      (lawful_kept h leaves.past (destroy_lawful h.hid here fitting.2))
    cases (leaves_nobody h found running pc leaves j).symm.trans there

theorem finished_sound {interrupted : Bool} (h : Sound s) (found : s.machine.executions[id]? = some e)
    (running : e.ended = false) (sound : HidApiDev.Sound hid) (nobody : ∀ j, hid.device j = none)
    (lawful : Lawful hid.calls ↔ interrupted = false) :
    Sound { s.finished id hid with interrupted := interrupted } := by
  refine ⟨?_, ?_, sound, fun id' e' found' running' => ?_, fun j d there => ?_, lawful⟩
  · exact modify_sound h.machine id (fun _ => rfl) fun _ still => by cases still
  · exact settled_elsewhere h.owner rfl fun _ => modify_ended fun _ still => by cases still
  · obtain ⟨e₀, there, rfl⟩ := modify_executions found'
    split at running'
    · cases running'
    · rename_i other
      exact absurd (running_once h.machine found there running running' rfl) other
  · cases (nobody j).symm.trans there

theorem outside_nobody (h : Sound s) (found : s.machine.executions[id]? = some e) (running : e.ended = false)
    (outside : ∀ i place, e.pc ≠ .inside i place) (j : Nat) : s.hid.device j = none := by
  cases there : s.hid.device j with
  | none => rfl
  | some d =>
    obtain ⟨place, inside⟩ := alive_inside h found running there
    exact absurd inside (outside j place)

theorem construct_stage_sound {done : Bool} (h : Sound s) (found : s.machine.executions[id]? = some e)
    (running : e.ended = false)
    (step : s.executeStep vId pId interfaceNumber id e (.construct done) = some t) : Sound t := by
  obtain ⟨pc, constructs⟩ := Option.ite_none_right_eq_some.mp step
  have nobody := outside_nobody h found running (by simp [pc])
  have sound := construct_sound h.hid vId pId interfaceNumber done
  have lawful : Lawful (s.hid.construct vId pId interfaceNumber done).1.calls ↔ s.interrupted = false :=
    lawful_kept h construct_past (construct_lawful h.hid vId pId interfaceNumber done)
  have devices := construct_device s.hid vId pId interfaceNumber done
  rcases constructed : s.hid.construct vId pId interfaceNumber done with ⟨hid, built⟩
  simp only [constructed] at constructs sound lawful devices
  rcases devices with ⟨rfl, new, only⟩ | ⟨rfl, same⟩
  · obtain rfl := Option.some.inj constructs
    refine moved_sound h found running sound ⟨_, new, rfl, rfl⟩ (fun j d there => ⟨.openDev, ?_⟩) lawful
    rcases only j d there with old | rfl
    · cases (nobody j).symm.trans old
    · rfl
  · obtain rfl := Option.some.inj constructs
    refine @alone_sound { s with hid := hid, terminated := true } id e h.machine h.owner sound found running ?_
      (fun j d there => ?_) lawful
    · rw [pc]
      trivial
    · cases (nobody j).symm.trans ((congrFun same j).symm.trans there)

/-- Cancelled, an execution destroys its device; inside Close that calls hid_close once more. -/
theorem forcedExit_sound (h : Sound s) (found : s.machine.executions[id]? = some e) (running : e.ended = false)
    (step : s.executeStep vId pId interfaceNumber id e .forcedExit = some t) : Sound t := by
  obtain ⟨_, exits⟩ := Option.ite_none_right_eq_some.mp step
  have outside : (∀ i place, e.pc ≠ .inside i place) → t = s.finished id s.hid → Sound t := by
    rintro outside rfl
    exact @finished_sound _ _ _ _ s.interrupted h found running h.hid (outside_nobody h found running outside) h.lawful
  cases pc : e.pc with
  | construct | done =>
    simp only [pc, Option.some.injEq] at exits
    exact outside (by simp [pc]) exits.symm
  | inside i place =>
    simp only [pc] at exits
    obtain ⟨d, here, rfl⟩ := Option.map_eq_some_iff.mp exits
    have fitting := inside_device h found running pc here
    by_cases closing : place = .closing
    · subst closing
      obtain ⟨dev, has⟩ := Option.isSome_iff_exists.mp fitting.1
      have closed : ∀ dev, dev ∉ s.hid.library.opened := by
        intro dev is_open
        obtain ⟨j, d', there, holds⟩ := (h.hid.owned dev).mp is_open
        obtain ⟨place, inside⟩ := alive_inside h found running there
        cases pc.symm.trans inside
        obtain rfl := Option.some.inj (here.symm.trans there)
        exact not_holds (Or.inr fitting.2) dev holds
      have leaves := destroy_leaves h.hid here fun _ dev _ => closed dev
      refine finished_sound h found running leaves.sound (leaves_nobody h found running pc leaves) ?_
      simp [destroy_unlawful has (closed dev)]
    · have calm : d.closing = false := by
        cases place <;> first | exact fitting.2 | exact absurd rfl closing
      have leaves := destroy_leaves h.hid here (closable_calm calm)
      refine finished_sound h found running leaves.sound (leaves_nobody h found running pc leaves) ?_
      rw [decide_eq_false closing, Bool.or_false]
      exact lawful_kept h leaves.past (destroy_lawful h.hid here calm)

theorem execute_sound {move : ExecuteMove} (h : Sound s) (found : s.machine.executions[id]? = some e)
    (running : e.ended = false) (step : s.executeStep vId pId interfaceNumber id e move = some t) : Sound t := by
  have within : ∀ {move}, (match e.pc with
      | .inside i place => (s.hid.device i).bind fun d => s.insideStep id i d place move
      | _ => none) = some t → Sound t := by
    intro move goes
    cases pc : e.pc with
    | construct | done => simp [pc] at goes
    | inside i place =>
      simp only [pc] at goes
      obtain ⟨d, here, moves⟩ := Option.bind_eq_some_iff.mp goes
      exact insideStep_sound h found running pc here moves
  cases move with
  | construct done => exact construct_stage_sound h found running step
  | leave =>
    obtain ⟨pc, done⟩ := Option.ite_none_right_eq_some.mp step
    obtain rfl := Option.some.inj done
    exact @finished_sound _ _ _ _ s.interrupted h found running h.hid
      (outside_nobody h found running (by simp [pc])) h.lawful
  | forcedExit => exact forcedExit_sound h found running step
  | openDev | shouldContinue | tryNoGyro | enableGyro | read | hidClose | forget | destroy => exact within step

theorem op_kept {m : Machine Unit Pc} {op : Op} {op' : Option Op} {move : OpMove} {owner : Owner} (h : Sound s)
    (fits : Fits s.machine () op) (step : OpStep s.machine () .construct op move m op') (settled : Settled m owner) :
    Sound { s with machine := m, owner := owner } := by
  have works := op_works step
  refine ⟨op_sound h.machine fits step, settled, h.hid, fun id e found running => ?_, fun i d there => ?_, h.lawful⟩
  · by_cases new : e.pc = .construct
    · rw [new]
      trivial
    · obtain ⟨e₀, found₀, _, pc, ended⟩ := works_back works found new
      rw [pc]
      exact h.inside id e₀ found₀ (ended.symm.trans running)
  · obtain ⟨id, e, found, running, place, inside⟩ := h.alive i d there
    obtain ⟨e', found', _, pc, ended⟩ := works.kept id e found
    exact ⟨id, e', found', ended.trans running, place, pc.trans inside⟩

theorem ownerStep_sound {move : OpMove} (h : Sound s) (step : s.ownerStep move = some t) : Sound t := by
  have settled := h.owner
  cases owner : s.owner with
  | stopped | started => simp [State.ownerStep, owner] at step
  | starting op =>
    simp only [State.ownerStep, owner] at step
    obtain ⟨⟨m, op'⟩, works, rfl⟩ := Option.map_eq_some_iff.mp step
    have moved := op_cases works
    rw [owner] at settled
    cases op with
    | stop => cases settled
    | start starting =>
      have fits : Fits s.machine () (.start starting) := settled
      refine op_kept h fits moved ?_
      cases op' with
      | none => exact (start_over fits moved).2
      | some next =>
        have after := op_fits fits moved
        cases moved <;> exact after
  | stopping op =>
    simp only [State.ownerStep, owner] at step
    obtain ⟨⟨m, op'⟩, works, rfl⟩ := Option.map_eq_some_iff.mp step
    have moved := op_cases works
    rw [owner] at settled
    cases op with
    | start => cases settled
    | stop caller task =>
      have fits : Fits s.machine () (.stop caller task) := settled
      refine op_kept h fits moved ?_
      cases op' with
      | none => exact stop_over fits moved
      | some next =>
        have after := op_fits fits moved
        cases moved <;> exact after

theorem step_sound {a : Action} (h : Sound s) (step : s.step vId pId interfaceNumber a = some t) : Sound t := by
  obtain ⟨_, step⟩ := Option.ite_none_left_eq_some.mp step
  have settled := h.owner
  cases a with
  | start =>
    obtain ⟨stopped, done⟩ := Option.ite_none_right_eq_some.mp step
    obtain rfl := Option.some.inj done
    rw [stopped] at settled
    exact ⟨h.machine, settled, h.hid, h.inside, h.alive, h.lawful⟩
  | stop =>
    obtain ⟨free, done⟩ := Option.ite_none_right_eq_some.mp step
    obtain rfl := Option.some.inj done
    have unset : (s.machine.thread ()).stop = false := by
      rcases free with owner | owner
      · rw [owner] at settled
        exact settled.2
      · rw [owner] at settled
        exact settled
    exact ⟨h.machine, unset, h.hid, h.inside, h.alive, h.lawful⟩
  | owner move => exact ownerStep_sound h step
  | execute id move =>
    obtain ⟨e, found, goes⟩ := Option.bind_eq_some_iff.mp step
    obtain ⟨running, executes⟩ := Option.ite_none_left_eq_some.mp goes
    exact execute_sound h found (eq_false_of_ne_true running) executes

theorem begin_sound : Sound begin := by
  refine ⟨⟨fun id e found => ?_, fun i id set => ?_⟩, ⟨rfl, rfl⟩, HidApiDev.begin_sound, fun id e found => ?_,
    fun i d there => ?_, iff_of_true trivial rfl⟩
  · cases found
  · cases set
  · cases found
  · cases there

def opening (id dev : Nat) : List Action :=
  .start :: List.replicate 3 (.owner .start) ++
    [.execute id (.construct true), .execute id (.openDev [⟨2, some dev⟩])]

def cancelledReading : List Action :=
  opening 0 7 ++
    [.execute 0 .shouldContinue, .execute 0 .shouldContinue, .execute 0 (.tryNoGyro false), .stop,
      .owner .task, .owner .task, .owner .task, .owner .timeout, .owner .cancel, .execute 0 .forcedExit] ++
    List.replicate 3 (.owner .task) ++ [.owner .ready] ++
    opening 1 8 ++
    [.execute 1 .shouldContinue, .execute 1 .shouldContinue, .execute 1 (.tryNoGyro true), .execute 1 .enableGyro,
      .execute 1 .shouldContinue, .execute 1 .shouldContinue, .execute 1 (.tryNoGyro false), .execute 1 (.read 3),
      .stop, .owner .task, .owner .task, .owner .task, .execute 1 .shouldContinue, .execute 1 .hidClose,
      .execute 1 .forget, .execute 1 .destroy, .execute 1 .leave] ++
    List.replicate 3 (.owner .task) ++ [.owner .ready]

def cancelledClosing : List Action :=
  opening 0 7 ++
    [.stop, .owner .task, .owner .task, .owner .task, .execute 0 .shouldContinue, .execute 0 .hidClose,
      .owner .timeout, .owner .cancel, .execute 0 .forcedExit] ++
    List.replicate 3 (.owner .task) ++ [.owner .ready]

end InputDevice
