import GyroDsu.Hiddev.Stopping

/-
CemuhookAdapter on the pipeline of a hidapi device, ReadDataApi and ServeFrame, through any
number of StartFrameGrab and StopFrameGrab. Every piece of a frame carries the number of the
StartFrameGrab it was filled after, or 0.
-/
namespace Restart
open Pipe Serves ServeFrame Stopping Runs

variable {size : Nat} {V : Type}

inductive Place where
  | out
  | startReadData
  | startServeFrame
  | getServe
  | grabbing
  | stopServeFrame
  | stopReadData
  | joinReadData
  deriving DecidableEq, Repr

inductive Reading where
  | off
  | top
  | reading
  | ended
  deriving DecidableEq, Repr

/-- `takes` is the number of frames ServeFrame has received since StartFrameGrab. -/
structure State (size : Nat) (V : Type) where
  pipeline : Stopping.State size (V × Nat)
  place : Place
  readData : Reading
  readStop : Bool
  ignoreFirst : Bool
  session : Nat
  takes : Nat

inductive Action (size : Nat) (V : Type) where
  | startFrameGrab
  | startReadData
  | startServeFrame
  | getServe
  | getConsumeLock (garbage : Bool)
  | releaseConsumeLock
  | stopServe
  | setStop
  | flushPipes
  | join
  | setReadStop
  | joinReadData
  | shouldContinue
  | readPiece (value : V)
  | readShort
  | sendData
  | serveFrame (a : Stopping.Action size (V × Nat))
  | cancelServeFrame
  | cancelReadData

def executes {P : Type} : Stopping.Action size P → Bool
  | .serve .lock | .serve .grow | .serve .locked | .serve .waitForData | .serve (.unlock _)
  | .shouldContinue | .waitForServes | .enter | .leave => true
  | _ => false

def received {P : Type} : Stopping.Action size P → Nat
  | .serve .waitForData => 1
  | _ => 0

def State.piped (s : State size V) (a : Stopping.Action size (V × Nat)) : Option (State size V) :=
  (s.pipeline.step true a).map fun pipeline =>
    { s with
      pipeline := pipeline
      takes := s.takes + received a }

def State.step (s : State size V) : Action size V → Option (State size V)
  | .startFrameGrab =>
    if s.place = .out then
      some { s with
        place := .startReadData
        ignoreFirst := true
        session := s.session + 1
        takes := 0 }
    else none
  | .startReadData =>
    if s.place = .startReadData ∧ s.readData = .off then
      some { s with
        place := .startServeFrame
        readData := .top
        readStop := false }
    else none
  | .startServeFrame =>
    if s.place = .startServeFrame then (s.piped .start).map fun t => { t with place := .getServe } else none
  | .getServe =>
    if s.place = .getServe then (s.piped (.serve .getServe)).map fun t => { t with place := .grabbing }
    else none
  | .getConsumeLock garbage =>
    if s.place = .grabbing then
      (s.piped (.serve (.acquire 0 garbage))).map fun t => { t with ignoreFirst := false }
    else none
  | .releaseConsumeLock => if s.place = .grabbing then s.piped (.serve (.release 0)) else none
  | .stopServe =>
    if s.place = .grabbing ∧ s.pipeline.base.pc = .idle ∧
        ∀ c ∈ s.pipeline.base.frames, c.serve.owner = none then
      some { s with
        pipeline := { s.pipeline with base := { s.pipeline.base with frames := [] } }
        place := .stopServeFrame }
    else none
  | .setStop => if s.place = .stopServeFrame then s.piped .setStop else none
  | .flushPipes => if s.place = .stopServeFrame then s.piped .flushPipes else none
  | .join =>
    if s.place = .stopServeFrame then (s.piped .join).map fun t => { t with place := .stopReadData } else none
  | .setReadStop =>
    if s.place = .stopReadData then some { s with place := .joinReadData, readStop := true } else none
  | .joinReadData =>
    if s.place = .joinReadData ∧ s.readData = .ended then
      some { s with
        place := .out
        readData := .off
        readStop := false }
    else none
  | .shouldContinue =>
    if s.readData = .top then
      if s.readStop then some { s with readData := .ended }
      else (s.piped .beginFill).map fun t => { t with readData := .reading }
    else none
  | .readPiece value => if s.readData = .reading then s.piped (.fillPiece (value, s.session)) else none
  | .readShort =>
    if s.readData = .reading then
      some { s with
        pipeline := { s.pipeline with filling := false }
        readData := .top }
    else none
  | .sendData =>
    if s.readData = .reading then (s.piped .sendData).map fun t => { t with readData := .top } else none
  | .serveFrame a => if executes a then s.piped a else none
  | .cancelServeFrame =>
    if s.place = .stopServeFrame ∧ s.pipeline.stage ≠ .off then
      some { s with
        pipeline := { s.pipeline with
          base := { s.pipeline.base with pc := .idle }
          stage := .ended } }
    else none
  | .cancelReadData =>
    if s.place = .joinReadData ∧ s.readData ≠ .off then
      some { s with
        pipeline := { s.pipeline with filling := false }
        readData := .ended }
    else none

def construct (object : Inst → Fin size → V) (draft : Fin size → V) : State size V where
  pipeline := Stopping.construct (fun i j => (object i j, 0)) fun j => (draft j, 0)
  place := .out
  readData := .off
  readStop := false
  ignoreFirst := false
  session := 0
  takes := 0

def FilledIn (session : Nat) (frame : Frame size (V × Nat)) : Prop := ∀ j, (frame j).2 = session

structure Recent (session takes : Nat) (due : Prop) (seen : List (View (Frame size (V × Nat)))) : Prop where
  length : seen.length ≤ takes
  due : due → seen.length < takes
  recent : ∀ v ∈ seen.dropLast, FilledIn session v.frame

/-- Until a FlushPipes, only the first receive can be of what an earlier session left. -/
structure Session (p : Stopping.State size (V × Nat)) (session takes : Nat) : Prop where
  waiting : p.base.pipe.bufWasSent = true →
    FilledIn session (p.base.pipe.object p.base.pipe.bufSent) ∨ takes = 0
  received : FilledIn session p.base.pipe.received ∨ takes ≤ 1
  filled : p.filling = true → p.bound = p.base.pipe.bufMod ∧
    ∀ j : Fin size, j < p.count → (p.base.pipe.toFill j).2 = session
  consumers : Consumers p.base (Recent session takes)

theorem recent_lenient {session takes : Nat} : Lenient (@Recent size V session takes) :=
  ⟨fun weaker h => ⟨h.length, fun due => h.due (weaker due), h.recent⟩⟩

theorem recent_empty (session takes : Nat) : @Recent size V session takes False [] := by
  refine ⟨Nat.zero_le _, False.elim, fun v member => ?_⟩
  cases member

theorem recent_acquired {p : Stopping.State size (V × Nat)} {session takes : Nat}
    (h : Session p session takes) (seen : List (View (Frame size (V × Nat))))
    (due : Recent session takes True seen) : Recent session takes False (p.base.view :: seen) := by
  have fewer := due.due trivial
  refine ⟨fewer, False.elim, ?_⟩
  cases seen with
  | nil =>
    intro v member
    cases member
  | cons latest older =>
    intro v member
    rcases List.mem_cons.mp member with rfl | before
    · apply h.received.resolve_right
      simp only [List.length_cons] at fewer
      omega
    · exact due.recent v before

theorem recent_taken {session takes : Nat} {seen : List (View (Frame size (V × Nat)))}
    (h : Recent session takes False seen) : Recent session (takes + 1) True seen :=
  ⟨Nat.le_succ_of_le h.length, fun _ => Nat.lt_succ_of_le h.length, h.recent⟩

theorem beginFill_session {p : Stopping.State size (V × Nat)} {session takes : Nat}
    (h : Session p session takes) : Session p.beginFill session takes := by
  constructor
  · exact h.waiting
  · exact h.received
  · intro _
    refine ⟨rfl, fun j before => ?_⟩
    exact absurd before (Nat.not_lt_zero _)
  · exact h.consumers

theorem fillPiece_session {p : Stopping.State size (V × Nat)} {session takes : Nat}
    (h : Session p session takes) (filling : p.filling = true) (value : V) (inside : p.count < size) :
    Session (p.fillPiece (p.target true) (value, session) inside) session takes := by
  obtain ⟨bound, written⟩ := h.filled filling
  have target : p.target true = p.base.pipe.bufMod := bound
  have view := fillPiece_view (value, session) inside (target ▸ p.base.pipe.mod_rcv)
  constructor
  · simp only [Stopping.State.fillPiece, target, write_bufSent, write_bufWasSent,
      write_other _ _ p.base.pipe.mod_sent.symm]
    exact h.waiting
  · have same := congrArg View.frame view
    simp only [State.view] at same
    rw [same]
    exact h.received
  · intro _
    refine ⟨bound, fun j before => ?_⟩
    simp only [Stopping.State.fillPiece, PipeOut.toFill, target, write_bufMod, write_same]
    by_cases last : j = ⟨p.count, inside⟩
    · rw [last, Function.update_self]
    · rw [Function.update_of_ne last]
      apply written
      have differs : j.val ≠ p.count := fun same => last (Fin.ext same)
      simp only [Stopping.State.fillPiece] at before
      omega
  · exact pipe_consumers h.consumers rfl rfl view fun due seen known => known

theorem sendData_session {p : Stopping.State size (V × Nat)} {session takes : Nat}
    (h : Session p session takes) (filling : p.filling = true) (full : p.count = size) :
    Session p.sendData session takes := by
  constructor
  · intro _
    left
    intro j
    apply (h.filled filling).2
    rw [full]
    exact j.isLt
  · exact h.received
  · intro again
    cases again
  · refine pipe_consumers h.consumers rfl rfl ?_ fun due seen known => known
    simp only [Stopping.State.sendData, State.view, sendData_bufRcv, mark_bufRcv, sendData_received]

theorem receive_session {p : Stopping.State size (V × Nat)} {session takes : Nat}
    {base : ServeFrame.State (Frame size (V × Nat))} (h : Session p session takes)
    (step : p.base.step .waitForData = some base) : Session { p with base := base } session (takes + 1) := by
  have consumers : Consumers base (Recent session (takes + 1)) :=
    take_consumers recent_lenient recent_lenient h.consumers (fun seen => recent_taken) step
  cases ServeFrame.step_cases step with
  | waitForData _ sent =>
    constructor
    · intro again
      cases again
    · rcases h.waiting sent with recent | none_yet
      · exact Or.inl recent
      · exact Or.inr (Nat.le_of_eq (congrArg Nat.succ none_yet))
    · exact h.filled
    · exact consumers

theorem beside_session {p q : Stopping.State size (V × Nat)} {session takes : Nat}
    (h : Session p session takes) (pipe : q.base.pipe = p.base.pipe)
    (consumers : Consumers q.base (Recent session takes))
    (filler : (q.filling, q.bound, q.count) = (p.filling, p.bound, p.count)) : Session q session takes := by
  simp only [Prod.mk.injEq] at filler
  obtain ⟨filling, bound, count⟩ := filler
  constructor
  · rw [pipe]
    exact h.waiting
  · rw [pipe]
    exact h.received
  · rw [filling, bound, pipe, count]
    exact h.filled
  · exact consumers

theorem quiet_session {p : Stopping.State size (V × Nat)} {session takes : Nat}
    {a : ServeFrame.Action (Frame size (V × Nat))} {base : ServeFrame.State (Frame size (V × Nat))}
    (h : Session p session takes) (quiet : a.quiet) (step : p.base.step a = some base) (stage : Stage) :
    Session { p with base := base, stage := stage } session takes := by
  have consumers := quiet_consumers recent_lenient (recent_empty session takes) (recent_acquired h)
    h.consumers quiet step
  exact beside_session h (quiet_same quiet step).1 consumers rfl

theorem step_session {p q : Stopping.State size (V × Nat)} {session takes : Nat}
    {a : Stopping.Action size (V × Nat)} (h : Session p session takes) (step : p.step true a = some q)
    (tagged : ∀ value, a = .fillPiece value → value.2 = session) (unflushed : a ≠ .flushPipes) :
    Session q session (takes + received a) := by
  cases step_cases step with
  | beginFill => exact beginFill_session h
  | fillPiece value inside filling =>
    obtain ⟨value, tag⟩ := value
    obtain rfl : tag = session := tagged _ rfl
    exact fillPiece_session h filling value inside
  | sendData filling full => exact sendData_session h filling full
  | serve a base inside moved =>
    have quiet : a.quiet → Session { p with base := base } session takes :=
      fun quiet => quiet_session h quiet moved p.stage
    cases a with
    | fill | sendData => cases inside
    | waitForData => exact receive_session h moved
    | getServe | acquire | release | enter | lock | grow | locked | unlock | leave => exact quiet trivial
  | enter idle => exact beside_session h rfl (enter_consumers recent_lenient h.consumers idle) rfl
  | leave base moved =>
    have quiet : ServeFrame.Action.quiet (T := Frame size (V × Nat)) .leave := trivial
    exact quiet_session h quiet moved .top
  | flushPipes => exact absurd rfl unflushed
  | aside a quiet =>
    have none_received : received a = 0 := by
      cases a with
      | serve => cases quiet
      | _ => rfl
    rw [none_received]
    exact beside_session h rfl h.consumers rfl

end Restart
