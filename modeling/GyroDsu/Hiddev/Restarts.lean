import GyroDsu.Pipeline.Thread

/-
The pipeline of a hiddev file: ReadDataFile, ProcessData and ServeFrame. HidDevReader starts
and stops all three under its mutex; ProcessData stops and starts the reading thread by
itself whenever its data is late.
-/
namespace Restarts
open PipelineThread

inductive Stage where
  | readData
  | processData
  | serveFrame
  deriving DecidableEq, Repr

def Stage.place : Stage → Nat
  | .readData => 0
  | .processData => 1
  | .serveFrame => 2

/-- Where Execute is. ReadDataFile and ServeFrame only have their loop; ProcessData waits
    for data in it, and restarts the reading thread when the wait has timed out. -/
inductive Pc where
  | loop
  | waitForData
  | received
  | restart (op : Op)
  | leaving
  deriving DecidableEq, Repr

abbrev Pipeline := Machine Stage Pc

/-- What HidDevReader is doing. `launched` are the stages a Start has created an execution
    for, in order. -/
inductive Owner where
  | stopped
  | starting (stage : Stage) (op : Op) (launched : List Stage)
  | started (launched : List Stage)
  | stopping (stage : Stage) (op : Op)
  deriving DecidableEq, Repr

structure State where
  pipeline : Pipeline
  owner : Owner

inductive ExecuteMove where
  | shouldContinue
  | timedOut
  | dataReceived
  | restart (move : OpMove)
  | leave
  | forcedExit
  deriving DecidableEq, Repr

inductive Action where
  | start
  | stop
  | owner (move : OpMove)
  | execute (id : Nat) (move : ExecuteMove)
  deriving DecidableEq, Repr

def nextStart (launched : List Stage) : Stage → Owner
  | .readData => .starting .processData (.start .check) launched
  | .processData => .starting .serveFrame (.start .check) launched
  | .serveFrame => .started launched

def nextStop : Stage → Owner
  | .serveFrame => .stopping .processData tryStopThenKill
  | .processData => .stopping .readData tryStopThenKill
  | .readData => .stopped

def launch (launched : List Stage) (stage : Stage) (op : Op) : List Stage :=
  if op = .start .create then launched ++ [stage] else launched

def State.ownerStep (s : State) (move : OpMove) : Option State :=
  match s.owner with
  | .starting stage op launched =>
    (s.pipeline.opStep stage .loop op move).map fun (pipeline, op') =>
      match op' with
      | some op' => ⟨pipeline, .starting stage op' launched⟩
      | none => ⟨pipeline, nextStart (launch launched stage op) stage⟩
  | .stopping stage op =>
    (s.pipeline.opStep stage .loop op move).map fun (pipeline, op') =>
      match op' with
      | some op' => ⟨pipeline, .stopping stage op'⟩
      | none => ⟨pipeline, nextStop stage⟩
  | _ => none

def afterRestart : Op → Option Op → Pc
  | _, some op => .restart op
  | .stop _ _, none => .restart (.start .check)
  | .start _, none => .loop

def goTo (pc : Pc) (e : Execution Stage Pc) : Execution Stage Pc := { e with pc := pc }

def finish (e : Execution Stage Pc) : Execution Stage Pc := { e with ended := true }

/-- A forced exit leaves through the destructor of the future, which waits for the task. -/
def mayUnwind : Pc → Bool
  | .restart (.stop _ task) => task = .done
  | _ => true

def executeStep (p : Pipeline) (id : Nat) (e : Execution Stage Pc) : ExecuteMove → Option Pipeline
  | .shouldContinue =>
    match e.pc with
    | .loop =>
      let inside := if e.stage = .processData then .waitForData else .loop
      some (p.modify id (goTo (if (p.thread e.stage).stop then .leaving else inside)))
    | .received => some (p.modify id (goTo (if (p.thread e.stage).stop then .leaving else .loop)))
    | _ => none
  | .timedOut => if e.pc = .waitForData then some (p.modify id (goTo (.restart tryStopThenKill))) else none
  | .dataReceived => if e.pc = .waitForData then some (p.modify id (goTo .received)) else none
  | .restart move =>
    match e.pc with
    | .restart op =>
      (p.opStep .readData .loop op move).map fun (p, op') => p.modify id (goTo (afterRestart op op'))
    | _ => none
  | .leave => if e.pc = .leaving then some (p.modify id finish) else none
  | .forcedExit => if e.cancelled ∧ mayUnwind e.pc then some (p.modify id finish) else none

def State.step (s : State) : Action → Option State
  | .start =>
    match s.owner with
    | .stopped => some { s with owner := .starting .readData (.start .check) [] }
    | _ => none
  | .stop =>
    match s.owner with
    | .stopped | .started _ => some { s with owner := .stopping .serveFrame tryStopThenKill }
    | _ => none
  | .owner move => s.ownerStep move
  | .execute id move =>
    match s.pipeline.executions[id]? with
    | none => none
    | some e =>
      if e.ended then none
      else (executeStep s.pipeline id e move).map fun pipeline => { s with pipeline := pipeline }

def construct : State := ⟨⟨fun _ => ⟨none, 0, false⟩, []⟩, .stopped⟩

def Owner.op : Owner → Option (Stage × Op)
  | .starting stage op _ | .stopping stage op => some (stage, op)
  | .stopped | .started _ => none

def Owner.idle : Owner → Stage → Prop
  | .stopped, _ => True
  | .starting stage _ _, i | .stopping stage _, i => stage.place < i.place
  | .started _, _ => False

def Owner.launched : Owner → List Stage
  | .starting _ _ launched | .started launched => launched
  | .stopped | .stopping _ _ => []

def Owner.inOrder : Owner → Prop
  | .starting .readData (.start _) launched => launched = []
  | .starting .processData (.start _) launched => launched = [.readData]
  | .starting .serveFrame (.start _) launched => launched = [.readData, .processData]
  | .starting _ (.stop _ _) _ => False
  | .started launched => launched = [.readData, .processData, .serveFrame]
  | .stopping _ (.start _) => False
  | .stopped | .stopping _ (.stop _ _) => True

end Restarts
