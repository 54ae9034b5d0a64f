/-
PipeOut: three instances of T between a stage that fills one and the next stage that
reads one. Every method that swaps is one section under bufSentMutex.
-/
namespace Pipe
variable {T : Type}

inductive Inst where
  | inst1
  | inst2
  | inst3
  deriving DecidableEq, Repr

/-- Each buffer owns its instance, so no two of them are the same. -/
structure PipeOut (T : Type) where
  object : Inst → T
  bufMod : Inst
  bufSent : Inst
  bufRcv : Inst
  bufWasSent : Bool
  mod_sent : bufMod ≠ bufSent
  mod_rcv : bufMod ≠ bufRcv
  sent_rcv : bufSent ≠ bufRcv

def construct (object : Inst → T) : PipeOut T :=
  ⟨object, .inst1, .inst2, .inst3, false, by decide, by decide, by decide⟩

def PipeOut.toFill (p : PipeOut T) : T := p.object p.bufMod
def PipeOut.received (p : PipeOut T) : T := p.object p.bufRcv

def PipeOut.write (p : PipeOut T) (inst : Inst) (value : T) : PipeOut T :=
  { p with object := fun i => if i = inst then value else p.object i }

def PipeOut.sendData (p : PipeOut T) : PipeOut T where
  object := p.object
  bufMod := p.bufSent
  bufSent := p.bufMod
  bufRcv := p.bufRcv
  bufWasSent := true
  mod_sent := p.mod_sent.symm
  mod_rcv := p.sent_rcv
  sent_rcv := p.mod_rcv

def PipeOut.wasReceived (p : PipeOut T) : Bool := !p.bufWasSent

def PipeOut.take (p : PipeOut T) : PipeOut T where
  object := p.object
  bufMod := p.bufMod
  bufSent := p.bufRcv
  bufRcv := p.bufSent
  bufWasSent := false
  mod_sent := p.mod_rcv
  mod_rcv := p.mod_sent
  sent_rcv := p.sent_rcv.symm

/-- No successor while the wait goes on. -/
def PipeOut.waitForData (p : PipeOut T) : Option (PipeOut T) :=
  if p.bufWasSent then some p.take else none

/-- The answer and the pipe afterwards. WaitForData with a timeout comes to the same when it
    returns. -/
def PipeOut.tryData (p : PipeOut T) : Bool × PipeOut T :=
  if p.bufWasSent then (true, p.take) else (false, p)

def PipeOut.flush (p : PipeOut T) : PipeOut T := { p with bufWasSent := true }

@[simp] theorem write_bufMod (p : PipeOut T) (i : Inst) (x : T) : (p.write i x).bufMod = p.bufMod := rfl
@[simp] theorem write_bufSent (p : PipeOut T) (i : Inst) (x : T) : (p.write i x).bufSent = p.bufSent := rfl
@[simp] theorem write_bufRcv (p : PipeOut T) (i : Inst) (x : T) : (p.write i x).bufRcv = p.bufRcv := rfl
@[simp] theorem write_bufWasSent (p : PipeOut T) (i : Inst) (x : T) :
    (p.write i x).bufWasSent = p.bufWasSent := rfl
@[simp] theorem write_same (p : PipeOut T) (i : Inst) (x : T) : (p.write i x).object i = x := by
  simp [PipeOut.write]

theorem write_other (p : PipeOut T) {i j : Inst} (x : T) (other : j ≠ i) :
    (p.write i x).object j = p.object j := by
  simp [PipeOut.write, other]

@[simp] theorem sendData_object (p : PipeOut T) : p.sendData.object = p.object := rfl
@[simp] theorem sendData_bufMod (p : PipeOut T) : p.sendData.bufMod = p.bufSent := rfl
@[simp] theorem sendData_bufSent (p : PipeOut T) : p.sendData.bufSent = p.bufMod := rfl
@[simp] theorem sendData_bufRcv (p : PipeOut T) : p.sendData.bufRcv = p.bufRcv := rfl
@[simp] theorem sendData_bufWasSent (p : PipeOut T) : p.sendData.bufWasSent = true := rfl
@[simp] theorem sendData_received (p : PipeOut T) : p.sendData.received = p.received := rfl

@[simp] theorem take_object (p : PipeOut T) : p.take.object = p.object := rfl
@[simp] theorem take_bufMod (p : PipeOut T) : p.take.bufMod = p.bufMod := rfl
@[simp] theorem take_bufRcv (p : PipeOut T) : p.take.bufRcv = p.bufSent := rfl
@[simp] theorem take_bufSent (p : PipeOut T) : p.take.bufSent = p.bufRcv := rfl
@[simp] theorem take_bufWasSent (p : PipeOut T) : p.take.bufWasSent = false := rfl

theorem waitForData_cases {p q : PipeOut T} (done : p.waitForData = some q) :
    p.bufWasSent = true ∧ q = p.take := by
  unfold PipeOut.waitForData at done
  split at done
  · rename_i sent
    exact ⟨sent, (Option.some.inj done).symm⟩
  · cases done

/-- The stage that fills never touches what the next stage reads. -/
theorem fill_received (p : PipeOut T) (value : T) :
    (p.write p.bufMod value).received = p.received :=
  write_other p value p.mod_rcv.symm

end Pipe
