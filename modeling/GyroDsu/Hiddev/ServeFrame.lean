import GyroDsu.Lib.Runs
import GyroDsu.Pipeline.PipeOut
import GyroDsu.Pipeline.Serve
import Mathlib.Data.List.Basic

/-
ServeFrame between the pipe it takes frames from and its consumers, while the pipeline
is not being stopped. A section under a mutex is one step, and the step is not allowed
while another thread owns the mutex. Frames are numbered from 1 in the order they are
sent. Counting of missed frames only writes to the log and is left out.
-/
namespace ServeFrame
open Pipe Serves

variable {T : Type}

structure View (T : Type) where
  inst : Inst
  number : Nat
  frame : T

/-- `seen` is the history of acquisitions, newest first. -/
structure Consumer (T : Type) where
  serve : Serve
  seen : List (View T)

/-- Where Execute stands: outside framesMutex, acquiring the serve locks in order, waiting
    for data with all of them, or destroying them, of which `left` are left. -/
inductive Pc where
  | idle
  | locking (next : Nat)
  | waiting
  | unlocking (left : List Nat)
  deriving DecidableEq, Repr

/-- The last three are history: the frames sent, the number of the frame sent last from
    an instance and not written since, and the numbers taken from the pipe, newest first. -/
structure State (T : Type) where
  pipe : PipeOut T
  frames : List (Consumer T)
  pc : Pc
  sent : List T
  number : Inst → Nat
  taken : List Nat

inductive Action (T : Type) where
  | fill (value : T)
  | sendData
  | getServe
  | acquire (i : Nat) (garbage : Bool)
  | release (i : Nat)
  | enter
  | lock
  | grow
  | locked
  | waitForData
  | unlock (i : Nat)
  | leave

def State.withServe (s : State T) (i : Nat) (op : Serve → Option Serve) : Option (State T) :=
  (s.frames[i]?).bind fun c =>
    (op c.serve).map fun serve => { s with frames := s.frames.set i { c with serve := serve } }

def State.view (s : State T) : View T :=
  ⟨s.pipe.bufRcv, s.number s.pipe.bufRcv, s.pipe.received⟩

def State.mark (s : State T) (number : Nat) : Inst → Nat :=
  fun i => if i = s.pipe.bufMod then number else s.number i

def State.step (s : State T) : Action T → Option (State T)
  | .fill value =>
    some { s with
      pipe := s.pipe.write s.pipe.bufMod value
      number := s.mark 0 }
  | .sendData =>
    some { s with
      pipe := s.pipe.sendData
      sent := s.sent ++ [s.pipe.toFill]
      number := s.mark (s.sent.length + 1) }
  | .getServe =>
    if s.pc = .idle then some { s with frames := s.frames ++ [⟨{}, []⟩] } else none
  | .acquire i garbage =>
    (s.frames[i]?).bind fun c =>
      (c.serve.getConsumeLock garbage).map fun serve =>
        { s with frames := s.frames.set i ⟨serve, s.view :: c.seen⟩ }
  | .release i => s.withServe i fun serve => serve.releaseConsumeLock
  | .enter => if s.pc = .idle ∧ s.frames ≠ [] then some { s with pc := .locking 0 } else none
  | .lock =>
    match s.pc with
    | .locking next =>
      (s.withServe next fun serve => serve.getServeLock).map fun t => { t with pc := .locking (next + 1) }
    | _ => none
  | .grow =>
    match s.pc with
    | .locking _ =>
      some { s with frames := s.frames.map fun c => { c with serve := c.serve.relocate } }
    | _ => none
  | .locked => if s.pc = .locking s.frames.length then some { s with pc := .waiting } else none
  | .waitForData =>
    if s.pc = .waiting then
      s.pipe.waitForData.map fun pipe =>
        { s with
          pipe := pipe
          pc := .unlocking (List.range s.frames.length)
          taken := s.number s.pipe.bufSent :: s.taken }
    else none
  | .unlock i =>
    match s.pc with
    | .unlocking left =>
      if i ∈ left then
        (s.withServe i fun serve => serve.releaseServeLock).map fun t =>
          { t with pc := .unlocking (left.filter (· ≠ i)) }
      else none
    | _ => none
  | .leave => if s.pc = .unlocking [] then some { s with pc := .idle } else none

structure Starts (s : State T) : Prop where
  frames : s.frames = []
  pc : s.pc = .idle
  sent : s.sent = if s.pipe.bufWasSent then [s.pipe.object s.pipe.bufSent] else []
  number : ∀ i, s.number i = if i = s.pipe.bufSent then s.sent.length else 0
  taken : s.taken = []

def State.sentAs (s : State T) (number : Nat) : Option T :=
  if number = 0 then none else s.sent[number - 1]?

def Pc.holds : Pc → Nat → Prop
  | .idle, _ => False
  | .locking next, i => i < next
  | .waiting, _ => True
  | .unlocking left, i => i ∈ left

/-- The frame behind GetPointer is one that consumer `i` has not had, if it may have it
    as soon as Execute lets go. -/
def Due (s : State T) (i : Nat) (c : Consumer T) : Prop :=
  c.serve.served = true ∨ ∃ left, s.pc = .unlocking left ∧ i ∈ left

theorem withServe_cases {s t : State T} {i : Nat} {op : Serve → Option Serve}
    (done : s.withServe i op = some t) :
    ∃ c serve, s.frames[i]? = some c ∧ op c.serve = some serve ∧
      t = { s with frames := s.frames.set i { c with serve := serve } } := by
  obtain ⟨c, here, rest⟩ := Option.bind_eq_some_iff.mp done
  obtain ⟨serve, result, rfl⟩ := Option.map_eq_some_iff.mp rest
  exact ⟨c, serve, here, result, rfl⟩

inductive Effect (s : State T) : Action T → State T → Prop where
  | fill (value : T) : Effect s (.fill value) { s with
      pipe := s.pipe.write s.pipe.bufMod value
      number := s.mark 0 }
  | sendData : Effect s .sendData { s with
      pipe := s.pipe.sendData
      sent := s.sent ++ [s.pipe.toFill]
      number := s.mark (s.sent.length + 1) }
  | getServe (idle : s.pc = .idle) : Effect s .getServe { s with frames := s.frames ++ [⟨{}, []⟩] }
  | acquire (i : Nat) (garbage : Bool) (c : Consumer T) (serve : Serve) (here : s.frames[i]? = some c)
      (got : c.serve.getConsumeLock garbage = some serve) :
      Effect s (.acquire i garbage) { s with frames := s.frames.set i ⟨serve, s.view :: c.seen⟩ }
  | release (i : Nat) (c : Consumer T) (serve : Serve) (here : s.frames[i]? = some c)
      (done : c.serve.releaseConsumeLock = some serve) :
      Effect s (.release i) { s with frames := s.frames.set i { c with serve := serve } }
  | enter (idle : s.pc = .idle) : Effect s .enter { s with pc := .locking 0 }
  | lock (next : Nat) (c : Consumer T) (serve : Serve) (at_next : s.pc = .locking next)
      (here : s.frames[next]? = some c) (got : c.serve.getServeLock = some serve) :
      Effect s .lock { s with
        frames := s.frames.set next { c with serve := serve }
        pc := .locking (next + 1) }
  | grow : Effect s .grow { s with frames := s.frames.map fun c => { c with serve := c.serve.relocate } }
  | locked (all : s.pc = .locking s.frames.length) : Effect s .locked { s with pc := .waiting }
  | waitForData (waiting : s.pc = .waiting) (sent : s.pipe.bufWasSent = true) :
      Effect s .waitForData { s with
        pipe := s.pipe.take
        pc := .unlocking (List.range s.frames.length)
        taken := s.number s.pipe.bufSent :: s.taken }
  | unlock (i : Nat) (left : List Nat) (c : Consumer T) (serve : Serve) (at_left : s.pc = .unlocking left)
      (at_i : i ∈ left) (here : s.frames[i]? = some c) (done : c.serve.releaseServeLock = some serve) :
      Effect s (.unlock i) { s with
        frames := s.frames.set i { c with serve := serve }
        pc := .unlocking (left.filter (· ≠ i)) }
  | leave (none_left : s.pc = .unlocking []) : Effect s .leave { s with pc := .idle }

theorem step_cases {s t : State T} {a : Action T} (step : s.step a = some t) : Effect s a t := by
  cases a with
  | fill value =>
    obtain rfl := Option.some.inj step
    exact .fill value
  | sendData =>
    obtain rfl := Option.some.inj step
    exact .sendData
  | getServe =>
    obtain ⟨idle, done⟩ := Option.ite_none_right_eq_some.mp step
    obtain rfl := Option.some.inj done
    exact .getServe idle
  | acquire i garbage =>
    obtain ⟨c, here, rest⟩ := Option.bind_eq_some_iff.mp step
    obtain ⟨serve, got, rfl⟩ := Option.map_eq_some_iff.mp rest
    exact .acquire i garbage c serve here got
  | release i =>
    obtain ⟨c, serve, here, done, rfl⟩ := withServe_cases step
    exact .release i c serve here done
  | enter =>
    obtain ⟨⟨idle, _⟩, done⟩ := Option.ite_none_right_eq_some.mp step
    obtain rfl := Option.some.inj done
    exact .enter idle
  | lock =>
    simp only [State.step] at step
    split at step
    · rename_i next at_next
      obtain ⟨u, locked, rfl⟩ := Option.map_eq_some_iff.mp step
      obtain ⟨c, serve, here, got, rfl⟩ := withServe_cases locked
      exact .lock next c serve at_next here got
    · cases step
  | grow =>
    simp only [State.step] at step
    split at step
    · obtain rfl := Option.some.inj step
      exact .grow
    · cases step
  | locked =>
    obtain ⟨all, done⟩ := Option.ite_none_right_eq_some.mp step
    obtain rfl := Option.some.inj done
    exact .locked all
  | waitForData =>
    obtain ⟨waiting, done⟩ := Option.ite_none_right_eq_some.mp step
    obtain ⟨pipe, waited, rfl⟩ := Option.map_eq_some_iff.mp done
    obtain ⟨sent, rfl⟩ := waitForData_cases waited
    exact .waitForData waiting sent
  | unlock i =>
    simp only [State.step] at step
    split at step
    · rename_i left at_left
      obtain ⟨at_i, done⟩ := Option.ite_none_right_eq_some.mp step
      obtain ⟨u, unlocked, rfl⟩ := Option.map_eq_some_iff.mp done
      obtain ⟨c, serve, here, released, rfl⟩ := withServe_cases unlocked
      exact .unlock i left c serve at_left at_i here released
    · cases step
  | leave =>
    obtain ⟨none_left, done⟩ := Option.ite_none_right_eq_some.mp step
    obtain rfl := Option.some.inj done
    exact .leave none_left

def Action.quiet : Action T → Prop
  | .fill _ | .sendData | .waitForData => False
  | _ => True

theorem quiet_same {s t : State T} {a : Action T} (quiet : a.quiet) (step : s.step a = some t) :
    t.pipe = s.pipe ∧ t.sent = s.sent ∧ t.number = s.number ∧ t.taken = s.taken := by
  cases step_cases step with
  | fill | sendData | waitForData => cases quiet
  | _ => exact ⟨rfl, rfl, rfl, rfl⟩

theorem set_histories {frames : List (Consumer T)} {i : Nat} {c : Consumer T} (here : frames[i]? = some c)
    (serve : Serve) :
    (frames.set i { c with serve := serve }).map Consumer.seen = frames.map Consumer.seen := by
  apply List.ext_getElem?
  intro j
  rw [List.getElem?_map, List.getElem?_map]
  by_cases same : j = i
  · subst same
    rw [List.getElem?_set_self (List.getElem?_eq_some_iff.mp here).1, here]
    rfl
  · rw [List.getElem?_set_ne (Ne.symm same)]

theorem step_histories {s t : State T} {a : Action T} (step : s.step a = some t) (joins : a ≠ .getServe)
    (acquires : ∀ i garbage, a ≠ .acquire i garbage) :
    t.frames.map Consumer.seen = s.frames.map Consumer.seen := by
  cases step_cases step with
  | getServe => exact absurd rfl joins
  | acquire i garbage => exact absurd rfl (acquires i garbage)
  | release i c serve here => exact set_histories here serve
  | lock next c serve _ here => exact set_histories here serve
  | unlock i left c serve _ _ here => exact set_histories here serve
  | grow =>
    rw [List.map_map]
    rfl
  | fill | sendData | enter | locked | waitForData | leave => rfl

end ServeFrame
