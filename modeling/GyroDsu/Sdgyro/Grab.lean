import GyroDsu.Sdgyro.Delivery
import GyroDsu.Hiddev.CompleteFrames

/-
One frame grab: the adapter's calls while ReadDataApi reads reports from the device and
ServeFrame serves them. What ReadDataApi does for NoGyro is left out.
-/
namespace Grab
open SdHidFrame CemuhookAdapter AdapterSession DeviceRead ReadData CompleteFrames
open Delivery (Along Continues AsCalls Phase)

inductive DevicePc where
  | top
  | examining (readCnt : Int)
  | sending
  deriving DecidableEq, Repr

/-- What the device gave to a Read, and what the vector to fill held before. -/
structure ReadCall where
  results : List LowRead
  before : Frame

structure Device where
  pc : DevicePc
  reads : List ReadCall

inductive DeviceAction where
  | read (results : List LowRead)
  | examine
  | send

/-- The loop of ReadDataApi, each step with what it does to the pipe. -/
def Device.step (device : Device) (toFill : Frame) :
    DeviceAction → Option (Device × Option (ServeFrame.Action Frame))
  | .read results =>
    match device.pc with
    | .top =>
      (hidApiDevRead true results toFill).map fun (readCnt, data) =>
        (⟨.examining readCnt, ⟨results, toFill⟩ :: device.reads⟩, some (.fill data))
    | _ => none
  | .examine =>
    match device.pc with
    | .examining readCnt =>
      some ({ device with pc := if examineApi readCnt toFill = .publish then .sending else .top }, none)
    | _ => none
  | .send =>
    match device.pc with
    | .sending => some ({ device with pc := .top }, some .sendData)
    | _ => none

def feeds : ServeFrame.Action Frame → Bool
  | .fill _ | .sendData => true
  | _ => false

structure Source where
  serving : ServeFrame.State Frame
  device : Device

inductive SourceAction where
  | serving (a : ServeFrame.Action Frame)
  | device (a : DeviceAction)

def Source.step (s : Source) : SourceAction → Option Source
  | .serving a =>
    if feeds a then none else (s.serving.step a).map fun serving => { s with serving := serving }
  | .device a =>
    (s.device.step s.serving.pipe.toFill a).bind fun (device, fed) =>
      (fed.elim (some s.serving) s.serving.step).map fun serving => ⟨serving, device⟩

/-- Both have just been started. A frame may wait in the pipe from the time before. -/
structure Source.Starts (frameLen : Nat) (s : Source) : Prop where
  serving : ServeFrame.Starts s.serving
  sizes : ∀ i, (s.serving.pipe.object i).length = frameLen
  pc : s.device.pc = .top
  reads : s.device.reads = []

/-- `called`: the caller has entered a call and not yet gone on from it. -/
structure State where
  delivery : Delivery.State
  device : Device
  called : Bool

inductive Action where
  | call
  | delivery (a : Delivery.Action)
  | device (a : DeviceAction)

def elsewhere : Delivery.Action → Bool
  | .call => true
  | .serving a => feeds a
  | _ => false

-- What the caller leaves in the motion structure after its calls.
variable (overwritten : Nat → MotionData)

def State.deliver (s : State) (a : Delivery.Action) : Option State :=
  (s.delivery.step overwritten a).map fun delivery => { s with delivery := delivery }

def State.step (s : State) : Action → Option State
  | .call => if s.called then none else (s.deliver overwritten .call).map fun t => { t with called := true }
  | .delivery a => if elsewhere a then none else s.deliver overwritten a
  | .device a =>
    (s.device.step s.delivery.serving.pipe.toFill a).bind fun (device, fed) =>
      (fed.elim (some s) fun b => s.deliver overwritten (.serving b)).map fun t => { t with device := device }

/-- The frame is a complete report that one of the Reads got from the device, or what one that was
    refused has left: the bytes it had got over what the vector held before. -/
def Reported (frameLen : Nat) (reads : List ReadCall) (frame : Frame) : Prop :=
  ∃ r ∈ reads, (Filled r.results frameLen ∧ frame = written r.results) ∨
    (Refused r.results ∧ frame = overlay r.before 0 (written r.results))

structure Reports (frameLen : Nat) (serving : ServeFrame.State Frame) (device : Device) : Prop where
  sizes : ∀ i, (serving.pipe.object i).length = frameLen
  examining : ∀ readCnt, device.pc = .examining readCnt → examineApi readCnt serving.pipe.toFill = .publish →
    Reported frameLen device.reads serving.pipe.toFill
  sending : device.pc = .sending → Reported frameLen device.reads serving.pipe.toFill
  sent : ∀ frame ∈ serving.sent.tail, Reported frameLen device.reads frame

structure Rests (session : Session) (d : Delivery.State) : Prop where
  first : d.phase = .outside → d.results = [] → d.adapter = session.adapter
  later : d.phase = .outside → ∀ r rest, d.results = r :: rest → d.adapter = r.adapter ∧
    d.motion = if r.adapter.isPersistent then r.motion else overwritten rest.length

structure Sound (frameLen : Nat) (session : Session) (s : State) : Prop where
  along : Along overwritten session s.delivery
  rests : Rests overwritten session s.delivery
  uncalled : s.called = false → s.delivery.phase = .outside
  reports : Reports frameLen s.delivery.serving s.device

inductive Progress (d d' : Delivery.State) : Prop where
  | on (results : d'.results = d.results) (phase : d'.phase = .outside ↔ d.phase = .outside)
      (same : d.phase = .outside → d'.adapter = d.adapter ∧ d'.motion = d.motion)
  | returned (inside : d.phase ≠ .outside) (outside : d'.phase = .outside) (r : CallResult)
      (results : d'.results = r :: d.results) (adapter : d'.adapter = r.adapter)
      (motion : d'.motion = if r.adapter.isPersistent then r.motion else overwritten d.results.length)

variable {overwritten} {session : Session} {d d' : Delivery.State} {frameLen : Nat} {s t : State}

theorem serving_step {b : ServeFrame.Action Frame} (step : d.step overwritten (.serving b) = some d') :
    ∃ serving, d.serving.step b = some serving ∧ d' = { d with serving := serving } := by
  obtain ⟨_, served⟩ := Option.ite_none_left_eq_some.mp step
  exact Delivery.serve_cases served

theorem progress {a : Delivery.Action} (step : d.step overwritten a = some d') (other : a ≠ .call) :
    Progress overwritten d d' := by
  cases a with
  | call => exact absurd rfl other
  | serving action =>
    obtain ⟨serving, _, rfl⟩ := serving_step step
    exact .on rfl Iff.rfl fun _ => ⟨rfl, rfl⟩
  | acquire garbage =>
    simp only [Delivery.State.step] at step
    split at step
    · rename_i phase
      obtain ⟨u, served, rfl⟩ := Option.map_eq_some_iff.mp step
      obtain ⟨serving, _, rfl⟩ := Delivery.serve_cases served
      exact .on rfl (by simp [phase]) (by simp [phase])
    · rename_i phase
      obtain ⟨_, done⟩ := Option.ite_none_right_eq_some.mp step
      obtain ⟨u, served, rfl⟩ := Option.map_eq_some_iff.mp done
      obtain ⟨serving, _, rfl⟩ := Delivery.serve_cases served
      exact .on rfl (by simp [phase]) (by simp [phase])
    · cases step
  | read =>
    simp only [Delivery.State.step] at step
    split at step
    · rename_i repeatedLoop phase
      obtain rfl := Option.some.inj step
      have inside : (d.read repeatedLoop).phase ≠ .outside := by
        unfold Delivery.State.read
        simp only
        split
        · cases repeatedLoop <;> simp
        · simp
      have results : (d.read repeatedLoop).results = d.results := by
        unfold Delivery.State.read
        simp only
        split <;> rfl
      exact .on results (iff_of_false inside (by simp [phase])) (by simp [phase])
    · cases step
  | replicate =>
    simp only [Delivery.State.step] at step
    split at step
    · rename_i phase
      obtain ⟨_, done⟩ := Option.ite_none_left_eq_some.mp step
      obtain rfl := Option.some.inj done
      exact .returned (by simp [phase]) rfl _ rfl rfl rfl
    · cases step
  | release =>
    simp only [Delivery.State.step] at step
    split at step
    · rename_i phase
      obtain ⟨u, served, rfl⟩ := Option.map_eq_some_iff.mp step
      obtain ⟨serving, _, rfl⟩ := Delivery.serve_cases served
      exact .on rfl (by simp [phase]) (by simp [phase])
    · rename_i phase
      obtain ⟨u, served, rfl⟩ := Option.map_eq_some_iff.mp step
      obtain ⟨serving, _, rfl⟩ := Delivery.serve_cases served
      exact .on rfl (by simp [phase]) (by simp [phase])
    · rename_i phase
      obtain ⟨u, served, rfl⟩ := Option.map_eq_some_iff.mp step
      obtain ⟨serving, _, rfl⟩ := Delivery.serve_cases served
      exact .returned (by simp [phase]) rfl _ rfl rfl rfl
    · cases step

theorem progress_rests (rests : Rests overwritten session d) (step : Progress overwritten d d') :
    Rests overwritten session d' := by
  cases step with
  | on results phase same =>
    constructor
    · intro outside none_yet
      have was := phase.mp outside
      rw [(same was).1]
      exact rests.first was (results ▸ none_yet)
    · intro outside r rest is
      have was := phase.mp outside
      rw [(same was).1, (same was).2]
      exact rests.later was r rest (results ▸ is)
  | returned inside outside r results adapter motion =>
    constructor
    · intro _ none_yet
      rw [results] at none_yet
      cases none_yet
    · intro _ r' rest is
      rw [results] at is
      obtain ⟨rfl, rfl⟩ := List.cons.inj is
      exact ⟨adapter, motion⟩

structure SameReports (u v : ServeFrame.State Frame) : Prop where
  object : v.pipe.object = u.pipe.object
  bufMod : v.pipe.bufMod = u.pipe.bufMod
  sent : v.sent = u.sent

theorem serving_same {u v : ServeFrame.State Frame} {b : ServeFrame.Action Frame} (step : u.step b = some v)
    (fills : ∀ frame, b ≠ .fill frame) (sends : b ≠ .sendData) : SameReports u v := by
  cases ServeFrame.step_cases step with
  | fill frame => exact absurd rfl (fills frame)
  | sendData => exact absurd rfl sends
  | _ => exact ⟨rfl, rfl, rfl⟩

theorem delivery_same {a : Delivery.Action} (step : d.step overwritten a = some d')
    (fills : ∀ frame, a ≠ .serving (.fill frame)) (sends : a ≠ .serving .sendData) :
    SameReports d.serving d'.serving := by
  cases a with
  | call =>
    obtain ⟨_, done⟩ := Option.ite_none_right_eq_some.mp step
    obtain rfl := Option.some.inj done
    exact ⟨rfl, rfl, rfl⟩
  | serving action =>
    obtain ⟨serving, taken, rfl⟩ := serving_step step
    exact serving_same taken (fun frame same => fills frame (by rw [same])) (fun same => sends (by rw [same]))
  | acquire garbage =>
    simp only [Delivery.State.step] at step
    split at step
    · obtain ⟨u, served, rfl⟩ := Option.map_eq_some_iff.mp step
      obtain ⟨serving, taken, rfl⟩ := Delivery.serve_cases served
      exact serving_same taken (by simp) (by simp)
    · obtain ⟨_, done⟩ := Option.ite_none_right_eq_some.mp step
      obtain ⟨u, served, rfl⟩ := Option.map_eq_some_iff.mp done
      obtain ⟨serving, taken, rfl⟩ := Delivery.serve_cases served
      exact serving_same taken (by simp) (by simp)
    · cases step
  | read =>
    simp only [Delivery.State.step] at step
    split at step
    · obtain rfl := Option.some.inj step
      unfold Delivery.State.read
      simp only
      split <;> exact ⟨rfl, rfl, rfl⟩
    · cases step
  | replicate =>
    simp only [Delivery.State.step] at step
    split at step
    · obtain ⟨_, done⟩ := Option.ite_none_left_eq_some.mp step
      obtain rfl := Option.some.inj done
      exact ⟨rfl, rfl, rfl⟩
    · cases step
  | release =>
    simp only [Delivery.State.step] at step
    split at step
    all_goals first
      | cases step
      | obtain ⟨u, served, rfl⟩ := Option.map_eq_some_iff.mp step
        obtain ⟨serving, taken, rfl⟩ := Delivery.serve_cases served
        exact serving_same taken (by simp) (by simp)

theorem reports_same {u v : ServeFrame.State Frame} {device : Device} (h : Reports frameLen u device)
    (same : SameReports u v) : Reports frameLen v device := by
  have toFill : v.pipe.toFill = u.pipe.toFill := by
    simp only [Pipe.PipeOut.toFill, same.object, same.bufMod]
  refine ⟨?_, ?_, ?_, ?_⟩
  · rw [same.object]
    exact h.sizes
  · rw [toFill]
    exact h.examining
  · rw [toFill]
    exact h.sending
  · rw [same.sent]
    exact h.sent

theorem reported_later {reads : List ReadCall} {frame : Frame} (r : ReadCall)
    (reported : Reported frameLen reads frame) : Reported frameLen (r :: reads) frame := by
  obtain ⟨q, member, content⟩ := reported
  exact ⟨q, List.mem_cons_of_mem r member, content⟩

theorem read_reported {results : List LowRead} {before after : Frame} {readCnt : Int}
    (small : before.length < 2 ^ 31) (read : hidApiDevRead true results before = some (readCnt, after))
    (publishes : examineApi readCnt after = .publish) (reads : List ReadCall) :
    Reported before.length (⟨results, before⟩ :: reads) after := by
  refine ⟨⟨results, before⟩, List.mem_cons_self, ?_⟩
  rcases api_read_cases read with ⟨_, result⟩ | ⟨closed, _⟩
  · have same := api_keeps true results before readCnt after read
    cases api_outcome small read after same with
    | filled filled _ _ => exact Or.inl ⟨filled, filled_content result filled⟩
    | refused refused _ _ => exact Or.inr ⟨refused.2, result.content⟩
    | short _ _ silent => exact absurd publishes silent
  · cases closed

variable {u v : ServeFrame.State Frame} {device device' : Device}

theorem read_reports {results : List LowRead} {readCnt : Int} {data : Frame} (small : frameLen < 2 ^ 31)
    (h : Reports frameLen u device) (read : hidApiDevRead true results u.pipe.toFill = some (readCnt, data))
    (fills : u.step (.fill data) = some v) :
    Reports frameLen v ⟨.examining readCnt, ⟨results, u.pipe.toFill⟩ :: device.reads⟩ := by
  obtain rfl := Option.some.inj fills
  have size : u.pipe.toFill.length = frameLen := h.sizes _
  have kept := api_keeps true results u.pipe.toFill readCnt data read
  refine ⟨fun i => ?_, fun n is publishes => ?_, fun is => (by cases is), fun frame member => ?_⟩
  · by_cases here : i = u.pipe.bufMod
    · subst here
      simp only [Pipe.write_same]
      exact kept.trans size
    · simp only [Pipe.write_other _ _ here]
      exact h.sizes i
  · obtain rfl := DevicePc.examining.inj is
    have filled : (u.pipe.write u.pipe.bufMod data).toFill = data := by
      simp [Pipe.PipeOut.toFill]
    simp only [filled] at publishes ⊢
    rw [← size]
    exact read_reported (size ▸ small) read publishes device.reads
  · exact reported_later _ (h.sent frame member)

theorem examine_reports {readCnt : Int} (h : Reports frameLen u device)
    (examining : device.pc = .examining readCnt) :
    Reports frameLen u
      { device with pc := if examineApi readCnt u.pipe.toFill = .publish then .sending else .top } := by
  refine ⟨h.sizes, fun n is => ?_, fun is => ?_, h.sent⟩
  · simp only at is
    split at is <;> cases is
  · simp only at is
    split at is
    · rename_i publishes
      exact h.examining readCnt examining publishes
    · cases is

theorem send_reports (h : Reports frameLen u device) (sending : device.pc = .sending)
    (sends : u.step .sendData = some v) : Reports frameLen v { device with pc := .top } := by
  obtain rfl := Option.some.inj sends
  refine ⟨h.sizes, fun n is => (by cases is), fun is => (by cases is), fun frame member => ?_⟩
  simp only at member
  rw [List.tail_append] at member
  split at member
  · cases member
  · rcases List.mem_append.mp member with earlier | last
    · exact h.sent frame earlier
    · rw [List.mem_singleton.mp last]
      exact h.sending sending

theorem device_reports {a : DeviceAction} {fed : Option (ServeFrame.Action Frame)} (small : frameLen < 2 ^ 31)
    (h : Reports frameLen u device) (step : device.step u.pipe.toFill a = some (device', fed))
    (feeding : fed.elim (some u) u.step = some v) : Reports frameLen v device' := by
  cases a with
  | read results =>
    simp only [Device.step] at step
    split at step
    · obtain ⟨⟨readCnt, data⟩, read, done⟩ := Option.map_eq_some_iff.mp step
      obtain ⟨rfl, rfl⟩ := Prod.mk.inj done
      exact read_reports small h read feeding
    · cases step
  | examine =>
    simp only [Device.step] at step
    split at step
    · rename_i readCnt examining
      obtain ⟨rfl, rfl⟩ := Prod.mk.inj (Option.some.inj step)
      obtain rfl := Option.some.inj feeding
      exact examine_reports h examining
    · cases step
  | send =>
    simp only [Device.step] at step
    split at step
    · rename_i sending
      obtain ⟨rfl, rfl⟩ := Prod.mk.inj (Option.some.inj step)
      exact send_reports h sending feeding
    · cases step

theorem source_step_cases {s t : Source} {a : SourceAction} (step : s.step a = some t) :
    (∃ b, feeds b = false ∧ s.serving.step b = some t.serving ∧ t.device = s.device) ∨
      ∃ b fed, s.device.step s.serving.pipe.toFill b = some (t.device, fed) ∧
        fed.elim (some s.serving) s.serving.step = some t.serving := by
  cases a with
  | serving b =>
    obtain ⟨other, served⟩ := Option.ite_none_left_eq_some.mp step
    obtain ⟨serving, moved, rfl⟩ := Option.map_eq_some_iff.mp served
    exact Or.inl ⟨b, eq_false_of_ne_true other, moved, rfl⟩
  | device b =>
    obtain ⟨⟨device, fed⟩, turned, rest⟩ := Option.bind_eq_some_iff.mp step
    obtain ⟨serving, feeding, rfl⟩ := Option.map_eq_some_iff.mp rest
    exact Or.inr ⟨b, fed, turned, feeding⟩

theorem not_feeding {b : ServeFrame.Action Frame} (other : feeds b = false) :
    (∀ frame, b ≠ .fill frame) ∧ b ≠ .sendData := by
  constructor
  · rintro frame rfl
    cases other
  · rintro rfl
    cases other

structure SourceSound (frameLen : Nat) (s : Source) : Prop where
  reached : Runs.Reachable ServeFrame.State.step ServeFrame.Starts s.serving
  reports : Reports frameLen s.serving s.device

theorem source_starts_sound {s : Source} (h : Source.Starts frameLen s) : SourceSound frameLen s := by
  refine ⟨⟨s.serving, [], h.serving, .nil⟩, h.sizes, fun n is => ?_, fun is => ?_, fun frame member => ?_⟩
  · cases h.pc.symm.trans is
  · cases h.pc.symm.trans is
  · rw [h.serving.sent] at member
    split at member <;> cases member

theorem source_step_sound {s t : Source} {a : SourceAction} (small : frameLen < 2 ^ 31)
    (h : SourceSound frameLen s) (step : s.step a = some t) : SourceSound frameLen t := by
  rcases source_step_cases step with ⟨b, other, moved, same⟩ | ⟨b, fed, turned, feeding⟩
  · obtain ⟨fills, sends⟩ := not_feeding other
    exact ⟨Runs.reachable_next h.reached moved, same ▸ reports_same h.reports (serving_same moved fills sends)⟩
  · refine ⟨?_, device_reports small h.reports turned feeding⟩
    cases fed with
    | none => exact Option.some.inj feeding ▸ h.reached
    | some b => exact Runs.reachable_next h.reached feeding

theorem source_reachable_sound {s : Source} (small : frameLen < 2 ^ 31)
    (reached : Runs.Reachable Source.step (Source.Starts frameLen) s) : SourceSound frameLen s :=
  Runs.reachable_invariant (SourceSound frameLen) (fun _ => source_starts_sound)
    (fun _ _ _ => source_step_sound small) reached

inductive Does (overwritten : Nat → MotionData) (s : State) : Action → State → Prop where
  | call {delivery : Delivery.State} (free : s.called = false)
      (enters : s.delivery.step overwritten .call = some delivery) :
      Does overwritten s .call { s with delivery := delivery, called := true }
  | goes {a : Action} {b : Delivery.Action} {delivery : Delivery.State} (device : Device) (other : b ≠ .call)
      (step : s.delivery.step overwritten b = some delivery) (not_call : a ≠ .call) :
      Does overwritten s a { s with delivery := delivery, device := device }
  | examines {a : DeviceAction} (device : Device) : Does overwritten s (.device a) { s with device := device }

theorem step_does {a : Action} (step : s.step overwritten a = some t) : Does overwritten s a t := by
  cases a with
  | call =>
    obtain ⟨free, done⟩ := Option.ite_none_left_eq_some.mp step
    obtain ⟨u, delivered, rfl⟩ := Option.map_eq_some_iff.mp done
    obtain ⟨delivery, enters, rfl⟩ := Option.map_eq_some_iff.mp delivered
    exact .call (eq_false_of_ne_true free) enters
  | delivery b =>
    obtain ⟨own, delivered⟩ := Option.ite_none_left_eq_some.mp step
    obtain ⟨delivery, goes, rfl⟩ := Option.map_eq_some_iff.mp delivered
    refine .goes s.device ?_ goes (by simp)
    rintro rfl
    exact own rfl
  | device b =>
    obtain ⟨⟨device, fed⟩, _, rest⟩ := Option.bind_eq_some_iff.mp step
    obtain ⟨u, feeding, rfl⟩ := Option.map_eq_some_iff.mp rest
    cases fed with
    | none =>
      obtain rfl := Option.some.inj feeding
      exact .examines device
    | some b =>
      obtain ⟨delivery, goes, rfl⟩ := Option.map_eq_some_iff.mp feeding
      exact .goes device (by simp) goes (by simp)

theorem entered {delivery : Delivery.State} (enters : d.step overwritten .call = some delivery) :
    delivery.phase ≠ .outside ∧ delivery.results = d.results ∧ delivery.seen = d.seen := by
  obtain ⟨_, done⟩ := Option.ite_none_right_eq_some.mp enters
  obtain rfl := Option.some.inj done
  refine ⟨?_, rfl, rfl⟩
  rcases Delivery.entry_cases d.adapter with ⟨_, entry⟩ | ⟨_, entry⟩
  · simp [entry]
  · simp [entry]

theorem does_sound {a : Action} (h : Sound overwritten frameLen session s) (does : Does overwritten s a t)
    (reports : Reports frameLen t.delivery.serving t.device) : Sound overwritten frameLen session t := by
  cases does with
  | call free enters =>
    obtain ⟨inside, _⟩ := entered enters
    refine ⟨Delivery.step_along h.along enters, ⟨fun outside => ?_, fun outside => ?_⟩, nofun, reports⟩
    · exact absurd outside inside
    · exact absurd outside inside
  | goes device other step not_call =>
    have goes := progress step other
    refine ⟨Delivery.step_along h.along step, progress_rests h.rests goes, fun free => ?_, reports⟩
    have outside := h.uncalled free
    cases goes with
    | on _ phase _ => exact phase.mpr outside
    | returned inside => exact absurd outside inside
  | examines device => exact ⟨h.along, h.rests, h.uncalled, reports⟩

theorem step_sound {a : Action} (small : frameLen < 2 ^ 31) (h : Sound overwritten frameLen session s)
    (step : s.step overwritten a = some t) : Sound overwritten frameLen session t := by
  refine does_sound h (step_does step) ?_
  cases a with
  | call =>
    obtain ⟨_, done⟩ := Option.ite_none_left_eq_some.mp step
    obtain ⟨u, delivered, rfl⟩ := Option.map_eq_some_iff.mp done
    obtain ⟨delivery, enters, rfl⟩ := Option.map_eq_some_iff.mp delivered
    exact reports_same h.reports (delivery_same enters (by simp) (by simp))
  | delivery b =>
    obtain ⟨own, delivered⟩ := Option.ite_none_left_eq_some.mp step
    obtain ⟨delivery, goes, rfl⟩ := Option.map_eq_some_iff.mp delivered
    refine reports_same h.reports (delivery_same goes (fun frame same => ?_) (fun same => ?_))
    · rw [same] at own
      exact own rfl
    · rw [same] at own
      exact own rfl
  | device b =>
    obtain ⟨⟨device, fed⟩, turned, rest⟩ := Option.bind_eq_some_iff.mp step
    obtain ⟨u, feeding, rfl⟩ := Option.map_eq_some_iff.mp rest
    refine device_reports small h.reports turned ?_
    cases fed with
    | none =>
      obtain rfl := Option.some.inj feeding
      rfl
    | some b =>
      obtain ⟨d, goes, rfl⟩ := Option.map_eq_some_iff.mp feeding
      obtain ⟨serving, moved, rfl⟩ := serving_step goes
      exact moved

theorem seen_grows {b : Delivery.Action} (along : Along overwritten session d)
    (step : d.step overwritten b = some d') : d'.seen = d.seen ∨ ∃ v, d'.seen = v :: d.seen := by
  have taken : ∀ {garbage : Bool} {serving : ServeFrame.State Frame},
      d.serving.step (.acquire d.own garbage) = some serving →
      Delivery.State.seen { d with serving := serving } = d.serving.view :: d.seen := by
    intro garbage serving acquires
    obtain ⟨c, here, _, seen⟩ := Delivery.acquired acquires
    exact (Delivery.seen_eq here).trans seen
  have let_go : ∀ {serving : ServeFrame.State Frame}, d.serving.step (.release d.own) = some serving →
      Delivery.State.seen { d with serving := serving } = d.seen := by
    intro serving releases
    obtain ⟨c, here, _, seen⟩ := Delivery.released along.serving releases
    exact (Delivery.seen_eq here).trans seen
  cases b with
  | call => exact Or.inl (entered step).2.2
  | serving action =>
    obtain ⟨foreign, _⟩ := Option.ite_none_left_eq_some.mp step
    obtain ⟨serving, moves, rfl⟩ := serving_step step
    obtain ⟨c, here, _⟩ := along.own
    have others : (∀ garbage, action ≠ .acquire d.own garbage) ∧ action ≠ .release d.own := by
      constructor
      · rintro garbage rfl
        simp [Delivery.consumes] at foreign
      · rintro rfl
        simp [Delivery.consumes] at foreign
    obtain ⟨c', here', same, _⟩ := Delivery.others_leave along.serving here others.1 others.2 moves
    left
    rw [Delivery.seen_eq here', Delivery.seen_eq here, same]
  | acquire garbage =>
    right
    simp only [Delivery.State.step] at step
    split at step
    · obtain ⟨u, served, rfl⟩ := Option.map_eq_some_iff.mp step
      obtain ⟨serving, acquires, rfl⟩ := Delivery.serve_cases served
      exact ⟨_, taken acquires⟩
    · obtain ⟨_, done⟩ := Option.ite_none_right_eq_some.mp step
      obtain ⟨u, served, rfl⟩ := Option.map_eq_some_iff.mp done
      obtain ⟨serving, acquires, rfl⟩ := Delivery.serve_cases served
      exact ⟨_, taken acquires⟩
    · cases step
  | read =>
    left
    simp only [Delivery.State.step] at step
    split at step
    · obtain rfl := Option.some.inj step
      unfold Delivery.State.read
      simp only
      split <;> rfl
    · cases step
  | replicate =>
    left
    simp only [Delivery.State.step] at step
    split at step
    · obtain ⟨_, done⟩ := Option.ite_none_left_eq_some.mp step
      obtain rfl := Option.some.inj done
      rfl
    · cases step
  | release =>
    left
    simp only [Delivery.State.step] at step
    split at step
    all_goals first
      | cases step
      | obtain ⟨u, served, rfl⟩ := Option.map_eq_some_iff.mp step
        obtain ⟨serving, releases, rfl⟩ := Delivery.serve_cases served
        exact let_go releases

theorem continues_before {a : Action} (along : Along overwritten session s.delivery)
    (does : Does overwritten s a t) {stream : Nat → Frame} (continues : Continues stream t.delivery.seen) :
    Continues stream s.delivery.seen := by
  cases does with
  | call free enters => exact (entered enters).2.2 ▸ continues
  | goes device other step not_call =>
    rcases seen_grows along step with same | ⟨v, grown⟩
    · exact same ▸ continues
    · simp only [grown] at continues
      exact continues.2
  | examines device => exact continues

/-- Of the frames the adapter has got only the first can be one from before. -/
theorem seen_reported (h : Sound overwritten frameLen session s) :
    ∀ v ∈ s.delivery.seen.dropLast, Reported frameLen s.device.reads v.frame := by
  obtain ⟨c, here, _⟩ := h.along.own
  have consumer := h.along.serving.consumers _ c here
  rw [Delivery.seen_eq here]
  have numbered : ∀ v ∈ c.seen, 0 < v.number := by
    intro v member
    by_contra zero
    have sent := (consumer.known v member).2
    rw [ServeFrame.State.sentAs, if_pos (by omega)] at sent
    cases sent
  intro v member
  have some_seen : c.seen ≠ [] := by
    intro none_seen
    rw [none_seen] at member
    cases member
  have later : (c.seen.getLast some_seen).number < v.number := by
    have ordered := List.pairwise_map.mp consumer.ordered
    rw [← List.dropLast_append_getLast some_seen, List.pairwise_append] at ordered
    exact ordered.2.2 v member _ List.mem_cons_self
  have first := numbered _ (List.getLast_mem some_seen)
  have sent := (consumer.known v (List.dropLast_subset c.seen member)).2
  rw [ServeFrame.State.sentAs, if_neg (by omega)] at sent
  refine h.reports.sent v.frame (List.mem_iff_getElem?.mpr ⟨v.number - 2, ?_⟩)
  rw [List.getElem?_tail, ← sent]
  congr 1
  omega

end Grab
