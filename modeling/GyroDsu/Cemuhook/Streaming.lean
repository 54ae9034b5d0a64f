import GyroDsu.Cemuhook.Broadcast
import GyroDsu.Sdgyro.Modes

/-
The Server with the CemuhookAdapter as its motion source, as main constructs it: a persistent
adapter works in place on the motion data of dataAnswer, one call for each packet. Every run
of sendTask takes its frames from a stream of its own.
-/
namespace Streaming
open LittleEndian SdHidFrame CemuhookAdapter AdapterSession Protocol ServerAnswers Server Lifecycle Broadcast

def readMotion (packet : List UInt8) : MotionData where
  timestampL := UInt32.ofNat (load (memory packet) 68 4)
  timestampH := UInt32.ofNat (load (memory packet) 72 4)
  accX := BitVec.ofNat _ (load (memory packet) 76 4)
  accY := BitVec.ofNat _ (load (memory packet) 80 4)
  accZ := BitVec.ofNat _ (load (memory packet) 84 4)
  pitch := BitVec.ofNat _ (load (memory packet) 88 4)
  yaw := BitVec.ofNat _ (load (memory packet) 92 4)
  roll := BitVec.ofNat _ (load (memory packet) 96 4)

def motionWords (m : MotionData) : List Nat :=
  [m.timestampL.toNat, m.timestampH.toNat, m.accX.toNat, m.accY.toNat, m.accZ.toNat, m.pitch.toNat,
    m.yaw.toNat, m.roll.toNat]

theorem readMotion_bytes (d : DataEvent) : readMotion d.bytes = d.motion := by
  obtain ⟨front, length, bytes⟩ : ∃ front : List UInt8, front.length = 68 ∧
      d.bytes = front ++ (motionWords d.motion).flatMap (encode 4) := by
    refine ⟨d.header.bytes ++ (d.response.bytes ++ encode 4 d.packetNumber.toNat ++ d.buttons.toList ++
      d.touch.toList.flatMap fun t => encode 4 t.toNat), ?_, ?_⟩
    · have whole := dataBody_length d
      simp only [DataEvent.body, motionBytes, List.length_append, encode_length] at whole
      simp only [List.length_append, header_length, encode_length]
      omega
    · simp only [DataEvent.bytes, DataEvent.body, motionBytes, motionWords, List.flatMap_cons, List.flatMap_nil,
        List.append_nil, List.append_assoc]
  have word : ∀ k n, (motionWords d.motion)[k]? = some n → load (memory d.bytes) (68 + 4 * k) 4 = n % 256 ^ 4 := by
    intro k n here
    rw [bytes, ← length]
    exact load_words front 4 here
  have whole : ∀ w : UInt32, UInt32.ofNat (w.toNat % 256 ^ 4) = w := by
    intro w
    rw [word_small, UInt32.ofNat_toNat]
  have whole' : ∀ w : Single, BitVec.ofNat _ (w.toNat % 256 ^ 4) = w := by
    intro w
    have small : w.toNat < 256 ^ 4 := w.isLt
    rw [Nat.mod_eq_of_lt small, BitVec.ofNat_toNat, BitVec.setWidth_eq]
  simp only [readMotion, word 0 _ rfl, word 1 _ rfl, word 2 _ rfl, word 3 _ rfl, word 4 _ rfl, word 5 _ rfl,
    word 6 _ rfl, word 7 _ rfl, whole, whole']

/-- The last two are history: what each run of sendTask has started from, and the calls
    of the last one. -/
structure State where
  server : Server.State
  adapter : Adapter
  next : Nat
  sessions : Nat → Option Session
  calls : Nat

inductive Action where
  | datagram (source : Address) (bytes : List UInt8)
  | receiveTimeout
  | server
  | sender (run : Nat)
  | stop

def State.motion (s : State) : MotionData := s.server.answers.dataAnswer.motion

def State.serve (s : State) (a : Server.Action) : Option State :=
  (s.server.step a).map fun server => { s with server := server }

-- The frames of each run.
variable (streams : Nat → Nat → Frame)

def State.startFrameGrab (s : State) (run : Nat) : Option State :=
  (s.serve (.sender run s.motion)).map fun t =>
    { t with
      adapter := s.adapter.startFrameGrab
      next := 0
      sessions := fun r => if r = run then some (enter s.adapter s.motion) else s.sessions r
      calls := 0 }

def State.newFrame (s : State) (run : Nat) : Option State :=
  let r := setMotionDataNewFrame (streams run) s.adapter s.motion s.next
  (s.serve (.sender run r.motion)).map fun t =>
    { t with adapter := r.adapter, next := r.next, calls := s.calls + 1 }

def State.stopFrameGrab (s : State) (run : Nat) : Option State :=
  (s.serve (.sender run s.motion)).map fun t => { t with adapter := s.adapter.stopFrameGrab }

def State.step (s : State) : Action → Option State
  | .datagram source bytes => s.serve (.datagram source bytes)
  | .receiveTimeout => s.serve .receiveTimeout
  | .server => s.serve .server
  | .sender run =>
    (s.server.senders run).bind fun sender =>
      match sender.pc with
      | .start => s.startFrameGrab run
      | .prepare => s.newFrame streams run
      | .stopGrab => s.stopFrameGrab run
      | _ => s.serve (.sender run s.motion)
  | .stop => s.serve .stop

structure Starts (s : State) : Prop where
  server : Server.Starts s.server
  persistent : s.adapter.isPersistent = true
  sessions : ∀ run, s.sessions run = none

-- Between two calls of a persistent adapter nobody else writes to the motion structure.
variable (overwritten : Nat → MotionData)

def State.shown (s : State) (run k : Nat) : Option MotionData :=
  (s.sessions run).map fun session => (session.callAt (streams run) overwritten k).motion

/-- Every DATA packet sent carries what the call of its iteration has left. -/
def Told (shown : Nat → Nat → Option MotionData) : List Event → Prop
  | [] => True
  | .broadcast run _ sent :: log =>
    (∀ d ∈ sent, some (readMotion d.2) = shown run (iterations run log)) ∧ Told shown log
  | .request _ :: log => Told shown log
  | .tick :: log => Told shown log
  | .answer _ _ :: log => Told shown log
  | .removed _ :: log => Told shown log
  | .stopRequest _ :: log => Told shown log

structure Amid (session : Session) (run : Nat) (pc : SenderPc) (s : State) : Prop where
  persistent : session.adapter.isPersistent = true
  calls : s.calls = iterations run s.server.log + if pc = .broadcast then 1 else 0
  adapter : s.adapter = (session.at (streams run) overwritten s.calls).adapter
  next : s.next = (session.at (streams run) overwritten s.calls).next
  motion : s.motion = (session.at (streams run) overwritten s.calls).motion

structure Sound (s : State) : Prop where
  persistent : s.adapter.isPersistent = true
  amid : ∀ run sender, s.server.senders run = some sender → sender.pc ≠ .start → sender.pc ≠ .done →
    ∃ session, s.sessions run = some session ∧ Amid streams overwritten session run sender.pc s
  unstarted : ∀ run, (∀ sender, s.server.senders run = some sender → sender.pc = .start) →
    iterations run s.server.log = 0
  told : Told (s.shown streams overwritten) s.server.log
  entered : ∀ run session, s.sessions run = some session →
    ∃ a motion, session = enter a motion ∧ a.isPersistent = true

theorem iterations_older (run : Nat) (e : Event) (log : List Event) :
    iterations run log ≤ iterations run (e :: log) := by
  cases e with
  | broadcast other packet sent =>
    rw [iterations]
    split <;> omega
  | _ => exact Nat.le_refl _

theorem iterations_append (run : Nat) (newer log : List Event) :
    iterations run log ≤ iterations run (newer ++ log) := by
  induction newer with
  | nil => exact Nat.le_refl _
  | cons e newer ih => exact ih.trans (iterations_older run e (newer ++ log))

theorem told_same {shown shown' : Nat → Nat → Option MotionData} {log : List Event}
    (same : ∀ run, iterations run log ≠ 0 → shown' run = shown run) (told : Told shown log) :
    Told shown' log := by
  induction log with
  | nil => trivial
  | cons e log ih =>
    have older : ∀ run, iterations run log ≠ 0 → shown' run = shown run := by
      intro run some_sent
      refine same run fun none_sent => some_sent ?_
      have := iterations_older run e log
      omega
    cases e with
    | broadcast run packet sent =>
      refine ⟨fun d member => ?_, ih older told.2⟩
      rw [same run (by simp [iterations])]
      exact told.1 d member
    | answer | request | tick | removed | stopRequest => exact ih older told

theorem told_removed {shown : Nat → Nat → Option MotionData} (clients : List Client) {log : List Event} :
    Told shown (clients.map (fun c => .removed c.address) ++ log) ↔ Told shown log := by
  induction clients with
  | nil => rfl
  | cons c clients ih => exact ih

theorem scan_told {shown : Nat → Nat → Option MotionData} {s : Server.State} (increment : Bool)
    (told : Told shown s.log) : Told shown (s.scan increment).log := by
  cases increment <;>
  · simp only [Server.State.scan, List.append_assoc, told_removed]
    exact told

variable {streams overwritten} {s t : State}

theorem serve_cases {a : Server.Action} (done : s.serve a = some t) :
    ∃ server, s.server.step a = some server ∧ t = { s with server := server } := by
  obtain ⟨server, step, rfl⟩ := Option.map_eq_some_iff.mp done
  exact ⟨server, step, rfl⟩

theorem aside_sound {server : Server.State} (h : Sound streams overwritten s)
    (senders : ∀ run sender, server.senders run = some sender →
      s.server.senders run = some sender ∨ s.server.senders run = none ∧ sender.pc = .start)
    (known : ∀ run sender, s.server.senders run = some sender → server.senders run = some sender)
    (motion : server.answers.dataAnswer.motion = s.server.answers.dataAnswer.motion)
    (log : ∀ run, iterations run server.log = iterations run s.server.log)
    (told : Told (s.shown streams overwritten) s.server.log → Told (s.shown streams overwritten) server.log) :
    Sound streams overwritten { s with server := server } := by
  constructor
  · exact h.persistent
  · intro run sender here not_start not_done
    rcases senders run sender here with before | ⟨_, start⟩
    · obtain ⟨session, entered, amid⟩ := h.amid run sender before not_start not_done
      refine ⟨session, entered, amid.persistent, ?_, amid.adapter, amid.next, motion.trans amid.motion⟩
      rw [log]
      exact amid.calls
    · exact absurd start not_start
  · intro run unstarted
    rw [log]
    exact h.unstarted run fun sender here => unstarted sender (known run sender here)
  · exact told h.told
  · exact h.entered

theorem serverStep_sound {server : Server.State} (h : Sound streams overwritten s) (threads : Threads s.server)
    (moves : ServerStep s.server server) : Sound streams overwritten { s with server := server } := by
  cases moves with
  | spawn pc =>
    have new : s.server.senders s.server.runs = none := by
      by_contra known
      exact lt_irrefl _ (threads.fresh s.server.runs known)
    refine aside_sound h (fun run sender here => ?_) (fun run sender here => ?_) rfl (fun _ => rfl) id
    · rcases setSender_cases here with ⟨rfl, rfl⟩ | ⟨_, before⟩
      · exact Or.inr ⟨new, rfl⟩
      · exact Or.inl before
    · refine (setSender_other s.server _ ?_).trans here
      rintro rfl
      cases new.symm.trans here
  | scan increment pc =>
    exact aside_sound h (fun _ _ here => Or.inl here) (fun _ _ here => here) rfl
      (scan_iterations s.server increment) (scan_told increment)
  | port i pc more =>
    exact aside_sound h (fun _ _ here => Or.inl here) (fun _ _ here => here)
      (congrArg DataEvent.motion (info_dataAnswer s.server.answers _ _)) (fun _ => rfl) id
  | _ => exact aside_sound h (fun _ _ here => Or.inl here) (fun _ _ here => here) rfl (fun _ => rfl) id

theorem moved_sound (h : Sound streams overwritten s) (threads : Threads s.server) {run : Nat}
    {sender next : Sender} (here : s.server.senders run = some sender) (unfinished : sender.pc ≠ .done)
    (senders : t.server.senders = (s.server.setSender run next).senders) (started : next.pc ≠ .start)
    (rest : ∀ r, r ≠ run → iterations r t.server.log = iterations r s.server.log)
    (persistent : t.adapter.isPersistent = true)
    (amid : next.pc ≠ .done →
      ∃ session, t.sessions run = some session ∧ Amid streams overwritten session run next.pc t)
    (told : Told (t.shown streams overwritten) t.server.log)
    (entered : ∀ r session, t.sessions r = some session →
      ∃ a motion, session = enter a motion ∧ a.isPersistent = true) : Sound streams overwritten t := by
  refine ⟨persistent, fun r sender' there not_start not_done => ?_, fun r unstarted => ?_, told, entered⟩
  · rw [senders] at there
    rcases setSender_cases there with ⟨rfl, rfl⟩ | ⟨other, before⟩
    · exact amid not_done
    · exact absurd (others_done threads ⟨sender, here, unfinished⟩ before other) not_done
  · by_cases same : r = run
    · rw [senders, same] at unstarted
      exact absurd (unstarted next (setSender_same _ _ _)) started
    · rw [rest r same]
      refine h.unstarted r fun sender' before => unstarted sender' ?_
      rw [senders, setSender_other _ _ same]
      exact before

theorem amid_shown {session : Session} {run : Nat} {pc : SenderPc} {k : Nat}
    (h : Amid streams overwritten session run pc s) (last : s.calls = k + 1) :
    s.motion = (session.callAt (streams run) overwritten k).motion := by
  rw [h.motion, last, Modes.motion_between, if_pos h.persistent]

theorem start_sound {run : Nat} {sender : Sender} (h : Sound streams overwritten s) (threads : Threads s.server)
    (here : s.server.senders run = some sender) (start : sender.pc = .start)
    (step : s.startFrameGrab run = some t) : Sound streams overwritten t := by
  obtain ⟨u, served, rfl⟩ := Option.map_eq_some_iff.mp step
  obtain ⟨server, moved, rfl⟩ := serve_cases served
  obtain ⟨sender', here', sends⟩ := Option.bind_eq_some_iff.mp moved
  obtain rfl := Option.some.inj (here.symm.trans here')
  have none_sent : iterations run s.server.log = 0 := by
    refine h.unstarted run fun other there => ?_
    obtain rfl := Option.some.inj (here.symm.trans there)
    exact start
  cases senderStep_cases sends with
  | start pc =>
    refine moved_sound h threads here (by simp [start]) rfl (by simp) (fun _ _ => rfl) h.persistent
      (fun _ => ⟨_, if_pos rfl, h.persistent, ?_, rfl, rfl, rfl⟩) ?_ (fun r session entered => ?_)
    · simp only [reduceCtorEq, if_false, Nat.add_zero]
      exact none_sent.symm
    · refine told_same (fun r some_sent => ?_) h.told
      have other : r ≠ run := by
        rintro rfl
        exact some_sent none_sent
      funext k
      simp only [State.shown, other, if_false]
    · simp only at entered
      split at entered
      · exact ⟨s.adapter, s.motion, (Option.some.inj entered).symm, h.persistent⟩
      · exact h.entered r session entered
  | stops pc | goes pc | prepare pc | broadcast pc | tick pc | noTick pc | stopGrab pc =>
    rw [start] at pc
    cases pc

theorem prepare_sound {run : Nat} {sender : Sender} (h : Sound streams overwritten s) (threads : Threads s.server)
    (here : s.server.senders run = some sender) (prepare : sender.pc = .prepare)
    (step : s.newFrame streams run = some t) : Sound streams overwritten t := by
  obtain ⟨u, served, rfl⟩ := Option.map_eq_some_iff.mp step
  obtain ⟨server, moved, rfl⟩ := serve_cases served
  obtain ⟨sender', here', sends⟩ := Option.bind_eq_some_iff.mp moved
  obtain rfl := Option.some.inj (here.symm.trans here')
  obtain ⟨session, entered, amid⟩ := h.amid run sender here (by simp [prepare]) (by simp [prepare])
  have call : setMotionDataNewFrame (streams run) s.adapter s.motion s.next =
      session.callAt (streams run) overwritten s.calls := by
    rw [amid.adapter, amid.next, amid.motion]
    rfl
  have kept : (session.callAt (streams run) overwritten s.calls).adapter.isPersistent = true := by
    rw [Session.callAt, Modes.call_persistence, Modes.at_persistence]
    exact amid.persistent
  cases senderStep_cases sends with
  | prepare pc =>
    refine moved_sound h threads here (by simp [prepare]) rfl (by simp) (fun _ _ => rfl) ?_
      (fun _ => ⟨session, entered, amid.persistent, ?_, ?_, ?_, ?_⟩) h.told h.entered
    · rw [call]
      exact kept
    · have calls := amid.calls
      rw [prepare] at calls
      simp only [reduceCtorEq, if_false, Nat.add_zero] at calls
      simp only [if_true, calls]
      rfl
    · rw [call]
      rfl
    · rw [call]
      rfl
    · have between : (session.at (streams run) overwritten (s.calls + 1)).motion = _ := Modes.motion_between session s.calls
      rw [if_pos amid.persistent] at between
      rw [between, ← call]
      rfl
  | start pc | stops pc | goes pc | broadcast pc | tick pc | noTick pc | stopGrab pc =>
    rw [prepare] at pc
    cases pc

theorem broadcast_sound {run : Nat} {sender : Sender} {server : Server.State} (h : Sound streams overwritten s)
    (threads : Threads s.server) (here : s.server.senders run = some sender) (sends : sender.pc = .broadcast)
    (moves : SenderStep s.server run sender s.motion server) :
    Sound streams overwritten { s with server := server } := by
  obtain ⟨session, entered, amid⟩ := h.amid run sender here (by simp [sends]) (by simp [sends])
  have calls := amid.calls
  rw [if_pos sends] at calls
  cases moves with
  | broadcast pc =>
    have motion : (sendData Client.id s.server.answers.dataAnswer s.server.clients).1.motion = s.motion := by
      obtain ⟨id, crc, same⟩ := sendData_last Client.id s.server.answers.dataAnswer s.server.clients
      rw [same]
      rfl
    refine moved_sound h threads here (by simp [sends]) rfl (by simp) (fun r other => ?_) h.persistent
      (fun _ => ⟨session, entered, amid.persistent, ?_, amid.adapter, amid.next, motion.trans amid.motion⟩)
      ⟨fun d member => ?_, h.told⟩ h.entered
    · simp only [iterations, if_neg (Ne.symm other)]
    · simp only [iterations, if_true, reduceCtorEq, if_false, Nat.add_zero]
      exact calls
    · simp only [sendData_sent] at member
      obtain ⟨c, _, rfl⟩ := List.mem_map.mp member
      rw [readMotion_bytes]
      have shown := amid_shown amid calls
      simp only [State.shown, entered, Option.map_some, Option.some.injEq]
      exact shown
  | start pc | stops pc | goes pc | prepare pc | tick pc | noTick pc | stopGrab pc =>
    rw [sends] at pc
    cases pc

theorem stop_sound {run : Nat} {sender : Sender} (h : Sound streams overwritten s) (threads : Threads s.server)
    (here : s.server.senders run = some sender) (stop : sender.pc = .stopGrab)
    (step : s.stopFrameGrab run = some t) : Sound streams overwritten t := by
  obtain ⟨u, served, rfl⟩ := Option.map_eq_some_iff.mp step
  obtain ⟨server, moved, rfl⟩ := serve_cases served
  obtain ⟨sender', here', sends⟩ := Option.bind_eq_some_iff.mp moved
  obtain rfl := Option.some.inj (here.symm.trans here')
  cases senderStep_cases sends with
  | stopGrab pc =>
    exact moved_sound h threads here (by simp [stop]) rfl (by simp) (fun _ _ => rfl) h.persistent
      (fun unfinished => absurd rfl unfinished) h.told h.entered
  | start pc | stops pc | goes pc | prepare pc | broadcast pc | tick pc | noTick pc =>
    rw [stop] at pc
    cases pc

theorem quiet_sound {run : Nat} {sender : Sender} {server : Server.State} (h : Sound streams overwritten s)
    (threads : Threads s.server) (here : s.server.senders run = some sender)
    (quiet : sender.pc = .test ∨ sender.pc = .count)
    (moves : SenderStep s.server run sender s.motion server) :
    Sound streams overwritten { s with server := server } := by
  obtain ⟨session, entered, amid⟩ := h.amid run sender here (by rcases quiet with pc | pc <;> simp [pc])
    (by rcases quiet with pc | pc <;> simp [pc])
  have calls := amid.calls
  rw [if_neg (by rcases quiet with pc | pc <;> simp [pc])] at calls
  have passes : ∀ {next : Sender} {server : Server.State}, next.pc ≠ .start → next.pc ≠ .broadcast →
      server.senders = (s.server.setSender run next).senders →
      server.answers = s.server.answers → (∀ r, iterations r server.log = iterations r s.server.log) →
      Told (s.shown streams overwritten) server.log →
      Sound streams overwritten { s with server := server } := by
    intro next server started silent senders answers log told
    refine moved_sound h threads here (by rcases quiet with pc | pc <;> simp [pc]) senders started
      (fun r _ => log r) h.persistent
      (fun _ => ⟨session, entered, amid.persistent, ?_, amid.adapter, amid.next, ?_⟩) told h.entered
    · rw [if_neg silent, log]
      exact calls
    · rw [← amid.motion]
      simp only [State.motion, answers]
  cases moves with
  | stops pc => exact passes (by simp) (by simp) rfl rfl (fun _ => rfl) h.told
  | goes pc => exact passes (by simp) (by simp) rfl rfl (fun _ => rfl) h.told
  | tick pc | noTick pc => exact passes (by simp) (by simp) rfl rfl (fun _ => rfl) h.told
  | start pc | prepare pc | broadcast pc | stopGrab pc =>
    rcases quiet with quiet | quiet <;>
    · rw [quiet] at pc
      cases pc

theorem sender_sound {run : Nat} (h : Sound streams overwritten s) (threads : Threads s.server)
    (step : s.step streams (.sender run) = some t) : Sound streams overwritten t := by
  obtain ⟨sender, here, done⟩ := Option.bind_eq_some_iff.mp step
  have moves : s.serve (.sender run s.motion) = some t →
      ∃ server, SenderStep s.server run sender s.motion server ∧ t = { s with server := server } := by
    intro served
    obtain ⟨server, moved, rfl⟩ := serve_cases served
    obtain ⟨sender', here', sends⟩ := Option.bind_eq_some_iff.mp moved
    obtain rfl := Option.some.inj (here.symm.trans here')
    exact ⟨server, senderStep_cases sends, rfl⟩
  cases pc : sender.pc with
  | start =>
    simp only [pc] at done
    exact start_sound h threads here pc done
  | prepare =>
    simp only [pc] at done
    exact prepare_sound h threads here pc done
  | stopGrab =>
    simp only [pc] at done
    exact stop_sound h threads here pc done
  | broadcast =>
    simp only [pc] at done
    obtain ⟨server, sends, rfl⟩ := moves done
    exact broadcast_sound h threads here pc sends
  | test =>
    simp only [pc] at done
    obtain ⟨server, quiet, rfl⟩ := moves done
    exact quiet_sound h threads here (Or.inl pc) quiet
  | count =>
    simp only [pc] at done
    obtain ⟨server, quiet, rfl⟩ := moves done
    exact quiet_sound h threads here (Or.inr pc) quiet
  | done =>
    simp only [pc] at done
    obtain ⟨server, ends, _⟩ := moves done
    cases ends with
    | start pc' | stops pc' | goes pc' | prepare pc' | broadcast pc' | tick pc' | noTick pc' | stopGrab pc' =>
      cases pc.symm.trans pc'

theorem step_sound {a : Action} (h : Sound streams overwritten s) (threads : Threads s.server)
    (step : s.step streams a = some t) : Sound streams overwritten t := by
  cases a with
  | sender run => exact sender_sound h threads step
  | datagram source bytes =>
    obtain ⟨server, moved, rfl⟩ := serve_cases step
    cases step_cases moved with
    | header | short => exact aside_sound h (fun _ _ here => Or.inl here) (fun _ _ here => here) rfl (fun _ => rfl) id
  | receiveTimeout =>
    obtain ⟨server, moved, rfl⟩ := serve_cases step
    cases step_cases moved with
    | receiveTimeout => exact aside_sound h (fun _ _ here => Or.inl here) (fun _ _ here => here) rfl (fun _ => rfl) id
  | server =>
    obtain ⟨server, moved, rfl⟩ := serve_cases step
    cases step_cases moved with
    | server moves => exact serverStep_sound h threads moves
  | stop =>
    obtain ⟨server, moved, rfl⟩ := serve_cases step
    cases step_cases moved with
    | stop => exact aside_sound h (fun _ _ here => Or.inl here) (fun _ _ here => here) rfl (fun _ => rfl) id

theorem step_served {a : Action} (step : s.step streams a = some t) :
    ∃ b, s.server.step b = some t.server := by
  have serves : ∀ {b : Server.Action} {u : State}, s.serve b = some u → s.server.step b = some u.server := by
    intro b u served
    obtain ⟨server, moved, rfl⟩ := serve_cases served
    exact moved
  cases a with
  | datagram source bytes => exact ⟨_, serves step⟩
  | receiveTimeout => exact ⟨_, serves step⟩
  | server => exact ⟨_, serves step⟩
  | stop => exact ⟨_, serves step⟩
  | sender run =>
    obtain ⟨sender, here, done⟩ := Option.bind_eq_some_iff.mp step
    split at done
    · obtain ⟨u, served, rfl⟩ := Option.map_eq_some_iff.mp done
      have moved := serves served
      exact ⟨_, moved⟩
    · obtain ⟨u, served, rfl⟩ := Option.map_eq_some_iff.mp done
      have moved := serves served
      exact ⟨_, moved⟩
    · obtain ⟨u, served, rfl⟩ := Option.map_eq_some_iff.mp done
      have moved := serves served
      exact ⟨_, moved⟩
    · exact ⟨_, serves done⟩

theorem starts_sound (h : Starts s) : Sound streams overwritten s := by
  refine ⟨h.persistent, fun run sender here => ?_, fun run _ => ?_, ?_, fun run session entered => ?_⟩
  · rw [h.server.senders run] at here
    cases here
  · rw [h.server.log]
    rfl
  · rw [h.server.log]
    trivial
  · rw [h.sessions run] at entered
    cases entered

theorem reachable_sound (reached : Runs.Reachable (State.step streams) Starts s) :
    Sound streams overwritten s := by
  have both : Sound streams overwritten s ∧ Lifecycle.Sound s.server := by
    refine Runs.reachable_invariant (fun s => Sound streams overwritten s ∧ Lifecycle.Sound s.server) ?_ ?_ reached
    · intro s starts
      exact ⟨starts_sound starts, Lifecycle.starts_sound starts.server⟩
    · rintro s a t ⟨sound, threads⟩ step
      obtain ⟨b, served⟩ := step_served step
      exact ⟨step_sound sound threads.threads step, Lifecycle.step_sound threads served⟩
  exact both.1

theorem told_at {shown : Nat → Nat → Option MotionData} {newer older : List Event} {run : Nat} {packet : UInt32}
    {sent : List (Client × List UInt8)} (told : Told shown (newer ++ .broadcast run packet sent :: older)) :
    ∀ d ∈ sent, some (readMotion d.2) = shown run (iterations run older) := by
  induction newer with
  | nil => exact told.1
  | cons e newer ih =>
    cases e with
    | broadcast other packet' sent' => exact ih told.2
    | answer | request | tick | removed | stopRequest => exact ih told

/-- However clients come and go and runs of sendTask start and stop: every DATA packet any client has
    been sent carries the motion data of one call of the session of its run, the call that
    has the number of the iteration, on the frames of that run. -/
theorem packets_show_session (reached : Runs.Reachable (State.step streams) Starts s)
    {newer older : List Event} {run : Nat} {packet : UInt32} {sent : List (Client × List UInt8)}
    (log : s.server.log = newer ++ .broadcast run packet sent :: older) (some_client : sent ≠ []) :
    ∃ a motion, s.sessions run = some (enter a motion) ∧ a.isPersistent = true ∧
      ∀ overwritten, ∀ d ∈ sent, readMotion d.2 =
        ((enter a motion).callAt (streams run) overwritten (iterations run older)).motion := by
  obtain ⟨d, rest, rfl⟩ := List.exists_cons_of_ne_nil some_client
  have told : ∀ overwritten, ∀ e ∈ d :: rest,
      some (readMotion e.2) = s.shown streams overwritten run (iterations run older) := by
    intro overwritten
    have sound : Sound streams overwritten s := reachable_sound reached
    exact told_at (log ▸ sound.told)
  cases entered : s.sessions run with
  | none =>
    have here := told (fun _ => still) d List.mem_cons_self
    rw [State.shown, entered] at here
    cases here
  | some session =>
    have sound : Sound streams (fun _ => still) s := reachable_sound reached
    obtain ⟨a, motion, rfl, persistent⟩ := sound.entered run _ entered
    refine ⟨a, motion, rfl, persistent, fun overwritten e member => ?_⟩
    have here := told overwritten e member
    rw [State.shown, entered, Option.map_some] at here
    exact Option.some.inj here

theorem last_emission (overwritten : Nat → MotionData) {a : Adapter} (motion : MotionData) (idle : a.toReplicate = 0)
    (persistent : a.isPersistent = true) (stream : Nat → Frame) (k : Nat) :
    ∃ j ≤ k, ((enter a motion).callAt stream overwritten j).exit ≠ .repeated ∧
      ((enter a motion).callAt stream overwritten k).motion =
        ((enter a motion).callAt stream overwritten j).motion ∧
      ∀ i, j < i → i ≤ k → ((enter a motion).callAt stream overwritten i).exit = .repeated := by
  have follows : Follows stream (enter a motion) (startLine a.smoothing) := enter_follows a motion idle
  induction k with
  | zero =>
    refine ⟨0, Nat.le_refl 0, ?_, rfl, fun i after upto => absurd (Nat.lt_of_lt_of_le after upto) (Nat.lt_irrefl 0)⟩
    rw [(Timeline.emitted_beside overwritten follows 0).1, GapFill.Line.emitted]
    rcases GapFill.call_cases rules (frames stream) (startLine a.smoothing) with
      ⟨_, _, _, result⟩ | ⟨_, _, all⟩ | ⟨i, _, _, _, _, result⟩
    · exact Option.isSome_iff_exists.mpr ⟨_, congrArg Prod.fst result⟩
    · cases all 0 (Nat.zero_le _)
    · exact Option.isSome_iff_exists.mpr ⟨_, congrArg Prod.fst result⟩
  | succ k ih =>
    by_cases vain : ((enter a motion).callAt stream overwritten (k + 1)).exit = .repeated
    · obtain ⟨j, before, loud, same, silent⟩ := ih
      refine ⟨j, Nat.le_succ_of_le before, loud, Eq.trans ?_ same, fun i after upto => ?_⟩
      · have between : ((enter a motion).at stream overwritten (k + 1)).motion = _ :=
          Modes.motion_between (enter a motion) k
        have kept : (enter a motion).adapter.isPersistent = true := persistent
        rw [if_pos kept] at between
        rw [← between]
        rcases callAt_follows overwritten follows (k + 1) with
          ⟨_, ⟨exit, _⟩ | ⟨_, _, _, left, _⟩ | ⟨p, exit, _⟩⟩
        · cases vain.symm.trans exit
        · exact left
        · cases vain.symm.trans exit
      · rcases Nat.lt_or_eq_of_le upto with earlier | rfl
        · exact silent i after (Nat.le_of_lt_succ earlier)
        · exact vain
    · exact ⟨k + 1, Nat.le_refl _, vain, rfl, fun i after upto => absurd (Nat.lt_of_lt_of_le after upto) (Nat.lt_irrefl _)⟩

theorem motions_monotone {a : Adapter} (motion : MotionData) (idle : a.toReplicate = 0)
    (persistent : a.isPersistent = true) {stream : Nat → Frame}
    (counted : ∀ i, (frames stream i).increment ≠ 0) {k m : Nat} (later : k ≤ m) :
    timestamp ((enter a motion).callAt stream overwritten k).motion ≤
        timestamp ((enter a motion).callAt stream overwritten m).motion ∨
      ∃ i p q, k < i ∧ i ≤ m ∧ ((enter a motion).callAt stream overwritten i).exit = .accepted p ∧
        ((enter a motion).at stream overwritten i).source = some q ∧
        Timeline.increment stream p + 100 ≤ Timeline.increment stream q := by
  have follows : Follows stream (enter a motion) (startLine a.smoothing) := enter_follows a motion idle
  obtain ⟨j, before, loud, same, silent⟩ := last_emission overwritten motion idle persistent stream k
  obtain ⟨j', before', loud', same', silent'⟩ := last_emission overwritten motion idle persistent stream m
  rw [same, same']
  rcases Nat.lt_trichotomy j j' with less | equal | more
  · rcases Timeline.stamps_monotone follows rfl counted less loud loud' with
      grows | ⟨i, p, q, after, upto, exit, source, falls⟩
    · exact Or.inl grows
    · refine Or.inr ⟨i, p, q, ?_, Nat.le_trans upto before', exit, source, falls⟩
      by_contra early
      cases exit.symm.trans (silent i after (Nat.le_of_not_lt early))
  · rw [equal]
    exact Or.inl (Nat.le_refl _)
  · exact absurd (silent' j more (Nat.le_trans before later)) loud

/-- What clients get from one run of sendTask never goes back in time, unless between the two calls the
    counter of an accepted frame has fallen by 100 or more; the run has to have started with
    nothing left to replicate. -/
theorem time_goes_on (overwritten : Nat → MotionData) (reached : Runs.Reachable (State.step streams) Starts s)
    {newer middle older : List Event} {run : Nat} {packet packet' : UInt32}
    {sent sent' : List (Client × List UInt8)}
    (log : s.server.log =
      newer ++ .broadcast run packet' sent' :: (middle ++ .broadcast run packet sent :: older))
    (idle : ∀ session, s.sessions run = some session → session.adapter.toReplicate = 0)
    (counted : ∀ i, (frames (streams run) i).increment ≠ 0) :
    ∀ d ∈ sent, ∀ d' ∈ sent', timestamp (readMotion d.2) ≤ timestamp (readMotion d'.2) ∨
      ∃ session i p q, s.sessions run = some session ∧ iterations run older < i ∧
        i ≤ iterations run (middle ++ .broadcast run packet sent :: older) ∧
        (session.callAt (streams run) overwritten i).exit = .accepted p ∧
        (session.at (streams run) overwritten i).source = some q ∧
        Timeline.increment (streams run) p + 100 ≤ Timeline.increment (streams run) q := by
  intro d member d' member'
  obtain ⟨a, motion, entered, persistent, shows'⟩ :=
    packets_show_session reached log (List.ne_nil_of_mem member')
  have log' : s.server.log =
      (newer ++ .broadcast run packet' sent' :: middle) ++ .broadcast run packet sent :: older := by
    rw [log, List.append_assoc, List.cons_append]
  obtain ⟨a', motion', entered', _, shows⟩ :=
    packets_show_session reached log' (List.ne_nil_of_mem member)
  rw [Option.some.inj (entered'.symm.trans entered)] at shows
  rw [shows overwritten d member, shows' overwritten d' member']
  have later : iterations run older ≤ iterations run (middle ++ .broadcast run packet sent :: older) :=
    (iterations_older run _ older).trans (iterations_append run middle _)
  rcases motions_monotone motion (idle _ entered) persistent counted later with
    grows | ⟨i, p, q, after, upto, exit, source, falls⟩
  · exact Or.inl grows
  · exact Or.inr ⟨enter a motion, i, p, q, entered, after, upto, exit, source, falls⟩

theorem motions_alike {a a' : Adapter} (motion motion' : MotionData) (idle : a.toReplicate = 0)
    (idle' : a'.toReplicate = 0) (persistent : a.isPersistent = true) (persistent' : a'.isPersistent = true)
    (stream : Nat → Frame) (k : Nat) :
    timestamp ((enter a motion).callAt stream overwritten k).motion =
        timestamp ((enter a' motion').callAt stream overwritten k).motion ∧
      Isolation.gyro ((enter a motion).callAt stream overwritten k).motion =
        Isolation.gyro ((enter a' motion').callAt stream overwritten k).motion := by
  have alike : ∀ i, Isolation.sample ((enter a motion).callAt stream overwritten i) =
      Isolation.sample ((enter a' motion').callAt stream overwritten i) :=
    fun i => (Isolation.idle_same idle idle' motion motion' stream overwritten overwritten i).2
  have both_vain : ∀ i, ((enter a motion).callAt stream overwritten i).exit = .repeated ↔
      ((enter a' motion').callAt stream overwritten i).exit = .repeated := by
    intro i
    have same := alike i
    unfold Isolation.sample at same
    constructor
    · intro vain
      rw [if_pos vain] at same
      by_contra loud
      rw [if_neg loud] at same
      cases same
    · intro vain
      rw [if_pos vain] at same
      by_contra loud
      rw [if_neg loud] at same
      cases same
  obtain ⟨j, before, loud, same, silent⟩ := last_emission overwritten motion idle persistent stream k
  obtain ⟨j', before', loud', same', silent'⟩ := last_emission overwritten motion' idle' persistent' stream k
  rcases Nat.lt_trichotomy j j' with less | rfl | more
  · exact absurd ((both_vain j').mp (silent j' less before')) loud'
  · have emitted := alike j
    rw [Isolation.sample, Isolation.sample, if_neg loud, if_neg loud'] at emitted
    rw [same, same']
    exact Prod.mk.inj (Option.some.inj emitted)
  · exact absurd ((both_vain j).mpr (silent' j more before)) loud

/-- Whatever two servers have been through, their clients get the same timestamps and gyro values from runs
    of sendTask on the same frames, if both runs have started with nothing left to replicate. -/
theorem packets_forget_sessions {streams' : Nat → Nat → Frame} {s' : State}
    (reached : Runs.Reachable (State.step streams) Starts s)
    (reached' : Runs.Reachable (State.step streams') Starts s')
    {newer older newer' older' : List Event} {run run' : Nat} {packet packet' : UInt32}
    {sent sent' : List (Client × List UInt8)}
    (log : s.server.log = newer ++ .broadcast run packet sent :: older)
    (log' : s'.server.log = newer' ++ .broadcast run' packet' sent' :: older')
    (idle : ∀ session, s.sessions run = some session → session.adapter.toReplicate = 0)
    (idle' : ∀ session, s'.sessions run' = some session → session.adapter.toReplicate = 0)
    (same_frames : streams run = streams' run') (same_iteration : iterations run older = iterations run' older') :
    ∀ d ∈ sent, ∀ d' ∈ sent', timestamp (readMotion d.2) = timestamp (readMotion d'.2) ∧
      Isolation.gyro (readMotion d.2) = Isolation.gyro (readMotion d'.2) := by
  intro d member d' member'
  obtain ⟨a, motion, entered, persistent, shows⟩ := packets_show_session reached log (List.ne_nil_of_mem member)
  obtain ⟨a', motion', entered', persistent', shows'⟩ :=
    packets_show_session reached' log' (List.ne_nil_of_mem member')
  rw [shows (fun _ => still) d member, shows' (fun _ => still) d' member', ← same_iteration, ← same_frames]
  exact motions_alike motion motion' (idle _ entered) (idle' _ entered') persistent persistent' (streams run) _

def ready : State := ⟨Server.started, Timeline.idleAdapter, 0, fun _ => none, 0⟩

theorem ready_starts : Starts ready := ⟨started_starts, rfl, fun _ => rfl⟩

def subscription : List Action :=
  .server :: .datagram ⟨1, 1⟩ (dataRequest 7) :: List.replicate 6 .server ++ List.replicate 8 (.sender 0)

def gaps : Nat → Nat → Frame := fun _ => Timeline.shortGap

theorem two_packets :
    ∃ s sent sent', Runs.Reachable (State.step gaps) Starts s ∧
      s.server.log = [] ++ .broadcast 0 2 sent' :: ([] ++ .broadcast 0 1 sent :: [.request ⟨1, 1⟩]) ∧
      sent.map Prod.fst = [⟨⟨1, 1⟩, 7, 0⟩] ∧ sent'.map Prod.fst = [⟨⟨1, 1⟩, 7, 0⟩] ∧
      ∀ session, s.sessions 0 = some session → session.adapter.toReplicate = 0 := by
  have run : Runs.Run (State.step gaps) ready subscription.reverse _ := Runs.run_of_execute rfl
  refine ⟨_, _, _, ⟨ready, _, ready_starts, run⟩, rfl, rfl, rfl, fun session entered => ?_⟩
  obtain rfl := Option.some.inj entered
  rfl

theorem sent_some {sent : List (Client × List UInt8)} {client : Client} (clients : sent.map Prod.fst = [client]) :
    sent ≠ [] := by
  rintro rfl
  cases clients

theorem packets_show_session_second :
    ∃ (s : State) (sent' : List (Client × List UInt8)) (a : Adapter) (motion : MotionData),
      sent'.map Prod.fst = [⟨⟨1, 1⟩, 7, 0⟩] ∧ s.sessions 0 = some (enter a motion) ∧
      ∀ d ∈ sent', readMotion d.2 =
        ((enter a motion).callAt Timeline.shortGap (fun _ => still) 1).motion := by
  obtain ⟨s, sent, sent', reached, log, _, clients, _⟩ := two_packets
  obtain ⟨a, motion, entered, _, shows⟩ := packets_show_session reached log (sent_some clients)
  exact ⟨s, sent', a, motion, clients, entered, shows _⟩

theorem gap_counters (i : Nat) : (frames Timeline.shortGap i).increment = if i < 2 then 10 else 13 := by
  by_cases first : i < 2
  · simp only [frames, Timeline.shortGap, first, if_true]
    decide
  · simp only [frames, Timeline.shortGap, first, if_false]
    decide

theorem gaps_counted (i : Nat) : (frames (gaps 0) i).increment ≠ 0 := by
  rw [gaps, gap_counters]
  split <;> decide

theorem time_goes_on_two :
    ∃ (sent sent' : List (Client × List UInt8)), sent ≠ [] ∧ sent' ≠ [] ∧
      ∀ d ∈ sent, ∀ d' ∈ sent', timestamp (readMotion d.2) ≤ timestamp (readMotion d'.2) := by
  obtain ⟨s, sent, sent', reached, log, clients, clients', idle⟩ := two_packets
  refine ⟨sent, sent', sent_some clients, sent_some clients', fun d member d' member' => ?_⟩
  rcases time_goes_on (fun _ => still) reached log idle gaps_counted d member d' member' with
    grows | ⟨_, _, p, q, _, _, _, _, _, falls⟩
  · exact grows
  · simp only [Timeline.increment, gaps, gap_counters] at falls
    split at falls <;> split at falls <;> simp at falls

theorem packets_forget_sessions_second :
    ∃ sent sent' : List (Client × List UInt8), sent ≠ [] ∧ sent' ≠ [] ∧
      ∀ d ∈ sent, ∀ d' ∈ sent', timestamp (readMotion d.2) = timestamp (readMotion d'.2) ∧
        Isolation.gyro (readMotion d.2) = Isolation.gyro (readMotion d'.2) := by
  obtain ⟨s, _, sent, reached, log, _, clients, idle⟩ := two_packets
  obtain ⟨s', _, sent', reached', log', _, clients', idle'⟩ := two_packets
  exact ⟨sent, sent', sent_some clients, sent_some clients',
    packets_forget_sessions reached reached' log log' idle idle' rfl rfl⟩

end Streaming
