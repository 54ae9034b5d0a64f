import GyroDsu.Hiddev.Consumers

/-
The frames a consumer gets as numbers: each one sent as it is, and later than all before it.
-/
namespace ServeFrame
open Pipe Serves

variable {T : Type}

structure ConsumerSound (s : State T) (i : Nat) (c : Consumer T) : Prop where
  serve : c.serve.Sound
  locked : c.serve.locked ↔ s.pc.holds i
  holding : c.serve.consumed → c.seen.head? = some s.view
  ordered : (c.seen.map View.number).Pairwise (· > ·)
  known : ∀ v ∈ c.seen, v.number ∈ s.taken ∧ s.sentAs v.number = some v.frame
  bounded : ∀ v ∈ c.seen, v.number ≤ s.number s.pipe.bufRcv
  due : Due s i c → s.taken ≠ [] ∧ ∀ v ∈ c.seen, v.number < s.number s.pipe.bufRcv

structure Sound (s : State T) : Prop where
  numbered : s.number s.pipe.bufRcv ≤ s.sent.length
  waiting : s.pipe.bufWasSent = true →
    s.number s.pipe.bufRcv < s.sent.length ∧ s.number s.pipe.bufSent = s.sent.length ∧
      s.sentAs s.sent.length = some (s.pipe.object s.pipe.bufSent)
  latest : s.taken.head? = some (s.number s.pipe.bufRcv) ∨ s.taken = []
  received : s.taken ≠ [] → s.sentAs (s.number s.pipe.bufRcv) = some s.pipe.received
  consumers : ∀ i c, s.frames[i]? = some c → ConsumerSound s i c

structure Numbered (s : State T) (due : Prop) (seen : List (View T)) : Prop where
  ordered : (seen.map View.number).Pairwise (· > ·)
  known : ∀ v ∈ seen, v.number ∈ s.taken ∧ s.sentAs v.number = some v.frame
  bounded : ∀ v ∈ seen, v.number ≤ s.number s.pipe.bufRcv
  due : due → s.taken ≠ [] ∧ ∀ v ∈ seen, v.number < s.number s.pipe.bufRcv

theorem consumerSound_iff {s : State T} {i : Nat} {c : Consumer T} :
    ConsumerSound s i c ↔ Attends s (Numbered s) i c := by
  constructor
  · intro h
    exact ⟨h.serve, h.locked, h.holding, h.ordered, h.known, h.bounded, h.due⟩
  · intro h
    exact ⟨h.serve, h.locked, h.holding, h.history.ordered, h.history.known, h.history.bounded,
      h.history.due⟩

theorem numbered_lenient (s : State T) : Lenient (Numbered s) :=
  ⟨fun weaker h => ⟨h.ordered, h.known, h.bounded, fun owed => h.due (weaker owed)⟩⟩

/-- What every consumer will get next has been received and was sent as it is. -/
structure Served (s : State T) : Prop where
  latest : s.taken.head? = some (s.number s.pipe.bufRcv) ∨ s.taken = []
  received : s.taken ≠ [] → s.sentAs (s.number s.pipe.bufRcv) = some s.pipe.received
  consumers : Consumers s (Numbered s)

theorem served_acquired {s : State T} (h : Served s) (seen : List (View T)) (due : Numbered s True seen) :
    Numbered s False (s.view :: seen) := by
  obtain ⟨some_taken, older⟩ := due.due trivial
  refine ⟨?_, ?_, ?_, False.elim⟩
  · rw [List.map_cons, List.pairwise_cons]
    refine ⟨?_, due.ordered⟩
    intro k member
    obtain ⟨v, v_seen, rfl⟩ := List.mem_map.mp member
    exact older v v_seen
  · intro v member
    rcases List.mem_cons.mp member with rfl | before
    · exact ⟨List.mem_of_mem_head? (h.latest.resolve_right some_taken), h.received some_taken⟩
    · exact due.known v before
  · intro v member
    rcases List.mem_cons.mp member with rfl | before
    · exact Nat.le_refl _
    · exact due.bounded v before

theorem numbered_empty (s : State T) : Numbered s False [] := by
  refine ⟨List.Pairwise.nil, ?_, ?_, False.elim⟩
  · intro v member
    cases member
  · intro v member
    cases member

theorem served_of_consumers {s t : State T} (h : Served s) (consumers : Consumers t (Numbered s))
    (pipe : t.pipe = s.pipe) (sent : t.sent = s.sent) (number : t.number = s.number)
    (taken : t.taken = s.taken) : Served t := by
  have sentAs : t.sentAs = s.sentAs := by
    funext k
    rw [State.sentAs, State.sentAs, sent]
  constructor
  · rw [taken, number, pipe]
    exact h.latest
  · rw [taken, number, pipe, sentAs]
    exact h.received
  · refine pipe_consumers consumers rfl rfl rfl fun due seen known => ?_
    exact ⟨known.ordered, by rw [taken, sentAs]; exact known.known, by rw [number, pipe]; exact known.bounded,
      by rw [taken, number, pipe]; exact known.due⟩

theorem quiet_served {s t : State T} {a : Action T} (h : Served s) (quiet : a.quiet)
    (step : s.step a = some t) : Served t := by
  have consumers := quiet_consumers (numbered_lenient s) (numbered_empty s) (served_acquired h)
    h.consumers quiet step
  obtain ⟨pipe, sent, number, taken⟩ := quiet_same quiet step
  exact served_of_consumers h consumers pipe sent number taken

theorem pipe_served {s t : State T} (h : Served s) (frames : t.frames = s.frames) (pc : t.pc = s.pc)
    (view : t.view = s.view) (taken : t.taken = s.taken)
    (sent : ∀ k x, s.sentAs k = some x → t.sentAs k = some x) : Served t := by
  have number : t.number t.pipe.bufRcv = s.number s.pipe.bufRcv := congrArg View.number view
  have received : t.pipe.received = s.pipe.received := congrArg View.frame view
  constructor
  · rw [taken, number]
    exact h.latest
  · rw [taken, number, received]
    exact fun some_taken => sent _ _ (h.received some_taken)
  · refine pipe_consumers h.consumers frames pc view fun due seen known => ?_
    refine ⟨known.ordered, fun v member => ?_, by rw [number]; exact known.bounded,
      by rw [taken, number]; exact known.due⟩
    rw [taken]
    exact ⟨(known.known v member).1, sent _ _ (known.known v member).2⟩

theorem take_served {s t : State T} (h : Served s) (step : s.step .waitForData = some t)
    (newer : s.number s.pipe.bufRcv < s.number s.pipe.bufSent)
    (frame : s.sentAs (s.number s.pipe.bufSent) = some (s.pipe.object s.pipe.bufSent)) : Served t := by
  have older : ∀ seen, Numbered s False seen → ∀ v ∈ seen, v.number < s.number s.pipe.bufSent :=
    fun seen known v member => Nat.lt_of_le_of_lt (known.bounded v member) newer
  have consumers : (∀ seen, Numbered s False seen → Numbered t True seen) → Consumers t (Numbered t) :=
    fun taken => take_consumers (numbered_lenient s) (numbered_lenient t) h.consumers taken step
  cases step_cases step with
  | waitForData =>
    refine ⟨Or.inl rfl, fun _ => frame, consumers fun seen known => ?_⟩
    refine ⟨known.ordered, fun v member => ?_, fun v member => ?_, fun _ => ?_⟩
    · exact ⟨List.mem_cons_of_mem _ (known.known v member).1, (known.known v member).2⟩
    · exact Nat.le_of_lt (older seen known v member)
    · exact ⟨List.cons_ne_nil _ _, older seen known⟩

theorem Sound.served {s : State T} (h : Sound s) : Served s :=
  ⟨h.latest, h.received, fun i c here => consumerSound_iff.mp (h.consumers i c here)⟩

theorem served_sound {s : State T} (h : Served s) (numbered : s.number s.pipe.bufRcv ≤ s.sent.length)
    (waiting : s.pipe.bufWasSent = true →
      s.number s.pipe.bufRcv < s.sent.length ∧ s.number s.pipe.bufSent = s.sent.length ∧
        s.sentAs s.sent.length = some (s.pipe.object s.pipe.bufSent)) : Sound s :=
  ⟨numbered, waiting, h.latest, h.received, fun i c here => consumerSound_iff.mpr (h.consumers i c here)⟩

theorem starts_sound {s : State T} (h : Starts s) : Sound s := by
  have rcv : s.number s.pipe.bufRcv = 0 := by
    rw [h.number, if_neg s.pipe.sent_rcv.symm]
  constructor
  · rw [rcv]
    exact Nat.zero_le _
  · intro was_sent
    have sent := h.sent
    rw [was_sent, if_pos rfl] at sent
    have number := h.number s.pipe.bufSent
    rw [if_pos rfl] at number
    refine ⟨by simp [rcv, sent], number, ?_⟩
    simp [State.sentAs, sent]
  · exact Or.inr h.taken
  · intro some_taken
    exact absurd h.taken some_taken
  · intro i c here
    rw [h.frames] at here
    cases here

@[simp] theorem mark_bufMod (s : State T) (number : Nat) : s.mark number s.pipe.bufMod = number := by
  simp [State.mark]

@[simp] theorem mark_bufRcv (s : State T) (number : Nat) :
    s.mark number s.pipe.bufRcv = s.number s.pipe.bufRcv := by
  simp [State.mark, s.pipe.mod_rcv.symm]

@[simp] theorem mark_bufSent (s : State T) (number : Nat) :
    s.mark number s.pipe.bufSent = s.number s.pipe.bufSent := by
  simp [State.mark, s.pipe.mod_sent.symm]

theorem fill_sound {s : State T} (h : Sound s) (value : T) :
    Sound { s with
      pipe := s.pipe.write s.pipe.bufMod value
      number := s.mark 0 } := by
  have sent_kept := write_other s.pipe value s.pipe.mod_sent.symm
  have rcv_kept := fill_received s.pipe value
  apply served_sound
  · refine pipe_served h.served rfl rfl ?_ rfl fun k x same => same
    simp only [State.view, write_bufRcv, mark_bufRcv, rcv_kept]
  · simp only [write_bufRcv, mark_bufRcv]
    exact h.numbered
  · simp only [write_bufRcv, write_bufSent, write_bufWasSent, mark_bufRcv, mark_bufSent, sent_kept]
    exact h.waiting

theorem sentAs_append (s : State T) (x : T) {k : Nat} {y : T} (known : s.sentAs k = some y) :
    (if k = 0 then none else (s.sent ++ [x])[k - 1]?) = some y := by
  unfold State.sentAs at known
  split at known
  · cases known
  · rename_i positive
    rw [if_neg positive, List.getElem?_append_left (List.getElem?_eq_some_iff.mp known).1]
    exact known

theorem sendData_sound {s : State T} (h : Sound s) :
    Sound { s with
      pipe := s.pipe.sendData
      sent := s.sent ++ [s.pipe.toFill]
      number := s.mark (s.sent.length + 1) } := by
  apply served_sound
  · refine pipe_served h.served rfl rfl ?_ rfl fun k x same => sentAs_append s _ same
    simp only [State.view, sendData_bufRcv, mark_bufRcv, sendData_received]
  · simp only [sendData_bufRcv, mark_bufRcv, List.length_append, List.length_singleton]
    exact Nat.le_succ_of_le h.numbered
  · intro _
    simp only [sendData_bufRcv, sendData_bufSent, sendData_object, mark_bufRcv, mark_bufMod,
      List.length_append, List.length_singleton, State.sentAs]
    refine ⟨Nat.lt_succ_of_le h.numbered, trivial, ?_⟩
    rw [if_neg (by omega), Nat.add_sub_cancel, List.getElem?_concat_length]
    rfl

theorem waitForData_sound {s t : State T} (h : Sound s) (step : s.step .waitForData = some t) : Sound t := by
  cases step_cases step with
  | waitForData waiting sent =>
    obtain ⟨newer, number, frame⟩ := h.waiting sent
    have served := take_served h.served step (by rw [number]; exact newer) (by rw [number]; exact frame)
    refine served_sound served ?_ (fun again => by cases again)
    simp only [take_bufRcv, number, Nat.le_refl]

theorem quiet_sound {s t : State T} {a : Action T} (h : Sound s) (step : s.step a = some t)
    (quiet : a.quiet) : Sound t := by
  obtain ⟨pipe, sent, number, _⟩ := quiet_same quiet step
  apply served_sound (quiet_served h.served quiet step)
  · rw [number, pipe, sent]
    exact h.numbered
  · rw [number, pipe, sent, State.sentAs, sent]
    exact h.waiting

theorem step_sound {s t : State T} {a : Action T} (h : Sound s) (step : s.step a = some t) : Sound t := by
  cases a with
  | fill value =>
    obtain rfl := Option.some.inj step
    exact fill_sound h value
  | sendData =>
    obtain rfl := Option.some.inj step
    exact sendData_sound h
  | waitForData => exact waitForData_sound h step
  | getServe | acquire | release | enter | lock | grow | locked | unlock | leave =>
    exact quiet_sound h step trivial

theorem reachable_sound {s : State T} (reached : Runs.Reachable State.step Starts s) : Sound s :=
  Runs.reachable_invariant Sound (fun _ => starts_sound) (fun _ _ _ h step => step_sound h step) reached

end ServeFrame
