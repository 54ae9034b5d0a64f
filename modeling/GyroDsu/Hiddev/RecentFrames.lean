import GyroDsu.Hiddev.Restart

/-
The frames the adapter has in a session. What an earlier session has left in the pipe is
served at most once, and the adapter ignores the first frame.
-/
namespace Restart
open Pipe Serves ServeFrame Stopping Runs

variable {size : Nat} {V : Type}

def histories (p : Stopping.State size (V × Nat)) : List (List (View (Frame size (V × Nat)))) :=
  p.base.frames.map Consumer.seen

/-- StartFrameGrab has begun and StopFrameGrab has not. -/
def Place.inSession : Place → Bool
  | .startReadData | .startServeFrame | .getServe | .grabbing => true
  | _ => false

structure Sound (s : State size V) : Prop where
  session : s.place.inSession = true → Session s.pipeline s.session s.takes
  alone : s.place ≠ .grabbing → histories s.pipeline = []
  first : s.place.inSession = true → s.place ≠ .grabbing → s.ignoreFirst = true
  dropped : ∀ seen, (histories s.pipeline).head? = some seen → (s.ignoreFirst = true ↔ seen = [])
  filling : s.pipeline.filling = true → s.readData = .reading
  halted : s.place = .out → s.readData = .off

def keepsHistory {P : Type} : Stopping.Action size P → Bool
  | .serve .getServe | .serve (.acquire _ _) => false
  | _ => true

theorem step_histories {p q : Stopping.State size (V × Nat)} {a : Stopping.Action size (V × Nat)}
    (step : p.step true a = some q) (keeps : keepsHistory a = true) : histories q = histories p := by
  cases step_cases step with
  | beginFill | fillPiece | sendData | enter | flushPipes | aside => rfl
  | serve a base inside moved =>
    apply ServeFrame.step_histories moved
    · rintro rfl
      cases keeps
    · rintro i garbage rfl
      cases keeps
  | leave base moved => exact ServeFrame.step_histories moved (by simp) (by simp)

theorem acquire_histories {p q : Stopping.State size (V × Nat)} {garbage : Bool}
    (step : p.step true (.serve (.acquire 0 garbage)) = some q) :
    (histories q).head? ≠ some [] := by
  obtain ⟨_, base, acquired, rfl⟩ := serve_cases step
  obtain ⟨c, here, rest⟩ := Option.bind_eq_some_iff.mp acquired
  obtain ⟨serve, _, rfl⟩ := Option.map_eq_some_iff.mp rest
  rw [histories, List.head?_map, List.head?_eq_getElem?,
    List.getElem?_set_self (List.getElem?_eq_some_iff.mp here).1]
  simp

theorem getServe_histories {p q : Stopping.State size (V × Nat)}
    (step : p.step true (.serve .getServe) = some q) : histories q = histories p ++ [[]] := by
  obtain ⟨_, base, joined, rfl⟩ := serve_cases step
  obtain ⟨_, done⟩ := Option.ite_none_right_eq_some.mp joined
  obtain rfl := Option.some.inj done
  simp [histories]

theorem step_filling {p q : Stopping.State size (V × Nat)} {a : Stopping.Action size (V × Nat)}
    (step : p.step true a = some q) (begins : a ≠ .beginFill) (filling : q.filling = true) :
    p.filling = true ∧ a ≠ .sendData := by
  cases step_cases step with
  | beginFill => exact absurd rfl begins
  | sendData => cases filling
  | serve | fillPiece | enter | leave | flushPipes => exact ⟨filling, by simp⟩
  | aside a quiet =>
    refine ⟨filling, ?_⟩
    rintro rfl
    cases quiet

theorem piped_sound {s t : State size V} {a : Stopping.Action size (V × Nat)} (h : Sound s)
    (step : s.piped a = some t) (keeps : keepsHistory a = true) (begins : a = .beginFill → s.readData = .reading)
    (tagged : ∀ value, a = .fillPiece value → value.2 = s.session)
    (flushes : a = .flushPipes → s.place.inSession = false) : Sound t := by
  obtain ⟨p, moved, rfl⟩ := Option.map_eq_some_iff.mp step
  have same := step_histories moved keeps
  constructor
  · intro inSession
    apply step_session (h.session inSession) moved tagged
    intro flush
    simp only at inSession
    rw [flushes flush] at inSession
    cases inSession
  · rw [same]
    exact h.alone
  · exact h.first
  · rw [same]
    exact h.dropped
  · intro filling
    by_cases begun : a = .beginFill
    · exact begins begun
    · exact h.filling (step_filling moved begun filling).1
  · exact h.halted

theorem piped_kept {s t : State size V} {a : Stopping.Action size (V × Nat)} (step : s.piped a = some t) :
    t.place = s.place ∧ t.readData = s.readData := by
  obtain ⟨p, _, rfl⟩ := Option.map_eq_some_iff.mp step
  exact ⟨rfl, rfl⟩

theorem readData_sound {s : State size V} (h : Sound s) (readData : Reading) (readStop : Bool)
    (filling : s.pipeline.filling = true → readData = .reading) (halted : s.place = .out → readData = .off) :
    Sound { s with readData := readData, readStop := readStop } :=
  ⟨h.session, h.alone, h.first, h.dropped, filling, halted⟩

theorem running_not_out {s : State size V} (h : Sound s) (running : s.readData ≠ .off) : s.place ≠ .out :=
  fun out => running (h.halted out)

theorem place_sound {s : State size V} (h : Sound s) (place : Place) (leaves : s.place ≠ .grabbing)
    (inSession : place.inSession = true → s.place.inSession = true)
    (halted : place = .out → s.readData = .off) : Sound { s with place := place } :=
  ⟨fun still => h.session (inSession still), fun _ => h.alone leaves,
    fun still _ => h.first (inSession still) leaves, h.dropped, h.filling, halted⟩

theorem piped_place_sound {s u : State size V} {a : Stopping.Action size (V × Nat)} (h : Sound s)
    (piped : s.piped a = some u) (keeps : keepsHistory a = true) (begins : a ≠ .beginFill)
    (fills : ∀ value, a ≠ .fillPiece value) (flushes : a ≠ .flushPipes) (place : Place)
    (leaves : s.place ≠ .grabbing) (inSession : place.inSession = true → s.place.inSession = true)
    (inside : place ≠ .out) : Sound { u with place := place } := by
  have sound := piped_sound h piped keeps (fun same => absurd same begins)
    (fun value same => absurd same (fills value)) (fun same => absurd same flushes)
  obtain ⟨same, _⟩ := piped_kept piped
  exact place_sound sound place (by rwa [same]) (by rwa [same]) (fun out => absurd out inside)

theorem giveUp_sound {s : State size V} (h : Sound s) (readData : Reading)
    (halted : s.place = .out → readData = .off) :
    Sound { s with
      pipeline := { s.pipeline with filling := false }
      readData := readData } := by
  constructor
  · intro inSession
    obtain ⟨waiting, received, _, consumers⟩ := h.session inSession
    refine ⟨waiting, received, ?_, consumers⟩
    intro filling
    cases filling
  · exact h.alone
  · exact h.first
  · exact h.dropped
  · intro filling
    cases filling
  · exact halted

theorem startFrameGrab_sound {s : State size V} (h : Sound s) (out : s.place = .out) :
    Sound { s with
      place := .startReadData
      ignoreFirst := true
      session := s.session + 1
      takes := 0 } := by
  have nobody : histories s.pipeline = [] := h.alone (by rw [out]; simp)
  constructor
  · intro _
    constructor
    · intro _
      exact Or.inr rfl
    · exact Or.inr (Nat.zero_le 1)
    · intro filling
      have reading := h.filling filling
      rw [h.halted out] at reading
      cases reading
    · intro i c here
      rw [List.map_eq_nil_iff.mp nobody] at here
      cases here
  · exact fun _ => nobody
  · exact fun _ _ => rfl
  · intro seen first
    simp only [nobody] at first
    cases first
  · exact h.filling
  · intro again
    cases again

theorem getServe_sound {s t : State size V} (h : Sound s) (place : s.place = .getServe)
    (step : s.piped (.serve .getServe) = some t) : Sound { t with place := .grabbing } := by
  obtain ⟨p, moved, rfl⟩ := Option.map_eq_some_iff.mp step
  have nobody : histories s.pipeline = [] := h.alone (by rw [place]; simp)
  constructor
  · intro _
    exact step_session (h.session (by rw [place]; rfl)) moved (by simp) (by simp)
  · intro elsewhere
    exact absurd rfl elsewhere
  · intro _ elsewhere
    exact absurd rfl elsewhere
  · intro seen first
    have ignores := h.first (by rw [place]; rfl) (by rw [place]; simp)
    simp only [getServe_histories moved, nobody] at first
    obtain rfl := Option.some.inj first
    exact iff_of_true ignores rfl
  · intro filling
    exact h.filling (step_filling moved (by simp) filling).1
  · intro out
    cases out

theorem getConsumeLock_sound {s t : State size V} {garbage : Bool} (h : Sound s) (place : s.place = .grabbing)
    (step : s.piped (.serve (.acquire 0 garbage)) = some t) : Sound { t with ignoreFirst := false } := by
  obtain ⟨p, moved, rfl⟩ := Option.map_eq_some_iff.mp step
  constructor
  · intro _
    exact step_session (h.session (by rw [place]; rfl)) moved (by simp) (by simp)
  · intro elsewhere
    exact absurd place elsewhere
  · intro _ elsewhere
    exact absurd place elsewhere
  · intro seen first
    refine iff_of_false (by simp) ?_
    rintro rfl
    exact acquire_histories moved first
  · intro filling
    exact h.filling (step_filling moved (by simp) filling).1
  · exact h.halted

theorem startReadData_sound {s t : State size V} (h : Sound s) (step : s.step .startReadData = some t) :
    Sound t := by
  obtain ⟨⟨place, off⟩, done⟩ := Option.ite_none_right_eq_some.mp step
  obtain rfl := Option.some.inj done
  have onward := place_sound h .startServeFrame (by simp [place]) (by simp [place, Place.inSession]) (by simp)
  refine readData_sound onward .top false ?_ (by simp)
  exact fun filling => absurd (h.filling filling) (by simp [off])

theorem startServeFrame_sound {s t : State size V} (h : Sound s) (step : s.step .startServeFrame = some t) :
    Sound t := by
  obtain ⟨place, done⟩ := Option.ite_none_right_eq_some.mp step
  obtain ⟨u, piped, rfl⟩ := Option.map_eq_some_iff.mp done
  exact piped_place_sound h piped rfl (by simp) (by simp) (by simp) .getServe (by simp [place])
    (by simp [place, Place.inSession]) (by simp)

theorem stopServe_sound {s t : State size V} (h : Sound s) (step : s.step .stopServe = some t) : Sound t := by
  obtain ⟨_, done⟩ := Option.ite_none_right_eq_some.mp step
  obtain rfl := Option.some.inj done
  constructor
  · intro inSession
    cases inSession
  · exact fun _ => rfl
  · intro inSession
    cases inSession
  · intro seen first
    cases first
  · exact h.filling
  · intro out
    cases out

theorem join_sound {s t : State size V} (h : Sound s) (step : s.step .join = some t) : Sound t := by
  obtain ⟨place, done⟩ := Option.ite_none_right_eq_some.mp step
  obtain ⟨u, piped, rfl⟩ := Option.map_eq_some_iff.mp done
  exact piped_place_sound h piped rfl (by simp) (by simp) (by simp) .stopReadData (by simp [place])
    (by simp [place, Place.inSession]) (by simp)

theorem setReadStop_sound {s t : State size V} (h : Sound s) (step : s.step .setReadStop = some t) :
    Sound t := by
  obtain ⟨place, done⟩ := Option.ite_none_right_eq_some.mp step
  obtain rfl := Option.some.inj done
  have onward := place_sound h .joinReadData (by simp [place]) (by simp [Place.inSession]) (by simp)
  exact readData_sound onward s.readData true h.filling (by simp)

theorem joinReadData_sound {s t : State size V} (h : Sound s) (step : s.step .joinReadData = some t) :
    Sound t := by
  obtain ⟨⟨place, ended⟩, done⟩ := Option.ite_none_right_eq_some.mp step
  obtain rfl := Option.some.inj done
  have finished : s.pipeline.filling = true → Reading.off = .reading :=
    fun filling => absurd (h.filling filling) (by simp [ended])
  have off := readData_sound h .off false finished (fun _ => rfl)
  exact place_sound off .out (by simp [place]) (by simp [Place.inSession]) (fun _ => rfl)

theorem shouldContinue_sound {s t : State size V} (h : Sound s) (step : s.step .shouldContinue = some t) :
    Sound t := by
  obtain ⟨top, done⟩ := Option.ite_none_right_eq_some.mp step
  have running := running_not_out h (by simp [top])
  split at done
  · obtain rfl := Option.some.inj done
    refine readData_sound h .ended s.readStop ?_ (fun out => absurd out running)
    exact fun filling => absurd (h.filling filling) (by simp [top])
  · obtain ⟨u, piped, rfl⟩ := Option.map_eq_some_iff.mp done
    obtain ⟨p, moved, rfl⟩ := Option.map_eq_some_iff.mp piped
    have reading := readData_sound h .reading s.readStop (fun _ => rfl) (fun out => absurd out running)
    have piped' : State.piped { s with readData := .reading } .beginFill = some _ :=
      Option.map_eq_some_iff.mpr ⟨p, moved, rfl⟩
    exact piped_sound reading piped' rfl (fun _ => rfl) (by simp) (by simp)

theorem readPiece_sound {s t : State size V} {value : V} (h : Sound s)
    (step : s.step (.readPiece value) = some t) : Sound t := by
  obtain ⟨_, piped⟩ := Option.ite_none_right_eq_some.mp step
  refine piped_sound h piped rfl (by simp) ?_ (by simp)
  intro tagged same
  obtain rfl := Stopping.Action.fillPiece.inj same
  rfl

theorem sendData_sound {s t : State size V} (h : Sound s) (step : s.step .sendData = some t) : Sound t := by
  obtain ⟨reading, done⟩ := Option.ite_none_right_eq_some.mp step
  obtain ⟨u, piped, rfl⟩ := Option.map_eq_some_iff.mp done
  have sound := piped_sound h piped rfl (by simp) (by simp) (by simp)
  have same := (piped_kept piped).2
  refine readData_sound sound .top u.readStop ?_ ?_
  · intro filling
    obtain ⟨p, moved, rfl⟩ := Option.map_eq_some_iff.mp piped
    exact absurd rfl (step_filling moved (by simp) filling).2
  · exact fun out => absurd out (running_not_out sound (by simp [same, reading]))

theorem serveFrame_sound {s t : State size V} {a : Stopping.Action size (V × Nat)} (h : Sound s)
    (step : s.step (.serveFrame a) = some t) : Sound t := by
  obtain ⟨own, piped⟩ := Option.ite_none_right_eq_some.mp step
  apply piped_sound h piped
  · cases a with
    | serve b => cases b <;> first | rfl | cases own
    | _ => rfl
  · rintro rfl
    cases own
  · rintro value rfl
    cases own
  · rintro rfl
    cases own

/-- After StopServe nobody is left whom a forced exit of ServeFrame could concern. -/
theorem cancelServeFrame_sound {s t : State size V} (h : Sound s) (step : s.step .cancelServeFrame = some t) :
    Sound t := by
  obtain ⟨⟨place, _⟩, done⟩ := Option.ite_none_right_eq_some.mp step
  obtain rfl := Option.some.inj done
  refine ⟨?_, h.alone, h.first, h.dropped, h.filling, h.halted⟩
  intro still
  simp only [place, Place.inSession] at still
  cases still

theorem step_sound {s t : State size V} {a : Action size V} (h : Sound s) (step : s.step a = some t) :
    Sound t := by
  cases a with
  | startFrameGrab =>
    obtain ⟨out, done⟩ := Option.ite_none_right_eq_some.mp step
    obtain rfl := Option.some.inj done
    exact startFrameGrab_sound h out
  | startReadData => exact startReadData_sound h step
  | startServeFrame => exact startServeFrame_sound h step
  | getServe =>
    obtain ⟨place, done⟩ := Option.ite_none_right_eq_some.mp step
    obtain ⟨u, piped, rfl⟩ := Option.map_eq_some_iff.mp done
    exact getServe_sound h place piped
  | getConsumeLock garbage =>
    obtain ⟨place, done⟩ := Option.ite_none_right_eq_some.mp step
    obtain ⟨u, piped, rfl⟩ := Option.map_eq_some_iff.mp done
    exact getConsumeLock_sound h place piped
  | releaseConsumeLock | setStop =>
    obtain ⟨_, piped⟩ := Option.ite_none_right_eq_some.mp step
    exact piped_sound h piped rfl (by simp) (by simp) (by simp)
  | stopServe => exact stopServe_sound h step
  | flushPipes =>
    obtain ⟨place, piped⟩ := Option.ite_none_right_eq_some.mp step
    exact piped_sound h piped rfl (by simp) (by simp) (by simp [place, Place.inSession])
  | join => exact join_sound h step
  | setReadStop => exact setReadStop_sound h step
  | joinReadData => exact joinReadData_sound h step
  | shouldContinue => exact shouldContinue_sound h step
  | readPiece value => exact readPiece_sound h step
  | readShort =>
    obtain ⟨reading, done⟩ := Option.ite_none_right_eq_some.mp step
    obtain rfl := Option.some.inj done
    exact giveUp_sound h .top fun out => absurd out (running_not_out h (by simp [reading]))
  | sendData => exact sendData_sound h step
  | serveFrame a => exact serveFrame_sound h step
  | cancelServeFrame => exact cancelServeFrame_sound h step
  | cancelReadData =>
    obtain ⟨⟨place, _⟩, done⟩ := Option.ite_none_right_eq_some.mp step
    obtain rfl := Option.some.inj done
    exact giveUp_sound h .ended (by simp [place])

theorem construct_sound (object : Inst → Fin size → V) (draft : Fin size → V) :
    Sound (construct object draft) := by
  constructor
  · intro inSession
    cases inSession
  · exact fun _ => rfl
  · intro inSession
    cases inSession
  · intro seen first
    cases first
  · intro filling
    cases filling
  · exact fun _ => rfl

/-- After any number of sessions: what the adapter has had in this one is of this one except for
    the oldest, which is the one it ignores. -/
theorem later_frames_recent {object : Inst → Fin size → V} {draft : Fin size → V} {s : State size V}
    {as : List (Action size V)} (run : Run State.step (construct object draft) as s)
    {c : Consumer (Frame size (V × Nat))} (here : s.pipeline.base.frames[0]? = some c) :
    (∀ v ∈ c.seen.dropLast, FilledIn s.session v.frame) ∧ (s.ignoreFirst = true ↔ c.seen = []) := by
  have sound : Sound s := by
    refine run_invariant Sound ?_ run (construct_sound object draft)
    intro u a v h step
    exact step_sound h step
  have first : (histories s.pipeline).head? = some c.seen := by
    rw [histories, List.head?_map, List.head?_eq_getElem?, here]
    rfl
  have grabbing : s.place = .grabbing := by
    by_contra elsewhere
    rw [sound.alone elsewhere] at first
    cases first
  constructor
  · have session := sound.session (by rw [grabbing]; rfl)
    exact (session.consumers 0 c here).history.recent
  · exact sound.dropped c.seen first

def zeros : State 1 Nat := construct (fun _ _ => 0) fun _ => 0

def startFrameGrab : List (Action 1 Nat) := [.startFrameGrab, .startReadData, .startServeFrame, .getServe]

def read (value : Nat) : List (Action 1 Nat) := [.shouldContinue, .readPiece value, .sendData]

def iteration : List (Action 1 Nat) :=
  [.serveFrame .shouldContinue, .serveFrame .waitForServes, .serveFrame .shouldContinue, .serveFrame .enter,
    .serveFrame (.serve .lock), .serveFrame (.serve .locked), .serveFrame (.serve .waitForData),
    .serveFrame (.serve (.unlock 0)), .serveFrame .leave]

def stopFrameGrab : List (Action 1 Nat) :=
  [.stopServe, .setStop, .flushPipes, .serveFrame .shouldContinue, .join, .setReadStop, .shouldContinue,
    .joinReadData]

def restarted : List (Action 1 Nat) :=
  startFrameGrab ++ read 3 ++ iteration ++ read 4 ++ iteration ++ read 5 ++ iteration ++ stopFrameGrab ++
    startFrameGrab ++ iteration ++ [.getConsumeLock true, .releaseConsumeLock] ++
      read 6 ++ iteration ++ [.getConsumeLock true]

theorem later_frames_recent_restarted :
    ∃ as s, ∃ c : Consumer (Frame 1 (Nat × Nat)), Run State.step zeros as s ∧
      s.pipeline.base.frames[0]? = some c ∧ c.seen.map (fun v => v.frame 0) = [(6, 2), (3, 1)] ∧
      ∀ v ∈ c.seen.dropLast, FilledIn s.session v.frame := by
  have run : Run State.step zeros restarted.reverse _ := run_of_execute rfl
  exact ⟨_, _, _, run, rfl, rfl, (later_frames_recent run rfl).1⟩

end Restart
