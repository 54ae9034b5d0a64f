import GyroDsu.Lib.Runs

/-
HidApiDev: any number of objects with at most one device each, and the static count by which
they share hidapi. What a call of hidapi returns is up to the system.
-/
namespace HidApiDev
open Runs

inductive Call where
  | init (done : Bool)
  | exit
  | enumerate (vId pId : UInt16)
  | openPath (dev : Option Nat)
  | setNonblocking (dev : Nat)
  | readTimeout (dev : Nat)
  | write (dev : Nat) (bytes : List UInt8)
  | close (dev : Nat)
  deriving DecidableEq, Repr

structure Library where
  initialized : Bool
  opened : List Nat
  deriving DecidableEq, Repr

def Library.after (l : Library) : Call → Library
  | .init done => { l with initialized := done }
  | .exit => { l with initialized := false }
  | .openPath (some dev) => { l with opened := dev :: l.opened }
  | .close dev => { l with opened := l.opened.filter fun other => other ≠ dev }
  | _ => l

/-- hid_init and hid_exit come in pairs around everything else, and a device is used only
    between hid_open_path and its one hid_close. -/
def Library.permits (l : Library) : Call → Prop
  | .init _ => l.initialized = false
  | .exit => l.initialized = true ∧ l.opened = []
  | .enumerate _ _ | .openPath none => l.initialized = true
  | .openPath (some dev) => l.initialized = true ∧ dev ∉ l.opened
  | .setNonblocking dev | .readTimeout dev | .write dev _ | .close dev => dev ∈ l.opened

def library : List Call → Library
  | [] => ⟨false, []⟩
  | c :: calls => (library calls).after c

def Lawful : List Call → Prop
  | [] => True
  | c :: calls => (library calls).permits c ∧ Lawful calls

/-- `closing`: hid_close has been called for dev, which is not cleared yet. -/
structure Device where
  vId : UInt16
  pId : UInt16
  interfaceNumber : Int
  dev : Option Nat
  closing : Bool
  deriving DecidableEq, Repr

structure Info where
  interfaceNumber : Int
  dev : Option Nat
  deriving DecidableEq, Repr

/-- All objects there have been; `calls` is history, newest first. The count is an int in the source,
    large enough for fewer than 2^31 living objects. -/
structure State where
  hidApiInitialized : Int
  devices : List (Option Device)
  calls : List Call
  deriving DecidableEq, Repr

def State.library (s : State) : Library := HidApiDev.library s.calls

def State.call (s : State) (c : Call) : State := { s with calls := c :: s.calls }

def State.device (s : State) (i : Nat) : Option Device := (s.devices[i]?).join

def State.set (s : State) (i : Nat) (d : Option Device) : State := { s with devices := s.devices.set i d }

def State.created (s : State) (d : Device) : State :=
  { s with hidApiInitialized := s.hidApiInitialized + 1, devices := s.devices ++ [some d] }

/-- The constructor, and whether it has not thrown. `done`: hid_init would succeed. -/
def State.construct (s : State) (vId pId : UInt16) (interfaceNumber : Int) (done : Bool) : State × Bool :=
  let d : Device := ⟨vId, pId, interfaceNumber, none, false⟩
  if s.hidApiInitialized = 0 then
    if done then ((s.call (.init true)).created d, true) else (s.call (.init false), false)
  else (s.created d, true)

/-- Close as far as the call of hid_close. -/
def State.hidClose (s : State) (i : Nat) (d : Device) : State :=
  match d.dev with
  | some dev => (s.call (.close dev)).set i (some { d with closing := true })
  | none => s

def State.forget (s : State) (i : Nat) (d : Device) : State :=
  s.set i (some { d with dev := none, closing := false })

def State.close (s : State) (i : Nat) (d : Device) : State := (s.hidClose i d).forget i d

def State.search (s : State) (i : Nat) (d : Device) : List Info → State × Bool
  | [] => (s, false)
  | info :: infos =>
    if info.interfaceNumber = d.interfaceNumber then
      match info.dev with
      | some dev =>
        (((s.call (.openPath (some dev))).set i (some { d with dev := some dev })).call (.setNonblocking dev),
          true)
      | none => (s.call (.openPath none)).search i d infos
    else s.search i d infos

def State.shut (s : State) (i : Nat) (d : Device) : State := if d.dev.isSome then s.close i d else s

def State.openDevice (s : State) (i : Nat) (d : Device) (infos : List Info) : State × Bool :=
  ((s.shut i d).call (.enumerate d.vId d.pId)).search i { d with dev := none } infos

def State.read (s : State) (d : Device) (reads : Nat) : State :=
  match d.dev with
  | some dev => { s with calls := List.replicate reads (.readTimeout dev) ++ s.calls }
  | none => s

def State.write (s : State) (d : Device) (bytes : List UInt8) : State :=
  match d.dev with
  | some dev => s.call (.write dev bytes)
  | none => s

def enableGyroCommand : List UInt8 :=
  [0x00, 0x87, 0x0f, 0x30, 0x18, 0x00, 0x07, 0x07, 0x00, 0x08, 0x07, 0x00, 0x31, 0x02, 0x00, 0x18, 0x00] ++
    List.replicate 48 0x00

def State.enableGyro (s : State) (d : Device) : State := s.write d enableGyroCommand

def State.destroy (s : State) (i : Nat) (d : Device) : State :=
  let s := (s.close i d).set i none
  let count := s.hidApiInitialized - 1
  if count ≤ 0 then { s with hidApiInitialized := 0 }.call .exit else { s with hidApiInitialized := count }

def State.fresh (s : State) (infos : List Info) : Bool :=
  infos.all fun info => info.dev.all fun dev => dev ∉ s.library.opened

inductive Action where
  | construct (vId pId : UInt16) (interfaceNumber : Int) (done : Bool)
  | openDevice (i : Nat) (infos : List Info)
  | close (i : Nat)
  | read (i : Nat) (reads : Nat)
  | write (i : Nat) (bytes : List UInt8)
  | destroy (i : Nat)
  deriving DecidableEq, Repr

def State.step (s : State) : Action → Option State
  | .construct vId pId interfaceNumber done => some (s.construct vId pId interfaceNumber done).1
  | .openDevice i infos =>
    (s.device i).bind fun d => if (s.shut i d).fresh infos then some (s.openDevice i d infos).1 else none
  | .close i => (s.device i).map fun d => s.close i d
  | .read i reads => (s.device i).map fun d => s.read d reads
  | .write i bytes => (s.device i).map fun d => s.write d bytes
  | .destroy i => (s.device i).map fun d => s.destroy i d

def begin : State := ⟨0, [], []⟩

def Device.holds (d : Device) (dev : Nat) : Prop := d.dev = some dev ∧ d.closing = false

def State.owns (s : State) (i dev : Nat) : Prop := ∃ d, s.device i = some d ∧ d.holds dev

def State.alive (s : State) : Nat := s.devices.countP Option.isSome

/-- A device that is open belongs to one object, and hidapi is initialized while there is any. -/
structure Sound (s : State) : Prop where
  counted : s.hidApiInitialized = s.alive
  initialized : s.library.initialized = true ↔ 0 < s.alive
  owned : ∀ dev, dev ∈ s.library.opened ↔ ∃ i, s.owns i dev
  once : ∀ i j dev, s.owns i dev → s.owns j dev → i = j

@[simp] theorem call_library (s : State) (c : Call) : (s.call c).library = s.library.after c := rfl

@[simp] theorem set_library (s : State) (i : Nat) (d : Option Device) : (s.set i d).library = s.library := rfl

theorem device_found {s : State} {i : Nat} {d : Device} (here : s.device i = some d) :
    s.devices[i]? = some (some d) := Option.join_eq_some_iff.mp here

theorem device_bound {s : State} {i : Nat} {d : Device} (here : s.device i = some d) : i < s.devices.length :=
  (List.getElem?_eq_some_iff.mp (device_found here)).1

theorem set_here {s : State} {i : Nat} {d : Device} (here : s.device i = some d) (new : Option Device) :
    (s.set i new).device i = new := by
  simp [State.device, State.set, List.getElem?_set_self (device_bound here)]

theorem set_other (s : State) {i j : Nat} (new : Option Device) (other : j ≠ i) :
    (s.set i new).device j = s.device j := by
  simp [State.device, State.set, List.getElem?_set_ne (Ne.symm other)]

theorem set_alive {s : State} {i : Nat} {d : Device} (here : s.device i = some d) (new : Option Device) :
    (s.set i new).alive + 1 = s.alive + if new.isSome then 1 else 0 := by
  obtain ⟨bound, found⟩ := List.getElem?_eq_some_iff.mp (device_found here)
  have counts := List.countP_set (p := Option.isSome) (a := new) bound
  have positive : 0 < s.devices.countP Option.isSome :=
    List.countP_pos_iff.mpr ⟨_, List.mem_of_getElem? (device_found here), rfl⟩
  simp only [found, Option.isSome_some, if_true] at counts
  simp only [State.alive, State.set, counts]
  omega

theorem changed_sound {s t : State} {i : Nat} {d d' : Device} (h : Sound s) (here : s.device i = some d)
    (devices : t.devices = s.devices.set i (some d')) (count : t.hidApiInitialized = s.hidApiInitialized)
    (initialized : t.library.initialized = s.library.initialized)
    (opened : ∀ dev, dev ∈ t.library.opened ↔ d'.holds dev ∨ (dev ∈ s.library.opened ∧ ¬d.holds dev))
    (new : ∀ dev, d'.holds dev → dev ∉ s.library.opened ∨ d.holds dev) : Sound t := by
  have same : t.device = (s.set i (some d')).device := by
    funext j
    rw [State.device, devices]
    rfl
  have alive : t.alive = s.alive := by
    have counts := set_alive here (some d')
    rw [State.alive, devices]
    simp only [State.alive, State.set, Option.isSome_some, if_true] at counts ⊢
    omega
  have owns : ∀ j dev, t.owns j dev ↔ (j = i ∧ d'.holds dev) ∨ (j ≠ i ∧ s.owns j dev) := by
    intro j dev
    by_cases own : j = i
    · subst own
      simp only [State.owns, same, set_here here, Option.some.injEq, exists_eq_left', true_and, ne_eq,
        not_true_eq_false, false_and, or_false]
    · simp only [State.owns, same, set_other s _ own, own, false_and, false_or, ne_eq, not_false_eq_true,
        true_and]
  have owner : ∀ dev, s.owns i dev ↔ d.holds dev := by
    intro dev
    simp only [State.owns, here, Option.some.injEq, exists_eq_left']
  refine ⟨?_, ?_, fun dev => ?_, fun j k dev first second => ?_⟩
  · rw [count, alive]
    exact h.counted
  · rw [initialized, alive]
    exact h.initialized
  · rw [opened, h.owned]
    constructor
    · rintro (mine | ⟨⟨j, theirs⟩, not_mine⟩)
      · exact ⟨i, (owns i dev).mpr (Or.inl ⟨rfl, mine⟩)⟩
      · refine ⟨j, (owns j dev).mpr (Or.inr ⟨?_, theirs⟩)⟩
        rintro rfl
        exact not_mine ((owner dev).mp theirs)
    · rintro ⟨j, has⟩
      rcases (owns j dev).mp has with ⟨_, mine⟩ | ⟨other, theirs⟩
      · exact Or.inl mine
      · refine Or.inr ⟨⟨j, theirs⟩, fun mine => other ?_⟩
        exact h.once j i dev theirs ((owner dev).mpr mine)
  · have apart : ∀ k, k ≠ i → s.owns k dev → ¬d'.holds dev := by
      intro k other theirs mine
      rcases new dev mine with shut | held
      · exact shut ((h.owned dev).mpr ⟨k, theirs⟩)
      · exact other (h.once k i dev theirs ((owner dev).mpr held))
    rcases (owns j dev).mp first with ⟨rfl, mine⟩ | ⟨other, theirs⟩
    · rcases (owns k dev).mp second with ⟨rfl, _⟩ | ⟨other, theirs⟩
      · rfl
      · exact absurd mine (apart k other theirs)
    · rcases (owns k dev).mp second with ⟨rfl, mine⟩ | ⟨_, theirs'⟩
      · exact absurd mine (apart j other theirs)
      · exact h.once j k dev theirs theirs'

/-- What an operation leaves of its own object, and that it leaves the others alone. It mends
    nothing that was out of order before. -/
structure Leaves (s t : State) (i : Nat) (d : Option Device) : Prop where
  sound : Sound t
  here : t.device i = d
  others : ∀ j, j ≠ i → t.device j = s.device j
  past : Lawful t.calls → Lawful s.calls

theorem leaves_next {s t u : State} {i : Nat} {d d' : Option Device} (first : Leaves s t i d)
    (second : Leaves t u i d') : Leaves s u i d' :=
  ⟨second.sound, second.here, fun j other => (second.others j other).trans (first.others j other),
    fun lawful => first.past (second.past lawful)⟩

theorem not_holds {d : Device} (empty : d.dev = none ∨ d.closing = true) (dev : Nat) : ¬d.holds dev := by
  rintro ⟨has, open_still⟩
  rcases empty with empty | closing
  · cases empty.symm.trans has
  · cases closing.symm.trans open_still

theorem created_old {s : State} {j : Nat} {d' : Device} (here : s.device j = some d') (d : Device) :
    (s.created d).device j = some d' := by
  simp only [State.device, State.created, List.getElem?_append_left (device_bound here)]
  exact here

theorem created_new (s : State) (d : Device) : (s.created d).device s.devices.length = some d := by
  simp [State.device, State.created]

theorem created_device {s : State} {j : Nat} {d d' : Device} (here : (s.created d).device j = some d') :
    s.device j = some d' ∨ j = s.devices.length ∧ d' = d := by
  rcases Nat.lt_trichotomy j s.devices.length with old | rfl | beyond
  · simp only [State.device, State.created, List.getElem?_append_left old] at here
    exact Or.inl here
  · exact Or.inr ⟨rfl, Option.some.inj (here.symm.trans (created_new s d))⟩
  · have bound := device_bound here
    simp only [State.created, List.length_append, List.length_singleton] at bound
    omega

theorem created_sound {s t : State} {d : Device} (h : Sound s) (devices : t.devices = s.devices)
    (count : t.hidApiInitialized = s.hidApiInitialized) (initialized : t.library.initialized = true)
    (opened : t.library.opened = s.library.opened) (empty : d.dev = none) : Sound (t.created d) := by
  have alive : (t.created d).alive = s.alive + 1 := by
    simp only [State.alive, State.created, devices, List.countP_append, List.countP_singleton, Option.isSome_some,
      if_true]
  have device : t.device = s.device := by
    funext j
    rw [State.device, devices]
    rfl
  have owns : ∀ j dev, (t.created d).owns j dev ↔ s.owns j dev := by
    intro j dev
    constructor
    · rintro ⟨d', here, holds⟩
      rcases created_device here with old | ⟨_, rfl⟩
      · exact ⟨d', device ▸ old, holds⟩
      · exact absurd holds (not_holds (Or.inl empty) dev)
    · rintro ⟨d', here, holds⟩
      exact ⟨d', created_old (device ▸ here) d, holds⟩
  refine ⟨?_, ?_, fun dev => ?_, fun j k dev first second => ?_⟩
  · have counted := h.counted
    rw [alive]
    simp only [State.created, count]
    omega
  · rw [alive]
    exact iff_of_true initialized (Nat.succ_pos _)
  · simp only [owns]
    exact opened ▸ h.owned dev
  · exact h.once j k dev ((owns j dev).mp first) ((owns k dev).mp second)

theorem construct_sound {s : State} (h : Sound s) (vId pId : UInt16) (interfaceNumber : Int) (done : Bool) :
    Sound (s.construct vId pId interfaceNumber done).1 := by
  have counted := h.counted
  rw [State.construct]
  split
  · split
    · exact @created_sound s (s.call (.init true)) _ h rfl rfl rfl rfl rfl
    · have nobody : ¬0 < s.alive := by omega
      exact ⟨h.counted, iff_of_false (by simp [Library.after]) nobody, h.owned, h.once⟩
  · exact @created_sound s s _ h rfl rfl (h.initialized.mpr (by omega)) rfl rfl

def Closable (s : State) (d : Device) : Prop :=
  d.closing = true → ∀ dev, d.dev = some dev → dev ∉ s.library.opened

theorem hidClose_none (s : State) (i : Nat) {d : Device} (empty : d.dev = none) : s.hidClose i d = s := by
  rw [State.hidClose, empty]

theorem hidClose_some (s : State) (i : Nat) {d : Device} {dev : Nat} (has : d.dev = some dev) :
    s.hidClose i d = (s.call (.close dev)).set i (some { d with closing := true }) := by
  rw [State.hidClose, has]

theorem hidClose_leaves {s : State} {i : Nat} {d : Device} (h : Sound s) (here : s.device i = some d)
    (closable : Closable s d) :
    Leaves s (s.hidClose i d) i (some { d with closing := d.dev.isSome || d.closing }) := by
  rcases Option.eq_none_or_eq_some d.dev with empty | ⟨dev, has⟩
  · rw [hidClose_none s i empty]
    have same : (d.dev.isSome || d.closing) = d.closing := by rw [empty]; rfl
    rw [same]
    exact ⟨h, here, fun _ _ => rfl, id⟩
  · rw [hidClose_some s i has]
    have found : (s.call (.close dev)).device i = some d := here
    have nothing : ∀ other, ¬{ d with closing := true : Device }.holds other := not_holds (Or.inr rfl)
    refine ⟨@changed_sound s _ i d { d with closing := true } h here rfl rfl rfl (fun other => ?_)
      (fun other holds => absurd holds (nothing other)), ?_, fun j other => set_other _ _ other, And.right⟩
    · simp only [set_library, call_library, Library.after, List.mem_filter, decide_eq_true_eq, nothing, false_or]
      refine and_congr_right fun is_open => not_congr ⟨?_, fun holds => ?_⟩
      · rintro rfl
        refine ⟨has, eq_false_of_ne_true fun closing => ?_⟩
        exact closable closing other has is_open
      · exact Option.some.inj (holds.1.symm.trans has)
    · rw [set_here found, has]
      rfl

theorem forget_leaves {s : State} {i : Nat} {d d' : Device} (h : Sound s) (here : s.device i = some d')
    (empty : d'.dev = none ∨ d'.closing = true) :
    Leaves s (s.forget i d) i (some { d with dev := none, closing := false }) := by
  refine ⟨@changed_sound s _ i d' { d with dev := none, closing := false } h here rfl rfl rfl (fun dev => ?_)
    (fun dev holds => ?_), set_here here _, fun j other => set_other s _ other, id⟩
  · have nothing : ¬{ d with dev := none, closing := false : Device }.holds dev := not_holds (Or.inl rfl) dev
    simp only [State.forget, set_library, nothing, false_or, not_holds empty dev, not_false_eq_true, and_true]
  · exact absurd holds (not_holds (Or.inl rfl) dev)

theorem close_leaves {s : State} {i : Nat} {d : Device} (h : Sound s) (here : s.device i = some d)
    (closable : Closable s d) : Leaves s (s.close i d) i (some { d with dev := none, closing := false }) := by
  have shut := hidClose_leaves h here closable
  refine leaves_next shut (forget_leaves shut.sound shut.here ?_)
  rcases Option.eq_none_or_eq_some d.dev with empty | ⟨dev, has⟩
  · exact Or.inl empty
  · exact Or.inr (by rw [has]; rfl)

theorem hidClose_lawful {s : State} {i : Nat} {d : Device} (h : Sound s) (here : s.device i = some d)
    (calm : d.closing = false) (lawful : Lawful s.calls) : Lawful (s.hidClose i d).calls := by
  rcases Option.eq_none_or_eq_some d.dev with empty | ⟨dev, has⟩
  · rw [hidClose_none s i empty]
    exact lawful
  · rw [hidClose_some s i has]
    exact ⟨(h.owned dev).mpr ⟨i, d, here, has, calm⟩, lawful⟩

theorem hidClose_unlawful {s : State} {i : Nat} {d : Device} {dev : Nat} (has : d.dev = some dev)
    (closed : dev ∉ s.library.opened) : ¬Lawful (s.hidClose i d).calls := by
  rw [hidClose_some s i has]
  rintro ⟨is_open, _⟩
  exact closed is_open

theorem closable_calm {s : State} {d : Device} (calm : d.closing = false) : Closable s d := by
  intro closing
  cases calm.symm.trans closing

theorem shut_leaves {s : State} {i : Nat} {d : Device} (h : Sound s) (here : s.device i = some d)
    (calm : d.closing = false) : Leaves s (s.shut i d) i (some { d with dev := none }) := by
  have closed := close_leaves h here (closable_calm calm)
  rw [← calm] at closed
  rw [State.shut]
  split
  · exact closed
  · rename_i empty
    have same : { d with dev := none } = d := by
      rw [← Option.not_isSome_iff_eq_none.mp empty]
    exact ⟨h, by rw [same]; exact here, fun _ _ => rfl, id⟩

theorem shut_lawful {s : State} {i : Nat} {d : Device} (h : Sound s) (here : s.device i = some d)
    (calm : d.closing = false) (lawful : Lawful s.calls) : Lawful (s.shut i d).calls := by
  rw [State.shut]
  split
  · exact hidClose_lawful h here calm lawful
  · exact lawful

theorem alive_pos {s : State} {i : Nat} {d : Device} (here : s.device i = some d) : 0 < s.alive :=
  List.countP_pos_iff.mpr ⟨_, List.mem_of_getElem? (device_found here), rfl⟩

theorem aside_sound {s : State} {c : Call} (h : Sound s) (same : s.library.after c = s.library) :
    Sound (s.call c) := by
  refine ⟨h.counted, ?_, ?_, h.once⟩
  · rw [call_library, same]
    exact h.initialized
  · rw [call_library, same]
    exact h.owned

theorem search_leaves {i : Nat} {d : Device} (empty : d.dev = none) (calm : d.closing = false) (infos : List Info)
    {s : State} (h : Sound s) (here : s.device i = some d) (fresh : s.fresh infos = true) :
    ∃ d', Leaves s (s.search i d infos).1 i (some d') ∧ d'.closing = false ∧
      d'.dev.isSome = (s.search i d infos).2 := by
  induction infos generalizing s with
  | nil => exact ⟨d, ⟨h, here, fun _ _ => rfl, id⟩, calm, by rw [empty]; rfl⟩
  | cons info infos ih =>
    obtain ⟨new, rest⟩ := Bool.and_eq_true_iff.mp fresh
    rw [State.search]
    split
    · cases has : info.dev with
      | none =>
        obtain ⟨d', left, searched⟩ := @ih (s.call (.openPath none)) (aside_sound h rfl) here rest
        exact ⟨d', ⟨left.sound, left.here, left.others, fun lawful => (left.past lawful).2⟩, searched⟩
      | some dev =>
        have shut : dev ∉ s.library.opened := by simpa [has] using new
        have opens : Sound ((s.call (.openPath (some dev))).set i (some { d with dev := some dev })) := by
          refine @changed_sound s _ i d { d with dev := some dev } h here rfl rfl rfl (fun other => ?_)
            (fun other holds => ?_)
          · simp only [set_library, call_library, Library.after, List.mem_cons, Device.holds, Option.some.injEq, calm,
              and_true, empty, reduceCtorEq, not_false_eq_true]
            exact or_congr_left eq_comm
          · obtain rfl := Option.some.inj holds.1
            exact Or.inl shut
        have found : (s.call (.openPath (some dev))).device i = some d := here
        exact ⟨{ d with dev := some dev }, ⟨aside_sound opens rfl, set_here found _, fun j other => set_other _ _ other,
          fun lawful => lawful.2.2⟩, calm, rfl⟩
    · exact ih h here rest

theorem search_lawful {i : Nat} {d : Device} (infos : List Info) {s : State} (fresh : s.fresh infos = true)
    (initialized : s.library.initialized = true) (lawful : Lawful s.calls) : Lawful (s.search i d infos).1.calls := by
  induction infos generalizing s with
  | nil => exact lawful
  | cons info infos ih =>
    obtain ⟨new, rest⟩ := Bool.and_eq_true_iff.mp fresh
    rw [State.search]
    split
    · cases has : info.dev with
      | none => exact @ih (s.call (.openPath none)) rest initialized ⟨initialized, lawful⟩
      | some dev =>
        have shut : dev ∉ s.library.opened := by simpa [has] using new
        exact ⟨List.mem_cons_self, ⟨initialized, shut⟩, lawful⟩
    · exact ih rest initialized lawful

theorem openDevice_leaves {s : State} {i : Nat} {d : Device} {infos : List Info} (h : Sound s)
    (here : s.device i = some d) (calm : d.closing = false) (fresh : (s.shut i d).fresh infos = true) :
    ∃ d', Leaves s (s.openDevice i d infos).1 i (some d') ∧ d'.closing = false ∧
      d'.dev.isSome = (s.openDevice i d infos).2 := by
  have shut := shut_leaves h here calm
  obtain ⟨d', left, calm', found⟩ :=
    @search_leaves i { d with dev := none } rfl calm infos ((s.shut i d).call (.enumerate d.vId d.pId))
      (aside_sound shut.sound rfl) shut.here fresh
  exact ⟨d', ⟨left.sound, left.here, fun j other => (left.others j other).trans (shut.others j other),
    fun lawful => shut.past (left.past lawful).2⟩, calm', found⟩

theorem openDevice_lawful {s : State} {i : Nat} {d : Device} {infos : List Info} (h : Sound s)
    (here : s.device i = some d) (calm : d.closing = false) (fresh : (s.shut i d).fresh infos = true)
    (lawful : Lawful s.calls) : Lawful (s.openDevice i d infos).1.calls := by
  have shut := shut_leaves h here calm
  have initialized := shut.sound.initialized.mpr (alive_pos shut.here)
  exact @search_lawful i { d with dev := none } infos ((s.shut i d).call (.enumerate d.vId d.pId)) fresh initialized
    ⟨initialized, shut_lawful h here calm lawful⟩

theorem read_leaves {s : State} {i : Nat} {d : Device} (h : Sound s) (here : s.device i = some d) (reads : Nat) :
    Leaves s (s.read d reads) i (some d) := by
  rw [State.read]
  split
  · rename_i dev has
    induction reads with
    | zero => exact ⟨h, here, fun _ _ => rfl, id⟩
    | succ reads ih =>
      exact ⟨@aside_sound _ (.readTimeout dev) ih.sound rfl, here, fun _ _ => rfl, fun lawful => ih.past lawful.2⟩
  · exact ⟨h, here, fun _ _ => rfl, id⟩

theorem read_lawful {s : State} {i : Nat} {d : Device} (h : Sound s) (here : s.device i = some d)
    (calm : d.closing = false) (reads : Nat) (lawful : Lawful s.calls) : Lawful (s.read d reads).calls := by
  rw [State.read]
  split
  · rename_i dev has
    have is_open : dev ∈ s.library.opened := (h.owned dev).mpr ⟨i, d, here, has, calm⟩
    have same : ∀ n, library (List.replicate n (.readTimeout dev) ++ s.calls) = s.library := by
      intro n
      induction n with
      | zero => rfl
      | succ n ih => exact ih
    induction reads with
    | zero => exact lawful
    | succ reads ih =>
      have permitted : dev ∈ (library (List.replicate reads (.readTimeout dev) ++ s.calls)).opened := by
        rw [same]
        exact is_open
      exact ⟨permitted, ih⟩
  · exact lawful

theorem write_leaves {s : State} {i : Nat} {d : Device} (h : Sound s) (here : s.device i = some d)
    (bytes : List UInt8) : Leaves s (s.write d bytes) i (some d) := by
  rw [State.write]
  split
  · exact ⟨aside_sound h rfl, here, fun _ _ => rfl, And.right⟩
  · exact ⟨h, here, fun _ _ => rfl, id⟩

theorem write_lawful {s : State} {i : Nat} {d : Device} (h : Sound s) (here : s.device i = some d)
    (calm : d.closing = false) (bytes : List UInt8) (lawful : Lawful s.calls) :
    Lawful (s.write d bytes).calls := by
  rw [State.write]
  split
  · rename_i dev has
    exact ⟨(h.owned dev).mpr ⟨i, d, here, has, calm⟩, lawful⟩
  · exact lawful

theorem owner_counts {s : State} {i dev : Nat} (owns : s.owns i dev) : 0 < s.alive := by
  obtain ⟨d, here, _⟩ := owns
  exact alive_pos here

theorem nothing_open {s : State} (owned : ∀ dev, dev ∈ s.library.opened ↔ ∃ i, s.owns i dev) (nobody : s.alive = 0) :
    s.library.opened = [] := by
  refine List.eq_nil_iff_forall_not_mem.mpr fun dev is_open => ?_
  obtain ⟨i, owns⟩ := (owned dev).mp is_open
  have some_alive := owner_counts owns
  omega

theorem left_alone {s : State} (h : Sound s) (nobody : s.alive = 0) : s.library = ⟨false, []⟩ := by
  have left : s.library.initialized = false := by
    refine eq_false_of_ne_true fun initialized => ?_
    have some_alive := h.initialized.mp initialized
    omega
  have closed := nothing_open h.owned nobody
  cases all : s.library
  rw [all] at left closed
  cases left
  cases closed
  rfl

theorem nobody_alive {s : State} (nobody : ∀ i, s.device i = none) : s.alive = 0 := by
  refine List.countP_eq_zero.mpr fun d member => ?_
  obtain ⟨i, found⟩ := List.mem_iff_getElem?.mp member
  have gone := nobody i
  rw [State.device, found] at gone
  rw [show d = none from gone]
  simp

structure Removed (s t : State) : Prop where
  alive : t.alive + 1 = s.alive
  owned : ∀ dev, dev ∈ t.library.opened ↔ ∃ i, t.owns i dev
  once : ∀ i j dev, t.owns i dev → t.owns j dev → i = j

theorem set_removed {s : State} {i : Nat} {d : Device} (h : Sound s) (here : s.device i = some d)
    (empty : d.dev = none ∨ d.closing = true) : Removed s (s.set i none) := by
  have owns : ∀ j dev, (s.set i none).owns j dev ↔ s.owns j dev := by
    intro j dev
    by_cases own : j = i
    · subst own
      constructor
      · rintro ⟨d', gone, _⟩
        rw [set_here here] at gone
        cases gone
      · rintro ⟨d', there, holds⟩
        obtain rfl := Option.some.inj (here.symm.trans there)
        exact absurd holds (not_holds empty dev)
    · simp only [State.owns, set_other s none own]
  refine ⟨set_alive here none, fun dev => ?_, fun j k dev first second => ?_⟩
  · simp only [owns]
    exact h.owned dev
  · exact h.once j k dev ((owns j dev).mp first) ((owns k dev).mp second)

theorem destroy_leaves {s : State} {i : Nat} {d : Device} (h : Sound s) (here : s.device i = some d)
    (closable : Closable s d) : Leaves s (s.destroy i d) i none := by
  have closed := close_leaves h here closable
  have removed := set_removed closed.sound closed.here (Or.inl rfl)
  have counted := closed.sound.counted
  have gone : ∀ t : State, t.devices = ((s.close i d).set i none).devices → t.device i = none ∧
      ∀ j, j ≠ i → t.device j = s.device j := by
    intro t same
    have device : t.device = ((s.close i d).set i none).device := by
      funext j
      rw [State.device, same]
      rfl
    refine ⟨?_, fun j other => ?_⟩
    · rw [device, set_here closed.here]
    · rw [device, set_other _ _ other]
      exact closed.others j other
  have fewer := removed.alive
  rw [State.destroy]
  split
  · rename_i last
    have nobody : ((s.close i d).set i none).alive = 0 := by
      simp only [State.set] at last
      omega
    obtain ⟨here', others⟩ := gone ({ (s.close i d).set i none with hidApiInitialized := 0 }.call .exit) rfl
    refine ⟨⟨?_, ?_, removed.owned, removed.once⟩, here', others, fun lawful => closed.past lawful.2⟩
    · exact (congrArg Int.ofNat nobody).symm
    · exact iff_of_false (by simp [Library.after]) (Nat.not_lt.mpr (Nat.le_of_eq nobody))
  · rename_i more
    have still : 0 < ((s.close i d).set i none).alive := by
      simp only [State.set] at more
      omega
    obtain ⟨here', others⟩ := gone { (s.close i d).set i none with
      hidApiInitialized := ((s.close i d).set i none).hidApiInitialized - 1 } rfl
    refine ⟨⟨?_, ?_, removed.owned, removed.once⟩, here', others, closed.past⟩
    · show (s.close i d).hidApiInitialized - 1 = (((s.close i d).set i none).alive : Int)
      omega
    · exact iff_of_true (closed.sound.initialized.mpr (alive_pos closed.here)) still

theorem destroy_lawful {s : State} {i : Nat} {d : Device} (h : Sound s) (here : s.device i = some d)
    (calm : d.closing = false) (lawful : Lawful s.calls) : Lawful (s.destroy i d).calls := by
  have closed := close_leaves h here (closable_calm calm)
  have removed := set_removed closed.sound closed.here (Or.inl rfl)
  have counted := closed.sound.counted
  have in_order : Lawful (s.close i d).calls := hidClose_lawful h here calm lawful
  have fewer := removed.alive
  rw [State.destroy]
  split
  · rename_i last
    have nobody : ((s.close i d).set i none).alive = 0 := by
      simp only [State.set] at last
      omega
    refine ⟨⟨?_, nothing_open removed.owned nobody⟩, in_order⟩
    exact closed.sound.initialized.mpr (alive_pos closed.here)
  · exact in_order

theorem destroy_unlawful {s : State} {i : Nat} {d : Device} {dev : Nat} (has : d.dev = some dev)
    (closed : dev ∉ s.library.opened) : ¬Lawful (s.destroy i d).calls := by
  have twice : ¬Lawful (s.close i d).calls := hidClose_unlawful has closed
  rw [State.destroy]
  split
  · exact fun lawful => twice lawful.2
  · exact twice

theorem construct_lawful {s : State} (h : Sound s) (vId pId : UInt16) (interfaceNumber : Int) (done : Bool)
    (lawful : Lawful s.calls) : Lawful (s.construct vId pId interfaceNumber done).1.calls := by
  have counted := h.counted
  rw [State.construct]
  split
  · have uninitialized : s.library.initialized = false := by
      refine eq_false_of_ne_true fun initialized => ?_
      have some_alive := h.initialized.mp initialized
      omega
    split <;> exact ⟨uninitialized, lawful⟩
  · exact lawful

theorem construct_past {s : State} {vId pId : UInt16} {interfaceNumber : Int} {done : Bool}
    (lawful : Lawful (s.construct vId pId interfaceNumber done).1.calls) : Lawful s.calls := by
  rw [State.construct] at lawful
  split at lawful
  · split at lawful <;> exact lawful.2
  · exact lawful

theorem construct_device (s : State) (vId pId : UInt16) (interfaceNumber : Int) (done : Bool) :
    ((s.construct vId pId interfaceNumber done).2 = true ∧
      (s.construct vId pId interfaceNumber done).1.device s.devices.length =
        some ⟨vId, pId, interfaceNumber, none, false⟩ ∧
      ∀ j d, (s.construct vId pId interfaceNumber done).1.device j = some d → s.device j = some d ∨
        j = s.devices.length) ∨
    ((s.construct vId pId interfaceNumber done).2 = false ∧
      (s.construct vId pId interfaceNumber done).1.device = s.device) := by
  rw [State.construct]
  split
  · split
    · exact Or.inl ⟨rfl, created_new _ _, fun j d there => (created_device there).imp_right And.left⟩
    · exact Or.inr ⟨rfl, rfl⟩
  · exact Or.inl ⟨rfl, created_new _ _, fun j d there => (created_device there).imp_right And.left⟩

def Calm (s : State) : Prop := ∀ i d, s.device i = some d → d.closing = false

theorem leaves_calm {s t : State} {i : Nat} {d : Option Device} (calm : Calm s) (leaves : Leaves s t i d)
    (own : ∀ d', d = some d' → d'.closing = false) : Calm t := by
  intro j d' there
  by_cases same : j = i
  · rw [same, leaves.here] at there
    exact own d' there
  · exact calm j d' ((leaves.others j same).symm.trans there)

theorem construct_calm {s : State} (calm : Calm s) (vId pId : UInt16) (interfaceNumber : Int) (done : Bool) :
    Calm (s.construct vId pId interfaceNumber done).1 := by
  have created : ∀ t : State, Calm t → Calm (t.created ⟨vId, pId, interfaceNumber, none, false⟩) := by
    intro t calm i d here
    rcases created_device here with old | ⟨_, rfl⟩
    · exact calm i d old
    · rfl
  rw [State.construct]
  split
  · split
    · exact created _ calm
    · exact calm
  · exact created _ calm

theorem begin_sound : Sound begin := by
  have nobody : ∀ i dev, ¬begin.owns i dev := by
    rintro i dev ⟨d, here, _⟩
    cases here
  refine ⟨rfl, by decide, fun dev => ?_, fun i j dev owns => absurd owns (nobody i dev)⟩
  exact iff_of_false (by simp [begin, State.library, library]) fun ⟨i, owns⟩ => nobody i dev owns

structure Kept (s : State) : Prop where
  sound : Sound s
  calm : Calm s
  lawful : Lawful s.calls

theorem leaves_kept {s t : State} {i : Nat} {d : Option Device} (h : Kept s) (leaves : Leaves s t i d)
    (own : ∀ d', d = some d' → d'.closing = false) (lawful : Lawful t.calls) : Kept t :=
  ⟨leaves.sound, leaves_calm h.calm leaves own, lawful⟩

theorem step_kept {s t : State} {a : Action} (h : Kept s) (step : s.step a = some t) : Kept t := by
  cases a with
  | construct vId pId interfaceNumber done =>
    obtain rfl := Option.some.inj step
    exact ⟨construct_sound h.sound .., construct_calm h.calm _ _ _ _, construct_lawful h.sound _ _ _ _ h.lawful⟩
  | openDevice i infos =>
    obtain ⟨d, here, opens⟩ := Option.bind_eq_some_iff.mp step
    obtain ⟨fresh, done⟩ := Option.ite_none_right_eq_some.mp opens
    obtain rfl := Option.some.inj done
    have calm := h.calm i d here
    obtain ⟨d', leaves, calm', _⟩ := openDevice_leaves h.sound here calm fresh
    refine leaves_kept h leaves (fun d'' same => ?_) (openDevice_lawful h.sound here calm fresh h.lawful)
    exact Option.some.inj same ▸ calm'
  | close i =>
    obtain ⟨d, here, rfl⟩ := Option.map_eq_some_iff.mp step
    have calm := h.calm i d here
    refine leaves_kept h (close_leaves h.sound here (closable_calm calm)) (fun d' same => ?_)
      (hidClose_lawful h.sound here calm h.lawful)
    exact Option.some.inj same ▸ rfl
  | read i reads =>
    obtain ⟨d, here, rfl⟩ := Option.map_eq_some_iff.mp step
    have calm := h.calm i d here
    refine leaves_kept h (read_leaves h.sound here reads) (fun d' same => ?_)
      (read_lawful h.sound here calm reads h.lawful)
    exact Option.some.inj same ▸ calm
  | write i bytes =>
    obtain ⟨d, here, rfl⟩ := Option.map_eq_some_iff.mp step
    have calm := h.calm i d here
    refine leaves_kept h (write_leaves h.sound here bytes) (fun d' same => ?_)
      (write_lawful h.sound here calm bytes h.lawful)
    exact Option.some.inj same ▸ calm
  | destroy i =>
    obtain ⟨d, here, rfl⟩ := Option.map_eq_some_iff.mp step
    have calm := h.calm i d here
    refine leaves_kept h (destroy_leaves h.sound here (closable_calm calm)) (fun d' same => ?_)
      (destroy_lawful h.sound here calm h.lawful)
    cases same

theorem begin_kept : Kept begin := by
  refine ⟨begin_sound, fun i d here => ?_, trivial⟩
  cases here

theorem balanced_aside {c : Call} {calls : List Call} {dev : Nat} (opens : c ≠ .openPath (some dev))
    (closes : c ≠ .close dev) (same : dev ∈ (library (c :: calls)).opened ↔ dev ∈ (library calls).opened)
    (before : calls.count (.openPath (some dev)) =
      calls.count (.close dev) + if dev ∈ (library calls).opened then 1 else 0) :
    (c :: calls).count (.openPath (some dev)) =
      (c :: calls).count (.close dev) + if dev ∈ (library (c :: calls)).opened then 1 else 0 := by
  rw [List.count_cons_of_ne opens, List.count_cons_of_ne closes, if_congr same rfl rfl]
  exact before

theorem lawful_balanced {calls : List Call} (lawful : Lawful calls) (dev : Nat) :
    calls.count (.openPath (some dev)) =
      calls.count (.close dev) + if dev ∈ (library calls).opened then 1 else 0 := by
  induction calls with
  | nil => rfl
  | cons c calls ih =>
    have before := ih lawful.2
    have permitted := lawful.1
    cases c with
    | openPath returned =>
      cases returned with
      | none => exact balanced_aside (by simp) (by simp) Iff.rfl before
      | some other =>
        by_cases same : other = dev
        · subst same
          rw [if_neg permitted.2] at before
          simp [library, Library.after, before]
        · refine balanced_aside (by simpa using same) (by simp) ?_ before
          simp [library, Library.after, Ne.symm same]
    | close other =>
      by_cases same : other = dev
      · subst same
        have is_open : other ∈ (library calls).opened := permitted
        rw [if_pos is_open] at before
        simp [library, Library.after, before]
      · refine balanced_aside (by simp) (by simpa using same) ?_ before
        simp [library, Library.after, Ne.symm same]
    | init | exit | enumerate | setNonblocking | readTimeout | write =>
      exact balanced_aside (by simp) (by simp) Iff.rfl before

/-- However many objects are constructed, opened, used and destroyed in any order: hidapi is initialized
    and left once for all of them, every device is closed once and used only before that, and one that
    is open belongs to a single object. -/
theorem hidapi_used_in_order {actions : List Action} {t : State} (run : Run State.step begin actions t) :
    Lawful t.calls ∧ t.hidApiInitialized = t.alive ∧ (t.alive = 0 → t.library = ⟨false, []⟩) ∧
      (∀ dev, dev ∈ t.library.opened ↔ ∃! i, t.owns i dev) ∧
      ∀ dev, t.calls.count (.openPath (some dev)) =
        t.calls.count (.close dev) + if dev ∈ t.library.opened then 1 else 0 := by
  have h := run_invariant Kept (fun _ _ _ kept step => step_kept kept step) run begin_kept
  refine ⟨h.lawful, h.sound.counted, left_alone h.sound, fun dev => ?_, lawful_balanced h.lawful⟩
  rw [h.sound.owned]
  constructor
  · rintro ⟨i, owns⟩
    exact ⟨i, owns, fun j owns' => h.sound.once j i dev owns' owns⟩
  · rintro ⟨i, owns, _⟩
    exact ⟨i, owns⟩

def twoDevices : List Action :=
  [.construct 0x28de 0x1205 2 true, .construct 0x28de 0x1205 2 true, .openDevice 0 [⟨1, some 7⟩, ⟨2, none⟩, ⟨2, some 8⟩],
    .openDevice 1 [⟨2, some 9⟩], .read 0 2, .openDevice 0 [⟨2, some 8⟩], .destroy 0, .write 1 enableGyroCommand]

theorem hidapi_used_in_order_two :
    ∃ t, Run State.step begin twoDevices.reverse t ∧ t.hidApiInitialized = 1 ∧ t.library = ⟨true, [9]⟩ ∧
      t.calls.length = 16 ∧ Lawful t.calls := by
  have run : Run State.step begin twoDevices.reverse _ := run_of_execute rfl
  exact ⟨_, run, rfl, rfl, rfl, (hidapi_used_in_order run).1⟩

end HidApiDev
