/-
Serve: one consumer's flag and mutex, and the two locks on them. A lock is the object
in the source with its own flag `moved`; owns is that of its unique_lock.
-/
namespace Serves

structure ConsumeLock where
  owns : Bool
  moved : Bool
  deriving DecidableEq, Repr

structure ServeLock where
  owns : Bool
  moved : Bool
  deriving DecidableEq, Repr

inductive Owner where
  | consumer (lock : ConsumeLock)
  | serveFrame (lock : ServeLock)
  deriving DecidableEq, Repr

structure Serve where
  served : Bool := false
  owner : Option Owner := none
  deriving DecidableEq, Repr

/-- The move constructor leaves `moved` of the new lock unwritten: it is `garbage`. -/
def ConsumeLock.move (other : ConsumeLock) (garbage : Bool) : ConsumeLock × ConsumeLock :=
  (⟨other.owns, garbage⟩, ⟨false, true⟩)

/-- The destructor, then that of the unique_lock. -/
def ConsumeLock.destroy (lock : ConsumeLock) (s : Serve) : Serve where
  served := if lock.moved then s.served else false
  owner := if lock.owns then none else s.owner

def ServeLock.move (other : ServeLock) : ServeLock × ServeLock :=
  (⟨other.owns, false⟩, ⟨false, true⟩)

def ServeLock.destroy (lock : ServeLock) (s : Serve) : Serve where
  served := if lock.moved then s.served else true
  owner := if lock.owns then none else s.owner

/-- The constructor waits until the frame is served. The lock is then moved out, and the
    moved one destroyed. -/
def Serve.getConsumeLock (s : Serve) (garbage : Bool) : Option Serve :=
  if s.owner = none ∧ s.served = true then
    let (result, old) := ConsumeLock.move ⟨true, false⟩ garbage
    some (old.destroy { served := false, owner := some (.consumer result) })
  else none

/-- A lock of the vector of GetServeLocks is moved to another place: into the vector, or
    when the vector grows. -/
def Serve.relocate (s : Serve) : Serve :=
  match s.owner with
  | some (.serveFrame lock) =>
    let (result, old) := lock.move
    old.destroy { s with owner := some (.serveFrame result) }
  | _ => s

def Serve.getServeLock (s : Serve) : Option Serve :=
  if s.owner = none then some (Serve.relocate (Serve.relocate
    { s with owner := some (.serveFrame ⟨true, false⟩) }))
  else none

def Serve.releaseConsumeLock (s : Serve) : Option Serve :=
  match s.owner with
  | some (.consumer lock) => some (lock.destroy s)
  | _ => none

def Serve.releaseServeLock (s : Serve) : Option Serve :=
  match s.owner with
  | some (.serveFrame lock) => some (lock.destroy s)
  | _ => none

def Serve.Sound (s : Serve) : Prop :=
  match s.owner with
  | none => True
  | some (.consumer lock) => lock.owns = true ∧ s.served = false
  | some (.serveFrame lock) => lock = ⟨true, false⟩

def Serve.consumed (s : Serve) : Prop := ∃ lock, s.owner = some (.consumer lock)
def Serve.locked (s : Serve) : Prop := ∃ lock, s.owner = some (.serveFrame lock)

theorem getConsumeLock_cases {s t : Serve} {garbage : Bool} (got : s.getConsumeLock garbage = some t) :
    s.owner = none ∧ s.served = true ∧ t = ⟨false, some (.consumer ⟨true, garbage⟩)⟩ := by
  unfold Serve.getConsumeLock at got
  split at got
  · rename_i free
    exact ⟨free.1, free.2, (Option.some.inj got).symm⟩
  · cases got

theorem getServeLock_cases {s t : Serve} (got : s.getServeLock = some t) :
    s.owner = none ∧ t = { s with owner := some (.serveFrame ⟨true, false⟩) } := by
  unfold Serve.getServeLock at got
  split at got
  · rename_i free
    exact ⟨free, (Option.some.inj got).symm⟩
  · cases got

theorem relocate_sound {s : Serve} (h : s.Sound) : s.relocate = s := by
  obtain ⟨served, owner⟩ := s
  cases owner with
  | none => rfl
  | some owner =>
    cases owner with
    | consumer lock => rfl
    | serveFrame lock =>
      obtain rfl : lock = ⟨true, false⟩ := h
      rfl

/-- Nothing is left of the flag by whatever garbage the moved lock held. -/
theorem releaseConsumeLock_cases {s t : Serve} (h : s.Sound) (done : s.releaseConsumeLock = some t) :
    s.consumed ∧ t = ⟨false, none⟩ := by
  obtain ⟨served, owner⟩ := s
  cases owner with
  | none => cases done
  | some owner =>
    cases owner with
    | consumer lock =>
      obtain ⟨owns, unserved⟩ := h
      obtain rfl := Option.some.inj done
      refine ⟨⟨lock, rfl⟩, ?_⟩
      simp only at unserved
      simp [ConsumeLock.destroy, owns, unserved]
    | serveFrame lock => cases done

theorem releaseServeLock_cases {s t : Serve} (h : s.Sound) (done : s.releaseServeLock = some t) :
    s.locked ∧ t = ⟨true, none⟩ := by
  obtain ⟨served, owner⟩ := s
  cases owner with
  | none => cases done
  | some owner =>
    cases owner with
    | consumer lock => cases done
    | serveFrame lock =>
      obtain rfl : lock = ⟨true, false⟩ := h
      obtain rfl := Option.some.inj done
      exact ⟨⟨_, rfl⟩, rfl⟩

end Serves
