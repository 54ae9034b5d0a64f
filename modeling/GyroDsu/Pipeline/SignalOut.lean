import Mathlib.Data.List.Basic

/- SignalOut: a flag set by one thread and taken by another. Every method is one
   section under signalMutex. -/
namespace SignalOut

structure Signal where
  signal : Bool := false
  deriving DecidableEq, Repr

def Signal.sendSignal (_ : Signal) : Signal := ⟨true⟩
def Signal.wasReceived (s : Signal) : Bool := !s.signal

def Signal.trySignal (s : Signal) : Bool × Signal :=
  if s.signal then (true, ⟨false⟩) else (false, s)

def Signal.waitForSignal (s : Signal) : Option Signal := if s.signal then some ⟨false⟩ else none

def Signal.flush (s : Signal) : Signal := s.sendSignal

end SignalOut
