import GyroDsu.Lib.MachineInt
import Mathlib.Data.List.Basic
import Mathlib.Data.List.Induction
import Mathlib.Data.Int.Order.Basic

/-
HandleMissedTicks: what the stages of the pipeline log about frames nobody has received.
The caller keeps the two counters. Arithmetic on an int comes out modulo 2^32.
-/
namespace MissedTicks
open MachineInt

inductive LogLevel where
  | logLevelNone
  | logLevelDefault
  | logLevelDebug
  | logLevelTrace
  deriving DecidableEq, Repr

def LogLevel.toNat : LogLevel → Nat
  | .logLevelNone => 0
  | .logLevelDefault => 1
  | .logLevelDebug => 2
  | .logLevelTrace => 3

inductive Message where
  | startMissing
  | stillMissed (period nonMissed : Int)
  | notMissedAnymore (count : Int)
  | missed (ticks nonMissed : Int)
  deriving DecidableEq, Repr

def Message.text (name tickName : String) : Message → String
  | .startMissing => name ++ ": Start missing " ++ tickName ++ "."
  | .stillMissed period nonMissed =>
    name ++ ": Missed " ++ toString period ++ " " ++ tickName ++ " after " ++ toString nonMissed ++ " " ++
      tickName ++ ". Still being missed."
  | .notMissedAnymore count =>
    name ++ ": Missed " ++ toString count ++ " " ++ tickName ++ ". Not being missed anymore."
  | .missed ticks nonMissed =>
    name ++ ": Missed " ++ toString ticks ++ " " ++ tickName ++ " after " ++ toString nonMissed ++ " " ++
      tickName ++ "."

def Message.count : Message → Option Int
  | .startMissing => none
  | .stillMissed period _ => some period
  | .notMissedAnymore count => some count
  | .missed ticks _ => some ticks

structure Counters where
  ticks : Int
  nonMissed : Int
  deriving DecidableEq, Repr

def handleMissedTicks (level : LogLevel) (received : Bool) (period : Int) (c : Counters) :
    List Message × Counters :=
  if level.toNat < LogLevel.logLevelDebug.toNat then ([], c)
  else if !received then
    let start := if c.ticks = 1 then [.startMissing] else []
    let ticks := toInt (c.ticks + 1)
    if ticks.tmod period = 0 then
      (start ++ [.stillMissed period c.nonMissed],
        { c with ticks := if ticks > period then toInt (ticks - period) else ticks })
    else (start, { c with ticks := ticks })
  else if c.ticks > period then
    ([.notMissedAnymore (toInt ((toInt (c.ticks + 1)).tmod period - 1))], ⟨0, 0⟩)
  else if c.ticks > 0 then ([.missed c.ticks c.nonMissed], ⟨0, 0⟩)
  else ([], { c with nonMissed := toInt (c.nonMissed + 1) })

def calls (level : LogLevel) (period : Int) : List Bool → Counters → List Message × Counters
  | [], c => ([], c)
  | received :: rest, c =>
    let first := handleMissedTicks level received period c
    let others := calls level period rest first.2
    (first.1 ++ others.1, others.2)

def counts (messages : List Message) : List Int := messages.filterMap Message.count

def cReportMissedTicksPeriod : Int := 250

/-- What ServeFrame keeps for its consumers between two frames. -/
structure Watch where
  serveCnt : Nat
  counters : List Counters
  serveNames : List String
  deriving DecidableEq, Repr

def serveName (i : Nat) : String := "HidDevReader::ServeFrame::Serve[" ++ toString i ++ "]"

def Watch.resize (w : Watch) (newSize : Nat) : Watch :=
  if w.serveCnt ≠ newSize then
    { serveCnt := newSize
      counters := List.replicate newSize ⟨0, 0⟩
      serveNames := (if newSize < w.serveCnt then w.serveNames.take newSize else w.serveNames) ++
        (List.range' w.serveCnt (newSize - w.serveCnt)).map serveName }
  else w

/-- `consumed` has a flag for each consumer, in the order of `frames`. The lines logged come first. -/
def handleMissedFrames (level : LogLevel) (consumed : List Bool) (w : Watch) : List String × Watch :=
  if level.toNat < LogLevel.logLevelDebug.toNat then ([], w)
  else
    let w := w.resize consumed.length
    let handled := List.zipWith
      (fun received c => handleMissedTicks level received cReportMissedTicksPeriod c) consumed w.counters
    ((List.zipWith (fun name result => result.1.map (Message.text name "frames")) w.serveNames handled).flatten,
      { w with counters := handled.map Prod.snd })

def watched (level : LogLevel) : List (List Bool) → Watch → Watch
  | [], w => w
  | consumed :: rest, w => watched level rest (handleMissedFrames level consumed w).2

structure Exact (level : LogLevel) (period : Int) (c : Counters) (m : Nat) : Prop where
  positive : ∀ n ∈ counts (calls level period (List.replicate m false ++ [true]) c).1, 0 ≤ n
  sum : (counts (calls level period (List.replicate m false ++ [true]) c).1).sum = m
  bounded : ∀ k ≤ m, 0 ≤ (calls level period (List.replicate k false) c).2.ticks ∧
    (calls level period (List.replicate k false) c).2.ticks ≤ 2 * period - 1
  closed : (calls level period (List.replicate m false ++ [true]) c).2.ticks = 0

structure Streak (sequence before : List Bool) (m : Nat) : Prop where
  misses : 1 ≤ m
  begins : before.getLast? ≠ some false
  ends : before ++ List.replicate m false ++ [true] <+: sequence

/-- Neither a whole number of periods nor, past the first, one less; and the counter of a
    period it may not fold in time stays an int. -/
def Counted (period : Int) (m : Nat) : Prop :=
  ¬period ∣ m ∧ (m < period ∨ ¬period ∣ m + 1) ∧ (period < 2 ^ 30 ∨ m < 2 ^ 31 - 1)

def folded (period : Int) (k : Nat) : Int := if (k : Int) < period then k else period + k % period

theorem calls_append (level : LogLevel) (period : Int) (first second : List Bool) (c : Counters) :
    calls level period (first ++ second) c =
      ((calls level period first c).1 ++ (calls level period second (calls level period first c).2).1,
        (calls level period second (calls level period first c).2).2) := by
  induction first generalizing c with
  | nil => rfl
  | cons received rest ih => simp only [List.cons_append, calls, ih, List.append_assoc]

theorem calls_singleton (level : LogLevel) (period : Int) (received : Bool) (c : Counters) :
    calls level period [received] c = handleMissedTicks level received period c := by
  simp [calls]

theorem resize_rests {w : Watch} {newSize : Nat} (changed : w.serveCnt ≠ newSize) :
    (w.resize newSize).counters = List.replicate newSize ⟨0, 0⟩ := by
  rw [Watch.resize, if_pos changed]

theorem handleMissedFrames_counter (level : LogLevel) {consumed : List Bool} {w : Watch} {i : Nat}
    {c : Counters} (same : consumed.length = w.serveCnt) (kept : w.counters[i]? = some c) (received : Bool)
    (flag : consumed[i]? = some received) :
    (handleMissedFrames level consumed w).2.counters[i]? =
        some (handleMissedTicks level received cReportMissedTicksPeriod c).2 ∧
      (handleMissedFrames level consumed w).2.serveCnt = w.serveCnt := by
  by_cases quiet : level.toNat < LogLevel.logLevelDebug.toNat
  · simp only [handleMissedFrames, handleMissedTicks, if_pos quiet]
    exact ⟨kept, trivial⟩
  · have unchanged : w.resize consumed.length = w := if_neg fun h => h same.symm
    rw [handleMissedFrames, if_neg quiet]
    simp [unchanged, List.getElem?_zipWith, kept, flag]

theorem watched_calls (level : LogLevel) (turns : List (List Bool)) (w : Watch) (i : Nat) (c : Counters)
    (kept : w.counters[i]? = some c) (serving : i < w.serveCnt)
    (same : ∀ consumed ∈ turns, consumed.length = w.serveCnt) :
    (watched level turns w).counters[i]? =
      some (calls level cReportMissedTicksPeriod (turns.filterMap (·[i]?)) c).2 := by
  induction turns generalizing w c with
  | nil => exact kept
  | cons consumed rest ih =>
    have first := same consumed List.mem_cons_self
    have flag : consumed[i]? = some consumed[i] := List.getElem?_eq_getElem (by omega)
    obtain ⟨next, size⟩ := handleMissedFrames_counter level first kept _ flag
    have later_same : ∀ later ∈ rest, later.length = (handleMissedFrames level consumed w).2.serveCnt := by
      intro later member
      rw [size]
      exact same later (List.mem_cons_of_mem _ member)
    have column : (consumed :: rest).filterMap (·[i]?) = consumed[i] :: rest.filterMap (·[i]?) :=
      List.filterMap_cons_some flag
    rw [watched, ih _ _ next (by omega) later_same, column, calls]

theorem restarted_calls {level : LogLevel} (debug : LogLevel.logLevelDebug.toNat ≤ level.toNat)
    (consumed : List Bool) (rest : List (List Bool)) (w : Watch) (i : Nat) (serving : i < consumed.length)
    (changed : w.serveCnt ≠ consumed.length) (same : ∀ later ∈ rest, later.length = consumed.length) :
    (watched level (consumed :: rest) w).counters[i]? =
      some (calls level cReportMissedTicksPeriod ((consumed :: rest).filterMap (·[i]?)) ⟨0, 0⟩).2 := by
  have quiet : ¬level.toNat < LogLevel.logLevelDebug.toNat := Nat.not_lt.mpr debug
  have size : (w.resize consumed.length).serveCnt = consumed.length := by rw [Watch.resize, if_pos changed]
  have again : (w.resize consumed.length).resize consumed.length = w.resize consumed.length :=
    if_neg fun h => h size
  have resized : handleMissedFrames level consumed w =
      handleMissedFrames level consumed (w.resize consumed.length) := by
    simp only [handleMissedFrames, if_neg quiet, again]
  have start : (w.resize consumed.length).counters[i]? = some ⟨0, 0⟩ := by
    rw [resize_rests changed, List.getElem?_replicate, if_pos serving]
  rw [watched, resized]
  refine watched_calls level (consumed :: rest) _ i ⟨0, 0⟩ start (by omega) fun later member => ?_
  rw [size]
  rcases List.mem_cons.mp member with rfl | member
  · rfl
  · exact same later member

theorem counts_append (first second : List Message) :
    counts (first ++ second) = counts first ++ counts second := by
  simp [counts]

theorem succ_emod {period : Int} (positive : 0 < period) (k : Nat) :
    ((k : Int) + 1) % period = if k % period + 1 = period then 0 else k % period + 1 := by
  have low := Int.emod_nonneg (k : Int) (by omega : period ≠ 0)
  have high := Int.emod_lt_of_pos (k : Int) positive
  rw [← Int.emod_add_emod]
  split
  · next full => rw [full, Int.emod_self]
  · next more => exact Int.emod_eq_of_lt (by omega) (by omega)

theorem folded_bounds {period : Int} (positive : 0 < period) (k : Nat) :
    0 ≤ folded period k ∧ folded period k ≤ 2 * period - 1 ∧ folded period k ≤ k := by
  have low := Int.emod_nonneg (k : Int) (by omega : period ≠ 0)
  have high := Int.emod_lt_of_pos (k : Int) positive
  unfold folded
  split
  · omega
  · have split_off : (k : Int) = (k - period) % period + period * ((k - period) / period) + period := by
      have := Int.emod_add_mul_ediv ((k : Int) - period) period
      omega
    have nonneg : 0 ≤ period * (((k : Int) - period) / period) :=
      Int.mul_nonneg (by omega) (Int.ediv_nonneg (by omega) (by omega))
    rw [Int.sub_emod_right] at split_off
    omega

/-- The miss that fills a period: the first time the counter is at the period, later at twice. -/
theorem folded_fills {period : Int} (positive : 0 < period) {k : Nat} (fills : period ∣ (k : Int) + 1) :
    folded period k + 1 = if (k : Int) < period then period else 2 * period := by
  have zero := Int.emod_eq_zero_of_dvd fills
  have low := Int.emod_nonneg (k : Int) (by omega : period ≠ 0)
  rw [succ_emod positive] at zero
  have full : (k : Int) % period + 1 = period := by split at zero <;> omega
  unfold folded
  split
  · next first =>
    rw [Int.emod_eq_of_lt (by omega) first] at full
    exact full
  · omega

theorem folded_succ {period : Int} (positive : 0 < period) (k : Nat) :
    folded period (k + 1) = if folded period k + 1 = 2 * period then period else folded period k + 1 := by
  have low := Int.emod_nonneg (k : Int) (by omega : period ≠ 0)
  have high := Int.emod_lt_of_pos (k : Int) positive
  unfold folded
  push_cast
  rw [succ_emod positive]
  by_cases first : (k : Int) < period
  · have small := Int.emod_eq_of_lt (by omega) first
    rw [if_pos first, small, if_neg (by omega : ¬(k : Int) + 1 = 2 * period)]
    split
    · rfl
    · rw [if_pos (by omega)]
      omega
  · rw [if_neg first, if_neg (by omega : ¬(k : Int) + 1 < period)]
    split
    · rw [if_pos (by omega), Int.add_zero]
    · rw [if_neg (by omega)]
      omega

theorem folded_tmod {period : Int} (positive : 0 < period) (k : Nat) :
    (folded period k + 1).tmod period = ((k : Int) + 1) % period := by
  obtain ⟨low, _, _⟩ := folded_bounds positive k
  rw [Int.tmod_eq_emod_of_nonneg (by omega)]
  unfold folded
  split
  · rfl
  · rw [Int.add_assoc, Int.add_emod_left, Int.emod_add_emod]

theorem missed_step {level : LogLevel} {period : Int} {k : Nat} (n : Int)
    (debug : LogLevel.logLevelDebug.toNat ≤ level.toNat) (proper : 2 ≤ period)
    (room : folded period k + 1 < 2 ^ 31) :
    (handleMissedTicks level false period ⟨folded period k, n⟩).2 = ⟨folded period (k + 1), n⟩ ∧
      counts (handleMissedTicks level false period ⟨folded period k, n⟩).1 =
        if period ∣ (k : Int) + 1 then [period] else [] := by
  have positive : 0 < period := by omega
  obtain ⟨low, _, _⟩ := folded_bounds positive k
  have next : toInt (folded period k + 1) = folded period k + 1 := toInt_small (by omega) room
  have silent : counts (if folded period k = 1 then [Message.startMissing] else []) = [] := by
    split <;> rfl
  have quiet : ¬level.toNat < LogLevel.logLevelDebug.toNat := Nat.not_lt.mpr debug
  have remainder := folded_tmod positive k
  have counter := folded_succ positive k
  simp only [handleMissedTicks, quiet, if_false, Bool.not_false, if_true, next, remainder]
  by_cases fills : period ∣ (k : Int) + 1
  · rw [if_pos (Int.emod_eq_zero_of_dvd fills), if_pos fills, counts_append, silent, counter]
    refine ⟨?_, rfl⟩
    have reached := folded_fills positive fills
    by_cases first : (k : Int) < period
    · rw [if_pos first] at reached
      simp only [reached, gt_iff_lt, Int.lt_irrefl, if_false, if_neg (by omega : ¬period = 2 * period)]
    · rw [if_neg first] at reached
      rw [reached] at room
      have folds : toInt (2 * period - period) = period := by
        rw [toInt_small (by omega) (by omega)]
        omega
      simp only [reached, folds, if_true, if_pos (by omega : 2 * period > period)]
  · rw [if_neg fun zero => fills (Int.dvd_of_emod_eq_zero zero), if_neg fills, counter]
    refine ⟨?_, silent⟩
    have not_twice : ¬folded period k + 1 = 2 * period := by
      intro twice
      rw [twice, Int.mul_tmod_left] at remainder
      exact fills (Int.dvd_of_emod_eq_zero remainder.symm)
    rw [if_neg not_twice]

theorem missed_run {level : LogLevel} {period : Int} (n : Int)
    (debug : LogLevel.logLevelDebug.toNat ≤ level.toNat) (proper : 2 ≤ period) (k : Nat)
    (room : ∀ j < k, folded period j + 1 < 2 ^ 31) :
    (calls level period (List.replicate k false) ⟨0, n⟩).2 = ⟨folded period k, n⟩ ∧
      counts (calls level period (List.replicate k false) ⟨0, n⟩).1 =
        List.replicate (k / period.toNat) period := by
  induction k with
  | zero =>
    have rest : folded period 0 = 0 := by
      unfold folded
      rw [if_pos (by push_cast; omega)]
      rfl
    rw [rest, Nat.zero_div]
    exact ⟨rfl, rfl⟩
  | succ k ih =>
    obtain ⟨counter, reports⟩ := ih fun j hj => room j (by omega)
    obtain ⟨step, report⟩ := missed_step n debug proper (room k (by omega))
    rw [List.replicate_succ', calls_append, calls_singleton, counter, counts_append, reports, report]
    refine ⟨step, ?_⟩
    have dvd : period ∣ (k : Int) + 1 ↔ period.toNat ∣ k + 1 := by
      rw [← Int.natCast_dvd_natCast, Int.toNat_of_nonneg (by omega)]
      push_cast
      rfl
    rw [Nat.succ_div]
    by_cases fills : period.toNat ∣ k + 1
    · rw [if_pos (dvd.mpr fills), if_pos fills, List.replicate_succ']
    · rw [if_neg (fun h => fills (dvd.mp h)), if_neg fills, List.append_nil, Nat.add_zero]

def closingReport (period ticks : Int) : Int :=
  if ticks > period then toInt ((toInt (ticks + 1)).tmod period - 1) else ticks

theorem closing_step {level : LogLevel} {ticks : Int} (period n : Int)
    (debug : LogLevel.logLevelDebug.toNat ≤ level.toNat) (missed : 0 < ticks) :
    (handleMissedTicks level true period ⟨ticks, n⟩).2 = ⟨0, 0⟩ ∧
      counts (handleMissedTicks level true period ⟨ticks, n⟩).1 = [closingReport period ticks] := by
  have quiet : ¬level.toNat < LogLevel.logLevelDebug.toNat := Nat.not_lt.mpr debug
  by_cases folds : ticks > period
  · simp [handleMissedTicks, quiet, folds, counts, Message.count, closingReport]
  · simp [handleMissedTicks, quiet, folds, missed, counts, Message.count, closingReport]

theorem rest_step {level : LogLevel} {period : Int} (n : Int) (positive : 0 ≤ period) :
    (handleMissedTicks level true period ⟨0, n⟩).2.ticks = 0 := by
  unfold handleMissedTicks
  split
  · rfl
  · simp [Int.not_lt.mpr positive]

theorem streak_counts {level : LogLevel} {period : Int} {m : Nat} (n : Int)
    (debug : LogLevel.logLevelDebug.toNat ≤ level.toNat) (proper : 2 ≤ period) (some_missed : 1 ≤ m)
    (room : ∀ j < m, folded period j + 1 < 2 ^ 31) :
    counts (calls level period (List.replicate m false ++ [true]) ⟨0, n⟩).1 =
        List.replicate (m / period.toNat) period ++ [closingReport period (folded period m)] ∧
      (calls level period (List.replicate m false ++ [true]) ⟨0, n⟩).2 = ⟨0, 0⟩ := by
  obtain ⟨counter, reports⟩ := missed_run n debug proper m room
  have positive : 0 < folded period m := by
    have low := Int.emod_nonneg (m : Int) (by omega : period ≠ 0)
    unfold folded
    split <;> omega
  obtain ⟨rest, closing⟩ := closing_step period n debug positive
  rw [calls_append, calls_singleton, counter, counts_append, reports, closing]
  exact ⟨rfl, rest⟩

theorem reports_sum {period : Int} (proper : 2 ≤ period) (m : Nat) :
    (List.replicate (m / period.toNat) period).sum = m - m % period := by
  have split_off := Int.emod_add_mul_ediv (m : Int) period
  have quotient : ((m / period.toNat : Nat) : Int) = (m : Int) / period := by
    rw [Int.natCast_ediv, Int.toNat_of_nonneg (by omega)]
  rw [List.sum_replicate_int, quotient, Int.mul_comm]
  omega

theorem room_of_counted {period : Int} {m : Nat} (proper : 2 ≤ period)
    (fits : period < 2 ^ 30 ∨ m < 2 ^ 31 - 1) (k : Nat) (k_le : k ≤ m) : folded period k + 1 < 2 ^ 31 := by
  obtain ⟨_, high, le⟩ := folded_bounds (by omega : 0 < period) k
  omega

theorem counted_closing {period : Int} {m : Nat} (proper : 2 ≤ period) (counted : Counted period m) :
    closingReport period (folded period m) = m % period := by
  obtain ⟨whole, one_less, fits⟩ := counted
  have low := Int.emod_nonneg (m : Int) (by omega : period ≠ 0)
  have high := Int.emod_lt_of_pos (m : Int) (by omega : 0 < period)
  have remainder : (m : Int) % period ≠ 0 := fun h => whole (Int.dvd_of_emod_eq_zero h)
  by_cases first : (m : Int) < period
  · have counter : folded period m = m := if_pos first
    rw [counter, closingReport, if_neg (by omega), Int.emod_eq_of_lt (by omega) first]
  · have counter : folded period m = period + m % period := if_neg first
    have more : (m : Int) % period + 1 ≠ period := by
      intro full
      rcases one_less with short | next
      · exact first short
      · rw [Int.dvd_iff_emod_eq_zero, succ_emod (by omega), if_pos full] at next
        exact next rfl
    have last := room_of_counted proper fits m (Nat.le_refl m)
    rw [counter] at last
    rw [counter, closingReport, if_pos (by omega), toInt_small (by omega) last,
      Int.tmod_eq_emod_of_nonneg (by omega), Int.add_assoc, Int.add_emod_left,
      Int.emod_eq_of_lt (by omega) (by omega), toInt_small (by omega) (by omega)]
    omega

theorem exact_of_counted {level : LogLevel} {period : Int} {m : Nat} (n : Int)
    (debug : LogLevel.logLevelDebug.toNat ≤ level.toNat) (proper : 2 ≤ period) (some_missed : 1 ≤ m)
    (counted : Counted period m) : Exact level period ⟨0, n⟩ m := by
  have room := room_of_counted proper counted.2.2
  obtain ⟨reported, closed⟩ := streak_counts n debug proper some_missed fun j hj => room j (by omega)
  rw [counted_closing proper counted] at reported
  refine ⟨?_, ?_, ?_, ?_⟩
  · rw [reported]
    intro count member
    rcases List.mem_append.mp member with report | last
    · rw [List.eq_of_mem_replicate report]
      omega
    · rw [List.mem_singleton.mp last]
      exact Int.emod_nonneg _ (by omega)
  · rw [reported, List.sum_append, reports_sum proper]
    simp
  · intro k k_le
    rw [(missed_run n debug proper k fun j hj => room j (by omega)).1]
    obtain ⟨low, high, _⟩ := folded_bounds (by omega : 0 < period) k
    exact ⟨low, high⟩
  · rw [closed]

theorem folded_last {period : Int} (wide : 2 ^ 30 ≤ period) (int : period < 2 ^ 31) :
    folded period (2 ^ 31 - 1) = 2 ^ 31 - 1 := by
  have cast : ((2 ^ 31 - 1 : Nat) : Int) = 2147483647 := rfl
  unfold folded
  rw [cast, if_neg (by omega), show (2147483647 : Int) = (2147483647 - period) + period by omega,
    Int.add_emod_right, Int.emod_eq_of_lt (by omega) (by omega)]
  omega

theorem overflow_step {level : LogLevel} {period : Int} (n : Int)
    (debug : LogLevel.logLevelDebug.toNat ≤ level.toNat) (positive : 0 ≤ period) :
    (handleMissedTicks level false period ⟨2 ^ 31 - 1, n⟩).2.ticks = -2 ^ 31 := by
  have quiet : ¬level.toNat < LogLevel.logLevelDebug.toNat := Nat.not_lt.mpr debug
  have wrapped : toInt (2 ^ 31 - 1 + 1) = -2 ^ 31 := by decide
  simp only [handleMissedTicks, quiet, if_false, Bool.not_false, if_true, wrapped]
  split
  · exact if_neg (by omega)
  · rfl

theorem no_overflow {level : LogLevel} {period : Int} {m : Nat} (n : Int)
    (debug : LogLevel.logLevelDebug.toNat ≤ level.toNat) (proper : 2 ≤ period) (int : period < 2 ^ 31)
    (bounded : ∀ k ≤ m, 0 ≤ (calls level period (List.replicate k false) ⟨0, n⟩).2.ticks) :
    period < 2 ^ 30 ∨ m < 2 ^ 31 := by
  by_contra long
  have wide : 2 ^ 30 ≤ period := by omega
  have room : ∀ j < 2 ^ 31 - 1, folded period j + 1 < 2 ^ 31 := by
    intro j hj
    obtain ⟨_, _, le⟩ := folded_bounds (by omega : 0 < period) j
    omega
  have counter := (missed_run n debug proper (2 ^ 31 - 1) room).1
  have negative := bounded (2 ^ 31 - 1 + 1) (by omega)
  rw [List.replicate_succ', calls_append, calls_singleton, counter, folded_last wide int,
    overflow_step n debug (by omega)] at negative
  omega

theorem exact_closing {level : LogLevel} {period : Int} {m : Nat} (n : Int)
    (debug : LogLevel.logLevelDebug.toNat ≤ level.toNat) (proper : 2 ≤ period) (some_missed : 1 ≤ m)
    (room : ∀ j < m, folded period j + 1 < 2 ^ 31) (exact_count : Exact level period ⟨0, n⟩ m) :
    closingReport period (folded period m) = m % period := by
  obtain ⟨reported, _⟩ := streak_counts n debug proper some_missed room
  have sum := exact_count.sum
  rw [reported, List.sum_append, reports_sum proper, List.sum_singleton] at sum
  omega

theorem exact_not_whole {period : Int} {m : Nat} (proper : 2 ≤ period) (some_missed : 1 ≤ m)
    (closing : closingReport period (folded period m) = m % period) : ¬period ∣ m := by
  intro fills
  have past := Int.le_of_dvd (by omega) fills
  have none_left := Int.emod_eq_zero_of_dvd fills
  have counter : folded period m = period := by
    unfold folded
    rw [if_neg (by omega), none_left, Int.add_zero]
  rw [counter, closingReport, if_neg (by omega), none_left] at closing
  omega

theorem exact_not_one_less {period : Int} {m : Nat} (proper : 2 ≤ period) (int : period < 2 ^ 31)
    (fits : period < 2 ^ 30 ∨ m < 2 ^ 31)
    (closing : closingReport period (folded period m) = m % period) (past : period ≤ m) :
    ¬period ∣ (m : Int) + 1 := by
  intro fills
  have counter : folded period m + 1 = 2 * period := by
    rw [folded_fills (by omega) fills, if_neg (by omega)]
  have remainder : (toInt (2 * period)).tmod period = 0 := by
    obtain ⟨_, _, le⟩ := folded_bounds (by omega : 0 < period) m
    by_cases small : 2 * period < 2 ^ 31
    · rw [toInt_small (by omega) small, Int.mul_tmod_left]
    · have edge : period = 2 ^ 30 := by omega
      rw [edge]
      decide
  have positive := Int.emod_nonneg (m : Int) (by omega : period ≠ 0)
  rw [closingReport, if_pos (by omega), counter, remainder] at closing
  rw [← closing] at positive
  exact absurd positive (by decide)

theorem exact_closing_fits {period : Int} {m : Nat} (int : period < 2 ^ 31) (whole : ¬period ∣ m)
    (wide : 2 ^ 30 ≤ period)
    (closing : closingReport period (folded period m) = m % period) : m ≠ 2 ^ 31 - 1 := by
  intro edge
  have positive := Int.emod_nonneg (m : Int) (by omega : period ≠ 0)
  rw [← closing, edge, folded_last wide int] at positive
  have past : period < 2 ^ 31 - 1 := by
    by_contra not_past
    have same : period = (m : Int) := by omega
    exact whole (same ▸ Int.dvd_refl _)
  have wrapped : toInt (2 ^ 31 - 1 + 1) = -2 ^ 31 := by decide
  have low := Int.emod_nonneg (2 ^ 31 : Int) (by omega : period ≠ 0)
  have high := Int.emod_lt_of_pos (2 ^ 31 : Int) (by omega : 0 < period)
  rw [closingReport, if_pos past, wrapped, Int.neg_tmod, Int.tmod_eq_emod_of_nonneg (by decide),
    toInt_small (by omega) (by omega)] at positive
  omega

/-- The accounting is wrong for all other streaks. -/
theorem counted_of_exact {level : LogLevel} {period : Int} {m : Nat} (n : Int)
    (debug : LogLevel.logLevelDebug.toNat ≤ level.toNat) (proper : 2 ≤ period) (int : period < 2 ^ 31)
    (some_missed : 1 ≤ m) (exact_count : Exact level period ⟨0, n⟩ m) : Counted period m := by
  have fits := no_overflow n debug proper int fun k hk => (exact_count.bounded k hk).1
  have room : ∀ j < m, folded period j + 1 < 2 ^ 31 := by
    intro j hj
    obtain ⟨_, high, le⟩ := folded_bounds (by omega : 0 < period) j
    omega
  have closing := exact_closing n debug proper some_missed room exact_count
  have whole := exact_not_whole proper some_missed closing
  refine ⟨whole, ?_, ?_⟩
  · by_cases short : (m : Int) < period
    · exact Or.inl short
    · exact Or.inr (exact_not_one_less proper int fits closing (by omega))
  · by_cases narrow : period < 2 ^ 30
    · exact Or.inl narrow
    · have not_last := exact_closing_fits int whole (by omega) closing
      exact Or.inr (by omega)

theorem last_streak (sequence : List Bool) :
    ∃ before m, sequence = before ++ List.replicate m false ∧ before.getLast? ≠ some false := by
  induction sequence using List.reverseRecOn with
  | nil => exact ⟨[], 0, rfl, by simp⟩
  | append_singleton init received ih =>
    cases received with
    | true => exact ⟨init ++ [true], 0, by simp, by simp⟩
    | false =>
      obtain ⟨before, m, split_off, begins⟩ := ih
      exact ⟨before, m + 1, by rw [split_off, List.replicate_succ', List.append_assoc], begins⟩

theorem at_rest {level : LogLevel} {period : Int} (nonMissed : Int) {sequence : List Bool}
    (positive : 0 ≤ period)
    (closes : ∀ before m, Streak sequence before m →
      (calls level period before ⟨0, nonMissed⟩).2.ticks = 0 →
        (calls level period (before ++ List.replicate m false ++ [true]) ⟨0, nonMissed⟩).2.ticks = 0)
    (before : List Bool) (begins : before.getLast? ≠ some false) (known : before <+: sequence) :
    (calls level period before ⟨0, nonMissed⟩).2.ticks = 0 := by
  induction length : before.length using Nat.strongRecOn generalizing before with
  | _ length_before ih =>
    cases before using List.reverseRecOn with
    | nil => rfl
    | append_singleton init received =>
      obtain rfl : received = true := by
        rw [List.getLast?_concat] at begins
        simpa using begins
      obtain ⟨earlier, m, rfl, earlier_begins⟩ := last_streak init
      have shorter : earlier.length < length_before := by
        simp only [List.length_append, List.length_replicate, List.length_singleton] at length
        omega
      have earlier_known : earlier <+: sequence := by
        rw [List.append_assoc] at known
        exact (List.prefix_append _ _).trans known
      have rest := ih _ shorter _ earlier_begins earlier_known rfl
      cases m with
      | zero =>
        rw [List.replicate_zero, List.append_nil, calls_append, calls_singleton]
        generalize calls level period earlier ⟨0, nonMissed⟩ = reached at rest
        obtain ⟨messages, ticks, n⟩ := reached
        obtain rfl : ticks = 0 := rest
        exact rest_step n positive
      | succ m => exact closes _ _ ⟨by omega, earlier_begins, known⟩ rest

/-- A streak met with the counter at rest is accounted for exactly when its length is. -/
theorem exact_iff_counted {level : LogLevel} {period : Int} {m : Nat} {c : Counters}
    (debug : LogLevel.logLevelDebug.toNat ≤ level.toNat) (proper : 2 ≤ period) (int : period < 2 ^ 31)
    (some_missed : 1 ≤ m) (rest : c.ticks = 0) : Exact level period c m ↔ Counted period m := by
  obtain ⟨ticks, n⟩ := c
  obtain rfl : ticks = 0 := rest
  exact ⟨counted_of_exact n debug proper int some_missed, exact_of_counted n debug proper some_missed⟩

theorem exact_closes {level : LogLevel} {period : Int} {nonMissed : Int} {before : List Bool} {m : Nat}
    (exact_count : Exact level period (calls level period before ⟨0, nonMissed⟩).2 m) :
    (calls level period (before ++ List.replicate m false ++ [true]) ⟨0, nonMissed⟩).2.ticks = 0 := by
  rw [List.append_assoc, calls_append]
  exact exact_count.closed

/-- A sequence of calls accounts for every streak exactly when each has a length it can count. -/
theorem missed_ticks_accounted (level : LogLevel) (debug : LogLevel.logLevelDebug.toNat ≤ level.toNat)
    (period : Int) (proper : 2 ≤ period) (int : period < 2 ^ 31) (nonMissed : Int) (sequence : List Bool) :
    (∀ before m, Streak sequence before m →
        Exact level period (calls level period before ⟨0, nonMissed⟩).2 m) ↔
      ∀ before m, Streak sequence before m → Counted period m := by
  constructor
  · intro accounted before m streak
    have rest := at_rest nonMissed (by omega) (fun b k found _ => exact_closes (accounted b k found)) before
      streak.begins ((List.prefix_append _ _).trans ((List.append_assoc _ _ _).symm ▸ streak.ends))
    exact (exact_iff_counted debug proper int streak.misses rest).mp (accounted before m streak)
  · intro counted before m streak
    have rest := at_rest nonMissed (by omega)
      (fun b k found zero => exact_closes
        ((exact_iff_counted debug proper int found.misses zero).mpr (counted b k found))) before
      streak.begins ((List.prefix_append _ _).trans ((List.append_assoc _ _ _).symm ▸ streak.ends))
    exact (exact_iff_counted debug proper int streak.misses rest).mpr (counted before m streak)

theorem missed_ticks_accounted_short :
    Exact .logLevelDebug 250 (calls .logLevelDebug 250 [true] ⟨0, 0⟩).2 3 := by
  have streak : Streak [true, false, false, false, true] [true] 3 := ⟨by decide, by decide, List.prefix_rfl⟩
  refine (missed_ticks_accounted .logLevelDebug (by decide) 250 (by decide) (by decide) 0 _).mpr ?_ _ _ streak
  intro before m found
  have long := found.ends.length_le
  have misses := found.misses
  simp only [List.length_append, List.length_replicate, List.length_cons, List.length_nil] at long
  exact ⟨by omega, by omega, Or.inl (by decide)⟩

/-- A streak of one whole period is reported twice. -/
theorem whole_period_counted_twice :
    Streak (List.replicate 250 false ++ [true]) [] 250 ∧
      counts (calls .logLevelDebug 250 (List.replicate 250 false ++ [true]) ⟨0, 0⟩).1 = [250, 250] ∧
      ¬Exact .logLevelDebug 250 (calls .logLevelDebug 250 [] ⟨0, 0⟩).2 250 := by
  have reported :
      counts (calls .logLevelDebug 250 (List.replicate 250 false ++ [true]) ⟨0, 0⟩).1 = [250, 250] := by
    decide +kernel
  refine ⟨⟨by decide, by decide, List.prefix_rfl⟩, reported, ?_⟩
  intro exact_count
  have sum := exact_count.sum
  rw [show (calls .logLevelDebug 250 [] ⟨0, 0⟩).2 = ⟨0, 0⟩ from rfl, reported] at sum
  exact absurd sum (by decide)

end MissedTicks
