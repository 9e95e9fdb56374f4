import RealtimeAsr.Lib.Block
import RealtimeAsr.Lib.Machine
import RealtimeAsr.Vad.FileCut

/-!
This module contains `vad/src/period_format.c`: it collects the periods that are not silent. A function
gives `none` where it accesses an array outside of its block, which the language leaves undefined.
-/

structure Periods where
  isPerviousActive : Int := 0
  currentFrame : Nat := 0
  periodStart : Block Nat
  periodEnd : Block Nat
  size : Int := 0
  sizeAllocated : Nat
  isEndFilled : Int := 0

/--
The arguments of a call, and what the two calls of `realloc` in it give if they are reached.
-/
structure PeriodCall where
  isActive : Int
  isLast : Int := 0
  reallocStart : Option (Nat → Nat)
  reallocEnd : Option (Nat → Nat)

def periodsSizeInited : Nat := 100

/--
What `period_end` holds after it was set to `-1`.
-/
def uint64Max : Nat := 0xFFFFFFFFFFFFFFFF

/--
Which of the three calls of `calloc` succeed.
-/
structure CreateCalls where
  per : Bool := true
  periodStart : Bool := true
  periodEnd : Bool := true

def periodsCreate (calls : CreateCalls) : Option Periods :=
  if !calls.per then
    none
  else if !calls.periodStart then
    none
  else if !calls.periodEnd then
    none
  else
    some {
      periodStart := Block.calloc periodsSizeInited 0
      periodEnd := Block.calloc periodsSizeInited 0
      sizeAllocated := periodsSizeInited }

namespace Periods

/--
The growth at the beginning of `add_period_start`.
-/
def grow (per : Periods) (e : PeriodCall) : Int × Periods :=
  if per.size > per.sizeAllocated then
    let newSize := per.sizeAllocated * 2
    let per := { per with periodStart := per.periodStart.realloc newSize e.reallocStart }
    if per.periodStart.isNone then
      (1, per)
    else
      let per := { per with periodEnd := per.periodEnd.realloc newSize e.reallocEnd }
      if per.periodEnd.isNone then
        (2, per)
      else
        (0, { per with sizeAllocated := per.sizeAllocated * 2 })
  else
    (0, per)

def addPeriodStart (per : Periods) (e : PeriodCall) : Option (Int × Periods) := do
  let per := { per with size := per.size + 1 }
  let (res, per) := per.grow e
  if res ≠ 0 then
    return (res, per)
  let startTime := (calTimeByFrame per.currentFrame).toNat
  let periodStart ← per.periodStart.store (per.size - 1) startTime
  let periodEnd ← per.periodEnd.store (per.size - 1) uint64Max
  return (0, { per with periodStart := periodStart, periodEnd := periodEnd, isEndFilled := 0 })

def addPeriodEnd (per : Periods) : Option Periods := do
  let endTime := (calTimeByFrame per.currentFrame).toNat
  let periodEnd ← per.periodEnd.store (per.size - 1) endTime
  return { per with periodEnd := periodEnd, isEndFilled := 1 }

def nextFrame (per : Periods) : Periods :=
  { per with currentFrame := per.currentFrame + 1 }

def periodAddVadActivity (per : Periods) (e : PeriodCall) : Option (Int × Periods) := do
  if per.isPerviousActive = 0 ∧ e.isActive ≠ 0 then
    let (res, per) ← per.addPeriodStart e
    if res ≠ 0 then
      return (res, per)
    return (0, { per with isPerviousActive := e.isActive }.nextFrame)
  else if per.isPerviousActive ≠ 0 ∧ (e.isActive = 0 ∨ e.isLast ≠ 0) then
    let per ← per.addPeriodEnd
    return (0, { per with isPerviousActive := e.isActive }.nextFrame)
  else
    return (0, per.nextFrame)

/--
The array indices that an item of `periods_print` reads: the end is not there for `N`.
-/
structure Item where
  start : Int
  stop : Option Int
  deriving DecidableEq

def Item.reads (item : Item) : List Int :=
  item.start :: item.stop.toList

def printed (per : Periods) (i : Int) : Item :=
  if i ≠ per.size - 1 ∨ per.isEndFilled ≠ 0 then
    { start := i, stop := some i }
  else
    { start := per.size, stop := none }

def ld (x : Nat) : List Char :=
  (toString ((x : Int).bmod (uint64Max + 1))).toList

def Item.text (per : Periods) (item : Item) : Option (List Char) := do
  let start ← per.periodStart.load item.start
  match item.stop with
  | some i =>
    let stop ← per.periodEnd.load i
    return ['['] ++ ld start ++ ", ".toList ++ ld stop ++ "] ".toList
  | none => return ['['] ++ ld start ++ ", N]".toList

def printItems (per : Periods) : Option (List (List Char)) :=
  (List.range per.size.toNat).mapM fun (i : Nat) => (per.printed i).text per

def periodsPrint (per : Periods) : Option (List Char) :=
  per.printItems.map fun items =>
    "PERIODS SIZE :".toList ++ (toString per.size).toList ++ ", is_end_filled:".toList
      ++ (if per.isEndFilled ≠ 0 then "true".toList else "false".toList) ++ [' ']
      ++ items.flatten ++ ['\n']

end Periods

def collecting : Machine (Option Periods) PeriodCall where
  init := periodsCreate {}
  step s e := do
    let per ← s
    let (_, per) ← per.periodAddVadActivity e
    return per
