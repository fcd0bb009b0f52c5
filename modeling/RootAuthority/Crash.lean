/-!
# Steps without a result

Some steps have a result for some arguments only: a number less one needs a number above zero, a
remainder a divisor, and a point in time a date that is in the calendar. Where such a step is taken
for another argument the program crashes. That is not an error which a caller could deal with: what
may crash is an `Except Crash`, and the errors of its result are inside.

`withoutCrash` is the result of a computation that is known not to crash.
-/

namespace RootAuthority

/-- A step that has no result. -/
inductive Crash
  /-- The clock shows a time in no year of the calendar. -/
  | clockOutOfRange
  /-- The day after the last day of the calendar. -/
  | noNextDay
  /-- A year before year 0 in writing. -/
  | yearBeforeZero
  /-- Zero less one. -/
  | belowZero
  /-- A remainder by zero. -/
  | divisionByZero
  /-- The instant of a date or time of day that does not exist. -/
  | noSuchTime
deriving DecidableEq, Repr

variable {α : Type} {m : Except Crash α}

/-- **The result of a computation that does not crash.** -/
def withoutCrash (m : Except Crash α) (h : ∃ a, m = .ok a) : α :=
  match m, h with
  | .ok a, _ => a
  | .error _, h => absurd h nofun

theorem withoutCrash_eq_iff {h : ∃ a, m = .ok a} {a : α} : withoutCrash m h = a ↔ m = .ok a := by
  obtain ⟨b, rfl⟩ := h
  constructor
  · intro hb
    exact congrArg Except.ok hb
  · intro hb
    exact Except.ok.inj hb

end RootAuthority
