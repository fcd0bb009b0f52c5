import RootAuthority.Calendar.Instant

/-!
# Serial numbers of certificates

A serial source hands out the numbers after its seed, one at a time and in order, up to the largest
64-bit number. The last number is handed out once; after that the source is exhausted and stays so.

Several threads may draw from one source. Each draw is a load of the current value followed by a
compare-and-swap, which is tried again if another thread came first or if it failed for no reason.
`SerialSource.Draw` is one thread's place in that loop and `SerialSource.act` one atomic step of it.
In a `Contention` threads draw from one source, each a number of times in a row, and take their
atomic steps in any order (`Contention.run`). It keeps a note of the draws that are over.
-/

namespace RootAuthority

/-- The largest serial number. -/
def maxSerial : Nat := 0xffff_ffff_ffff_ffff

/-- A source of serial numbers: the number handed out last, or the seed. -/
structure SerialSource where
  current : Nat
deriving DecidableEq, Repr

namespace SerialSource

/-- A source whose first number is the seed plus one. -/
def ofSeed (seed : Nat) : SerialSource := ⟨seed⟩

/-- A source seeded with the seconds since 1970, zero before that. -/
def ofClock (now : Instant) : SerialSource := ⟨now.secs.toNat⟩

/-- **Draws the next number**, or nothing from an exhausted source. -/
def next (s : SerialSource) : Option Nat × SerialSource :=
  if s.current < maxSerial then (some (s.current + 1), ⟨s.current + 1⟩) else (none, s)

theorem next_of_lt {s : SerialSource} (h : s.current < maxSerial) :
    s.next = (some (s.current + 1), ⟨s.current + 1⟩) := if_pos h

theorem next_of_not_lt {s : SerialSource} (h : ¬s.current < maxSerial) : s.next = (none, s) :=
  if_neg h

/-- Draws `n` times. -/
def take : Nat → SerialSource → List (Option Nat) × SerialSource
  | 0, s => ([], s)
  | n + 1, s =>
    let (drawn, s) := s.next
    let (more, s) := take n s
    (drawn :: more, s)

/-! ## Draws by several threads -/

/-- Where a thread stands in one draw. -/
inductive Draw
  /-- The current value is still to be loaded. -/
  | start
  /-- A value was loaded and its successor is to be stored. -/
  | loaded (seen : Nat)
  /-- The draw is over. -/
  | done (drawn : Option Nat)
deriving DecidableEq, Repr

/-- One atomic step of a draw; `spurious` says that a compare-and-swap fails although nothing
    changed. A failed one goes on from the value it found. -/
def act (s : SerialSource) (spurious : Bool) : Draw → Draw × SerialSource
  | .start => if s.current < maxSerial then (.loaded s.current, s) else (.done none, s)
  | .loaded seen =>
    if s.current = seen ∧ spurious = false then (.done (some (seen + 1)), ⟨seen + 1⟩)
    else if s.current < maxSerial then (.loaded s.current, s) else (.done none, s)
  | .done drawn => (.done drawn, s)

end SerialSource

/-- **Threads that draw from one source.** -/
structure Contention (ι : Type) where
  source : SerialSource
  /-- Where the threads stand in their draws. -/
  draw : ι → SerialSource.Draw
  /-- How many draws of a thread are not over. -/
  left : ι → Nat
  /-- The draws that are over, in the order in which they ended, and whose they were. -/
  ended : List (ι × Option Nat)

namespace Contention

variable {ι : Type}

/-- Nobody has begun; `calls` says how often each thread is to draw. -/
def start (seed : Nat) (calls : ι → Nat) : Contention ι where
  source := .ofSeed seed
  draw _ := .start
  left := calls
  ended := []

variable [DecidableEq ι]

/-- **One thread takes one atomic step**, if it has a draw to do. After a draw that is over the next
    one begins. -/
def step (c : Contention ι) (move : ι × Bool) : Contention ι :=
  let (i, spurious) := move
  if c.left i = 0 then c
  else match c.source.act spurious (c.draw i) with
    | (.done drawn, source) =>
      { source := source
        draw := fun j => if j = i then .start else c.draw j
        left := fun j => if j = i then c.left i - 1 else c.left j
        ended := c.ended ++ [(i, drawn)] }
    | (draw, source) =>
      { c with
        source := source
        draw := fun j => if j = i then draw else c.draw j }

/-- **The threads take steps in the order of a schedule**, which also says which of them fail for no
    reason. -/
def run (c : Contention ι) (schedule : List (ι × Bool)) : Contention ι := schedule.foldl step c

/-- What a thread has drawn, in order. -/
def drawnBy (c : Contention ι) (i : ι) : List (Option Nat) :=
  (c.ended.filter (·.1 = i)).map (·.2)

end Contention

end RootAuthority
