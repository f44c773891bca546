import SumTree.Run.Proceedings

/-!
# Schedules

A schedule says when the reply to each exchange comes, and when the run is cancelled or stopped. It
unfolds into what happens to the exchanges: all of them begin, and then at each moment the replies of
that moment come in and the run collects what has finished.

## Main Definitions

* `Course` — what one exchange meets with when it is left alone.
* `Schedule` — the courses of a run's exchanges, and what is done to the run.
* `Schedule.happenings` — what happens according to a schedule.
-/

namespace SumTree

/-- What one exchange meets with when it is left alone. -/
structure Course where
  /-- The moment at which its reply comes, and the reply, unless none ever does. -/
  reply? : Option (Nat × Reply)
  /-- The moment up to which it ignores a first request to end. -/
  resistsUntil : Nat

/-- The courses of a run's exchanges, and what is done to the run. -/
structure Schedule where
  courses : List Course
  /-- The moment at which the caller asks to cancel. -/
  cancelAt? : Option Nat
  /-- The moment at which the run is stopped. -/
  stopAt? : Option Nat

namespace Schedule

/-- Adds a moment to ascending moments, unless it is among them. -/
def addMoment (m : Nat) : List Nat → List Nat
  | [] => [m]
  | n :: rest => if m < n then m :: n :: rest else if m == n then n :: rest else n :: addMoment m rest

theorem mem_addMoment {m n : Nat} {moments : List Nat} :
    n ∈ addMoment m moments ↔ n = m ∨ n ∈ moments := by
  induction moments with
  | nil => simp [addMoment]
  | cons k rest ih =>
    simp only [addMoment]
    split
    · simp
    · split
      · rename_i h
        have : m = k := by simpa using h
        simp [this]
      · simp only [List.mem_cons, ih]
        exact or_left_comm

/-- The moments at which something happens, ascending, the first one included. -/
def moments (s : Schedule) : List Nat :=
  (0 :: (s.courses.filterMap (·.reply?.map Prod.fst) ++ s.cancelAt?.toList
    ++ s.stopAt?.toList)).foldr addMoment []

/-- The courses by their chunks. -/
def numbered (s : Schedule) : List (Nat × Course) :=
  (List.range s.courses.length).zip s.courses

/-- The replies of one moment, each of which wakes its exchange. -/
def repliesAt (s : Schedule) (m : Nat) : List Happening :=
  s.numbered.flatMap fun p =>
    match p.2.reply? with
    | some (n, reply) => if n == m then [.replies p.1 reply, .wakes p.1] else []
    | none => []

/-- What happens at one moment. -/
def happeningsAt (s : Schedule) (m : Nat) : List Happening :=
  let resisting := s.numbered.filterMap fun p => if m < p.2.resistsUntil then some p.1 else none
  s.repliesAt m ++ (if s.cancelAt? == some m then [.cancels] else [])
    ++ [.collects true (s.stopAt? == some m) resisting]

/-- What happens according to a schedule. -/
def happenings (s : Schedule) : List Happening :=
  (List.range s.courses.length).map .begins ++ s.moments.flatMap s.happeningsAt

end Schedule

end SumTree
