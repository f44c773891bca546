import SumTree.Rehearsal.Worker
import SumTree.Run.Watch

/-!
# Rehearsing an exchange

One exchange with a scripted worker, which may be cancelled or stopped after some turns.

## Main Definitions

* `Interruption` — when something that goes on is cancelled or stopped.
* `Interruption.events` — what happens to an exchange.
* `Exchange.rehearse` — an exchange with a scripted worker.
-/

namespace SumTree

/-- When something that goes on is cancelled or stopped. -/
structure Interruption where
  /-- It is cancelled before it begins. -/
  cancelledBefore : Bool
  cancelAt? : Option Nat
  stopAt? : Option Nat

namespace Interruption

/-- The interruption of a script. -/
def ofJson (v : Json) : Interruption :=
  let turn? (name : String) : Option Nat := ((v.get? name).bind Json.int?).map Int.toNat
  ⟨Script.text v "cancel" "" == "before", turn? "cancel", turn? "abort"⟩

/-- A moment later than the interruption and than the turns of some scripts. -/
def horizon (i : Interruption) (turns : List Nat) : Nat :=
  (turns ++ i.cancelAt?.toList ++ i.stopAt?.toList).foldl max 0 + 1

/-- What happens to an exchange, given how its request ends and the moment of that. A request that is
told to end does so in the end. -/
def events (i : Interruption) (ending? : Option (Nat × Reply)) : List Watch.Event :=
  let moments := (ending?.map Prod.fst).toList ++ i.cancelAt?.toList ++ i.stopAt?.toList
  let during := (moments.foldr Schedule.addMoment []).flatMap fun m =>
    (ending?.filter (·.1 == m)).toList.map (.ends ·.2) ++
      (if i.cancelAt? == some m then [.cancels] else []) ++ [.wakes] ++
      if i.stopAt? == some m then [.stops, .wakes] else []
  let late := if i.cancelAt?.isSome then [.ends (.broken Exchange.stopped), .wakes] else []
  [.sends, .wakes] ++ during ++ late

end Interruption

/-- An exchange with a scripted worker. -/
def Exchange.rehearse (x : Exchange) (s : WorkerScript) (i : Interruption) : Watch :=
  let ending? : Option (Nat × Reply) :=
    match s.reply? x.entries with
    | some reply => some (s.turn, reply)
    | none => if s.isStubborn then none else some (i.horizon [s.turn], .timedOut)
  Watch.play x i.cancelledBefore (i.events ending?)

end SumTree
