import SumTree.Rehearsal.Script
import SumTree.Spawner.Readiness

/-!
# Scripted connections

A script says of each attempt to connect how it goes; what it says last holds for all later ones.

## Main Definitions

* `ProbeWorld` — the attempts to come and those that were made.
* `ProbeWorld.probe` — an attempt to connect.
-/

namespace SumTree

/-- The attempts to come and those that were made. -/
structure ProbeWorld where
  /-- How the attempts to come go: by a word for success, a word for a failure, or a text. -/
  script : List String
  /-- The hosts, ports and time limits of the attempts that were made. -/
  made : List (String × Int × Number)

namespace ProbeWorld

/-- An attempt to connect to a host and a port. -/
def probe (host : String) (port : Int) (limit : Number) : Action ProbeWorld Unit := do
  let w ← Action.state
  Action.setState ⟨if w.script.length > 1 then w.script.drop 1 else w.script,
    w.made ++ [(host, port, limit)]⟩
  match w.script with
  | [] | "ok" :: _ => return ()
  | "timeout" :: _ => Action.fail (.system "TimeoutError" "")
  | "crash" :: _ => Action.fail (.elsewhere "RuntimeError" "crash")
  | text :: _ => Action.fail (.system "OSError" text)

end ProbeWorld

end SumTree
