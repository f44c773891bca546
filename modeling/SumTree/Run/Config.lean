import SumTree.Number.Basic
import SumTree.Tree.Aggregate

/-!
# Settings of a run

## Main Definitions

* `RunConfig` — the settings of a run.
* `RunConfig.aggregator` — the aggregator that they ask for.
-/

namespace SumTree

/-- The settings of a run. -/
structure RunConfig where
  /-- The seconds that a worker gets to answer. -/
  requestTimeout : Number
  /-- The seconds that cancelled exchanges get to end. -/
  gracePeriod : Number
  policy : OddPolicy
  /-- The number of bytes that every total must fit into. -/
  maxBytes? : Option Int
  hasher : Hasher

/-- The aggregator that the settings ask for. -/
def RunConfig.aggregator (c : RunConfig) : Aggregator :=
  ⟨c.hasher, c.policy, c.maxBytes?⟩

end SumTree
