import SumTree.Proofs.Partition
import SumTree.Proofs.Run.Acceptance
import SumTree.Proofs.Run.Proceedings
import SumTree.Proofs.Run.Stages
import SumTree.Proofs.Tree.Aggregate

/-!
# Totals of completed runs

A run that completes reports the totals of the entries that it was given, whatever the workers answer
and in whatever order. Each mini-tree that the run accepts carries its chunk and has the totals of the
chunk in its root (`honest_of_complete`); the chunks make up the entries, and the sums of sums are the
sums of everything.

## Main Definitions

* `Sample.backwards` — a run in which two workers answer in the opposite order.
-/

namespace SumTree

namespace Proceedings

/-- The exchange at a position is that of the chunk there with the worker there. -/
theorem Sound.exchange_eq {config : RunConfig} {chunks : List (List Entry)}
    {handles : List Handle} {replied : Nat → Reply → Prop} {p : Proceedings}
    (h : p.Sound (Orchestrator.exchanges config chunks handles) replied) {i : Nat} {y : Progress}
    (hy : p.progress[i]? = some y) :
    ∃ chunk handle, chunks[i]? = some chunk ∧ handles[i]? = some handle ∧
      y.exchange = ⟨i, handle, config.requestTimeout, chunk⟩ := by
  have hexchange := h.getElem?_exchange i
  rw [hy, Option.map_some, Orchestrator.getElem?_exchanges, eq_comm,
    Option.bind_eq_some_iff] at hexchange
  obtain ⟨chunk, hchunk, hexchange⟩ := hexchange
  obtain ⟨handle, hhandle, hexchange⟩ := Option.map_eq_some_iff.mp hexchange
  exact ⟨chunk, handle, hchunk, hhandle, hexchange.symm⟩

/-- The trees that the exchanges bring carry the chunks for which there are workers, in order, and each
could be the sum tree of its chunk. -/
theorem honest_of_complete {config : RunConfig} {chunks : List (List Entry)}
    {handles : List Handle} {happenings : List Happening} {trees : List MiniTree}
    (hcomplete : (play (Orchestrator.exchanges config chunks handles) happenings).ending =
      .complete trees) :
    trees.map MiniTree.entries = chunks.take handles.length ∧
      ∀ t ∈ trees, t.Plausible t.entries := by
  have hsound := sound_play (Orchestrator.exchanges config chunks handles) happenings
  obtain ⟨t, htrees, hjudged⟩ := hsound.of_complete hcomplete
  have hcount := Orchestrator.length_exchanges config chunks handles
  -- The tree at a position was judged against the chunk there.
  have hchunk : ∀ i (hi : i < chunks.length), i < handles.length →
      (t i).entries = chunks[i] ∧ (t i).Plausible chunks[i] := by
    intro i hi hhandle
    obtain ⟨y, hy⟩ : ∃ y, (play (Orchestrator.exchanges config chunks handles)
        happenings).progress[i]? = some y := by
      refine ⟨_, List.getElem?_eq_getElem ?_⟩
      rw [hsound.length_progress]
      omega
    obtain ⟨q, reply, -, -, -, hjudge⟩ := hjudged i y hy
    obtain ⟨chunk, handle, hchunk, -, hexchange⟩ := hsound.exchange_eq hy
    have haccepted := Exchange.plausible_of_judge hjudge
    rw [List.getElem?_eq_getElem hi, Option.some.injEq] at hchunk
    rwa [hexchange, ← hchunk] at haccepted
  constructor
  · rw [htrees, List.map_map]
    refine List.ext_getElem (by simp [min_comm]) fun i _ hi => ?_
    rw [List.length_take] at hi
    simpa using (hchunk i (by omega) (by omega)).1
  · intro tree htree
    rw [htrees] at htree
    obtain ⟨i, hi, rfl⟩ := List.mem_map.mp htree
    rw [List.mem_range] at hi
    obtain ⟨hentries, hcredible⟩ := hchunk i (by omega) (by omega)
    rwa [hentries]

end Proceedings

/-- The totals of entries of one width, column by column. -/
theorem totals_eq_map {entries : List Entry} {width : Nat} (hne : entries ≠ [])
    (h : Partition.Uniform width entries) :
    Entry.totals entries = (List.range width).map fun column =>
      ((entries.map fun e => e.balances.getD column 0).sum : Int) := by
  have hrows : ∀ row ∈ entries.map Entry.amounts, row.length = width := by
    intro row hrow
    obtain ⟨e, he, rfl⟩ := List.mem_map.mp hrow
    rw [Entry.amounts, List.length_map]
    exact h e he
  rw [Entry.totals, columnSums_eq_map (by simpa using hne) hrows]
  refine List.map_congr_left fun column _ => ?_
  rw [List.map_map]
  refine congrArg List.sum (List.map_congr_left fun e _ => ?_)
  simp only [Function.comp_apply, Entry.amounts, List.getD_eq_getElem?_getD, List.getElem?_map]
  cases e.balances[column]? <;> rfl

/-- Mini-trees with the totals of their chunks have, together, the totals of all entries. -/
theorem sums_roots {trees : List MiniTree} (hcredible : ∀ t ∈ trees, t.Plausible t.entries)
    (hne : ∀ chunk ∈ trees.map MiniTree.entries, chunk ≠ []) :
    Node.sums (trees.map MiniTree.root) =
      Entry.totals (trees.map MiniTree.entries).flatten := by
  have hroots : trees.map (fun t => t.root.balances) =
      (trees.map fun t => t.entries.map Entry.amounts).map columnSums := by
    rw [List.map_map]
    exact List.map_congr_left fun t ht => (hcredible t ht).totals
  rw [Node.sums, List.map_map, Entry.totals, List.map_flatten, List.map_map]
  refine Eq.trans (congrArg columnSums hroots) (columnSums_flatten ?_).symm
  intro rows hrows
  obtain ⟨t, ht, rfl⟩ := List.mem_map.mp hrows
  simpa using hne t.entries (List.mem_map_of_mem ht)

namespace Orchestrator

variable {σ : Type}

/-- Whatever the workers answer and in whatever order: a run that completes reports in its root the
totals of the entries, over the chunks of the partition in their order. -/
theorem totals_of_completed (o : Orchestrator) (spawner : Spawning σ) (cancelledEarly : Bool)
    (connection : Except Failure Unit) (happenings : List Exchange → List Happening)
    (config : RunConfig) (entries : List Entry) (executors : Int) (s : σ) {width : Nat}
    (huniform : Partition.Uniform width entries) {r : RunResult}
    (hok : (o.run (.amid spawner cancelledEarly connection happenings) config entries executors
      s).outcome = .ok r) :
    r.tree.root.balances = ((List.range width).map fun column =>
        ((entries.map fun e => e.balances.getD column 0).sum : Int)) ∧
      (r.chunkCount : Int) = min executors entries.length ∧
      Partition.chunks entries executors = .ok (r.tree.miniTrees.map MiniTree.entries) ∧
      r.tree.leaves = r.tree.miniTrees.map MiniTree.root ∧
      r.tree.depth = Nat.clog 2 r.chunkCount := by
  obtain ⟨-, chunks, handles, hchunks, -, hchunkCount, hheld⟩ :=
    exists_of_run_eq_ok o _ config entries executors s hok
  obtain ⟨-, -, hexchanges, trees, hcomplete, hbuilt⟩ := exists_of_hold_eq_tree hheld
  obtain ⟨hentries, hcredible⟩ := Proceedings.honest_of_complete hcomplete
  rw [length_exchanges] at hexchanges
  rw [List.take_of_length_le (by omega)] at hentries
  have hover := Aggregator.over_of_buildFromTrees hbuilt
  have hone := (Partition.chunks_eq_slices hchunks).1
  have hlength : trees.length = r.chunkCount := by
    rw [hchunkCount, ← hentries, List.length_map]
  refine ⟨?_, ?_, ?_, ?_, ?_⟩
  · -- The root holds the sums of the roots, and these are the totals of all entries.
    have hnonempty : ∀ chunk ∈ trees.map MiniTree.entries, chunk ≠ [] := by
      rw [hentries]
      exact fun chunk hchunk => Partition.ne_nil_of_mem_chunks hchunks hchunk
    rw [hover.sums, sums_roots hcredible hnonempty, hentries, Partition.flatten_of_chunks hchunks]
    exact totals_eq_map (Partition.uniform_of_chunks hchunks).1 huniform
  · rw [hchunkCount, Partition.length_of_chunks hchunks, Partition.chunkCount]
    omega
  · rw [hover.miniTrees, hentries, hchunks]
  · rw [hover.leaves, hover.miniTrees]
  · rw [hover.depth, List.length_map, hlength, treeDepth_eq_clog]

end Orchestrator

/-! ### A run of two workers -/

namespace Sample

/-- A hasher with a single digest. -/
def hasher : Hasher :=
  ⟨fun _ _ => .ok [0], fun _ _ => .ok [0]⟩

/-- Settings without a limit on totals. -/
def config : RunConfig :=
  ⟨.int 1, .int 1, .carryUp, none, hasher⟩

/-- Three entries of two columns. -/
def entries : List Entry :=
  [⟨"ada", [1, 2]⟩, ⟨"bob", [3, 4]⟩, ⟨"eve", [5, 6]⟩]

/-- Their chunks for two workers. -/
def chunks : List (List Entry) :=
  [entries.take 2, entries.drop 2]

theorem chunks_entries : Partition.chunks entries 2 = .ok chunks := by
  decide +kernel

def handles : List Handle :=
  [⟨"http://a", .mock, .number 0, 0⟩, ⟨"http://b", .mock, .number 1, 1⟩]

/-- A spawner that has the same two workers for every run. -/
def pair : Spawning Unit :=
  ⟨fun _ => pure handles, fun _ => pure ()⟩

/-- The sum tree of a chunk. -/
def tree (chunk : List Entry) : MiniTree :=
  match MiniTree.build hasher .carryUp chunk with
  | .ok t => t
  | .error _ => default

/-- The exchanges of the chunks with the workers. -/
def exchanges : List Exchange :=
  Orchestrator.exchanges config chunks handles

/-- The reply of a worker that builds the sum tree of its chunk. -/
def honestReply (x : Exchange) : Reply :=
  .utf8 200 ((Wire.treeJson (tree x.entries)).wireChars.map fun c => c.toNat.toUInt8)

/-- All exchanges begin, are answered in some order, and are collected one by one. -/
def answered (order : List Exchange → List Exchange) (reply : Exchange → Reply)
    (xs : List Exchange) : List Happening :=
  (xs.map fun x => .begins x.chunk) ++ (order xs).flatMap fun x =>
    [.replies x.chunk (reply x), .wakes x.chunk, .collects true false []]

/-- What happens is a begin, a reply, a wake, or a collection in which the run is not stopped. -/
theorem of_mem_answered {order : List Exchange → List Exchange} {reply : Exchange → Reply}
    {xs : List Exchange} {happening : Happening} (h : happening ∈ answered order reply xs) :
    happening ≠ .cancels ∧ ∀ seesSignal resisting, happening ≠ .collects seesSignal true resisting := by
  rcases List.mem_append.mp h with hbegins | hanswered
  · obtain ⟨x, -, rfl⟩ := List.mem_map.mp hbegins
    exact ⟨nofun, nofun⟩
  · obtain ⟨x, -, hx⟩ := List.mem_flatMap.mp hanswered
    simp only [List.mem_cons, List.not_mem_nil, or_false] at hx
    rcases hx with rfl | rfl | rfl <;> exact ⟨nofun, nofun⟩

/-- What a run meets with whose workers answer honestly and the last one first. -/
def backwards : Circumstances Unit :=
  .amid pair false (.ok ()) (answered List.reverse honestReply)

end Sample

namespace Orchestrator

theorem totals_of_completed_backwards :
    ∃ r, (idle.run Sample.backwards Sample.config Sample.entries 2 ()).outcome = .ok r ∧
      r.tree.root.balances = [9, 12] ∧ r.chunkCount = 2 ∧ r.tree.depth = 1 := by
  have hsome : (idle.run Sample.backwards Sample.config Sample.entries 2
      ()).outcome.toOption.isSome = true := by decide +kernel
  cases houtcome : (idle.run Sample.backwards Sample.config Sample.entries 2 ()).outcome with
  | error failure =>
      rw [houtcome] at hsome
      cases hsome
  | ok r =>
      have huniform : Partition.Uniform 2 Sample.entries := by
        unfold Partition.Uniform
        decide
      obtain ⟨hbalances, hcount, -, -, hdepth⟩ :=
        totals_of_completed idle Sample.pair false (.ok ())
          (Sample.answered List.reverse Sample.honestReply) Sample.config Sample.entries 2 ()
          huniform houtcome
      have hthree : (Sample.entries.length : Int) = 3 := rfl
      have htwo : r.chunkCount = 2 := by omega
      refine ⟨r, rfl, hbalances, htwo, ?_⟩
      rw [hdepth, htwo]
      decide

end Orchestrator

end SumTree
