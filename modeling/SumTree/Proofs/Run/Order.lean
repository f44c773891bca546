import SumTree.Proofs.Run.Totals

/-!
# Order of exchanges

The order in which exchanges finish, and how the run collects them, makes no difference: trees are
found by their chunks (`ending_of_succeeds`), so that runs whose exchanges bring the same trees have
the same outcome. Each exchange has the worker and the chunk of its position, and sends at most one
request, that of its chunk (`sentBy_spec`).

## Main Definitions

* `Proceedings.Succeeds` — every exchange brings its tree, and nobody interferes.
-/

namespace SumTree

/-! ### Requests -/

/-- At most one item for each, all of them under its key. -/
theorem sublist_flatMap_of_atMostOne {α β : Type} {l : List α} {f : α → List β} {key : α → β}
    (h : ∀ a ∈ l, f a = [] ∨ f a = [key a]) : (l.flatMap f).Sublist (l.map key) := by
  induction l with
  | nil => exact List.Sublist.slnil
  | cons a rest ih =>
      have hrest := ih fun b hb => h b (List.mem_cons_of_mem a hb)
      rw [List.flatMap_cons, List.map_cons]
      rcases h a List.mem_cons_self with hnone | hone
      · rw [hnone, List.nil_append]
        exact hrest.cons (key a)
      · rw [hone]
        exact hrest.cons_cons (key a)

namespace Orchestrator

variable {config : RunConfig} {chunks : List (List Entry)} {handles : List Handle}

theorem map_chunk_exchanges :
    (exchanges config chunks handles).map Exchange.chunk =
      List.range (min chunks.length handles.length) := by
  refine List.ext_getElem (by simp) fun i hi _ => ?_
  rw [List.length_map] at hi
  have hexchange := getElem?_exchanges config chunks handles i
  rw [List.getElem?_eq_getElem hi, eq_comm, Option.bind_eq_some_iff] at hexchange
  obtain ⟨chunk, -, hexchange⟩ := hexchange
  obtain ⟨handle, -, hexchange⟩ := Option.map_eq_some_iff.mp hexchange
  simp [← hexchange]

theorem map_handle_exchanges :
    (exchanges config chunks handles).map Exchange.handle = handles.take chunks.length := by
  refine List.ext_getElem? fun i => ?_
  rw [List.getElem?_map, getElem?_exchanges, List.getElem?_take]
  by_cases hi : i < chunks.length
  · rw [List.getElem?_eq_getElem hi, if_pos hi, Option.bind_some]
    cases handles[i]? <;> rfl
  · rw [List.getElem?_eq_none (Nat.le_of_not_lt hi), if_neg hi]
    rfl

variable {replied : Nat → Reply → Prop} {p : Proceedings}

/-- An exchange sends nothing or one request, under its chunk. -/
theorem map_fst_sentBy (p : Proceedings) :
    (sentBy p).map Prod.fst =
      p.progress.flatMap fun x => x.sent.map fun _ => x.exchange.chunk := by
  rw [sentBy, List.map_flatMap]
  refine List.flatMap_congr fun x _ => ?_
  rw [List.map_map]
  rfl

theorem map_chunk_progress (h : p.Sound (exchanges config chunks handles) replied) :
    (p.progress.map fun x => x.exchange.chunk) =
      List.range (min chunks.length handles.length) := by
  rw [← map_chunk_exchanges, ← h.exchanges, List.map_map]
  rfl

/-- The requests of sound proceedings: at most one for each chunk, in the order of the chunks, which
carries the chunk of its number to the worker of that number. -/
theorem sentBy_spec (h : p.Sound (exchanges config chunks handles) replied) :
    ((sentBy p).map Prod.fst).Sublist (List.range (min chunks.length handles.length)) ∧
      ∀ q ∈ sentBy p, ∃ chunk handle, chunks[q.1]? = some chunk ∧ handles[q.1]? = some handle ∧
        Address.base? handle.address = some q.2.1 ∧ Wire.encodeEntries chunk = .ok q.2.2 := by
  constructor
  · rw [map_fst_sentBy, ← map_chunk_progress h]
    refine sublist_flatMap_of_atMostOne fun y hy => ?_
    obtain ⟨i, hi⟩ := List.mem_iff_getElem?.mp hy
    rcases (h.reached i y hi).sent with hnone | ⟨q, -, hone⟩
    · exact .inl (by rw [hnone, List.map_nil])
    · exact .inr (by rw [hone, List.map_singleton])
  · intro q hq
    obtain ⟨y, hy, hq⟩ := List.mem_flatMap.mp hq
    obtain ⟨sent, hsent, rfl⟩ := List.mem_map.mp hq
    obtain ⟨i, hi⟩ := List.mem_iff_getElem?.mp hy
    obtain ⟨chunk, handle, hchunk, hhandle, hexchange⟩ := h.exchange_eq hi
    rcases (h.reached i y hi).sent with hnone | ⟨q, hrequest, hone⟩
    · rw [hnone] at hsent
      cases hsent
    · rw [hone, List.mem_singleton] at hsent
      subst hsent
      obtain ⟨hbody, hurl⟩ := Exchange.of_request_eq_ok hrequest
      have hnumber : y.exchange.chunk = i := by rw [hexchange]
      rw [hexchange] at hbody hurl
      dsimp only
      rw [hnumber]
      exact ⟨chunk, handle, hchunk, hhandle, hurl, hbody⟩

/-- When every exchange brings its tree, there is one request for each chunk. -/
theorem map_fst_sentBy_of_complete (h : p.Sound (exchanges config chunks handles) replied)
    {trees : List MiniTree} (hcomplete : p.ending = .complete trees) :
    (sentBy p).map Prod.fst = List.range (min chunks.length handles.length) := by
  obtain ⟨t, -, hjudged⟩ := h.of_complete hcomplete
  rw [map_fst_sentBy, ← map_chunk_progress h, ← List.flatMap_pure_eq_map]
  refine List.flatMap_congr fun y hy => ?_
  obtain ⟨i, hi⟩ := List.mem_iff_getElem?.mp hy
  obtain ⟨q, reply, -, hsent, -⟩ := hjudged i y hi
  rw [hsent, List.map_singleton]
  rfl

end Orchestrator

/-! ### Outcomes -/

namespace Proceedings

/-- Every exchange brings its tree, the run gets to see that, and nobody interferes. -/
structure Succeeds (xs : List Exchange) (happenings : List Happening) (t : Nat → MiniTree) :
    Prop where
  uncancelled : .cancels ∉ happenings
  unstopped : ∀ seesSignal resisting, .collects seesSignal true resisting ∉ happenings
  trees : ∀ i < xs.length,
    (play xs happenings).progress[i]?.bind Progress.outcome? = some (.ok (t i))
  ends : (play xs happenings).ending ≠ .unfinished

/-- A round that is stopped comes from a collection that is. -/
theorem exists_of_stopped_round {xs : List Exchange} {happenings : List Happening} {r : Round}
    (hr : r ∈ (play xs happenings).rounds) (hstopped : r.stopped = true) :
    ∃ seesSignal resisting, .collects seesSignal true resisting ∈ happenings := by
  have hall : ∀ r ∈ (play xs happenings).rounds, r.stopped = true →
      ∃ seesSignal resisting, .collects seesSignal true resisting ∈ happenings := by
    refine List.foldlRecOn (motive := fun p => ∀ r ∈ p.rounds, r.stopped = true →
      ∃ seesSignal resisting, .collects seesSignal true resisting ∈ happenings)
      happenings after ?_ fun p hp happening hmem => ?_
    · intro r hr
      cases hr
    · cases happening with
      | begins chunk => exact hp
      | replies chunk reply => exact hp
      | wakes chunk => exact hp
      | cancels => exact hp
      | collects seesSignal stopped resisting =>
          intro r hr hstopped
          rcases List.mem_append.mp hr with hold | hnew
          · exact hp r hold hstopped
          · rw [List.mem_singleton.mp hnew] at hstopped
            dsimp only at hstopped
            subst hstopped
            exact ⟨seesSignal, resisting, hmem⟩
  exact hall r hr hstopped

/-- Trees are found by their chunks, in whatever order and grouping they come. -/
theorem ending_of_succeeds {xs : List Exchange} {happenings : List Happening} {t : Nat → MiniTree}
    (h : Succeeds xs happenings t) :
    (play xs happenings).ending = .complete ((List.range xs.length).map t) := by
  have hsound := sound_play xs happenings
  -- Whatever a round brings for a chunk is how its exchange ended, so it is the tree of the chunk.
  have hbrought : ∀ r ∈ (play xs happenings).rounds, ∀ i < xs.length, ∀ outcome,
      r.finished.lookup i = some outcome → outcome = .ok (t i) := by
    intro r hr i hi outcome hlookup
    have houtcome := hsound.brought r hr i outcome hlookup
    rw [h.trees i hi, Option.some.injEq] at houtcome
    exact houtcome.symm
  cases hending : (play xs happenings).ending with
  | complete trees =>
      obtain ⟨t', htrees, hfound⟩ := Waiting.exists_rounds_of_distribute_eq_complete hending
      rw [hsound.length_addresses] at htrees hfound
      rw [htrees]
      refine congrArg Ending.complete (List.map_congr_left fun i hi => ?_)
      obtain ⟨r, hr, hlookup⟩ := hfound i (List.mem_range.mp hi)
      have hok := hbrought r hr i (List.mem_range.mp hi) _ hlookup
      exact Except.ok.inj hok
  | failed e pending resisting stoppedLater =>
      obtain ⟨r, hr, i, x, failure, hx, hlookup, -⟩ :=
        (uncancelled_play xs happenings h.uncancelled).failure e (by rw [hending]; rfl)
      have hi : i < xs.length := (List.getElem?_eq_some_iff.mp hx).1
      cases hbrought r hr i hi _ hlookup
  | stopped pending =>
      obtain ⟨r, hr, hstopped⟩ := Waiting.exists_of_collect_eq_stopped hending
      obtain ⟨seesSignal, resisting, hmem⟩ := exists_of_stopped_round hr hstopped
      exact absurd hmem (h.unstopped seesSignal resisting)
  | unfinished => exact absurd hending h.ends

end Proceedings

namespace Orchestrator

section Run

variable {σ : Type} (cancelRequested : Bool) (spawner : Spawning σ) (cancelledEarly : Bool)
  (connection : Except Failure Unit) (config : RunConfig) (entries : List Entry) (executors : Int)
  (s : σ)

/-- Runs whose exchanges bring the same trees have the same outcome. -/
theorem outcome_congr_of_succeeds {chunks : List (List Entry)} {handles : List Handle}
    (hchunks : Partition.chunks entries executors = .ok chunks)
    (hacquired : (acquisition spawner chunks s).1 = .ok handles)
    {first second : List Exchange → List Happening} {t : Nat → MiniTree}
    (hfirst : Proceedings.Succeeds (exchanges config chunks handles)
      (first (exchanges config chunks handles)) t)
    (hsecond : Proceedings.Succeeds (exchanges config chunks handles)
      (second (exchanges config chunks handles)) t) :
    (run ⟨.idle, cancelRequested⟩ (.amid spawner cancelledEarly connection first) config entries
        executors s).outcome =
      (run ⟨.idle, cancelRequested⟩ (.amid spawner cancelledEarly connection second) config entries
        executors s).outcome := by
  obtain ⟨before, -, hrun⟩ := run_of_acquired ⟨.idle, cancelRequested⟩
    (.amid spawner cancelledEarly connection first) config entries executors s rfl hchunks hacquired
  obtain ⟨before', -, hrun'⟩ := run_of_acquired ⟨.idle, cancelRequested⟩
    (.amid spawner cancelledEarly connection second) config entries executors s rfl hchunks
    hacquired
  rw [hrun, hrun']
  -- Up to the acquisition both runs are the same, so only how the holding ends can differ.
  refine outcome_conclude_congr _ _ handles chunks.length _ _ rfl ?_
  dsimp only [Circumstances.amid]
  cases cancelRequested || cancelledEarly with
  | true => rfl
  | false =>
      cases connection with
      | error failure =>
          rw [hold_of_unconnected config chunks handles rfl,
            hold_of_unconnected config chunks handles rfl]
      | ok opened =>
          rw [hold_of_connected config chunks handles rfl,
            hold_of_connected config chunks handles rfl]
          dsimp only [exchangeAll]
          rw [Proceedings.ending_of_succeeds hfirst, Proceedings.ending_of_succeeds hsecond]

/-- A run sends at most one request for each chunk, which carries this chunk to the worker of its
number, and exactly one when it completes. -/
theorem requested_spec (happenings : List Exchange → List Happening) {chunks : List (List Entry)}
    {handles : List Handle} (hchunks : Partition.chunks entries executors = .ok chunks)
    (hacquired : (acquisition spawner chunks s).1 = .ok handles) :
    let report := run ⟨.idle, cancelRequested⟩
      (.amid spawner cancelledEarly connection happenings) config entries executors s
    (report.requested.map Prod.fst).Sublist (List.range (min chunks.length handles.length)) ∧
      (∀ q ∈ report.requested, ∃ chunk handle, chunks[q.1]? = some chunk ∧
        handles[q.1]? = some handle ∧ Address.base? handle.address = some q.2.1 ∧
        Wire.encodeEntries chunk = .ok q.2.2) ∧
      ∀ r, report.outcome = .ok r → report.requested.map Prod.fst = List.range chunks.length := by
  intro report
  have hsound := Proceedings.sound_play (exchanges config chunks handles)
    (happenings (exchanges config chunks handles))
  obtain ⟨before, hbefore, hrun⟩ := run_of_acquired ⟨.idle, cancelRequested⟩
    (.amid spawner cancelledEarly connection happenings) config entries executors s rfl hchunks
    hacquired
  have hrequested : report.requested =
      if (cancelRequested || cancelledEarly) = false ∧ connection = .ok () then
        sentBy (Proceedings.play (exchanges config chunks handles)
          (happenings (exchanges config chunks handles)))
      else [] := by
    refine Eq.trans (congrArg Report.requested hrun) ?_
    rw [requested_conclude _ _ handles chunks.length _ _ hbefore]
    exact (events_hold config chunks handles _ _).2
  have hspec := sentBy_spec hsound
  refine ⟨?_, ?_, fun r hok => ?_⟩
  · rw [hrequested]
    split
    · exact hspec.1
    · exact List.nil_sublist _
  · rw [hrequested]
    split
    · exact hspec.2
    · intro q hq
      cases hq
  · have hconcluded := (congrArg Report.outcome hrun).symm.trans hok
    obtain ⟨hheld, -⟩ := exists_of_conclude_eq_ok _ _ handles chunks.length _ _ hconcluded
    obtain ⟨hcancelled, hconnection, hlength, trees, hcomplete, -⟩ :=
      exists_of_hold_eq_tree hheld
    rw [length_exchanges] at hlength
    have hall := map_fst_sentBy_of_complete hsound hcomplete
    rw [hlength] at hall
    rw [hrequested, if_pos ⟨hcancelled, hconnection⟩]
    exact hall

end Run

/-- Exchanges that all succeed give the list of their trees by position, however they are ordered and
grouped into rounds, and runs whose exchanges bring the same trees have the same outcome. Whatever
happens, each handle is used by the exchange of its position, which sends at most one request, with
the wire form of its chunk, and exactly one when the run completes. -/
theorem independent_of_order :
    (∀ (addresses : List String) (rounds : List Round) (t : Nat → MiniTree),
      (∀ r ∈ rounds, r.Calm) →
      (∀ i < addresses.length, firstOutcome rounds i = some (.ok (t i))) →
      distribute addresses rounds = .complete ((List.range addresses.length).map t)) ∧
    ∀ {σ : Type} (cancelRequested : Bool) (spawner : Spawning σ) (cancelledEarly : Bool)
      (connection : Except Failure Unit) (config : RunConfig) (entries : List Entry)
      (executors : Int) (s : σ) (chunks : List (List Entry)) (handles : List Handle),
      Partition.chunks entries executors = .ok chunks →
      (acquisition spawner chunks s).1 = .ok handles →
      let xs := exchanges config chunks handles
      let report (happenings : List Exchange → List Happening) :=
        run ⟨.idle, cancelRequested⟩ (.amid spawner cancelledEarly connection happenings) config
          entries executors s
      (∀ happenings t, Proceedings.Succeeds xs happenings t →
        (Proceedings.play xs happenings).ending = .complete ((List.range xs.length).map t)) ∧
      (∀ first second t, Proceedings.Succeeds xs (first xs) t →
        Proceedings.Succeeds xs (second xs) t → (report first).outcome = (report second).outcome) ∧
      ∀ happenings,
        ((Proceedings.play xs (happenings xs)).progress.map fun x => x.exchange.handle) =
          handles.take chunks.length ∧
        ((report happenings).requested.map Prod.fst).Sublist
          (List.range (min chunks.length handles.length)) ∧
        (∀ q ∈ (report happenings).requested, ∃ chunk handle, chunks[q.1]? = some chunk ∧
          handles[q.1]? = some handle ∧ Address.base? handle.address = some q.2.1 ∧
          Wire.encodeEntries chunk = .ok q.2.2) ∧
        ∀ r, (report happenings).outcome = .ok r →
          (report happenings).requested.map Prod.fst = List.range chunks.length := by
  refine ⟨fun addresses rounds t hcalm hfirst => Waiting.distribute_of_calm hcalm hfirst, ?_⟩
  intro σ cancelRequested spawner cancelledEarly connection config entries executors s chunks
    handles hchunks hacquired xs report
  refine ⟨fun happenings t h => Proceedings.ending_of_succeeds h, fun first second t => ?_, ?_⟩
  · exact outcome_congr_of_succeeds cancelRequested spawner cancelledEarly connection config entries
      executors s hchunks hacquired
  · intro happenings
    have hsound := Proceedings.sound_play xs (happenings xs)
    refine ⟨?_, requested_spec cancelRequested spawner cancelledEarly connection config entries
      executors s happenings hchunks hacquired⟩
    have hmap := congrArg (List.map Exchange.handle) hsound.exchanges
    rw [List.map_map] at hmap
    exact hmap.trans map_handle_exchanges

/-- It does not matter which of two workers is answered first. -/
theorem independent_of_order_pair :
    distribute ["http://a", "http://b"]
        [⟨[(1, .ok (Sample.tree []))], false, false, []⟩,
          ⟨[(0, .ok (Sample.tree Sample.entries))], false, false, []⟩] =
      .complete [Sample.tree Sample.entries, Sample.tree []] ∧
    (run ⟨.idle, false⟩ (.amid Sample.pair false (.ok ())
        (Sample.answered List.reverse Sample.honestReply)) Sample.config Sample.entries 2
        ()).outcome =
      (run ⟨.idle, false⟩ (.amid Sample.pair false (.ok ())
        (Sample.answered id Sample.honestReply)) Sample.config Sample.entries 2 ()).outcome := by
  have hsucceeds : ∀ order ∈ [List.reverse, id], Proceedings.Succeeds Sample.exchanges
      (Sample.answered order Sample.honestReply Sample.exchanges)
      fun i => Sample.tree (Sample.chunks.getD i []) := fun order horder =>
    { uncancelled := fun h => (Sample.of_mem_answered h).1 rfl
      unstopped := fun seesSignal resisting h => (Sample.of_mem_answered h).2 _ _ rfl
      trees := by
        revert order
        decide +kernel
      ends := by
        revert order
        decide +kernel }
  constructor
  · refine independent_of_order.1 _ _
      (fun i => if i = 0 then Sample.tree Sample.entries else Sample.tree []) ?_ ?_
    · intro r hr
      rcases List.mem_cons.mp hr with rfl | hr
      · exact Round.calm_of_trees [(1, Sample.tree [])] []
      · rw [List.mem_singleton.mp hr]
        exact Round.calm_of_trees [(0, Sample.tree Sample.entries)] []
    · intro i hi
      have hcases : i = 0 ∨ i = 1 := by
        simp only [List.length_cons, List.length_nil] at hi
        omega
      rcases hcases with rfl | rfl <;> rfl
  · have hsample := independent_of_order.2 false Sample.pair false (.ok ()) Sample.config
      Sample.entries 2 () Sample.chunks Sample.handles Sample.chunks_entries rfl
    exact hsample.2.1 _ _ _ (hsucceeds List.reverse (by simp)) (hsucceeds id (by simp))

end Orchestrator

end SumTree
