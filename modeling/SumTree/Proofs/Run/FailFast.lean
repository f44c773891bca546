import SumTree.Proofs.Run.Serving

/-!
# Failing fast

A run whose workers are listeners gets one for each chunk, and gives all of them back once the wait for
them has ended with a tree or an error (`Orchestrator.run_listeners`). With what the exchanges can come
to, this tells how the run ends: with the result of the honest run when no listener is made to fail,
and otherwise with the error of a failing one (`InProcess.fails_fast`).

## Main Definitions

* `InProcess.run` — a run whose workers are listeners.
-/

namespace SumTree

/-- The keys of a map are those that are found in it. -/
theorem mem_map_fst_iff {α β : Type} [BEq α] [LawfulBEq α] {l : List (α × β)} {key : α} :
    key ∈ l.map Prod.fst ↔ ∃ b, l.lookup key = some b := by
  constructor
  · intro hkey
    obtain ⟨pair, hpair, rfl⟩ := List.mem_map.mp hkey
    cases hlookup : l.lookup pair.1 with
    | none => simpa using List.lookup_eq_none_iff.mp hlookup pair hpair
    | some b => exact ⟨b, rfl⟩
  · rintro ⟨b, hlookup⟩
    obtain ⟨front, back, hsplit, -⟩ := List.lookup_eq_some_iff.mp hlookup
    rw [hsplit]
    simp

/-! ### Runs -/

/-- A run whose workers are listeners, on a spawner whose earlier listeners were all taken down. -/
def InProcess.run (c : MockConfig) (listen : String → Action Listening String)
    (happenings : List Exchange → List Happening) (config : RunConfig) (entries : List Entry)
    (executors : Int) (serial : Nat) (torn : List Handle) : Report (Ledger Listening) :=
  Orchestrator.idle.run
    (.amid (Listeners.provider c listen).spawning false (.ok ()) happenings) config entries executors
    ⟨[], ⟨serial, [], torn⟩⟩

namespace Orchestrator

open InProcess

/-- The exchanges of chunks with listeners. -/
theorem of_getElem?_exchanges {config : RunConfig} {chunks : List (List Entry)}
    {authority : Nat → String} {serial i : Nat} {x : Exchange}
    (hx : (exchanges config chunks (Listeners.handles authority serial chunks.length))[i]? = some x) :
    i < chunks.length ∧ x.chunk = i ∧ x.handle.index = i := by
  rw [getElem?_exchanges, Option.bind_eq_some_iff] at hx
  obtain ⟨chunk, -, hx⟩ := hx
  obtain ⟨h, hh, rfl⟩ := Option.map_eq_some_iff.mp hx
  obtain ⟨hi, rfl⟩ := Listeners.eq_of_getElem?_handles hh
  exact ⟨hi, rfl, rfl⟩

/-- Listeners are given back: each is taken down, and none is left. -/
theorem giveBack_listeners (c : MockConfig) (listen : String → Action Listening String)
    (authority : Nat → String) (serial count : Nat) (torn : List Handle)
    (happenings : List Exchange → List Happening) :
    let handles := Listeners.handles authority serial count
    ∃ events, giveBack (.amid (Listeners.provider c listen).spawning false (.ok ()) happenings) handles
        ⟨handles, ⟨serial + count, Listeners.entered c serial count, torn⟩⟩ =
      (none, events, ⟨[], ⟨serial + count, [], torn ++ handles⟩⟩) := by
  intro handles
  let inner : Listening := ⟨serial + count, Listeners.entered c serial count, torn⟩
  have htokens : inner.listeners.map Prod.fst = handles.map Handle.token :=
    Listeners.tokens_entered c authority serial count
  obtain ⟨journal, hrelease⟩ := Listeners.perform_release_of_tokens c listen htokens
    (Listeners.nodup_tokens authority serial count) []
  exact ⟨_, giveBack_of_ok _ handles hrelease⟩

/-- A wait that ends with all trees leads to the tree over them. -/
theorem held_of_complete {config : RunConfig} {p : Proceedings} {trees : List MiniTree}
    (hcomplete : p.ending = .complete trees) {tree : AggregateTree}
    (hbuilt : config.aggregator.buildFromTrees trees = .ok tree) :
    (exchangeAll config 0 p).held = .tree tree := by
  simp only [exchangeAll, hcomplete, aggregate, Nat.lt_irrefl, if_false, hbuilt]

section Run

variable {c : MockConfig} {listen : String → Action Listening String} {authority : Nat → String}
  (hopens : Listeners.Opens listen c.host authority) (hown : c.addresses? = none)
  (happenings : List Exchange → List Happening) (config : RunConfig) {entries : List Entry}
  {executors : Int} (serial : Nat) (torn : List Handle) {chunks : List (List Entry)}
  (hchunks : Partition.chunks entries executors = .ok chunks)

include hopens hown hchunks

/-- A run gets a listener for each of its chunks. -/
theorem acquisition_listeners :
    ∃ journal, acquisition (Listeners.provider c listen).spawning chunks ⟨[], ⟨serial, [], torn⟩⟩ =
      (.ok (Listeners.handles authority serial chunks.length),
        ⟨⟨Listeners.handles authority serial chunks.length,
          ⟨serial + chunks.length, Listeners.entered c serial chunks.length, torn⟩⟩, journal⟩) := by
  have hcount : 1 ≤ (chunks.length : Int) := by
    have hpos := Partition.chunkCount_pos_of_chunks hchunks
    rw [← Partition.length_of_chunks hchunks] at hpos
    omega
  exact Listeners.perform_acquire hopens hown hcount ⟨serial, [], torn⟩ []

/-- A run gets a listener for each chunk, and when the wait for them has led to a result or an error,
it has given all of them back, with nothing to report. -/
theorem run_listeners :
    let handles := Listeners.handles authority serial chunks.length
    let xs := exchanges config chunks handles
    let report := InProcess.run c listen happenings config entries executors serial torn
    let held := (exchangeAll config 0 (Proceedings.play xs (happenings xs))).held
    .acquired handles ∈ report.events ∧
      (∀ t, held = .tree t → report.outcome = .ok ⟨t, chunks.length, none⟩) ∧
      (∀ e, held = .error e → report.outcome = .error ⟨.run e, none⟩) ∧
      (held.handsBack = true →
        report.spawner = ⟨[], ⟨serial + chunks.length, [], torn ++ handles⟩⟩) := by
  intro handles xs report held
  let circumstances : Circumstances (Ledger Listening) :=
    .amid (Listeners.provider c listen).spawning false (.ok ()) happenings
  obtain ⟨journal, hacquired⟩ := acquisition_listeners hopens hown serial torn hchunks
  obtain ⟨events, hback⟩ := giveBack_listeners c listen authority serial chunks.length torn happenings
  have hmissing : chunks.length - xs.length = 0 := by
    rw [length_exchanges, Listeners.length_handles]
    omega
  have hheld : (hold circumstances config false chunks handles).held = held := by
    rw [hold_of_connected config chunks handles rfl]
    exact congrArg (fun missing =>
      (exchangeAll config missing (Proceedings.play xs (happenings xs))).held) hmissing
  obtain ⟨before, hrun⟩ : ∃ before, report = conclude idle circumstances handles chunks.length
      (before ++ [.acquired handles]) (hold circumstances config false chunks handles)
      ⟨handles, ⟨serial + chunks.length, Listeners.entered c serial chunks.length, torn⟩⟩ := by
    have hrun := run_of_provided idle circumstances config entries executors
      ⟨[], ⟨serial, [], torn⟩⟩ rfl hchunks (congrArg Prod.fst hacquired)
    have hstate : (acquisition circumstances.spawner chunks ⟨[], ⟨serial, [], torn⟩⟩).2.state = _ :=
      congrArg (fun performed => performed.2.state) hacquired
    rw [hstate] at hrun
    exact ⟨_, hrun⟩
  rw [hrun]
  refine ⟨?_, fun t ht => ?_, fun e he => ?_, fun hhands => ?_⟩
  · exact mem_events_conclude idle circumstances handles chunks.length _ _
      (List.mem_append_right before (List.mem_singleton_self _))
  · rw [conclude_of_tree idle circumstances handles chunks.length _ _ (hheld.trans ht), hback]
  · rw [(conclude_of_error idle circumstances handles chunks.length _ _ (hheld.trans he)).1, hback]
  · rw [spawner_conclude idle circumstances handles chunks.length _ _ (by rw [hheld, hhands]), hback]

/-- A run that completes has got trees from its listeners, and has aggregated them. -/
theorem yields_of_run_eq_ok {hasher : Hasher} {r : RunResult}
    (hserves : Serves c hasher
      (exchanges config chunks (Listeners.handles authority serial chunks.length))
      (happenings (exchanges config chunks (Listeners.handles authority serial chunks.length))))
    (hok : (InProcess.run c listen happenings config entries executors serial torn).outcome = .ok r) :
    ∃ t, Yields c hasher
        (exchanges config chunks (Listeners.handles authority serial chunks.length)) t ∧
      config.aggregator.buildFromTrees ((List.range chunks.length).map t) = .ok r.tree ∧
      r = ⟨r.tree, chunks.length, none⟩ := by
  obtain ⟨journal, hacquired⟩ := acquisition_listeners hopens hown serial torn hchunks
  obtain ⟨-, chunks', handles', hchunks', hacquired', -, hheld⟩ :=
    exists_of_run_eq_ok idle _ config entries executors _ hok
  rw [hchunks] at hchunks'
  cases hchunks'
  dsimp only [Circumstances.amid] at hacquired'
  rw [hacquired] at hacquired'
  cases hacquired'
  obtain ⟨-, -, hlength, trees, hcomplete, hbuilt⟩ := exists_of_hold_eq_tree hheld
  obtain ⟨t, rfl, hyields⟩ := hserves.yields hcomplete
  obtain ⟨-, hresult, -⟩ := run_listeners hopens hown happenings config serial torn hchunks
  have hsame := hresult r.tree (held_of_complete hcomplete hbuilt)
  rw [hok] at hsame
  rw [hlength] at hbuilt
  exact ⟨t, hyields, hbuilt, Except.ok.inj hsame⟩

/-- A run whose honest listeners would reply trees that make an aggregate ends in one of two ways: no
listener was made to fail, and the aggregate is its result; or some were, and the error of one of them
is that of the run. -/
theorem run_of_yields {hasher : Hasher} {t : Nat → MiniTree} {tree : AggregateTree} :
    let handles := Listeners.handles authority serial chunks.length
    let xs := exchanges config chunks handles
    let report := InProcess.run c listen happenings config entries executors serial torn
    Serves c hasher xs (happenings xs) → Yields { c with failures := [] } hasher xs t →
    config.aggregator.buildFromTrees ((List.range chunks.length).map t) = .ok tree →
    ((∀ i < chunks.length, c.failures.lookup (i : Int) = none) ∧
        report.outcome = .ok ⟨tree, chunks.length, none⟩ ∨
      ∃ (i : Nat) (mode : FailureMode) (e : ExchangeError), i < chunks.length ∧
        c.failures.lookup (i : Int) = some mode ∧ mode.Shows e.fault ∧ e.chunk? = some (i : Int) ∧
        report.outcome = .error ⟨.run (.exchange e), none⟩) ∧
      .acquired handles ∈ report.events ∧
      report.spawner = ⟨[], ⟨serial + chunks.length, [], torn ++ handles⟩⟩ := by
  intro handles xs report hserves hyields hbuilt
  obtain ⟨hacquired, hresult, herror, hreleased⟩ :=
    run_listeners hopens hown happenings config serial torn hchunks
  have hlength : xs.length = chunks.length := by
    rw [length_exchanges, Listeners.length_handles, Nat.min_self]
  -- Nobody stops the run, so the wait ends with all trees or with an error.
  rcases Proceedings.ending_of_unstopped hserves.unstopped hserves.ends with
    ⟨trees, hcomplete⟩ | ⟨e, he⟩
  · obtain ⟨rfl, hhealthy⟩ := hserves.trees_of_complete hyields hcomplete
    have hheld := held_of_complete hcomplete (hlength ▸ hbuilt)
    refine ⟨.inl ⟨fun i hi => ?_, hresult tree hheld⟩, hacquired, hreleased (by rw [hheld]; rfl)⟩
    have hx : xs[i]? = some xs[i] := List.getElem?_eq_getElem (by omega)
    have hlookup := hhealthy i _ hx
    rwa [(of_getElem?_exchanges hx).2.2] at hlookup
  · obtain ⟨i, x, mode, fault, reason, hx, hmode, hshows, rfl⟩ := hserves.exists_of_error? hyields he
    have hheld := Proceedings.held_of_error? hserves.unstopped he config 0
    obtain ⟨hi, hchunk, hindex⟩ := of_getElem?_exchanges hx
    rw [hindex] at hmode
    exact ⟨.inr ⟨i, mode, _, hi, hmode, hshows, by rw [hchunk], herror _ hheld⟩, hacquired,
      hreleased (by rw [hheld]; rfl)⟩

end Run

end Orchestrator

theorem Sample.neverEmpty_hasher : Sample.hasher.NeverEmpty := by
  constructor
  · rintro username balances digest h
    cases h
    exact List.cons_ne_nil _ _
  · rintro left right digest h
    cases h
    exact List.cons_ne_nil _ _

namespace InProcess

open Orchestrator

/-- Runs fail fast when listeners are made to fail. Let the honest run complete, and let the listeners
answer all that they can: then the run completes exactly when none of the failing positions is that of
a chunk, and with the same result. Otherwise it ends with the error of one exchange whose listener was
made to fail, with a fault by which its way to fail shows. In both cases each listener that came up is
taken down once, and the spawner has neither a live handle nor a listener left. -/
theorem fails_fast (host : String) (failures : List (Int × FailureMode)) (policy : OddPolicy)
    (hasher : Hasher) (listen : String → Action Listening String) (authority : Nat → String)
    (config : RunConfig) (entries : List Entry) (executors : Int) (serial : Nat) (torn : List Handle)
    (chunks : List (List Entry)) (honest happenings : List Exchange → List Happening) (r : RunResult)
    (hopens : Listeners.Opens listen host authority)
    (hchunks : Partition.chunks entries executors = .ok chunks) :
    let mock (failures : List (Int × FailureMode)) : MockConfig := ⟨host, none, failures, policy⟩
    let handles := Listeners.handles authority serial chunks.length
    let xs := exchanges config chunks handles
    let report (failures : List (Int × FailureMode)) (happenings : List Exchange → List Happening) :=
      run (mock failures) listen happenings config entries executors serial torn
    let Fails (key : Int) := key ∈ failures.map Prod.fst ∧ 0 ≤ key ∧ key < chunks.length
    Serves (mock []) hasher xs (honest xs) → (report [] honest).outcome = .ok r →
    Serves (mock failures) hasher xs (happenings xs) →
    ((∃ r', (report failures happenings).outcome = .ok r') ↔ ¬ ∃ key, Fails key) ∧
      (∀ r', (report failures happenings).outcome = .ok r' → r' = r) ∧
      ((∃ key, Fails key) → ∃ e key mode,
        (report failures happenings).outcome = .error ⟨.run (.exchange e), none⟩ ∧
        e.chunk? = some key ∧ Fails key ∧ failures.lookup key = some mode ∧ mode.Shows e.fault) ∧
      .acquired handles ∈ (report failures happenings).events ∧ handles.Nodup ∧
      (report failures happenings).spawner =
        ⟨[], ⟨serial + chunks.length, [], torn ++ handles⟩⟩ := by
  intro mock handles xs report Fails hhonest hok hserves
  obtain ⟨t, hyields, hbuilt, hr⟩ :=
    yields_of_run_eq_ok (c := mock []) hopens rfl honest config serial torn hchunks hhonest hok
  obtain ⟨hends, hacquired, hspawner⟩ :=
    run_of_yields (c := mock failures) hopens rfl happenings config serial torn hchunks hserves hyields
      hbuilt
  have hnodup : handles.Nodup := (Listeners.nodup_tokens authority serial chunks.length).of_map
  rcases hends with ⟨hhealthy, houtcome⟩ | ⟨i, mode, e, hi, hmode, hshows, hchunk, houtcome⟩
  · have hnone : ¬ ∃ key, Fails key := by
      rintro ⟨key, hkey, hnonneg, hlt⟩
      obtain ⟨i, rfl⟩ := Int.eq_ofNat_of_zero_le hnonneg
      obtain ⟨mode, hmode⟩ := mem_map_fst_iff.mp hkey
      have hlookup := hhealthy i (by omega)
      dsimp only [mock] at hlookup
      rw [hmode] at hlookup
      cases hlookup
    refine ⟨iff_of_true ⟨_, houtcome⟩ hnone, fun r' hr' => ?_, fun hkey => absurd hkey hnone,
      hacquired, hnodup, hspawner⟩
    rw [houtcome] at hr'
    exact (Except.ok.inj hr').symm.trans hr.symm
  · have hkey : Fails i := ⟨mem_map_fst_iff.mpr ⟨mode, hmode⟩, by omega, by omega⟩
    have hnot : ∀ r', (report failures happenings).outcome ≠ .ok r' := by
      intro r' hr'
      rw [houtcome] at hr'
      cases hr'
    exact ⟨iff_of_false (fun ⟨r', hr'⟩ => hnot r' hr') (not_not_intro ⟨i, hkey⟩),
      fun r' hr' => absurd hr' (hnot r'), fun _ => ⟨e, i, mode, houtcome, hchunk, hkey, hmode, hshows⟩,
      hacquired, hnodup, hspawner⟩

/-- Two listeners, one of which hangs while the other one rejects its request; a third one would reply
nonsense. -/
theorem fails_fast_hanging :
    let failures := [(0, .hang), (1, .reject), (2, .malformed)]
    let mock : MockConfig := ⟨"localhost", none, failures, .carryUp⟩
    let report := run mock listen
      (fun xs => (schedule mock Sample.hasher (fun i => 2 - i) xs).happenings) Sample.config
      Sample.entries 2 0 []
    (∃ e key, report.outcome = .error ⟨.run (.exchange e), none⟩ ∧ e.chunk? = some key ∧
        0 ≤ key ∧ key < 2) ∧
      report.spawner = ⟨[], ⟨2, [], Listeners.handles (fun _ => "localhost:0") 0 2⟩⟩ := by
  intro failures mock report
  let healthy : MockConfig := ⟨"localhost", none, [], .carryUp⟩
  let authority : Nat → String := fun _ => "localhost:0"
  let xs := exchanges Sample.config Sample.chunks (Listeners.handles authority 0 2)
  let honest (xs : List Exchange) := (schedule healthy Sample.hasher id xs).happenings
  have hopens : Listeners.Opens listen "localhost" authority := fun _ => rfl
  obtain ⟨url, hurl⟩ : ∃ url, Address.base? ("http://" ++ "localhost:0") = some url :=
    Option.isSome_iff_exists.mp (by decide +kernel)
  have hfits : ∀ chunk ∈ Sample.chunks, ∀ e ∈ chunk, ∀ b ∈ e.amounts, Decimal.fits b = true := by
    decide +kernel
  have hsize : ∀ chunk ∈ Sample.chunks,
      (Wire.requestJson (chunk.map Entry.wire)).wire.toUTF8.toList.length < Request.sizeLimit := by
    decide +kernel
  have hbuild : ∀ chunk ∈ Sample.chunks,
      MiniTree.build Sample.hasher .carryUp chunk = .ok (Sample.tree chunk) := by
    intro chunk hchunk
    rcases List.mem_pair.mp hchunk with rfl | rfl <;> rfl
  have hyields : Yields healthy Sample.hasher xs fun i => Sample.tree (Sample.chunks.getD i []) := by
    intro i x hx
    rw [getElem?_exchanges, Option.bind_eq_some_iff] at hx
    obtain ⟨chunk, hchunk, hx⟩ := hx
    obtain ⟨handle, hhandle, rfl⟩ := Option.map_eq_some_iff.mp hx
    obtain ⟨-, rfl⟩ := Listeners.eq_of_getElem?_handles hhandle
    have hmem := List.mem_of_getElem? hchunk
    have htree : Sample.chunks.getD i [] = chunk := by
      rw [List.getD_eq_getElem?_getD, hchunk, Option.getD_some]
    refine ⟨url, chunk.map Entry.wire, request_of_fits hurl (hfits chunk hmem), ?_⟩
    dsimp only
    rw [htree]
    exact judge_of_build rfl Sample.neverEmpty_hasher (hbuild chunk hmem) (hfits chunk hmem)
      (hsize chunk hmem)
  have hrequests : ∀ x ∈ xs, ∃ url body, x.request = .ok (url, body) := by
    intro x hx
    obtain ⟨i, hi⟩ := List.mem_iff_getElem?.mp hx
    obtain ⟨url, body, hrequest, -⟩ := hyields i x hi
    exact ⟨url, body, hrequest⟩
  obtain ⟨r, hok⟩ : ∃ r, (run healthy listen honest Sample.config Sample.entries 2 0 []).outcome =
      .ok r := by
    obtain ⟨tree, hbuilt⟩ : ∃ tree, Sample.config.aggregator.buildFromTrees
        ((List.range 2).map fun i => Sample.tree (Sample.chunks.getD i [])) = .ok tree := ⟨_, rfl⟩
    obtain ⟨⟨-, hok⟩ | ⟨i, mode, e, -, hmode, -⟩, -⟩ := run_of_yields (c := healthy) hopens rfl honest
      Sample.config 0 [] Sample.chunks_entries (serves_schedule healthy Sample.hasher id hrequests)
      hyields hbuilt
    · exact ⟨_, hok⟩
    · cases hmode
  obtain ⟨-, -, hfails, -, -, hspawner⟩ := fails_fast "localhost" failures .carryUp Sample.hasher listen
    authority Sample.config Sample.entries 2 0 [] Sample.chunks honest
    (fun xs => (schedule mock Sample.hasher (fun i => 2 - i) xs).happenings) r hopens
    Sample.chunks_entries (serves_schedule healthy Sample.hasher id hrequests) hok
    (serves_schedule mock Sample.hasher (fun i => 2 - i) hrequests)
  obtain ⟨e, key, -, houtcome, hchunk, ⟨-, hnonneg, hlt⟩, -⟩ :=
    hfails ⟨0, List.mem_cons_self, by decide, by decide⟩
  exact ⟨⟨e, key, houtcome, hchunk, hnonneg, hlt⟩, hspawner⟩

end InProcess

end SumTree
