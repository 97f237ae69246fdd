import DagsterDataform.Steps

/-!
# The catalog an instance exposes, over every run

`Sys.Inv` holds in every reachable state (`reachable_inv`): the `Shape` of the
cells, that a name about to be queried is that of a result compiled from the
instance's environment, and, on a lazy instance, where the value of each cell
comes from. A run that fills a cell does so at one step (`Sys.run_fills`),
and `Moves.fills` says which steps can. With the step lemmas of
`DagsterDataform.Steps`, lifted to whole runs by `Sys.run_preserves`, these
give the contracts below.

Results:
* `reachable_memoisedCatalog` (`MemoisedCatalog`): on a lazy instance a remote
  call is made only while a read of some property fetches, with that
  property's cell `None`; a read that returns leaves its cell holding the value
  returned; a read that raises leaves both cells as they were; a step changes
  at most the cell of the property being read; a read at rest of a set cell
  returns its value at once, with no call; once a cell holds `v` it holds `v`
  for the rest of the run and every later read of it returns `v`. An eager
  instance, once constructed, makes no remote call again.
* `reachable_catalog_provenance`: every cell a run fills holds what was built
  from the actions of some compilation result the service holds, compiled
  from the instance's environment with an empty `table_prefix`; or, on an
  eager instance, what a loader built from no actions at the step where it
  listed in a state whose lookup found no name. Each cell is looked up on its
  own, so nothing ties the two cells to one result, nor an eager instance to
  the results it created: in `eager_catalog_mixes_results` another client
  compiles between `__init__`'s create and its lookup, and the instance ends
  up with that client's assets and with checks no single result yields with
  them. Without other clients (`eager_init_sequential`) `__init__` makes six
  calls and builds both cells from the two results it created, from the
  actions of the environment's branch.
* `reachable_lazy_assets_stamped`: the assets of a lazy instance all come from
  one such result, and carry its name as `dataform_compilation_result`.
* `latest_compilation_result`: the lookup returns the first matching entry;
  the lazy read raises exactly when it finds no name, and otherwise queries
  that name and stamps it on every asset.
* `lazy_read_completes`: a lazy read at rest returns a set cell's value at
  once; otherwise it raises the missing-compilation exception when the lookup
  finds no name, and else queries that name, returns what it builds and
  stores it.
-/
namespace DagsterDataform

/-! ## Runs and the cells -/

theorem Sys.Shape.cell_stable (host : Host) {s : Sys} (h : s.Shape) {k : Artifact} {v : k.Val}
    (hc : s.resource.cell k = some v) (is : List Input) :
    (s.run host is).1.resource.cell k = some v ∧
      ∀ v', Obs.returned k v' ∈ (s.run host is).2 → v' = v := by
  obtain ⟨⟨-, hrun⟩, hobs⟩ := Sys.run_preserves host (fun t => t.Shape ∧ t.resource.cell k = some v)
    (fun o => ∀ v', o = .returned k v' → v' = v)
    (fun t i ht => (step_moves host t i).stable ht.1 ht.2) is s ⟨h, hc⟩
  exact ⟨hrun, fun v' hv' => hobs _ hv' v' rfl⟩

/-- A run that fills an empty cell with `v` does so at one step: the cell is
still empty in the state before it and holds `v` after it. -/
theorem Sys.run_fills (host : Host) {k : Artifact} {v : k.Val} :
    ∀ (is : List Input) (s : Sys), s.Shape → s.resource.cell k = none →
      (s.run host is).1.resource.cell k = some v →
      ∃ is₁ i is₂, is = is₁ ++ i :: is₂ ∧ (s.run host is₁).1.resource.cell k = none ∧
        ((s.run host is₁).1.step host i).1.resource.cell k = some v
  | [], s, _, hk, hv => by simp [Sys.run_nil, hk] at hv
  | i :: is, s, h, hk, hv => by
    have h₁ := h.moves (step_moves host s i)
    cases h₁c : (s.step host i).1.resource.cell k with
    | none =>
      obtain ⟨is₁, j, is₂, rfl, hn, hj⟩ := Sys.run_fills host is _ h₁ h₁c hv
      exact ⟨i :: is₁, j, is₂, rfl, hn, hj⟩
    | some v₁ =>
      obtain rfl : v₁ = v := Option.some.inj ((h₁.cell_stable host h₁c is).1.symm.trans hv)
      exact ⟨[], i, is, rfl, hk, h₁c⟩

/-- A run keeps every result the service holds, the environment, the mode, and
how the instance builds its properties. -/
theorem Sys.run_frame (host : Host) :
    ∀ (s : Sys) (is : List Input),
      (∀ R ∈ s.service.compilationResults, R ∈ (s.run host is).1.service.compilationResults) ∧
        (s.run host is).1.resource.environment = s.resource.environment ∧
        (s.run host is).1.resource.skipCompilation = s.resource.skipCompilation ∧
        (s.run host is).1.resource.loadBuild host = s.resource.loadBuild host ∧
        (s.run host is).1.resource.fetchBuild host = s.resource.fetchBuild host
  | _, [] => ⟨fun _ hR => hR, rfl, rfl, rfl, rfl⟩
  | s, i :: is =>
    have hm := step_moves host s i
    have ⟨hsub, henv, hskip, hload, hfetch⟩ := Sys.run_frame host (s.step host i).1 is
    ⟨fun R hR => hsub R (hm.mem_compilationResults hR), henv.trans hm.builds.1,
      hskip.trans hm.skipCompilation, hload.trans hm.builds.2.1, hfetch.trans hm.builds.2.2⟩

/-! ## Where each cell comes from -/

/-- What the instance builds for property `k` from a stored result: the eager
loaders from its actions, the lazy getters from its actions and its name. -/
def Resource.build (host : Host) (r : Resource) (k : Artifact) (R : Stored) : k.Val :=
  if r.skipCompilation then r.fetchBuild host k R.result.name R.actions
  else r.loadBuild host k R.actions

/-- On a lazy instance every cell that is set holds what the getter built from
the actions and the name of a result `svc` holds, compiled from the
instance's environment with an empty `table_prefix`. -/
def Resource.Sourced (host : Host) (r : Resource) (svc : Service) : Prop :=
  r.skipCompilation = true → ∀ k v, r.cell k = some v → ∃ R ∈ svc.compilationResults,
    matchesEnvironment r.environment R.result = true ∧ v = r.fetchBuild host k R.result.name R.actions

theorem Resource.Sourced.of_eager {host : Host} {r : Resource} {svc : Service}
    (hskip : r.skipCompilation = false) : r.Sourced host svc :=
  fun h => absurd (hskip.symm.trans h) Bool.false_ne_true

theorem Resource.Sourced.mono {host : Host} {r : Resource} {svc svc' : Service}
    (h : r.Sourced host svc) (hsub : ∀ R ∈ svc.compilationResults, R ∈ svc'.compilationResults) :
    r.Sourced host svc' := fun hskip k v hv =>
  have ⟨R, hR, hm, hv'⟩ := h hskip k v hv
  ⟨R, hsub R hR, hm, hv'⟩

/-- Setting a cell to what the getter builds from a result of `svc` keeps every
cell sourced. -/
theorem Resource.Sourced.set {host : Host} {r : Resource} {svc : Service} (h : r.Sourced host svc)
    {k : Artifact} {R : Stored} (hR : R ∈ svc.compilationResults)
    (hm : matchesEnvironment r.environment R.result = true) :
    (r.set k (r.fetchBuild host k R.result.name R.actions)).Sourced host svc := by
  intro hskip k' v' hv'
  simp only [Resource.set_environment, Resource.fetchBuild_set]
  by_cases hk : k' = k
  · subst hk
    exact ⟨R, hR, hm, by simpa using hv'.symm⟩
  · exact h (by simpa using hskip) k' v' (by rwa [Resource.cell_set_of_ne _ _ hk] at hv')

/-- The name the code at `pc` is about to query. -/
def Pc.queryName : Pc → Option String
  | .loadQuery _ n | .fetchQuery _ n => some n
  | _ => none

theorem Sys.latestName_mem {s : Sys} {n : String} (h : truthyName s.latestName = some n) :
    ∃ R ∈ s.service.compilationResults,
      R.result.name = n ∧ matchesEnvironment s.resource.environment R.result = true := by
  obtain ⟨cr, hcr, hm, rfl⟩ := getLatestCompilationResultName_mem (truthyName_eq_some h).1
  obtain ⟨R, hR, rfl⟩ := Service.mem_listCompilationResults hcr
  exact ⟨R, hR, rfl, hm⟩

/-- What every reachable state satisfies. -/
structure Sys.Inv (host : Host) (s : Sys) : Prop where
  shape : s.Shape
  /-- The name about to be queried is that of a result the service holds,
  compiled from the environment with an empty `table_prefix`. -/
  pending : ∀ n, s.pc.queryName = some n → ∃ R ∈ s.service.compilationResults,
    R.result.name = n ∧ matchesEnvironment s.resource.environment R.result = true
  sourced : s.resource.Sourced host s.service

theorem Sys.Inv.init (host : Host) (service : Service) (repository : Repository)
    (environment : String) (lag : Float) (skip : Bool) :
    (Sys.init service repository environment lag skip).Inv host where
  shape := Sys.Shape.init service repository environment lag skip
  pending n h := by cases skip <;> simp [Sys.init, Pc.queryName] at h
  sourced _ k v h := by cases k <;> simp [Sys.init, Resource.cell] at h

theorem Sys.Inv.moves {host : Host} {s s' : Sys} {obs : List Obs} (hi : s.Inv host)
    (hm : Moves host s s' obs) : s'.Inv host := by
  have hsub : ∀ R ∈ s.service.compilationResults, R ∈ s'.service.compilationResults :=
    fun _ hR => hm.mem_compilationResults hR
  have hshape := hi.shape.moves hm
  cases hm with
  | toLoadQuery k n hpc hn | toFetchQuery k n hpc hn =>
    refine ⟨hshape, fun n' h => ?_, hi.sourced⟩
    cases h
    exact Sys.latestName_mem hn
  | loadEmpty k hpc | loaded k _ _ hpc =>
    have hskip : s.resource.skipCompilation = false := hi.shape.skipCompilation_of_pc hpc rfl
    exact ⟨hshape, fun n h => (by cases k <;> cases h), .of_eager (by simpa using hskip)⟩
  | fetched k n actions hpc hq =>
    obtain ⟨R, hR, rfl, hm⟩ := hi.pending _ (by rw [hpc]; rfl)
    obtain rfl := Service.queryCompilationResultActions_of_mem hR hq
    exact ⟨hshape, fun n h => (by cases h), hi.sourced.set hR hm⟩
  | stay | hit => exact hi
  | serve c =>
    refine ⟨hshape, fun n h => ?_, hi.sourced.mono hsub⟩
    obtain ⟨R, hR, hR'⟩ := hi.pending n h
    exact ⟨R, hsub R hR, hR'⟩
  | start | created | noName => exact ⟨hshape, fun n h => (by cases h), hi.sourced.mono hsub⟩
  | raise =>
    refine ⟨hshape, fun n h => ?_, hi.sourced.mono hsub⟩
    split at h <;> cases h

theorem reachable_inv {host : Host} {s : Sys} (hs : Reachable host s) : s.Inv host := by
  induction hs with
  | init service repository environment lag skip => exact Sys.Inv.init host service repository environment lag skip
  | step i _ ih => exact ih.moves (step_moves host _ i)

/-- A step from a reachable state that fills an empty cell builds it from a
result the service holds, compiled from the environment with an empty
`table_prefix`; or it is an eager loader that lists, finds no name and builds
from no actions. -/
theorem Sys.Inv.fills {host : Host} {t : Sys} (hi : t.Inv host) (i : Input) {k : Artifact}
    {v : k.Val} (hk : t.resource.cell k = none) (hv : (t.step host i).1.resource.cell k = some v) :
    (∃ R ∈ t.service.compilationResults,
        matchesEnvironment t.resource.environment R.result = true ∧ v = t.resource.build host k R) ∨
      (t.resource.skipCompilation = false ∧ t.pc = .loadList k ∧ truthyName t.latestName = none ∧
        v = t.resource.loadBuild host k []) := by
  rcases (step_moves host t i).fills hk hv with
    ⟨n, actions, hpc, hq, rfl⟩ | ⟨hpc, hn, rfl⟩ | ⟨n, actions, hpc, hq, rfl⟩
  · obtain ⟨R, hR, rfl, hm⟩ := hi.pending _ (by rw [hpc]; rfl)
    obtain rfl := Service.queryCompilationResultActions_of_mem hR hq
    have hs : t.resource.skipCompilation = false := hi.shape.skipCompilation_of_pc hpc rfl
    exact .inl ⟨R, hR, hm, by simp [Resource.build, hs]⟩
  · exact .inr ⟨hi.shape.skipCompilation_of_pc hpc rfl, hpc, hn, rfl⟩
  · obtain ⟨R, hR, rfl, hm⟩ := hi.pending _ (by rw [hpc]; rfl)
    obtain rfl := Service.queryCompilationResultActions_of_mem hR hq
    have hs : t.resource.skipCompilation = true := hi.shape.skipCompilation_of_pc hpc rfl
    exact .inl ⟨R, hR, hm, by simp [Resource.build, hs]⟩

/-- Every cell that a run from a reachable state fills holds what the instance
built from the actions of a result the service holds, compiled from the
instance's environment with an empty `table_prefix`; or, on an eager instance,
what a loader built from no actions, at the step where it listed in a state
whose lookup found no name. -/
theorem reachable_catalog_provenance {host : Host} {s₀ s : Sys} (hs₀ : Reachable host s₀)
    {is : List Input} (hrun : (s₀.run host is).1 = s) {k : Artifact} {v : k.Val}
    (hnone : s₀.resource.cell k = none) (hv : s.resource.cell k = some v) :
    (∃ R ∈ s.service.compilationResults,
        matchesEnvironment s.resource.environment R.result = true ∧ v = s.resource.build host k R) ∨
      (s.resource.skipCompilation = false ∧ v = s.resource.loadBuild host k [] ∧
        ∃ is₁ i is₂, is = is₁ ++ i :: is₂ ∧ (s₀.run host is₁).1.pc = .loadList k ∧
          truthyName (s₀.run host is₁).1.latestName = none ∧
          ((s₀.run host is₁).1.step host i).1.resource.cell k = some v) := by
  subst hrun
  obtain ⟨is₁, i, is₂, rfl, hk, hfill⟩ := Sys.run_fills host is s₀ (reachable_inv hs₀).shape hnone hv
  obtain ⟨hsub, henv, hskip, hload, hfetch⟩ := Sys.run_frame host (s₀.run host is₁).1 (i :: is₂)
  have hbuild : ((s₀.run host is₁).1.run host (i :: is₂)).1.resource.build host =
      (s₀.run host is₁).1.resource.build host := by
    funext k R
    simp only [Resource.build, hskip, hload, hfetch]
  rw [Sys.run_append]
  dsimp only
  rw [henv, hskip, hload, hbuild]
  rcases (reachable_inv (hs₀.run is₁)).fills i hk hfill with ⟨R, hR, hm, hv'⟩ | ⟨hs, hpc, hn, hv'⟩
  · exact .inl ⟨R, hsub R hR, hm, hv'⟩
  · exact .inr ⟨hs, hv', is₁, i, is₂, rfl, hpc, hn, hfill⟩

/-- The repository `analytics/us/dataform`. -/
def analyticsRepository : Repository := ⟨"analytics", "us", "dataform"⟩

/-- `main` compiles to `orders` and its `orders_not_null` check; CI has
compiled it once, as `ci`. -/
def ciService : Service where
  compilationResults := [⟨{ name := "ci", gitCommitish := "main" }, [salesOrders, ordersNotNull]⟩]
  branches := [("main", [salesOrders, ordersNotNull])]
  names_nodup := List.nodup_singleton _

/-- A lazy instance on `main` as `__init__` leaves it. -/
def lazyMain : Sys := Sys.init ciService analyticsRepository "main" 1440 true

/-- The read of `assets` of `lazyAssetsRead`. -/
def lazyAssetsReads : List Input := [.read .assets, .answer "x", .answer "x"]

/-- A lazy instance on `main` after one read of `assets`: it listed, found
`ci`, and queried it. -/
def lazyAssetsRead : Sys := (lazyMain.run Host.acceptAll lazyAssetsReads).1

theorem reachable_lazyAssetsRead : Reachable Host.acceptAll lazyAssetsRead := by
  unfold lazyAssetsRead lazyMain
  exact (Reachable.init _ _ _ _ _).run _

theorem reachable_catalog_provenance_ci :
    Reachable Host.acceptAll lazyMain ∧ (lazyMain.run Host.acceptAll lazyAssetsReads).1 = lazyAssetsRead ∧
      lazyMain.resource.cell .assets = none ∧
      lazyAssetsRead.resource.cell .assets =
        some (processAssets Host.acceptAll 1440 [salesOrders, ordersNotNull] (some "ci")) ∧
      ((∃ R ∈ lazyAssetsRead.service.compilationResults,
          matchesEnvironment lazyAssetsRead.resource.environment R.result = true ∧
            processAssets Host.acceptAll 1440 [salesOrders, ordersNotNull] (some "ci") =
              lazyAssetsRead.resource.build Host.acceptAll .assets R) ∨
        (lazyAssetsRead.resource.skipCompilation = false ∧
          processAssets Host.acceptAll 1440 [salesOrders, ordersNotNull] (some "ci") =
            lazyAssetsRead.resource.loadBuild Host.acceptAll .assets [] ∧
          ∃ is₁ i is₂, lazyAssetsReads = is₁ ++ i :: is₂ ∧
            (lazyMain.run Host.acceptAll is₁).1.pc = .loadList .assets ∧
            truthyName (lazyMain.run Host.acceptAll is₁).1.latestName = none ∧
            ((lazyMain.run Host.acceptAll is₁).1.step Host.acceptAll i).1.resource.cell .assets =
              some (processAssets Host.acceptAll 1440 [salesOrders, ordersNotNull] (some "ci")))) :=
  have hs : Reachable Host.acceptAll lazyMain := .init _ _ _ _ _
  have hn : lazyMain.resource.cell .assets = none := rfl
  have hv : lazyAssetsRead.resource.cell .assets =
      some (processAssets Host.acceptAll 1440 [salesOrders, ordersNotNull] (some "ci")) := rfl
  ⟨hs, rfl, hn, hv, reachable_catalog_provenance hs rfl hn hv⟩

/-- The assets of a lazy instance come from one compilation result the service
holds, compiled from the instance's environment with an empty `table_prefix`:
each is the spec of one of that result's actions, and carries that result's
name as `dataform_compilation_result`. -/
theorem reachable_lazy_assets_stamped {host : Host} {s : Sys} (hs : Reachable host s)
    (hskip : s.resource.skipCompilation = true) {assets : List AssetSpec}
    (ha : s.resource.assets = some assets) :
    ∃ R ∈ s.service.compilationResults,
      matchesEnvironment s.resource.environment R.result = true ∧
        ∀ spec ∈ assets,
          spec.metadata.lookup "dataform_compilation_result" = some (.text R.result.name) ∧
            ∃ a ∈ R.actions, spec = assetSpec s.resource.assetFreshPolicyLagMinutes
              [compilationResultEntry (some R.result.name)] a := by
  obtain ⟨R, hR, hm, rfl⟩ := (reachable_inv hs).sourced hskip .assets assets ha
  exact ⟨R, hR, hm, fun spec hspec =>
    ⟨processAssets_lookup_compilationResult hspec, mem_tryEach_assetSpec hspec⟩⟩

theorem reachable_lazy_assets_stamped_ci :
    Reachable Host.acceptAll lazyAssetsRead ∧ lazyAssetsRead.resource.skipCompilation = true ∧
      lazyAssetsRead.resource.assets =
        some (processAssets Host.acceptAll 1440 [salesOrders, ordersNotNull] (some "ci")) ∧
      ∃ R ∈ lazyAssetsRead.service.compilationResults,
        matchesEnvironment lazyAssetsRead.resource.environment R.result = true ∧
          ∀ spec ∈ processAssets Host.acceptAll 1440 [salesOrders, ordersNotNull] (some "ci"),
            spec.metadata.lookup "dataform_compilation_result" = some (.text R.result.name) ∧
              ∃ a ∈ R.actions, spec = assetSpec lazyAssetsRead.resource.assetFreshPolicyLagMinutes
                [compilationResultEntry (some R.result.name)] a :=
  have ha : lazyAssetsRead.resource.assets =
      some (processAssets Host.acceptAll 1440 [salesOrders, ordersNotNull] (some "ci")) := rfl
  ⟨reachable_lazyAssetsRead, rfl, ha, reachable_lazy_assets_stamped reachable_lazyAssetsRead rfl ha⟩

/-- `main` compiles to `orders` and its `orders_not_null` check; no result yet. -/
def mainService : Service where
  compilationResults := []
  branches := [("main", [salesOrders, ordersNotNull])]
  names_nodup := List.nodup_nil

/-- An eager instance on `main`: `__init__` creates `r1`; before it lists, CI
compiles another commit of `main`, with `orders` and `customers`, as `ci`; the
asset loader finds `ci` and queries it. The check loader creates `r2` from
`main`, finds it and queries it. -/
def eagerRace : Sys :=
  ((Sys.init mainService analyticsRepository "main" 1440 false).run Host.acceptAll
    [.answer "r1",
     .other (.createCompilationResult "ci" { gitCommitish := "main" } [salesOrders, salesCustomers]),
     .answer "x", .answer "x", .answer "r2", .answer "x", .answer "x"]).1

/-- The eager instance of `eagerRace`, constructed, has the assets of `ci`,
a result it did not create, and checks that no single result of the
repository yields together with those assets. -/
theorem eager_catalog_mixes_results :
    Reachable Host.acceptAll eagerRace ∧ eagerRace.pc = .idle ∧
      eagerRace.service.names = ["r2", "ci", "r1"] ∧
      (∀ R ∈ eagerRace.service.compilationResults,
        eagerRace.resource.assets = some (eagerRace.resource.build Host.acceptAll .assets R) →
          R.result.name = "ci") ∧
      ¬∃ R ∈ eagerRace.service.compilationResults,
        eagerRace.resource.assets = some (eagerRace.resource.build Host.acceptAll .assets R) ∧
          eagerRace.resource.assetChecks =
            some (eagerRace.resource.build Host.acceptAll .assetChecks R) := by
  have hkeys : eagerRace.resource.assets.map (List.map (·.key)) = some ["orders", "customers"] := by
    decide
  have hchecks : eagerRace.resource.assetChecks = some [⟨"orders", "orders_not_null"⟩] := by decide
  have hsrc : ∀ R ∈ eagerRace.service.compilationResults,
      (eagerRace.resource.build Host.acceptAll .assets R).map (·.key) = ["orders", "customers"] →
        R.result.name = "ci" ∧
          eagerRace.resource.build Host.acceptAll .assetChecks R ≠ [⟨"orders", "orders_not_null"⟩] := by
    decide
  have hfrom : ∀ R, eagerRace.resource.assets = some (eagerRace.resource.build Host.acceptAll .assets R) →
      (eagerRace.resource.build Host.acceptAll .assets R).map (·.key) = ["orders", "customers"] := by
    intro R h
    rw [h] at hkeys
    exact Option.some.inj hkeys
  refine ⟨by unfold eagerRace; exact (Reachable.init _ _ _ _ _).run _, by decide, by decide,
    fun R hR h => (hsrc R hR (hfrom R h)).1, ?_⟩
  rintro ⟨R, hR, ha, hc⟩
  exact (hsrc R hR (hfrom R ha)).2 (Option.some.inj (hc.symm.trans hchecks))

/-! ## Construction without other clients -/

/-- One loader of `__init__` that no other client interleaves with: it creates
a result from the environment's branch, finds that very result and builds
from its actions. -/
theorem Sys.run_loader (host : Host) (s : Sys) {k : Artifact} (hpc : s.pc = .loadCreate k)
    {actions : List CompilationResultAction}
    (hb : s.service.branches.lookup s.resource.environment = some actions)
    {name : String} (h : name ∉ s.service.names) (hname : name ≠ "") (x y : String) :
    s.run host [.answer name, .answer x, .answer y] =
      (Sys.finishLoad host
          { s with
            service := s.service.store name h
              (createCompilationResult s.resource.repository s.resource.environment).compilationResult
              actions }
          k actions,
        [.called .createCompilationResult, .called .listCompilationResults,
          .called .queryCompilationResultActions]) := by
  have hlatest : truthyName ({ s with
      service := s.service.store name h
        (createCompilationResult s.resource.repository s.resource.environment).compilationResult
        actions,
      pc := .loadList k } : Sys).latestName = some name := by
    simp [Sys.latestName, Service.listCompilationResults, Service.store,
      listCompilationResultsRequest, getLatestCompilationResultName, truthyName, hname]
  simp only [Sys.run, Sys.step_answer_loadCreate host hpc h hb, Sys.step_answer_loadList host rfl hlatest]
  rw [Sys.step_answer_loadQuery host rfl (Service.queryCompilationResultActions_store s.service name h
    (createCompilationResult s.resource.repository s.resource.environment).compilationResult actions)]
  rfl

/-- Without other clients, an eager construction the service answers, naming
its two results `a₁` and `a₂`, makes its six calls and no more, and builds the
assets from `a₁` and the checks from `a₂`: both from the actions the
environment's branch compiles to. -/
theorem eager_init_sequential (host : Host) (service : Service) (repository : Repository)
    (environment : String) (lag : Float) {actions : List CompilationResultAction}
    (hb : service.branches.lookup environment = some actions) (a₁ a₂ x₁ x₂ x₃ x₄ : String)
    (h₁ : a₁ ∉ service.names) (h₂ : a₂ ∉ a₁ :: service.names) (ha₁ : a₁ ≠ "") (ha₂ : a₂ ≠ "") :
    ∃ s, (Sys.init service repository environment lag false).run host
        [.answer a₁, .answer x₁, .answer x₂, .answer a₂, .answer x₃, .answer x₄] =
      (s, [.called .createCompilationResult, .called .listCompilationResults,
          .called .queryCompilationResultActions, .called .createCompilationResult,
          .called .listCompilationResults, .called .queryCompilationResultActions]) ∧
      s.pc = .idle ∧ s.service.names = a₂ :: a₁ :: service.names ∧
      s.resource.assets = some (loadDataformAssetsLoop host lag actions) ∧
      s.resource.assetChecks = some (loadDataformAssetCheckSpecsLoop host actions) := by
  rw [show [Input.answer a₁, .answer x₁, .answer x₂, .answer a₂, .answer x₃, .answer x₄] =
      [.answer a₁, .answer x₁, .answer x₂] ++ [.answer a₂, .answer x₃, .answer x₄] from rfl,
    Sys.run_append, Sys.run_loader host _ rfl hb h₁ ha₁ x₁ x₂,
    Sys.run_loader host _ rfl hb h₂ ha₂ x₃ x₄]
  exact ⟨_, rfl, rfl, rfl, rfl, rfl⟩

theorem eager_init_sequential_main :
    mainService.branches.lookup "main" = some [salesOrders, ordersNotNull] ∧
      ∃ s, (Sys.init mainService analyticsRepository "main" 1440 false).run Host.acceptAll
          [.answer "r1", .answer "x", .answer "x", .answer "r2", .answer "x", .answer "x"] =
        (s, [.called .createCompilationResult, .called .listCompilationResults,
            .called .queryCompilationResultActions, .called .createCompilationResult,
            .called .listCompilationResults, .called .queryCompilationResultActions]) ∧
        s.pc = .idle ∧ s.service.names = "r2" :: "r1" :: mainService.names ∧
        s.resource.assets =
          some (loadDataformAssetsLoop Host.acceptAll 1440 [salesOrders, ordersNotNull]) ∧
        s.resource.assetChecks =
          some (loadDataformAssetCheckSpecsLoop Host.acceptAll [salesOrders, ordersNotNull]) :=
  have hb : mainService.branches.lookup "main" = some [salesOrders, ordersNotNull] := by decide
  ⟨hb, eager_init_sequential Host.acceptAll mainService analyticsRepository "main" 1440 hb
    "r1" "r2" "x" "x" "x" "x" (by decide) (by decide) (by decide) (by decide)⟩

/-! ## Memoisation -/

theorem Sys.eager_run (host : Host) {s : Sys} (hskip : s.resource.skipCompilation = false)
    (hpc : s.pc = .idle) (is : List Input) :
    (s.run host is).1.resource = s.resource ∧ ∀ c, Obs.called c ∉ (s.run host is).2 := by
  have hstep : ∀ (t : Sys) (i : Input), (t.resource = s.resource ∧ t.pc = .idle) →
      ((t.step host i).1.resource = s.resource ∧ (t.step host i).1.pc = .idle) ∧
        ∀ o ∈ (t.step host i).2, ∀ c, o ≠ .called c := by
    rintro t i ⟨hr, hpc⟩
    obtain ⟨hpc', hr', hc⟩ := (step_moves host t i).eager_idle (hr ▸ hskip) hpc
    exact ⟨⟨hr'.trans hr, hpc'⟩, fun o ho c hoc => hc c (hoc ▸ ho)⟩
  obtain ⟨⟨hr, -⟩, hobs⟩ := Sys.run_preserves host _ _ hstep is s ⟨rfl, hpc⟩
  exact ⟨hr, fun c hc => hobs _ hc c rfl⟩

/-- The memoisation contract of `assets` and `asset_checks` at a state `s`:
what the next step, and every run from `s`, does with the two cells. -/
structure MemoisedCatalog (host : Host) (s : Sys) : Prop where
  /-- A lazy instance calls the service only inside a read of some property
  whose cell is `None`. -/
  call_only_if_empty : s.resource.skipCompilation = true → ∀ i c, Obs.called c ∈ (s.step host i).2 →
    ∃ k, s.pc.target = some k ∧ s.pc.fetching = true ∧ s.resource.cell k = none
  /-- A read that returns `v` leaves its cell holding `v`. -/
  returned_cached : ∀ i k v, Obs.returned k v ∈ (s.step host i).2 →
    (s.step host i).1.resource.cell k = some v
  /-- A step that raises leaves both cells as they were. -/
  raised_keeps : ∀ i e, Obs.raised e ∈ (s.step host i).2 → (s.step host i).1.resource = s.resource
  /-- On a lazy instance a step changes the cells only by setting the cell of
  the property whose value it returns. -/
  frame : s.resource.skipCompilation = true → ∀ i, (s.step host i).1.resource = s.resource ∨
    ∃ k v, Obs.returned k v ∈ (s.step host i).2 ∧ (s.step host i).1.resource = s.resource.set k v
  /-- At rest, a read of a set cell returns its value at once: no call, no change. -/
  hit : s.pc = .idle → ∀ k v, s.resource.cell k = some v → s.step host (.read k) = (s, [.returned k v])
  /-- A cell that holds `v` holds `v` after every run from `s`, whatever the
  service does meanwhile; every read of it during the run that returns,
  returns `v`; and once the run is at rest, a read of it returns `v` at once. -/
  stable : ∀ k v, s.resource.cell k = some v → ∀ is, (s.run host is).1.resource.cell k = some v ∧
    (∀ v', Obs.returned k v' ∈ (s.run host is).2 → v' = v) ∧
    ((s.run host is).1.pc = .idle →
      (s.run host is).1.step host (.read k) = ((s.run host is).1, [.returned k v]))
  /-- A constructed eager instance calls nothing and keeps its cells over every run. -/
  eager_silent : s.resource.skipCompilation = false → s.pc = .idle → ∀ is,
    (s.run host is).1.resource = s.resource ∧ ∀ c, Obs.called c ∉ (s.run host is).2

theorem reachable_memoisedCatalog {host : Host} {s : Sys} (hs : Reachable host s) :
    MemoisedCatalog host s :=
  have h := (reachable_inv hs).shape
  { call_only_if_empty := fun hskip i _ hc =>
      have ⟨k, hk⟩ := Pc.target_of_call ((step_moves host s i).called hc)
      ⟨k, hk, (h.fetching hk).trans hskip, h.target_none hk⟩
    returned_cached := fun i _ _ hr => (step_moves host s i).cell_of_returned h hr
    raised_keeps := fun i _ he => (step_moves host s i).raised he
    frame := fun hskip i => (step_moves host s i).lazy_frame h hskip
    hit := fun hpc _ _ hc => Sys.step_read_set host hpc hc
    stable := fun _ _ hc is =>
      have hrun := h.cell_stable host hc is
      ⟨hrun.1, hrun.2, fun hpc => Sys.step_read_set host hpc hrun.1⟩
    eager_silent := fun hskip hpc => Sys.eager_run host hskip hpc }

theorem reachable_memoisedCatalog_ci :
    Reachable Host.acceptAll lazyAssetsRead ∧ MemoisedCatalog Host.acceptAll lazyAssetsRead :=
  ⟨reachable_lazyAssetsRead, reachable_memoisedCatalog reachable_lazyAssetsRead⟩

/-! ## The lazy lookup -/

/-- The lookup returns the name of the first entry of the listing, in the
service's order, compiled from the environment with an empty `table_prefix`;
`None`, without raising, when there is none. A lazy read that lists raises
exactly when that name is `None` or `""`, and otherwise goes on to query that
name; the service answers with the actions of the one result of that name,
and the read returns what it builds from them, every asset carrying the name
as `dataform_compilation_result`. -/
theorem latest_compilation_result (host : Host) (environment : String)
    (rs : List CompilationResult) :
    (∀ n, getLatestCompilationResultName environment rs = some n ↔
      ∃ pre cr post, rs = pre ++ cr :: post ∧ matchesEnvironment environment cr = true ∧
        (∀ x ∈ pre, matchesEnvironment environment x = false) ∧ cr.name = n) ∧
    (getLatestCompilationResultName environment rs = none ↔
      ∀ cr ∈ rs, matchesEnvironment environment cr = false) ∧
    (∀ (s : Sys) (k : Artifact) (name : String), s.pc = .fetchList k →
      ((∃ e, Obs.raised e ∈ (s.step host (.answer name)).2) ↔
          s.latestName = none ∨ s.latestName = some "") ∧
        ∀ n, truthyName s.latestName = some n → (s.step host (.answer name)).1.pc = .fetchQuery k n) ∧
    (∀ (s : Sys) (k : Artifact) (n name : String) (actions : List CompilationResultAction),
      s.pc = .fetchQuery k n → s.service.queryCompilationResultActions ⟨n⟩ = some actions →
      (∃ R ∈ s.service.compilationResults, R.result.name = n ∧ R.actions = actions) ∧
        (s.step host (.answer name)).2 =
          [.called .queryCompilationResultActions, .returned k (s.resource.fetchBuild host k n actions)] ∧
        ∀ spec ∈ s.resource.fetchBuild host .assets n actions,
          spec.metadata.lookup "dataform_compilation_result" = some (.text n)) := by
  refine ⟨getLatestCompilationResultName_eq_some environment rs,
    getLatestCompilationResultName_eq_none environment rs, ?_, ?_⟩
  · intro s k name hpc
    rcases h : truthyName s.latestName with _ | n
    · have ho : (s.step host (.answer name)).2 = [.called .listCompilationResults,
          .raised (.exception (noCompilationMessage s.resource.environment))] := by
        simp only [Sys.step, Sys.answer, hpc, h]
      have hraised : Obs.raised (.exception (noCompilationMessage s.resource.environment)) ∈
          (s.step host (.answer name)).2 := by simp [ho]
      exact ⟨iff_of_true ⟨_, hraised⟩ (truthyName_eq_none.mp h), fun n hn => by cases hn⟩
    · have hs : s.step host (.answer name) =
          ({ s with pc := .fetchQuery k n }, [.called .listCompilationResults]) := by
        simp only [Sys.step, Sys.answer, hpc, h]
      refine ⟨iff_of_false (by simp [hs]) ?_, fun n' hn' => ?_⟩
      · rw [← truthyName_eq_none, h]
        simp
      · cases hn'
        rw [hs]
  · intro s k n name actions hpc hq
    exact ⟨Service.queryCompilationResultActions_eq_some hq,
      by simp only [Sys.step, Sys.answer, hpc, hq],
      fun _ hspec => processAssets_lookup_compilationResult hspec⟩

/-- A lazy instance on `main` that has started reading `assets`: it is about to list. -/
def lazyAssetsListing : Sys := (lazyMain.run Host.acceptAll [.read .assets]).1

/-- The same read once the list is answered: it is about to query `ci`. -/
def lazyAssetsQuerying : Sys := (lazyAssetsListing.step Host.acceptAll (.answer "x")).1

theorem latest_compilation_result_ci :
    lazyAssetsListing.pc = .fetchList .assets ∧
      (((∃ e, Obs.raised e ∈ (lazyAssetsListing.step Host.acceptAll (.answer "x")).2) ↔
          lazyAssetsListing.latestName = none ∨ lazyAssetsListing.latestName = some "") ∧
        ∀ n, truthyName lazyAssetsListing.latestName = some n →
          (lazyAssetsListing.step Host.acceptAll (.answer "x")).1.pc = .fetchQuery .assets n) ∧
      lazyAssetsQuerying.pc = .fetchQuery .assets "ci" ∧
      lazyAssetsQuerying.service.queryCompilationResultActions ⟨"ci"⟩ =
        some [salesOrders, ordersNotNull] ∧
      (∃ R ∈ lazyAssetsQuerying.service.compilationResults,
          R.result.name = "ci" ∧ R.actions = [salesOrders, ordersNotNull]) ∧
        (lazyAssetsQuerying.step Host.acceptAll (.answer "x")).2 =
          [.called .queryCompilationResultActions, .returned .assets
            (lazyAssetsQuerying.resource.fetchBuild Host.acceptAll .assets "ci" [salesOrders, ordersNotNull])] ∧
        ∀ spec ∈ lazyAssetsQuerying.resource.fetchBuild Host.acceptAll .assets "ci"
            [salesOrders, ordersNotNull],
          spec.metadata.lookup "dataform_compilation_result" = some (.text "ci") :=
  have h := latest_compilation_result Host.acceptAll "main" []
  have hpc : lazyAssetsQuerying.pc = .fetchQuery .assets "ci" := by decide
  have hq : lazyAssetsQuerying.service.queryCompilationResultActions ⟨"ci"⟩ =
      some [salesOrders, ordersNotNull] := by decide
  ⟨rfl, h.2.2.1 lazyAssetsListing .assets "x" rfl, hpc, hq, h.2.2.2 lazyAssetsQuerying .assets "ci" "x" _ hpc hq⟩

/-- A read of a lazy instance at rest. When the cell is set, the read returns
its value at once, with no call. When it is `None`, the read lists; when the
lookup finds no name (`None` or `""`), it raises the missing-compilation
exception and leaves the instance as it was; when it finds `n`, the service
holds the actions of `n`, and the read queries them, returns what it builds
and stores that in the cell, at rest again. So the read raises exactly when
the cell is `None` and the lookup finds no name. -/
theorem lazy_read_completes (host : Host) {s : Sys} (hskip : s.resource.skipCompilation = true)
    (hpc : s.pc = .idle) (k : Artifact) (a b : String) :
    ((∃ e, Obs.raised e ∈ (s.run host [.read k, .answer a, .answer b]).2) ↔
        s.resource.cell k = none ∧ (s.latestName = none ∨ s.latestName = some "")) ∧
      match s.resource.cell k, truthyName s.latestName with
      | some x, _ => s.step host (.read k) = (s, [.returned k x])
      | none, none => s.run host [.read k, .answer a] =
          (s, [.called .listCompilationResults,
            .raised (.exception (noCompilationMessage s.resource.environment))])
      | none, some n => ∃ actions, s.service.queryCompilationResultActions ⟨n⟩ = some actions ∧
          s.run host [.read k, .answer a, .answer b] =
            ({ s with resource := s.resource.set k (s.resource.fetchBuild host k n actions) },
              [.called .listCompilationResults, .called .queryCompilationResultActions,
                .returned k (s.resource.fetchBuild host k n actions)]) := by
  have hidle : ({ s with pc := .idle } : Sys) = s := by rw [← hpc]
  rcases hc : s.resource.cell k with _ | x
  · rcases hn : truthyName s.latestName with _ | n
    · have hrun : s.run host [.read k, .answer a] = (s, [.called .listCompilationResults,
          .raised (.exception (noCompilationMessage s.resource.environment))]) := by
        simp [Sys.run, Sys.step, Sys.answer, hpc, hskip, hc, hn, hidle]
      refine ⟨iff_of_true ⟨.exception (noCompilationMessage s.resource.environment), ?_⟩
        ⟨rfl, truthyName_eq_none.mp hn⟩, hrun⟩
      simp [Sys.run_cons, hrun, Sys.step, Sys.answer, hpc, hskip, hc, hn, hidle]
    · obtain ⟨R, hR, rfl, -⟩ := Sys.latestName_mem hn
      have hrun : s.run host [.read k, .answer a, .answer b] =
          ({ s with resource := s.resource.set k (s.resource.fetchBuild host k R.result.name R.actions) },
            [.called .listCompilationResults, .called .queryCompilationResultActions,
              .returned k (s.resource.fetchBuild host k R.result.name R.actions)]) := by
        simp [Sys.run, Sys.step, Sys.answer, hpc, hskip, hc, hn, Service.queryCompilationResultActions_mem hR]
      refine ⟨iff_of_false (by simp [hrun]) ?_, R.actions, Service.queryCompilationResultActions_mem hR, hrun⟩
      rw [← truthyName_eq_none, hn]
      simp
  · have hread := Sys.step_read_set host hpc hc
    refine ⟨iff_of_false ?_ (by simp), hread⟩
    rw [Sys.run_cons, hread]
    simp [Sys.run, Sys.step, Sys.answer, hpc]

theorem lazy_read_completes_ci :
    lazyAssetsRead.resource.skipCompilation = true ∧ lazyAssetsRead.pc = .idle ∧
      ((∃ e, Obs.raised e ∈
            (lazyAssetsRead.run Host.acceptAll [.read .assetChecks, .answer "x", .answer "x"]).2) ↔
          lazyAssetsRead.resource.cell .assetChecks = none ∧
            (lazyAssetsRead.latestName = none ∨ lazyAssetsRead.latestName = some "")) ∧
      match lazyAssetsRead.resource.cell .assetChecks, truthyName lazyAssetsRead.latestName with
      | some x, _ => lazyAssetsRead.step Host.acceptAll (.read .assetChecks) =
          (lazyAssetsRead, [.returned .assetChecks x])
      | none, none => lazyAssetsRead.run Host.acceptAll [.read .assetChecks, .answer "x"] =
          (lazyAssetsRead, [.called .listCompilationResults,
            .raised (.exception (noCompilationMessage lazyAssetsRead.resource.environment))])
      | none, some n => ∃ actions, lazyAssetsRead.service.queryCompilationResultActions ⟨n⟩ = some actions ∧
          lazyAssetsRead.run Host.acceptAll [.read .assetChecks, .answer "x", .answer "x"] =
            ({ lazyAssetsRead with
                resource := lazyAssetsRead.resource.set .assetChecks
                  (lazyAssetsRead.resource.fetchBuild Host.acceptAll .assetChecks n actions) },
              [.called .listCompilationResults, .called .queryCompilationResultActions,
                .returned .assetChecks (lazyAssetsRead.resource.fetchBuild Host.acceptAll .assetChecks n actions)]) :=
  have hskip : lazyAssetsRead.resource.skipCompilation = true := rfl
  have hpc : lazyAssetsRead.pc = .idle := rfl
  ⟨hskip, hpc, lazy_read_completes Host.acceptAll hskip hpc .assetChecks "x" "x"⟩

end DagsterDataform
