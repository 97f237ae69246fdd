import DagsterDataform.Catalog

/-!
# Each lookup takes effect at its list call

`_fetch_latest_compilation_actions` (resources.py:82-105) and
`query_compilation_result` (resources.py:271-294) make two remote calls, a
list and a query, and other clients of the repository may act between them.
Read as sequential code against one state of the service, each is a function
of that state: `Sys.fetchLatestCompilationActions` and
`Sys.queryCompilationResult`.

The machine of `Machine` refines them. Whatever other clients do between the
two calls, the instance ends with what the sequential function computes in
the state the service answered the list in: that answer is the lookup's
linearization point. It holds because the service never drops or rewrites a
result it holds (`Service.serve_mem`) and names are unique, so the name the
list found still denotes the same actions when the query reaches the service.

While a call is pending, only its answer or its failure moves the instance
(`Input.settles`); anything else changes the service alone
(`Sys.step_unsettled`, `Sys.run_unsettled`).

Results:
* `lazy_read_linearizable`: a getter of a lazy instance that has started its
  fetch raises what the sequential `_fetch_latest_compilation_actions` raises,
  or returns and stores what the sequential getter builds;
* `eager_loader_linearizable`: a loader of `__init__` that has created its
  result stores what it builds from the actions the sequential
  `query_compilation_result` returns.
-/
namespace DagsterDataform

/-! ## The sequential lookups -/

/-- `query_compilation_result` (resources.py:271-294) against one state of the
service: no actions when no name is found; `none` when the query raises. -/
def Sys.queryCompilationResult (s : Sys) : Option (List CompilationResultAction) :=
  match truthyName s.latestName with
  | some n => s.service.queryCompilationResultActions ⟨n⟩
  | none => some []

/-- `_fetch_latest_compilation_actions` (resources.py:82-105) against one
state of the service. -/
def Sys.fetchLatestCompilationActions (s : Sys) :
    Except Error (String × List CompilationResultAction) :=
  match truthyName s.latestName with
  | none => .error (.exception (noCompilationMessage s.resource.environment))
  | some n =>
    match s.service.queryCompilationResultActions ⟨n⟩ with
    | some actions => .ok (n, actions)
    | none => .error (.remote .queryCompilationResultActions)

/-! ## Inputs that leave a pending call pending -/

/-- The scheduler's inputs that end the pending remote call: its answer, or its failure. -/
def Input.settles : Input → Bool
  | .answer _ | .fail => true
  | .other _ | .read _ => false

/-- While a call is pending, an input that does not settle it changes only the
service, and the service keeps every result it holds. -/
theorem Sys.step_unsettled (host : Host) {s : Sys} (hpc : s.pc ≠ .idle) {i : Input}
    (hi : i.settles = false) :
    (s.step host i).2 = [] ∧ (s.step host i).1.pc = s.pc ∧ (s.step host i).1.resource = s.resource ∧
      ∀ R ∈ s.service.compilationResults, R ∈ (s.step host i).1.service.compilationResults := by
  cases i with
  | other c => exact ⟨rfl, rfl, rfl, fun _ hR => Service.serve_mem c hR⟩
  | read k => simp only [Sys.step, true_and]; exact fun _ hR => hR
  | answer | fail => cases hi

theorem Sys.run_unsettled (host : Host) (s : Sys) (hpc : s.pc ≠ .idle) (is : List Input)
    (his : ∀ i ∈ is, i.settles = false) :
    (s.run host is).2 = [] ∧ (s.run host is).1.pc = s.pc ∧ (s.run host is).1.resource = s.resource ∧
      ∀ R ∈ s.service.compilationResults, R ∈ (s.run host is).1.service.compilationResults := by
  obtain ⟨⟨hpc', hr, hsub⟩, hobs⟩ := Sys.run_preserves_on host (fun i => i.settles = false)
    (fun t => t.pc = s.pc ∧ t.resource = s.resource ∧
      ∀ R ∈ s.service.compilationResults, R ∈ t.service.compilationResults)
    (fun _ => False)
    (fun t i hi ⟨hpc', hr, hsub⟩ => by
      obtain ⟨hobs, hpc'', hr', hsub'⟩ := Sys.step_unsettled host (hpc' ▸ hpc) hi
      exact ⟨⟨hpc''.trans hpc', hr'.trans hr, fun R hR => hsub' R (hsub R hR)⟩, by simp [hobs]⟩)
    is s his ⟨rfl, rfl, fun _ hR => hR⟩
  exact ⟨List.eq_nil_iff_forall_not_mem.mpr hobs, hpc', hr, hsub⟩

/-! ## The lazy getters -/

/-- A getter of a lazy instance that has started fetching property `k`
(its list call pending), with any inputs of other clients and reads between
its two calls: when the sequential `_fetch_latest_compilation_actions` raises
in the state the list is answered in, the getter raises that at once; when it
returns `(n, actions)`, the getter queries, returns what it builds from `n` and
`actions`, stores it in `k`'s cell and is at rest. -/
theorem lazy_read_linearizable (host : Host) {s : Sys} {k : Artifact} (hpc : s.pc = .fetchList k)
    (a b : String) {is : List Input} (his : ∀ i ∈ is, i.settles = false) :
    match s.fetchLatestCompilationActions with
    | .ok (n, actions) => ∃ t, s.run host (.answer a :: is ++ [.answer b]) =
        (t, [.called .listCompilationResults, .called .queryCompilationResultActions,
          .returned k (s.resource.fetchBuild host k n actions)]) ∧
        t.pc = .idle ∧ t.resource = s.resource.set k (s.resource.fetchBuild host k n actions)
    | .error e => s.step host (.answer a) =
        ({ s with pc := .idle }, [.called .listCompilationResults, .raised e]) := by
  unfold Sys.fetchLatestCompilationActions
  cases hn : truthyName s.latestName with
  | none => exact Sys.step_answer_fetchList_none host hpc hn
  | some n =>
    obtain ⟨R, hR, rfl, -⟩ := Sys.latestName_mem hn
    obtain ⟨hobs, hpc₂, hres, hsub⟩ :=
      Sys.run_unsettled host { s with pc := .fetchQuery k R.result.name } (by simp) is his
    have hq := Service.queryCompilationResultActions_mem (hsub R hR)
    rw [Sys.run_append, Sys.run_cons host s, Sys.step_answer_fetchList host hpc hn]
    simp only [Service.queryCompilationResultActions_mem hR, hobs, Sys.run_cons, Sys.run_nil,
      Sys.step_answer_fetchQuery host hpc₂ hq, hres]
    exact ⟨_, rfl, rfl, rfl⟩

theorem lazy_read_linearizable_ci :
    lazyAssetsListing.pc = .fetchList .assets ∧
      (∀ i ∈ [Input.other (.createCompilationResult "r9" { gitCommitish := "main" } [salesCustomers])],
        i.settles = false) ∧
      match lazyAssetsListing.fetchLatestCompilationActions with
      | .ok (n, actions) => ∃ t, lazyAssetsListing.run Host.acceptAll
            (.answer "x" :: [Input.other (.createCompilationResult "r9" { gitCommitish := "main" }
              [salesCustomers])] ++ [.answer "x"]) =
          (t, [.called .listCompilationResults, .called .queryCompilationResultActions,
            .returned .assets (lazyAssetsListing.resource.fetchBuild Host.acceptAll .assets n actions)]) ∧
          t.pc = .idle ∧ t.resource = lazyAssetsListing.resource.set .assets
            (lazyAssetsListing.resource.fetchBuild Host.acceptAll .assets n actions)
      | .error e => lazyAssetsListing.step Host.acceptAll (.answer "x") =
          ({ lazyAssetsListing with pc := .idle }, [.called .listCompilationResults, .raised e]) :=
  ⟨rfl, by decide, lazy_read_linearizable Host.acceptAll rfl "x" "x" (by decide)⟩

/-! ## The loaders of `__init__` -/

/-- A loader of `__init__` that has created its result (its list call
pending), with any inputs of other clients and reads between its two calls,
ends as if it had loaded the actions the sequential `query_compilation_result`
returns in the state the list is answered in: at once when that finds no name,
after its query otherwise. -/
theorem eager_loader_linearizable (host : Host) {s : Sys} {k : Artifact} (hpc : s.pc = .loadList k)
    (a b : String) {is : List Input} (his : ∀ i ∈ is, i.settles = false) :
    ∃ actions, s.queryCompilationResult = some actions ∧
      match truthyName s.latestName with
      | none => s.step host (.answer a) = (s.finishLoad host k actions, [.called .listCompilationResults])
      | some _ => ∃ t, s.run host (.answer a :: is ++ [.answer b]) =
          (t, [.called .listCompilationResults, .called .queryCompilationResultActions]) ∧
          t.pc = (s.finishLoad host k actions).pc ∧ t.resource = (s.finishLoad host k actions).resource := by
  unfold Sys.queryCompilationResult
  cases hn : truthyName s.latestName with
  | none => exact ⟨[], rfl, Sys.step_answer_loadList_none host hpc hn⟩
  | some n =>
    obtain ⟨R, hR, rfl, -⟩ := Sys.latestName_mem hn
    obtain ⟨hobs, hpc₂, hres, hsub⟩ :=
      Sys.run_unsettled host { s with pc := .loadQuery k R.result.name } (by simp) is his
    have hq := Service.queryCompilationResultActions_mem (hsub R hR)
    refine ⟨R.actions, Service.queryCompilationResultActions_mem hR, ?_⟩
    rw [Sys.run_append, Sys.run_cons host s, Sys.step_answer_loadList host hpc hn]
    simp only [hobs, Sys.run_cons, Sys.run_nil, Sys.step_answer_loadQuery host hpc₂ hq]
    exact ⟨_, rfl, rfl, by simp [hres]⟩

/-- An eager instance on `main` whose asset loader has created `r1`: it is about to list. -/
def eagerAssetsListing : Sys :=
  ((Sys.init mainService analyticsRepository "main" 1440 false).run Host.acceptAll [.answer "r1"]).1

theorem eager_loader_linearizable_main :
    eagerAssetsListing.pc = .loadList .assets ∧
      (∀ i ∈ [Input.other (.createCompilationResult "ci" { gitCommitish := "main" } [salesCustomers])],
        i.settles = false) ∧
      ∃ actions, eagerAssetsListing.queryCompilationResult = some actions ∧
        match truthyName eagerAssetsListing.latestName with
        | none => eagerAssetsListing.step Host.acceptAll (.answer "x") =
            (eagerAssetsListing.finishLoad Host.acceptAll .assets actions, [.called .listCompilationResults])
        | some _ => ∃ t, eagerAssetsListing.run Host.acceptAll
              (.answer "x" :: [Input.other (.createCompilationResult "ci" { gitCommitish := "main" }
                [salesCustomers])] ++ [.answer "x"]) =
            (t, [.called .listCompilationResults, .called .queryCompilationResultActions]) ∧
            t.pc = (eagerAssetsListing.finishLoad Host.acceptAll .assets actions).pc ∧
            t.resource = (eagerAssetsListing.finishLoad Host.acceptAll .assets actions).resource :=
  ⟨rfl, by decide, eager_loader_linearizable Host.acceptAll rfl "x" "x" (by decide)⟩

end DagsterDataform
