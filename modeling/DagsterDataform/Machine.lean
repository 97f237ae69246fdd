import DagsterDataform.Builder
import DagsterDataform.Resolver

/-!
# One resource instance against a shared Dataform repository

An instance of `DataformRepositoryResource` talks to a Dataform repository
that other clients use at the same time. Each remote call is one atomic step
of the service; between any two of them other clients may create compilation
results (for any branch, with any table prefix and any actions) and move
branches.

**Service.** `Service` keeps compilation results newest first, each with the
actions its compilation produced, and what compiling each branch yields now.
It names every result it creates with a name no other result has, so names
stay pairwise distinct (`Service.names_nodup`).

**Instance.** `Resource` holds the attributes the modelled methods read and
write (`_assets`, `_asset_checks`); `Pc` is where its code stands between two
remote calls:
* eager construction (`skip_compilation=False`, resources.py:38-42): for the
  assets, then for the checks, `load_dataform_*` creates a compilation result
  and discards the response (`loadCreate`), lists (`loadList`) and queries the
  name it found (`loadQuery`); `query_compilation_result` yields no actions
  when it finds no name;
* a read of `assets` or `asset_checks` on a lazy instance whose cell is `None`
  (resources.py:44-105): list (`fetchList`), raise when no name is found,
  query it (`fetchQuery`), store what was built.

**Runs.** `Sys.step` takes one `Input`, the scheduler's choice: another
client's call, a read by the caller, the service answering the pending call
(`name` is the name it gives a result it creates), or that call failing
(`RemoteServiceError`). It returns the next state and what the caller sees:
the remote calls made, the values returned and the exceptions raised.
`Reachable` holds of every state some sequence of inputs reaches, from any
service, in either mode.

**Assumptions.**
* A query answers with all of a result's actions at once
  (`Service.queryCompilationResultActions`): the code reads
  `response.compilation_result_actions`, the first page of the pager, so a
  result whose actions fill more than one page is out of the model.
* The instance is single-threaded and its caller serializes reads: a read that
  arrives while a remote call is pending is dropped (`Sys.step`). A second
  thread reading during a first load is out of the model.
-/
namespace DagsterDataform

/-! ## The service -/

/-- A compilation result as the service keeps it. -/
structure Stored where
  result : CompilationResult
  actions : List CompilationResultAction
  deriving DecidableEq, Repr

/-- The repository as the service holds it. -/
structure Service where
  /-- Newest first, the order `order_by="create_time desc"` asks for. -/
  compilationResults : List Stored
  /-- What compiling each git commitish yields now. -/
  branches : List (String × List CompilationResultAction)
  names_nodup : (compilationResults.map (·.result.name)).Nodup

def Service.names (svc : Service) : List String := svc.compilationResults.map (·.result.name)

/-- The service keeps a new compilation result under `name`, a name no other
result has. -/
def Service.store (svc : Service) (name : String) (fresh : name ∉ svc.names)
    (cr : CompilationResult) (actions : List CompilationResultAction) : Service where
  compilationResults := ⟨{ cr with name }, actions⟩ :: svc.compilationResults
  branches := svc.branches
  names_nodup := List.nodup_cons.mpr ⟨fresh, svc.names_nodup⟩

@[simp] theorem Service.names_store (svc : Service) (name : String) (h : name ∉ svc.names)
    (cr : CompilationResult) (actions : List CompilationResultAction) :
    (svc.store name h cr actions).names = name :: svc.names := rfl

theorem Service.store_ne (svc : Service) (name : String) (h : name ∉ svc.names)
    (cr : CompilationResult) (actions : List CompilationResultAction) :
    svc.store name h cr actions ≠ svc := fun he => by
  have := congrArg (fun v => v.compilationResults.length) he
  simp [Service.store] at this

/-- `CreateCompilationResult`, the service naming the result `name`: it compiles
the requested commitish as its branch stands; `none` when it does not know the
commitish and rejects the request. -/
def Service.createCompilationResult (svc : Service) (request : CreateCompilationResultRequest)
    (name : String) (fresh : name ∉ svc.names) : Option (CompilationResult × Service) :=
  (svc.branches.lookup request.compilationResult.gitCommitish).map fun actions =>
    ({ request.compilationResult with name }, svc.store name fresh request.compilationResult actions)

/-- `ListCompilationResults`: the first `page_size` results, newest first. -/
def Service.listCompilationResults (svc : Service) (request : ListCompilationResultsRequest) :
    List CompilationResult :=
  (svc.compilationResults.take request.pageSize).map (·.result)

/-- `QueryCompilationResultActions`: the actions of the result of that name;
`none` is NOT_FOUND. -/
def Service.queryCompilationResultActions (svc : Service)
    (request : QueryCompilationResultActionsRequest) : Option (List CompilationResultAction) :=
  (svc.compilationResults.find? (·.result.name == request.name)).map (·.actions)

/-- A call of another client of the repository. -/
inductive OtherClient where
  | createCompilationResult (name : String) (result : CompilationResult)
      (actions : List CompilationResultAction)
  | updateBranch (gitCommitish : String) (actions : List CompilationResultAction)
  deriving DecidableEq, Repr

def Service.serve (svc : Service) : OtherClient → Service
  | .createCompilationResult name cr actions =>
    if h : name ∈ svc.names then svc else svc.store name h cr actions
  | .updateBranch gitCommitish actions => { svc with branches := (gitCommitish, actions) :: svc.branches }

/-- Whether another client's call creates a result the lookup in `environment`
accepts. -/
def OtherClient.compilesFor (environment : String) : OtherClient → Bool
  | .createCompilationResult _ cr _ => matchesEnvironment environment cr
  | .updateBranch _ _ => false

/-- Whether another client's call moves the branch `gitCommitish`. -/
def OtherClient.movesBranch (gitCommitish : String) : OtherClient → Bool
  | .updateBranch g _ => g == gitCommitish
  | .createCompilationResult _ _ _ => false

theorem Service.store_mem {svc : Service} {name : String} {h : name ∉ svc.names}
    {cr : CompilationResult} {actions : List CompilationResultAction} {R : Stored}
    (hR : R ∈ svc.compilationResults) : R ∈ (svc.store name h cr actions).compilationResults :=
  List.mem_cons_of_mem _ hR

theorem Service.serve_mem {svc : Service} (c : OtherClient) {R : Stored}
    (hR : R ∈ svc.compilationResults) : R ∈ (svc.serve c).compilationResults := by
  cases c with
  | createCompilationResult name cr actions =>
    by_cases h : name ∈ svc.names
    · simpa only [Service.serve, dif_pos h] using hR
    · simpa only [Service.serve, dif_neg h] using Service.store_mem hR
  | updateBranch => exact hR

/-- A call that compiles nothing for `environment` leaves the lookup's answer as
it is, or makes it find nothing: the result it stores first can push the
answer off the listed page. -/
theorem Service.serve_latest (svc : Service) {environment : String} {c : OtherClient}
    (hc : c.compilesFor environment = false) (request : ListCompilationResultsRequest) :
    getLatestCompilationResultName environment ((svc.serve c).listCompilationResults request) = none ∨
      getLatestCompilationResultName environment ((svc.serve c).listCompilationResults request) =
        getLatestCompilationResultName environment (svc.listCompilationResults request) := by
  cases c with
  | updateBranch => exact .inr rfl
  | createCompilationResult name cr actions =>
    by_cases h : name ∈ svc.names
    · simp only [Service.serve, dif_pos h, or_true]
    · simp only [OtherClient.compilesFor] at hc
      simp only [Service.serve, dif_neg h, Service.store, Service.listCompilationResults]
      cases request.pageSize with
      | zero => exact .inl rfl
      | succ p =>
        simp only [List.take_succ_cons, List.map_cons, getLatestCompilationResultName,
          matchesEnvironment_with_name, hc, Bool.false_eq_true, if_false]
        rw [List.take_succ, List.map_append]
        exact getLatestCompilationResultName_append _ _ _

/-- A call that does not move the branch leaves what compiling it yields. -/
theorem Service.serve_branch (svc : Service) {g : String} {c : OtherClient}
    (hc : c.movesBranch g = false) : (svc.serve c).branches.lookup g = svc.branches.lookup g := by
  cases c with
  | createCompilationResult name cr actions =>
    by_cases h : name ∈ svc.names
    · simp only [Service.serve, dif_pos h]
    · simp only [Service.serve, dif_neg h, Service.store]
  | updateBranch g' acts =>
    have hne : (g == g') = false := by
      simp only [OtherClient.movesBranch, beq_eq_false_iff_ne] at hc ⊢
      exact Ne.symm hc
    simp only [Service.serve, List.lookup_cons, hne]

theorem Service.createCompilationResult_mem {svc svc' : Service}
    {request : CreateCompilationResultRequest} {name : String} {h : name ∉ svc.names}
    {cr : CompilationResult} (hc : svc.createCompilationResult request name h = some (cr, svc'))
    {R : Stored} (hR : R ∈ svc.compilationResults) : R ∈ svc'.compilationResults := by
  obtain ⟨actions, -, he⟩ := Option.map_eq_some'.mp hc
  cases he
  exact Service.store_mem hR

theorem Service.mem_listCompilationResults {svc : Service} {request : ListCompilationResultsRequest}
    {cr : CompilationResult} (h : cr ∈ svc.listCompilationResults request) :
    ∃ R ∈ svc.compilationResults, R.result = cr := by
  obtain ⟨R, hR, rfl⟩ := List.mem_map.mp h
  exact ⟨R, List.mem_of_mem_take hR, rfl⟩

theorem Service.queryCompilationResultActions_eq_some {svc : Service} {name : String}
    {actions : List CompilationResultAction}
    (h : svc.queryCompilationResultActions ⟨name⟩ = some actions) :
    ∃ R ∈ svc.compilationResults, R.result.name = name ∧ R.actions = actions := by
  obtain ⟨R, hf, rfl⟩ := Option.map_eq_some'.mp h
  exact ⟨R, List.mem_of_find?_eq_some hf, by simpa using List.find?_some hf, rfl⟩

theorem Service.queryCompilationResultActions_store (svc : Service) (name : String)
    (h : name ∉ svc.names) (cr : CompilationResult) (actions : List CompilationResultAction) :
    (svc.store name h cr actions).queryCompilationResultActions ⟨name⟩ = some actions := by
  simp [Service.queryCompilationResultActions, Service.store]

theorem Service.eq_of_name_eq {svc : Service} {R R' : Stored} (hR : R ∈ svc.compilationResults)
    (hR' : R' ∈ svc.compilationResults) (h : R.result.name = R'.result.name) : R = R' :=
  List.inj_on_of_nodup_map svc.names_nodup hR hR' h

/-- The name of a result the service holds is found, with that result's actions. -/
theorem Service.queryCompilationResultActions_mem {svc : Service} {R : Stored}
    (hR : R ∈ svc.compilationResults) :
    svc.queryCompilationResultActions ⟨R.result.name⟩ = some R.actions := by
  obtain ⟨R', hf⟩ := Option.isSome_iff_exists.mp
    (List.find?_isSome.mpr ⟨R, hR, by simp⟩ :
      (svc.compilationResults.find? (·.result.name == R.result.name)).isSome)
  have hn : R'.result.name = R.result.name := by simpa using List.find?_some hf
  rw [Service.queryCompilationResultActions, hf,
    Service.eq_of_name_eq (List.mem_of_find?_eq_some hf) hR hn]
  rfl

theorem Service.queryCompilationResultActions_of_mem {svc : Service} {R : Stored}
    (hR : R ∈ svc.compilationResults) {actions : List CompilationResultAction}
    (h : svc.queryCompilationResultActions ⟨R.result.name⟩ = some actions) : actions = R.actions :=
  Option.some.inj (h.symm.trans (Service.queryCompilationResultActions_mem hR))

/-! ## The instance -/

/-- The two memoised properties. -/
inductive Artifact where
  | assets
  | assetChecks
  deriving DecidableEq, Repr

/-- What reading the property returns. -/
abbrev Artifact.Val : Artifact → Type
  | .assets => List AssetSpec
  | .assetChecks => List AssetCheck

/-- The `[]` a getter returns for a `None` cell. -/
def Artifact.empty : (k : Artifact) → k.Val
  | .assets => []
  | .assetChecks => []

/-- The attributes of an instance the modelled methods read and write. -/
structure Resource where
  repository : Repository
  environment : String
  assetFreshPolicyLagMinutes : Float
  skipCompilation : Bool
  /-- `_assets` -/
  assets : Option (List AssetSpec)
  /-- `_asset_checks` -/
  assetChecks : Option (List AssetCheck)

/-- The cell behind property `k`. -/
def Resource.cell (r : Resource) : (k : Artifact) → Option k.Val
  | .assets => r.assets
  | .assetChecks => r.assetChecks

/-- The property setters (resources.py:53-56, 70-73). -/
def Resource.set (r : Resource) : (k : Artifact) → k.Val → Resource
  | .assets, v => { r with assets := some v }
  | .assetChecks, v => { r with assetChecks := some v }

@[simp] theorem Resource.cell_set_self (r : Resource) (k : Artifact) (v : k.Val) :
    (r.set k v).cell k = some v := by
  cases k <;> rfl

@[simp] theorem Resource.cell_set_of_ne (r : Resource) {k k' : Artifact} (v : k.Val) (h : k' ≠ k) :
    (r.set k v).cell k' = r.cell k' := by
  cases k <;> cases k' <;> first | rfl | exact absurd rfl h

theorem Resource.set_fills {r : Resource} {k k' : Artifact} {w : k'.Val} {v : k.Val}
    (hk : r.cell k = none) (hv : (r.set k' w).cell k = some v) : k' = k := by
  by_contra hne
  rw [Resource.cell_set_of_ne _ _ (Ne.symm hne), hk] at hv
  cases hv

@[simp] theorem Resource.set_skipCompilation (r : Resource) (k : Artifact) (v : k.Val) :
    (r.set k v).skipCompilation = r.skipCompilation := by
  cases k <;> rfl

@[simp] theorem Resource.set_environment (r : Resource) (k : Artifact) (v : k.Val) :
    (r.set k v).environment = r.environment := by
  cases k <;> rfl

@[simp] theorem Resource.set_repository (r : Resource) (k : Artifact) (v : k.Val) :
    (r.set k v).repository = r.repository := by
  cases k <;> rfl

@[simp] theorem Resource.set_assetFreshPolicyLagMinutes (r : Resource) (k : Artifact) (v : k.Val) :
    (r.set k v).assetFreshPolicyLagMinutes = r.assetFreshPolicyLagMinutes := by
  cases k <;> rfl

/-- What `load_dataform_assets` (with `fresh_policy_lag_minutes =
asset_fresh_policy_lag_minutes`) and `load_dataform_asset_check_specs` build
from the actions they got. -/
def Resource.loadBuild (host : Host) (r : Resource) :
    (k : Artifact) → List CompilationResultAction → k.Val
  | .assets, actions => loadDataformAssetsLoop host r.assetFreshPolicyLagMinutes actions
  | .assetChecks, actions => loadDataformAssetCheckSpecsLoop host actions

/-- What the lazy getters build from the result they fetched:
`_fetch_latest_compilation` (resources.py:75-80) and resources.py:62-65. -/
def Resource.fetchBuild (host : Host) (r : Resource) :
    (k : Artifact) → String → List CompilationResultAction → k.Val
  | .assets, name, actions => processAssets host r.assetFreshPolicyLagMinutes actions (some name)
  | .assetChecks, _, actions => processAssetChecks host actions

@[simp] theorem Resource.loadBuild_set (host : Host) (r : Resource) (k : Artifact) (v : k.Val) :
    (r.set k v).loadBuild host = r.loadBuild host := by
  cases k <;> rfl

@[simp] theorem Resource.fetchBuild_set (host : Host) (r : Resource) (k : Artifact) (v : k.Val) :
    (r.set k v).fetchBuild host = r.fetchBuild host := by
  cases k <;> rfl

/-- Where the instance's code stands between two remote calls. -/
inductive Pc where
  | idle
  | loadCreate (k : Artifact)
  | loadList (k : Artifact)
  | loadQuery (k : Artifact) (name : String)
  | fetchList (k : Artifact)
  | fetchQuery (k : Artifact) (name : String)
  /-- `__init__` raised: there is no instance. -/
  | failed
  deriving DecidableEq, Repr

/-- The remote calls the instance makes. -/
inductive Rpc where
  | createCompilationResult
  | listCompilationResults
  | queryCompilationResultActions
  deriving DecidableEq, Repr

/-- The remote call the code at `pc` makes next. -/
def Pc.call : Pc → Option Rpc
  | .loadCreate _ => some .createCompilationResult
  | .loadList _ | .fetchList _ => some .listCompilationResults
  | .loadQuery _ _ | .fetchQuery _ _ => some .queryCompilationResultActions
  | .idle | .failed => none

/-- Whether the code at `pc` is inside a lazy getter rather than `__init__`. -/
def Pc.fetching : Pc → Bool
  | .fetchList _ | .fetchQuery _ _ => true
  | _ => false

/-- The property the code at `pc` is building. -/
def Pc.target : Pc → Option Artifact
  | .loadCreate k | .loadList k | .loadQuery k _ | .fetchList k | .fetchQuery k _ => some k
  | .idle | .failed => none


/-- An exception leaving a getter or `__init__`. -/
inductive Error where
  /-- A remote call failed (`RemoteServiceError`, NOT_FOUND, a rejected create). -/
  | remote (c : Rpc)
  /-- `raise Exception(error_msg)`. -/
  | exception (message : String)
  deriving DecidableEq, Repr

/-- What the caller of the instance sees. -/
inductive Obs where
  | called (c : Rpc)
  | returned (k : Artifact) (v : k.Val)
  | raised (e : Error)

/-- The message of resources.py:86-90. -/
def noCompilationMessage (environment : String) : String :=
  "No existing compilation result found for branch '" ++ environment ++
    "'. Since 'skip_compilation=True', a valid compilation must already exist in GCP " ++
    "(created by CI/CD or an external process)."

/-- The instance, the service, and where the instance's code stands. -/
structure Sys where
  service : Service
  resource : Resource
  pc : Pc

/-- The scheduler's choices. -/
inductive Input where
  | other (c : OtherClient)
  | read (k : Artifact)
  | answer (name : String)
  | fail
  deriving DecidableEq, Repr

/-- The name `get_latest_compilation_result_name` finds in the listing the
service gives now. -/
def Sys.latestName (s : Sys) : Option String :=
  getLatestCompilationResultName s.resource.environment
    (s.service.listCompilationResults (listCompilationResultsRequest s.resource.repository))

@[simp] theorem Sys.latestName_with_pc (s : Sys) (pc : Pc) :
    ({ s with pc } : Sys).latestName = s.latestName := rfl

/-- A loader of `__init__` ends: `self.assets = ...` (or `self.asset_checks`),
then the next loader. -/
def Sys.finishLoad (host : Host) (s : Sys) (k : Artifact) (actions : List CompilationResultAction) :
    Sys where
  service := s.service
  resource := s.resource.set k (s.resource.loadBuild host k actions)
  pc := match k with
    | .assets => .loadCreate .assetChecks
    | .assetChecks => .idle

@[simp] theorem Sys.finishLoad_service (host : Host) (s : Sys) (k : Artifact)
    (actions : List CompilationResultAction) : (s.finishLoad host k actions).service = s.service := rfl

@[simp] theorem Sys.finishLoad_resource (host : Host) (s : Sys) (k : Artifact)
    (actions : List CompilationResultAction) :
    (s.finishLoad host k actions).resource = s.resource.set k (s.resource.loadBuild host k actions) := rfl

/-- The service answers the pending call. -/
def Sys.answer (host : Host) (s : Sys) (name : String) : Sys × List Obs :=
  match s.pc with
  | .loadCreate k =>
    if h : name ∈ s.service.names then (s, [])
    else match s.service.createCompilationResult
        (createCompilationResult s.resource.repository s.resource.environment) name h with
      | some (_, service) => ({ s with service, pc := .loadList k }, [.called .createCompilationResult])
      | none => ({ s with pc := .failed },
          [.called .createCompilationResult, .raised (.remote .createCompilationResult)])
  | .loadList k =>
    match truthyName s.latestName with
    | some n => ({ s with pc := .loadQuery k n }, [.called .listCompilationResults])
    | none => (s.finishLoad host k [], [.called .listCompilationResults])
  | .loadQuery k n =>
    match s.service.queryCompilationResultActions ⟨n⟩ with
    | some actions => (s.finishLoad host k actions, [.called .queryCompilationResultActions])
    | none => ({ s with pc := .failed },
        [.called .queryCompilationResultActions, .raised (.remote .queryCompilationResultActions)])
  | .fetchList k =>
    match truthyName s.latestName with
    | some n => ({ s with pc := .fetchQuery k n }, [.called .listCompilationResults])
    | none => ({ s with pc := .idle }, [.called .listCompilationResults,
        .raised (.exception (noCompilationMessage s.resource.environment))])
  | .fetchQuery k n =>
    match s.service.queryCompilationResultActions ⟨n⟩ with
    | some actions =>
      ({ s with resource := s.resource.set k (s.resource.fetchBuild host k n actions), pc := .idle },
        [.called .queryCompilationResultActions, .returned k (s.resource.fetchBuild host k n actions)])
    | none => ({ s with pc := .idle },
        [.called .queryCompilationResultActions, .raised (.remote .queryCompilationResultActions)])
  | .idle | .failed => (s, [])

/-- The pending call fails: the exception leaves the getter, or `__init__`. -/
def Sys.fail (s : Sys) : Sys × List Obs :=
  match s.pc.call with
  | some c => ({ s with pc := if s.pc.fetching then .idle else .failed }, [.called c, .raised (.remote c)])
  | none => (s, [])

/-- One step of the system. A read that arrives while a remote call is pending
is dropped: the caller serializes its reads. -/
def Sys.step (host : Host) (s : Sys) : Input → Sys × List Obs
  | .other c => ({ s with service := s.service.serve c }, [])
  | .read k =>
    match s.pc with
    | .idle =>
      if s.resource.skipCompilation && (s.resource.cell k).isNone then ({ s with pc := .fetchList k }, [])
      else (s, [.returned k ((s.resource.cell k).getD k.empty)])
    | _ => (s, [])
  | .answer name => s.answer host name
  | .fail => s.fail

/-- The state and the observations after a sequence of inputs. -/
def Sys.run (host : Host) : Sys → List Input → Sys × List Obs
  | s, [] => (s, [])
  | s, i :: is =>
    (((s.step host i).1.run host is).1, (s.step host i).2 ++ ((s.step host i).1.run host is).2)

theorem Sys.run_nil (host : Host) (s : Sys) : s.run host [] = (s, []) := rfl

theorem Sys.run_cons (host : Host) (s : Sys) (i : Input) (is : List Input) :
    s.run host (i :: is) =
      (((s.step host i).1.run host is).1, (s.step host i).2 ++ ((s.step host i).1.run host is).2) := rfl

theorem Sys.run_append (host : Host) (s : Sys) (is js : List Input) :
    s.run host (is ++ js) =
      (((s.run host is).1.run host js).1, (s.run host is).2 ++ ((s.run host is).1.run host js).2) := by
  induction is generalizing s with
  | nil => simp [Sys.run]
  | cons i is ih => simp [Sys.run, ih]

/-- A predicate every step keeps holds after every run, and a property of the
observations of every such step holds of every observation of the run. -/
theorem Sys.run_preserves (host : Host) (P : Sys → Prop) (Q : Obs → Prop)
    (hstep : ∀ s i, P s → P (s.step host i).1 ∧ ∀ o ∈ (s.step host i).2, Q o) :
    ∀ is s, P s → P (s.run host is).1 ∧ ∀ o ∈ (s.run host is).2, Q o := by
  intro is
  induction is with
  | nil => exact fun s hs => ⟨hs, by simp [Sys.run]⟩
  | cons i is ih =>
    intro s hs
    obtain ⟨hs', hobs⟩ := hstep s i hs
    obtain ⟨hrun, hrobs⟩ := ih _ hs'
    refine ⟨hrun, fun o ho => ?_⟩
    rcases List.mem_append.mp ho with ho | ho
    exacts [hobs o ho, hrobs o ho]

/-- The instance as `__init__` leaves it (lazy) or as `__init__` starts loading (eager). -/
def Sys.init (service : Service) (repository : Repository) (environment : String)
    (assetFreshPolicyLagMinutes : Float) (skipCompilation : Bool) : Sys where
  service := service
  resource := { repository, environment, assetFreshPolicyLagMinutes, skipCompilation,
                assets := none, assetChecks := none }
  pc := if skipCompilation then .idle else .loadCreate .assets

/-- The states some run reaches, from any service and in either mode. -/
inductive Reachable (host : Host) : Sys → Prop
  | init (service : Service) (repository : Repository) (environment : String) (lag : Float)
      (skipCompilation : Bool) :
      Reachable host (Sys.init service repository environment lag skipCompilation)
  | step {s : Sys} (i : Input) : Reachable host s → Reachable host (s.step host i).1

/-- `Sys.run_preserves` for runs whose inputs all satisfy `A`. -/
theorem Sys.run_preserves_on (host : Host) (A : Input → Prop) (P : Sys → Prop) (Q : Obs → Prop)
    (hstep : ∀ s i, A i → P s → P (s.step host i).1 ∧ ∀ o ∈ (s.step host i).2, Q o) :
    ∀ is s, (∀ i ∈ is, A i) → P s → P (s.run host is).1 ∧ ∀ o ∈ (s.run host is).2, Q o := by
  intro is
  induction is with
  | nil => exact fun s _ hs => ⟨hs, by simp [Sys.run]⟩
  | cons i is ih =>
    intro s his hs
    obtain ⟨hs', hobs⟩ := hstep s i (his i (List.mem_cons_self i is)) hs
    obtain ⟨hrun, hrobs⟩ := ih _ (fun j hj => his j (List.mem_cons_of_mem i hj)) hs'
    refine ⟨hrun, fun o ho => ?_⟩
    rcases List.mem_append.mp ho with ho | ho
    exacts [hobs o ho, hrobs o ho]

/-- A potential `Φ` that pays for the observations `p` counts: if no step
whose input satisfies `A` makes more such observations than `Φ` drops, no run
of such inputs does. -/
theorem Sys.run_countP_le (host : Host) (A : Input → Prop) (P : Sys → Prop) (p : Obs → Bool)
    (Φ : Sys → Nat)
    (hstep : ∀ s i, A i → P s →
      P (s.step host i).1 ∧ (s.step host i).2.countP p + Φ (s.step host i).1 ≤ Φ s) :
    ∀ is s, (∀ i ∈ is, A i) → P s → (s.run host is).2.countP p + Φ (s.run host is).1 ≤ Φ s := by
  intro is
  induction is with
  | nil => exact fun s _ _ => by simp [Sys.run]
  | cons i is ih =>
    intro s his hs
    obtain ⟨hs', hle⟩ := hstep s i (his i (List.mem_cons_self i is)) hs
    have hrun := ih _ (fun j hj => his j (List.mem_cons_of_mem i hj)) hs'
    simp only [Sys.run, List.countP_append]
    omega

theorem Reachable.run {host : Host} {s : Sys} (h : Reachable host s) :
    ∀ is : List Input, Reachable host (s.run host is).1 := by
  intro is
  induction is generalizing s with
  | nil => exact h
  | cons i is ih => exact ih (h.step i)

end DagsterDataform
