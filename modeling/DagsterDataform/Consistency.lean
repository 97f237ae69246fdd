import DagsterDataform.Catalog

/-!
# One compilation per catalogue while the branch is quiet

An instance builds its two properties at different times, and between them
other clients may compile the instance's environment or move its branch; the
two are then built from different compilations (`eager_catalog_mixes_results`,
and the same holds for the lazy getters). This module states what the code
guarantees when other clients leave the environment alone during a run.

Only another client's call or the instance's own create changes the service
(`Sys.step_service`). A call that compiles nothing for the environment cannot
put a new match before the one the lookup selects; it can only push results
down the page of 1000 the lookup reads, so the lookup then finds the same name
or none (`Service.serve_latest`). `Sys.Quiet` (lazy) and `Sys.QuietLoad`
(eager) collect what such a run keeps relative to its first state, and every
step keeps them.

Results:
* `lazy_catalog_one_result`: from a lazy instance at rest, in a run whose
  other clients compile nothing for its environment, every cell the run fills
  holds what the getter builds from the result the lookup selects at the
  start; when that lookup finds no name, the run fills no cell.
* `eager_catalog_one_compilation`: from the construction of an eager
  instance, in a run whose other clients neither compile its environment nor
  move that branch, each property is built from what compiling the branch
  yields at the start, or from no actions at the step where its loader listed
  in a state whose lookup found no name (its own result pushed off the page);
  when the branch is unknown, no property is built. The run is split at the
  step that fills each cell (`Sys.run_fills`), and `Sys.QuietLoad` holds in
  the state before it.
-/
namespace DagsterDataform

/-- An input by which another client compiles `environment`. -/
def Input.compilesFor (environment : String) : Input → Bool
  | .other c => c.compilesFor environment
  | _ => false

/-- An input by which another client moves the branch `environment`. -/
def Input.movesBranch (environment : String) : Input → Bool
  | .other c => c.movesBranch environment
  | _ => false

/-! ## One step -/

theorem Moves.latestName {host : Host} {s s' : Sys} {obs : List Obs} (hm : Moves host s s' obs)
    (hsvc : s'.service = s.service) : s'.latestName = s.latestName := by
  rcases hm.frame with h | ⟨k, v, -, h⟩ <;>
    simp only [Sys.latestName, hsvc, h, Resource.set_environment, Resource.set_repository]

/-- The name a step leaves pending is the one pending before, or one its lookup found. -/
theorem Moves.queryName {host : Host} {s s' : Sys} {obs : List Obs} (hm : Moves host s s' obs)
    {n : String} (h : s'.pc.queryName = some n) :
    s.pc.queryName = some n ∨ truthyName s.latestName = some n := by
  cases hm with
  | stay | serve | hit => exact .inl h
  | toLoadQuery _ _ _ hn | toFetchQuery _ _ _ hn => cases h; exact .inr hn
  | loadEmpty k | loaded k => cases k <;> cases h
  | raise => cases hf : s.pc.fetching <;> simp [hf, Pc.queryName] at h
  | _ => cases h

/-- A step that leaves the service reaches `loadList` only from `loadList`. -/
theorem Moves.pc_loadList {host : Host} {s s' : Sys} {obs : List Obs} (hm : Moves host s s' obs)
    (hsvc : s'.service = s.service) {k : Artifact} (h : s'.pc = .loadList k) : s.pc = .loadList k := by
  cases hm with
  | stay | serve | hit => exact h
  | created _ name hn _ _ _ hc =>
    obtain ⟨actions, -, he⟩ := Option.map_eq_some'.mp hc
    cases he
    exact (Service.store_ne s.service name hn _ actions hsvc).elim
  | loadEmpty k' | loaded k' => cases k' <;> cases h
  | raise => cases hf : s.pc.fetching <;> simp [hf] at h
  | _ => cases h

/-- A step reaches `loadQuery k n` only from there, or from `loadList k` with a
lookup that found `n`. -/
theorem Moves.pc_loadQuery {host : Host} {s s' : Sys} {obs : List Obs} (hm : Moves host s s' obs)
    {k : Artifact} {n : String} (h : s'.pc = .loadQuery k n) :
    s.pc = .loadQuery k n ∨ s.pc = .loadList k ∧ truthyName s.latestName = some n := by
  cases hm with
  | stay | serve | hit => exact .inl h
  | toLoadQuery _ _ hpc hn => cases h; exact .inr ⟨hpc, hn⟩
  | loadEmpty k' | loaded k' => cases k' <;> cases h
  | raise => cases hf : s.pc.fetching <;> simp [hf] at h
  | _ => cases h

/-- Another client's call that compiles nothing for the environment leaves the
lookup's truthy answer, or makes it find nothing. -/
theorem Sys.latestName_serve (host : Host) (t : Sys) {c : OtherClient}
    (hc : c.compilesFor t.resource.environment = false) :
    truthyName (t.step host (.other c)).1.latestName = none ∨
      truthyName (t.step host (.other c)).1.latestName = truthyName t.latestName := by
  rcases Service.serve_latest t.service hc (listCompilationResultsRequest t.resource.repository)
    with h | h
  · exact .inl (by rw [show (t.step host (.other c)).1.latestName = none from h]; rfl)
  · exact .inr (congrArg truthyName h)

/-! ## Lazy instances -/

/-- What a run of a lazy instance from `s` keeps while no other client
compiles the instance's environment. -/
structure Sys.Quiet (host : Host) (s t : Sys) : Prop where
  inv : t.Inv host
  skip : t.resource.skipCompilation = true
  environment : t.resource.environment = s.resource.environment
  fetchBuild : t.resource.fetchBuild host = s.resource.fetchBuild host
  results : ∀ R ∈ s.service.compilationResults, R ∈ t.service.compilationResults
  /-- The lookup finds what it found in `s`, or nothing. -/
  lookup : truthyName t.latestName = none ∨ truthyName t.latestName = truthyName s.latestName
  pending : ∀ n, t.pc.queryName = some n → truthyName s.latestName = some n
  /-- A cell empty in `s` holds only what the getter builds from the result the
  lookup selects in `s`. -/
  cells : ∀ k v, s.resource.cell k = none → t.resource.cell k = some v →
    ∃ R ∈ s.service.compilationResults, truthyName s.latestName = some R.result.name ∧
      v = s.resource.fetchBuild host k R.result.name R.actions

theorem Sys.Quiet.init {host : Host} {s : Sys} (hs : Reachable host s)
    (hskip : s.resource.skipCompilation = true) (hpc : s.pc = .idle) : Sys.Quiet host s s where
  inv := reachable_inv hs
  skip := hskip
  environment := rfl
  fetchBuild := rfl
  results _ hR := hR
  lookup := .inr rfl
  pending n h := by simp [hpc, Pc.queryName] at h
  cells _ _ hn hv := by simp [hn] at hv

/-- A step of the instance, or any step that leaves the service, keeps `Sys.Quiet`. -/
theorem Sys.Quiet.moves {host : Host} {s t t' : Sys} {obs : List Obs} (hq : Sys.Quiet host s t)
    (hm : Moves host t t' obs) (hsvc : t'.service = t.service) : Sys.Quiet host s t' := by
  refine ⟨hq.inv.moves hm, hm.skipCompilation.trans hq.skip, hm.builds.1.trans hq.environment,
    hm.builds.2.2.trans hq.fetchBuild, fun R hR => hm.mem_compilationResults (hq.results R hR),
    hm.latestName hsvc ▸ hq.lookup, fun n h => ?_, fun k v hn hv => ?_⟩
  · rcases hm.queryName h with h | h
    · exact hq.pending n h
    · exact (hq.lookup.resolve_left (by simp [h])).symm.trans h
  · cases hm with
    | fetched k' n actions hpc hqa =>
      by_cases hk : k = k'
      · subst hk
        obtain ⟨R, hR, rfl, -⟩ := Sys.latestName_mem (hq.pending n (by rw [hpc]; rfl))
        obtain rfl := Service.queryCompilationResultActions_of_mem (hq.results R hR) hqa
        refine ⟨R, hR, hq.pending _ (by rw [hpc]; rfl), ?_⟩
        simpa [hq.fetchBuild] using hv.symm
      · exact hq.cells k v hn (by simpa [Resource.cell_set_of_ne _ _ hk] using hv)
    | loadEmpty _ hpc | loaded _ _ _ hpc =>
      have h := hq.inv.shape
      simp [Sys.Shape, hpc, hq.skip] at h
    | _ => exact hq.cells k v hn hv

/-- Another client's call that compiles nothing for the environment keeps `Sys.Quiet`. -/
theorem Sys.Quiet.serve {host : Host} {s t : Sys} (hq : Sys.Quiet host s t) {c : OtherClient}
    (hc : c.compilesFor s.resource.environment = false) : Sys.Quiet host s (t.step host (.other c)).1 := by
  refine ⟨hq.inv.moves (step_moves host t _), hq.skip, hq.environment, hq.fetchBuild,
    fun R hR => Service.serve_mem c (hq.results R hR), ?_, hq.pending, hq.cells⟩
  rcases Sys.latestName_serve host t (hq.environment ▸ hc) with h | h
  · exact .inl h
  · exact h ▸ hq.lookup

theorem Sys.Quiet.step {host : Host} {s t : Sys} (hq : Sys.Quiet host s t) {i : Input}
    (hi : i.compilesFor s.resource.environment = false) : Sys.Quiet host s (t.step host i).1 := by
  by_cases ho : ∃ c, i = .other c
  · obtain ⟨c, rfl⟩ := ho
    exact hq.serve hi
  · rcases Sys.step_service host t i (fun c h => ho ⟨c, h⟩) with hsvc | ⟨k, -, -, -, -, hpc, -⟩
    · exact hq.moves (step_moves host t i) hsvc
    · have hshape := hq.inv.shape
      simp [Sys.Shape, hpc, hq.skip] at hshape

theorem Sys.Quiet.run {host : Host} {s t : Sys} (hq : Sys.Quiet host s t) {is : List Input}
    (hquiet : ∀ i ∈ is, i.compilesFor s.resource.environment = false) :
    Sys.Quiet host s (t.run host is).1 :=
  (Sys.run_preserves_on host _ (Sys.Quiet host s) (fun _ => True)
    (fun _ _ hi hq => ⟨hq.step hi, fun _ _ => trivial⟩) is t hquiet hq).1

/-- From a lazy instance at rest, in a run whose other clients compile nothing
for its environment: when the lookup at the start finds a name `n`, every cell
the run fills holds what the getter builds from the result named `n`, so both
properties come from that one result; when it finds none, the run fills no
cell. -/
theorem lazy_catalog_one_result {host : Host} {s : Sys} (hs : Reachable host s)
    (hskip : s.resource.skipCompilation = true) (hpc : s.pc = .idle) {is : List Input}
    (hquiet : ∀ i ∈ is, i.compilesFor s.resource.environment = false) :
    match truthyName s.latestName with
    | none => ∀ k, s.resource.cell k = none → (s.run host is).1.resource.cell k = none
    | some n => ∃ R ∈ s.service.compilationResults, R.result.name = n ∧
        ∀ k v, s.resource.cell k = none → (s.run host is).1.resource.cell k = some v →
          v = s.resource.fetchBuild host k n R.actions := by
  have hq := (Sys.Quiet.init hs hskip hpc).run hquiet
  cases hn : truthyName s.latestName with
  | none =>
    intro k hk
    cases hv : (s.run host is).1.resource.cell k with
    | none => rfl
    | some v =>
      obtain ⟨R, -, hR, -⟩ := hq.cells k v hk hv
      simp [hn] at hR
  | some n =>
    obtain ⟨R, hR, rfl, -⟩ := Sys.latestName_mem hn
    refine ⟨R, hR, rfl, fun k v hk hv => ?_⟩
    obtain ⟨R', hR', hn', rfl⟩ := hq.cells k v hk hv
    obtain rfl := Service.eq_of_name_eq hR hR' (Option.some.inj (hn.symm.trans hn'))
    rfl

/-- Both reads, with a client compiling `dev` and another moving `main` between them. -/
def quietReads : List Input :=
  [.read .assets, .other (.createCompilationResult "d1" { gitCommitish := "dev" } [salesCustomers]),
   .answer "x", .answer "x", .other (.updateBranch "main" [salesCustomers]),
   .read .assetChecks, .answer "x", .answer "x"]

theorem lazy_catalog_one_result_ci :
    Reachable Host.acceptAll lazyMain ∧ lazyMain.resource.skipCompilation = true ∧
      lazyMain.pc = .idle ∧ (∀ i ∈ quietReads, i.compilesFor lazyMain.resource.environment = false) ∧
      match truthyName lazyMain.latestName with
      | none => ∀ k, lazyMain.resource.cell k = none →
          (lazyMain.run Host.acceptAll quietReads).1.resource.cell k = none
      | some n => ∃ R ∈ lazyMain.service.compilationResults, R.result.name = n ∧
          ∀ k v, lazyMain.resource.cell k = none →
            (lazyMain.run Host.acceptAll quietReads).1.resource.cell k = some v →
              v = lazyMain.resource.fetchBuild Host.acceptAll k n R.actions :=
  have hs : Reachable Host.acceptAll lazyMain := .init _ _ _ _ _
  ⟨hs, rfl, rfl, by decide, lazy_catalog_one_result hs rfl rfl (by decide)⟩

/-! ## Eager instances -/

/-- What a run of an eager instance from `s` keeps while no other client
compiles its environment or moves that branch. -/
structure Sys.QuietLoad (host : Host) (s t : Sys) : Prop where
  inv : t.Inv host
  skip : t.resource.skipCompilation = false
  environment : t.resource.environment = s.resource.environment
  loadBuild : t.resource.loadBuild host = s.resource.loadBuild host
  branch : t.service.branches.lookup s.resource.environment =
    s.service.branches.lookup s.resource.environment
  /-- A loader that has created its result finds it when it lists, or nothing. -/
  listing : ∀ k, t.pc = .loadList k → ∃ R ∈ t.service.compilationResults,
    s.service.branches.lookup s.resource.environment = some R.actions ∧
      (truthyName t.latestName = none ∨ truthyName t.latestName = some R.result.name)
  /-- A loader about to query asks for a result compiled from the branch as it
  stood in `s`. -/
  querying : ∀ k n, t.pc = .loadQuery k n → ∃ R ∈ t.service.compilationResults,
    R.result.name = n ∧ s.service.branches.lookup s.resource.environment = some R.actions

theorem Sys.QuietLoad.init (host : Host) (service : Service) (repository : Repository)
    (environment : String) (lag : Float) :
    Sys.QuietLoad host (Sys.init service repository environment lag false)
      (Sys.init service repository environment lag false) where
  inv := Sys.Inv.init host service repository environment lag false
  skip := rfl
  environment := rfl
  loadBuild := rfl
  branch := rfl
  listing _ h := by simp [Sys.init] at h
  querying _ _ h := by simp [Sys.init] at h

/-- A step that leaves the service keeps `Sys.QuietLoad`. -/
theorem Sys.QuietLoad.moves {host : Host} {s t t' : Sys} {obs : List Obs} (hq : Sys.QuietLoad host s t)
    (hm : Moves host t t' obs) (hsvc : t'.service = t.service) : Sys.QuietLoad host s t' := by
  have hlatest := hm.latestName hsvc
  refine ⟨hq.inv.moves hm, hm.skipCompilation.trans hq.skip, hm.builds.1.trans hq.environment,
    hm.builds.2.1.trans hq.loadBuild, hsvc ▸ hq.branch, fun k h => ?_, fun k n h => ?_⟩
  · obtain ⟨R, hR, hb, hl⟩ := hq.listing k (hm.pc_loadList hsvc h)
    exact ⟨R, hsvc ▸ hR, hb, hlatest ▸ hl⟩
  · rcases hm.pc_loadQuery h with h | ⟨h, hn⟩
    · obtain ⟨R, hR, hR'⟩ := hq.querying k n h
      exact ⟨R, hsvc ▸ hR, hR'⟩
    · obtain ⟨R, hR, hb, hl⟩ := hq.listing k h
      have : R.result.name = n := Option.some.inj ((hl.resolve_left (by simp [hn])).symm.trans hn)
      exact ⟨R, hsvc ▸ hR, this, hb⟩

/-- The service creating the loader's result keeps `Sys.QuietLoad`: the result
is compiled from the branch as it stands, and the lookup finds it first. -/
theorem Sys.QuietLoad.created {host : Host} {s t : Sys} (hq : Sys.QuietLoad host s t) {k : Artifact}
    {name : String} {h : name ∉ t.service.names} {cr : CompilationResult} {service : Service}
    (hpc : t.pc = .loadCreate k)
    (hc : t.service.createCompilationResult
      (createCompilationResult t.resource.repository t.resource.environment) name h = some (cr, service)) :
    Sys.QuietLoad host s { t with service, pc := .loadList k } := by
  have hm : Moves host t _ _ := .created k name h cr service hpc hc
  obtain ⟨actions, hb, he⟩ := Option.map_eq_some'.mp hc
  cases he
  have hb' : s.service.branches.lookup s.resource.environment = some actions := by
    rw [← hq.branch, ← hq.environment]
    exact hb
  refine ⟨hq.inv.moves hm, hq.skip, hq.environment, hq.loadBuild, hq.branch,
    fun k' _ => ⟨_, List.mem_cons_self _ _, hb', ?_⟩, fun k' n h' => (by cases h')⟩
  simp [Sys.latestName, Service.store, Service.listCompilationResults, listCompilationResultsRequest,
    getLatestCompilationResultName, truthyName]
  exact em _

/-- Another client's call that neither compiles the environment nor moves its
branch keeps `Sys.QuietLoad`. -/
theorem Sys.QuietLoad.serve {host : Host} {s t : Sys} (hq : Sys.QuietLoad host s t) {c : OtherClient}
    (hc : c.compilesFor s.resource.environment = false) (hb : c.movesBranch s.resource.environment = false) :
    Sys.QuietLoad host s (t.step host (.other c)).1 := by
  have hlatest := Sys.latestName_serve host t (hq.environment ▸ hc)
  refine ⟨hq.inv.moves (step_moves host t _), hq.skip, hq.environment, hq.loadBuild,
    (Service.serve_branch t.service hb).trans hq.branch, fun k h => ?_, fun k n h => ?_⟩
  · obtain ⟨R, hR, hb', hl⟩ := hq.listing k h
    refine ⟨R, Service.serve_mem c hR, hb', ?_⟩
    rcases hlatest with h' | h'
    · exact .inl h'
    · exact h' ▸ hl
  · obtain ⟨R, hR, hR'⟩ := hq.querying k n h
    exact ⟨R, Service.serve_mem c hR, hR'⟩

theorem Sys.QuietLoad.step {host : Host} {s t : Sys} (hq : Sys.QuietLoad host s t) {i : Input}
    (hc : i.compilesFor s.resource.environment = false)
    (hb : i.movesBranch s.resource.environment = false) : Sys.QuietLoad host s (t.step host i).1 := by
  by_cases ho : ∃ c, i = .other c
  · obtain ⟨c, rfl⟩ := ho
    exact hq.serve hc hb
  · rcases Sys.step_service host t i (fun c h => ho ⟨c, h⟩) with hsvc | ⟨k, _, _, _, _, hpc, -, hcr, he⟩
    · exact hq.moves (step_moves host t i) hsvc
    · rw [he]
      exact hq.created hpc hcr

theorem Sys.QuietLoad.run {host : Host} {s t : Sys} (hq : Sys.QuietLoad host s t) {is : List Input}
    (hquiet : ∀ i ∈ is,
      i.compilesFor s.resource.environment = false ∧ i.movesBranch s.resource.environment = false) :
    Sys.QuietLoad host s (t.run host is).1 :=
  (Sys.run_preserves_on host _ (Sys.QuietLoad host s) (fun _ => True)
    (fun _ _ hi hq => ⟨hq.step hi.1 hi.2, fun _ _ => trivial⟩) is t hquiet hq).1

/-- A step from a quiet state that fills an empty cell builds it from what
compiling the branch yielded at the start, or from no actions when the loader
lists and its lookup finds no name. -/
theorem Sys.QuietLoad.fills {host : Host} {s t : Sys} (hq : Sys.QuietLoad host s t) (i : Input)
    {k : Artifact} {v : k.Val} (hk : t.resource.cell k = none)
    (hv : (t.step host i).1.resource.cell k = some v) :
    ∃ acts, s.service.branches.lookup s.resource.environment = some acts ∧
      (v = s.resource.loadBuild host k acts ∨
        t.pc = .loadList k ∧ truthyName t.latestName = none ∧ v = s.resource.loadBuild host k []) := by
  rcases (step_moves host t i).fills hk hv with
    ⟨n, actions, hpc, hqa, rfl⟩ | ⟨hpc, hn, rfl⟩ | ⟨n, actions, hpc, -, -⟩
  · obtain ⟨R, hR, rfl, hb⟩ := hq.querying k n hpc
    obtain rfl := Service.queryCompilationResultActions_of_mem hR hqa
    exact ⟨R.actions, hb, .inl (by rw [hq.loadBuild])⟩
  · obtain ⟨R, -, hb, -⟩ := hq.listing k hpc
    exact ⟨R.actions, hb, .inr ⟨hpc, hn, by rw [hq.loadBuild]⟩⟩
  · exact absurd (hq.skip.symm.trans (hq.inv.shape.skipCompilation_of_pc hpc rfl)) Bool.false_ne_true

/-- From the construction of an eager instance, in a run whose other clients
neither compile its environment nor move that branch: when compiling the
branch yields `acts`, each property the run builds is built from `acts`, or
from no actions at the step where its loader listed in a state whose lookup
found no name (its own result pushed off the page); when the branch is
unknown, no property is built. -/
theorem eager_catalog_one_compilation (host : Host) (service : Service) (repository : Repository)
    (environment : String) (lag : Float) {is : List Input}
    (hquiet : ∀ i ∈ is, i.compilesFor environment = false ∧ i.movesBranch environment = false) :
    let s₀ := Sys.init service repository environment lag false
    match service.branches.lookup environment with
    | none => ∀ k, (s₀.run host is).1.resource.cell k = none
    | some acts => ∀ k v, (s₀.run host is).1.resource.cell k = some v →
        v = s₀.resource.loadBuild host k acts ∨
          v = s₀.resource.loadBuild host k [] ∧
            ∃ is₁ i is₂, is = is₁ ++ i :: is₂ ∧ (s₀.run host is₁).1.pc = .loadList k ∧
              truthyName (s₀.run host is₁).1.latestName = none ∧
              ((s₀.run host is₁).1.step host i).1.resource.cell k = some v := by
  intro s₀
  have hq : ∀ is₁ is₂, is = is₁ ++ is₂ → Sys.QuietLoad host s₀ (s₀.run host is₁).1 := fun is₁ is₂ h =>
    (Sys.QuietLoad.init host service repository environment lag).run
      (fun i hi => hquiet i (h ▸ List.mem_append_left is₂ hi))
  have hshape := Sys.Shape.init service repository environment lag false
  have hnone : ∀ k, s₀.resource.cell k = none := fun k => by cases k <;> rfl
  cases hb : service.branches.lookup environment with
  | none =>
    intro k
    cases hv : (s₀.run host is).1.resource.cell k with
    | none => rfl
    | some v =>
      obtain ⟨is₁, i, is₂, his, hk, hv'⟩ := Sys.run_fills host is s₀ hshape (hnone k) hv
      obtain ⟨acts, hacts, -⟩ := (hq is₁ _ his).fills i hk hv'
      exact absurd (hb.symm.trans hacts) (by simp)
  | some acts =>
    intro k v hv
    obtain ⟨is₁, i, is₂, his, hk, hv'⟩ := Sys.run_fills host is s₀ hshape (hnone k) hv
    obtain ⟨acts', hacts', hv''⟩ := (hq is₁ _ his).fills i hk hv'
    obtain rfl : acts' = acts := Option.some.inj (hacts'.symm.trans hb)
    rcases hv'' with h | ⟨hpc, hn, h⟩
    · exact .inl h
    · exact .inr ⟨h, is₁, i, is₂, his, hpc, hn, hv'⟩

/-- `__init__` of an eager instance on `main`, while a client compiles `dev` and
another moves `dev`. -/
def quietInit : List Input :=
  [.answer "r1", .other (.createCompilationResult "d1" { gitCommitish := "dev" } [salesCustomers]),
   .answer "x", .answer "x", .other (.updateBranch "dev" [salesCustomers]),
   .answer "r2", .answer "x", .answer "x"]

theorem eager_catalog_one_compilation_main :
    (∀ i ∈ quietInit, i.compilesFor "main" = false ∧ i.movesBranch "main" = false) ∧
      let s₀ := Sys.init mainService analyticsRepository "main" 1440 false
      match mainService.branches.lookup "main" with
      | none => ∀ k, (s₀.run Host.acceptAll quietInit).1.resource.cell k = none
      | some acts => ∀ k v, (s₀.run Host.acceptAll quietInit).1.resource.cell k = some v →
          v = s₀.resource.loadBuild Host.acceptAll k acts ∨
            v = s₀.resource.loadBuild Host.acceptAll k [] ∧
              ∃ is₁ i is₂, quietInit = is₁ ++ i :: is₂ ∧
                (s₀.run Host.acceptAll is₁).1.pc = .loadList k ∧
                truthyName (s₀.run Host.acceptAll is₁).1.latestName = none ∧
                ((s₀.run Host.acceptAll is₁).1.step Host.acceptAll i).1.resource.cell k = some v :=
  ⟨by decide, eager_catalog_one_compilation Host.acceptAll mainService analyticsRepository "main" 1440
    (by decide)⟩

end DagsterDataform
