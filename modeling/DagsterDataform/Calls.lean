import DagsterDataform.Linearization

/-!
# How many remote calls an instance makes

Each remote call the instance makes is paid for in advance by a potential on
the state, and no step makes more calls than the potential drops; so no run
does (`Sys.run_countP_le`).

* `__init__` of an eager instance runs two loaders, each with three calls
  (create, list, query); `Pc.callsLeft` is what is left of them from where the
  code stands. A failing call ends `__init__`, and an instance at rest calls
  nothing, so every run, whatever the service and other clients do, makes at
  most six calls (`eager_init_calls_at_most_six`). Conversely each answer at a
  pending call of `__init__`, with a name the service does not hold, makes
  that call, so `__init__` ends once the service has answered that many
  (`eager_init_ends`).
* A lazy instance never reaches a create: it reads compilations and never
  makes one (`lazy_instance_never_compiles`).
* In either mode a `QueryCompilationResultActions` whose call does not fail
  fills a cell that was `None`: the name it asks for is held by the service
  (`Sys.Inv.pending`). Without failures a run makes at most as many queries as
  there are empty cells, so at most two from construction on
  (`queries_fill_cells`). Listings are not bounded: a lazy read that finds no
  name raises and leaves its cell `None`, and the next read lists again.
-/
namespace DagsterDataform

/-- A remote call the caller sees. -/
def Obs.isCall : Obs → Bool
  | .called _ => true
  | _ => false

/-- A `QueryCompilationResultActions` call. -/
def Obs.isQuery : Obs → Bool
  | .called .queryCompilationResultActions => true
  | _ => false

theorem Obs.isQuery_iff {o : Obs} : o.isQuery = true ↔ o = .called .queryCompilationResultActions := by
  cases o with
  | called c => cases c <;> simp [Obs.isQuery]
  | _ => simp [Obs.isQuery]

/-! ## `__init__` -/

/-- The loaders `__init__` runs after the one for `k` (resources.py:38-42). -/
def Artifact.loadersAfter : Artifact → Nat
  | .assets => 1
  | .assetChecks => 0

/-- The remote calls `__init__` still makes from `pc`, three per loader. -/
def Pc.callsLeft : Pc → Nat
  | .loadCreate k => 3 + 3 * k.loadersAfter
  | .loadList k => 2 + 3 * k.loadersAfter
  | .loadQuery k _ => 1 + 3 * k.loadersAfter
  | .idle | .fetchList _ | .fetchQuery _ _ | .failed => 0

/-- On an eager instance each call of a step is paid for by `Pc.callsLeft`. -/
theorem Moves.calls_le {host : Host} {s s' : Sys} {obs : List Obs} (h : s.Shape)
    (hskip : s.resource.skipCompilation = false) (hm : Moves host s s' obs) :
    obs.countP Obs.isCall + s'.pc.callsLeft ≤ s.pc.callsLeft := by
  cases hm with
  | stay | serve | hit => simp [Obs.isCall]
  | start _ _ hs => simp [hs] at hskip
  | created k _ _ _ _ hpc | toLoadQuery k _ hpc => simp [hpc, Pc.callsLeft, Obs.isCall]; omega
  | loadEmpty k hpc | loaded k _ _ hpc =>
    cases k <;> simp [hpc, Sys.finishLoad, Pc.callsLeft, Obs.isCall, Artifact.loadersAfter]
  | toFetchQuery _ _ hpc | noName _ hpc | fetched _ _ _ hpc => simp [Sys.Shape, hpc, hskip] at h
  | raise c hc =>
    unfold Sys.Shape at h
    cases hpc : s.pc <;> simp_all [Pc.call, Pc.fetching, Pc.callsLeft, Obs.isCall] <;> omega

theorem Sys.Shape.callsLeft_eq_zero {s : Sys} (h : s.Shape) (hskip : s.resource.skipCompilation = false)
    (h0 : s.pc.callsLeft = 0) : s.pc = .idle ∨ s.pc = .failed := by
  unfold Sys.Shape at h
  cases hpc : s.pc <;> simp_all [Pc.callsLeft]

theorem Sys.step_answer_calls (host : Host) {s : Sys} {name : String} (hfresh : name ∉ s.service.names)
    (hpc : 0 < s.pc.callsLeft) : 0 < (s.step host (.answer name)).2.countP Obs.isCall := by
  cases hp : s.pc <;> simp only [hp, Pc.callsLeft, Nat.lt_irrefl] at hpc
  all_goals simp only [Sys.step, Sys.answer, hp, dif_neg hfresh]
  all_goals split <;> simp [Obs.isCall]

/-- The names of the service after an answer: the name it gave a new result, and those it held. -/
theorem Sys.names_step_answer (host : Host) (s : Sys) (name : String) {m : String}
    (hm : m ∈ (s.step host (.answer name)).1.service.names) : m = name ∨ m ∈ s.service.names := by
  rcases Sys.step_service host s (.answer name) (fun c h => by cases h) with
    h | ⟨k, n, hn, cr, svc, -, hi, hc, he⟩
  · exact .inr (h ▸ hm)
  · cases hi
    obtain ⟨actions, -, hsv⟩ := Option.map_eq_some'.mp hc
    cases hsv
    rw [he] at hm
    simpa using hm

/-- `__init__` ends: from any reachable state of an eager instance, once the
service has answered the instance's calls with as many pairwise distinct names
it does not hold as `Pc.callsLeft` counts, `__init__` has returned (the
instance is at rest) or raised. -/
theorem eager_init_ends {host : Host} {s : Sys} (hs : Reachable host s)
    (hskip : s.resource.skipCompilation = false) {names : List String} (hnodup : names.Nodup)
    (hfresh : ∀ n ∈ names, n ∉ s.service.names) (hlen : s.pc.callsLeft ≤ names.length) :
    (s.run host (names.map .answer)).1.pc = .idle ∨ (s.run host (names.map .answer)).1.pc = .failed := by
  induction names generalizing s with
  | nil => exact (reachable_inv hs).shape.callsLeft_eq_zero hskip (Nat.le_zero.mp hlen)
  | cons n ns ih =>
    obtain ⟨hn, hns⟩ := List.nodup_cons.mp hnodup
    have hm := step_moves host s (.answer n)
    have hshape := (reachable_inv hs).shape
    refine ih (hs.step _) (hm.skipCompilation.trans hskip) hns (fun m hm' hmem => ?_) ?_
    · rcases Sys.names_step_answer host s n hmem with rfl | h
      · exact hn hm'
      · exact hfresh m (List.mem_cons_of_mem n hm') h
    · have hle := hm.calls_le hshape hskip
      rcases Nat.eq_zero_or_pos s.pc.callsLeft with h0 | hpos
      · omega
      · have := Sys.step_answer_calls host (hfresh n (List.mem_cons_self n ns)) hpos
        simp only [List.length_cons] at hlen
        omega

/-- The six names the service gives or is asked for during `__init__`. -/
def initNames : List String := ["r1", "x1", "x2", "r2", "x3", "x4"]

theorem eager_init_ends_main :
    Reachable Host.acceptAll (Sys.init mainService analyticsRepository "main" 1440 false) ∧
      (Sys.init mainService analyticsRepository "main" 1440 false).resource.skipCompilation = false ∧
      initNames.Nodup ∧
      (∀ n ∈ initNames, n ∉ (Sys.init mainService analyticsRepository "main" 1440 false).service.names) ∧
      (Sys.init mainService analyticsRepository "main" 1440 false).pc.callsLeft ≤ initNames.length ∧
      (((Sys.init mainService analyticsRepository "main" 1440 false).run Host.acceptAll
          (initNames.map .answer)).1.pc = .idle ∨
        ((Sys.init mainService analyticsRepository "main" 1440 false).run Host.acceptAll
          (initNames.map .answer)).1.pc = .failed) :=
  have hs : Reachable Host.acceptAll (Sys.init mainService analyticsRepository "main" 1440 false) :=
    .init _ _ _ _ _
  ⟨hs, rfl, by decide, by decide, by decide, eager_init_ends hs rfl (by decide) (by decide) (by decide)⟩

/-! ## Lazy instances -/

theorem Sys.Shape.lazy_call {s : Sys} (h : s.Shape) (hskip : s.resource.skipCompilation = true)
    (hc : s.pc.call = some .createCompilationResult) : False := by
  unfold Sys.Shape at h
  cases hpc : s.pc <;> simp_all [Pc.call]

/-- An instance constructed with `skip_compilation=True` never calls
`CreateCompilationResult`, in any run. -/
theorem lazy_instance_never_compiles (host : Host) (service : Service) (repository : Repository)
    (environment : String) (lag : Float) (is : List Input) :
    Obs.called .createCompilationResult ∉
      ((Sys.init service repository environment lag true).run host is).2 := fun hmem =>
  (Sys.run_preserves host (fun s => s.Shape ∧ s.resource.skipCompilation = true)
    (· ≠ .called .createCompilationResult)
    (fun s i ⟨h, hskip⟩ => have hm := step_moves host s i
      ⟨⟨h.moves hm, hm.skipCompilation.trans hskip⟩,
        fun _ ho heq => h.lazy_call hskip (hm.called (heq ▸ ho))⟩)
    is _ ⟨Sys.Shape.init service repository environment lag true, rfl⟩).2 _ hmem rfl

/-! ## Queries -/

/-- The cells (`_assets`, `_asset_checks`) that are `None`. -/
def Resource.emptyCells (r : Resource) : Nat := r.assets.isNone.toNat + r.assetChecks.isNone.toNat

theorem Resource.emptyCells_set_le (r : Resource) (k : Artifact) (v : k.Val) :
    (r.set k v).emptyCells ≤ r.emptyCells := by
  cases k <;> simp [Resource.set, Resource.emptyCells]

theorem Resource.emptyCells_set_of_none {r : Resource} {k : Artifact} (hk : r.cell k = none) (v : k.Val) :
    (r.set k v).emptyCells + 1 = r.emptyCells := by
  cases k <;> simp_all [Resource.set, Resource.cell, Resource.emptyCells, Nat.add_comm]

theorem Moves.emptyCells_le {host : Host} {s s' : Sys} {obs : List Obs} (hm : Moves host s s' obs) :
    s'.resource.emptyCells ≤ s.resource.emptyCells := by
  rcases hm.frame with h | ⟨k, v, -, h⟩ <;> rw [h]
  exact Resource.emptyCells_set_le _ _ _

/-- A step that is not a failure and queries fills a cell that was `None`: the
queried name is held by the service, so the query succeeds. -/
theorem Sys.Inv.queries_le {host : Host} {s : Sys} (hi : s.Inv host) {i : Input} (hfail : i ≠ .fail) :
    (s.step host i).2.countP Obs.isQuery + (s.step host i).1.resource.emptyCells ≤
      s.resource.emptyCells := by
  have hm := step_moves host s i
  by_cases hq : Obs.called .queryCompilationResultActions ∈ (s.step host i).2
  · have hc := hm.called hq
    have hpcne : s.pc ≠ .idle := fun h => by simp [h, Pc.call] at hc
    obtain ⟨name, rfl⟩ : ∃ name, i = .answer name := by
      cases i with
      | answer name => exact ⟨name, rfl⟩
      | fail => exact absurd rfl hfail
      | other c => simp [(Sys.step_unsettled host hpcne (i := .other c) rfl).1] at hq
      | read k => simp [(Sys.step_unsettled host hpcne (i := .read k) rfl).1] at hq
    cases hpc : s.pc with
    | loadQuery k n =>
      obtain ⟨R, hR, rfl, -⟩ := hi.pending _ (by rw [hpc]; rfl)
      have hcell := hi.shape.target_none (k := k) (by rw [hpc]; rfl)
      have := Resource.emptyCells_set_of_none hcell (s.resource.loadBuild host k R.actions)
      rw [Sys.step_answer_loadQuery host hpc (Service.queryCompilationResultActions_mem hR)]
      simp [Obs.isQuery]; omega
    | fetchQuery k n =>
      obtain ⟨R, hR, rfl, -⟩ := hi.pending _ (by rw [hpc]; rfl)
      have hcell := hi.shape.target_none (k := k) (by rw [hpc]; rfl)
      have := Resource.emptyCells_set_of_none hcell (s.resource.fetchBuild host k R.result.name R.actions)
      rw [Sys.step_answer_fetchQuery host hpc (Service.queryCompilationResultActions_mem hR)]
      simp [Obs.isQuery]; omega
    | _ => simp [hpc, Pc.call] at hc
  · have h0 : (s.step host i).2.countP Obs.isQuery = 0 :=
      List.countP_eq_zero.mpr fun o ho hp => hq (Obs.isQuery_iff.mp hp ▸ ho)
    rw [h0, Nat.zero_add]
    exact hm.emptyCells_le

/-- From any reachable state, a run in which no remote call fails makes at
most as many queries as there are empty cells, and each fills one of them. -/
theorem queries_fill_cells {host : Host} {s : Sys} (hs : Reachable host s) {is : List Input}
    (hfail : Input.fail ∉ is) :
    (s.run host is).2.countP Obs.isQuery + (s.run host is).1.resource.emptyCells ≤
      s.resource.emptyCells :=
  Sys.run_countP_le host (· ≠ .fail) (·.Inv host) Obs.isQuery (·.resource.emptyCells)
    (fun s i hi hinv => ⟨hinv.moves (step_moves host s i), hinv.queries_le hi⟩) is s
    (fun _ hi h => hfail (h ▸ hi)) (reachable_inv hs)

theorem queries_fill_cells_ci :
    Reachable Host.acceptAll lazyAssetsRead ∧
      Input.fail ∉ [Input.read .assetChecks, .answer "x", .answer "x", .read .assets] ∧
      (lazyAssetsRead.run Host.acceptAll
          [.read .assetChecks, .answer "x", .answer "x", .read .assets]).2.countP Obs.isQuery +
        (lazyAssetsRead.run Host.acceptAll
          [.read .assetChecks, .answer "x", .answer "x", .read .assets]).1.resource.emptyCells ≤
        lazyAssetsRead.resource.emptyCells :=
  ⟨reachable_lazyAssetsRead, by decide, queries_fill_cells reachable_lazyAssetsRead (by decide)⟩

end DagsterDataform
