import DagsterDataform.Api

/-!
# The catalog builders

`resources.py` holds four copies of one loop: for each compilation action,
build a dagster value inside `try`, append it, and on an exception log and go
on (`tryEach`).

* `_process_assets` (the lazy path) and the loop of `load_dataform_assets`
  (the eager path) build one `dg.AssetSpec` per action. Neither tests what
  kind of action it has: an assertion, a declaration or an operations action
  gets a spec too, with the empty query, no tags and no dependencies of the
  empty `Relation` proto-plus hands out. The lazy copy adds a
  `dataform_compilation_result` metadata entry.
* `_process_asset_checks` and the loop of `load_dataform_asset_check_specs`
  build one check per action whose `assertion` is truthy. The eager copy opens
  its `try` with `logger.error(asset.assertion.dependency_targets[0].name)`.

Results:
* `tryEach_eq_filterMap`: the loop keeps, in input order, what each `try`
  built; so a raising action drops only itself (`tryEach_append`).
* `one_node_per_action`: `_process_assets` builds the spec of every action
  dagster accepts, `_process_asset_checks` the check of every truthy assertion
  dagster accepts, both in input order and piecewise over `xs ++ ys`.
* `loadDataformAssetsLoop_eq_erase`: the eager asset loop builds what
  `_process_assets` builds, less the `dataform_compilation_result` entry.
* `loadDataformAssetCheckSpecsLoop_eq`: the eager check loop builds what
  `_process_asset_checks` builds from the actions whose assertion has a
  dependency target; `eager_checks_drop_dependency_free_assertion` is an
  assertion the lazy path keeps and the eager path drops.
* `asset_keys_are_target_names`: keys, dependency keys and check keys are bare
  target names (`same_name_assets_share_key`: two tables of one name in two
  datasets get one key).
-/
namespace DagsterDataform

/-! ## The shared loop -/

/-- One turn of the loop: append what the `try` block built, if it did not raise. -/
def tryStep {α : Type} (body : CompilationResultAction → Option α) (built : List α)
    (a : CompilationResultAction) : List α :=
  match body a with
  | some x => built ++ [x]
  | none => built

/-- The `for asset in compilation_actions: try: ... except Exception: ...` loop
of all four builders: `body a` is what the `try` block builds from `a`, `none`
when it raises. -/
def tryEach {α : Type} (body : CompilationResultAction → Option α)
    (actions : List CompilationResultAction) : List α :=
  actions.foldl (tryStep body) []

theorem foldl_tryStep {α : Type} (body : CompilationResultAction → Option α) (built : List α)
    (actions : List CompilationResultAction) :
    actions.foldl (tryStep body) built = built ++ actions.filterMap body := by
  induction actions generalizing built with
  | nil => simp
  | cons a rest ih => cases h : body a <;> simp [tryStep, h, ih]

theorem tryEach_eq_filterMap {α : Type} (body : CompilationResultAction → Option α)
    (actions : List CompilationResultAction) : tryEach body actions = actions.filterMap body := by
  simp [tryEach, foldl_tryStep]

theorem tryEach_append {α : Type} (body : CompilationResultAction → Option α)
    (xs ys : List CompilationResultAction) :
    tryEach body (xs ++ ys) = tryEach body xs ++ tryEach body ys := by
  simp [tryEach_eq_filterMap]

theorem Host.filterMap_assetSpec (h : Host) (f : CompilationResultAction → AssetSpec)
    (actions : List CompilationResultAction) :
    actions.filterMap (fun a => h.assetSpec (f a)) = (actions.map f).filter h.acceptsSpec := by
  induction actions with
  | nil => rfl
  | cons a rest ih =>
    rw [List.filterMap_cons, ih]
    by_cases hs : h.acceptsSpec (f a) <;> simp [Host.assetSpec, hs]

theorem Host.filterMap_assetCheck (h : Host) (p : CompilationResultAction → Bool)
    (f : CompilationResultAction → AssetCheck) (actions : List CompilationResultAction) :
    actions.filterMap (fun a => if p a then h.assetCheck (f a) else none) =
      ((actions.filter p).map f).filter h.acceptsCheck := by
  induction actions with
  | nil => rfl
  | cons a rest ih =>
    rw [List.filterMap_cons, ih]
    by_cases hp : p a
    · by_cases hc : h.acceptsCheck (f a) <;> simp [Host.assetCheck, hp, hc]
    · simp [hp]

/-! ## Asset specs -/

/-- The documentation link both asset loops attach (resources.py:126-128, 444-446). -/
def docsLink (name : String) : String :=
  "https://cvsdigital.atlassian.net/wiki/spaces/EDMLABCCM/pages/4616946342/Case+Activities+Entity+Data+Stream#" ++
    name

/-- The metadata both asset loops write, in the order they write it. -/
def assetMetadata (a : CompilationResultAction) : List (String × MetadataValue) :=
  [("Project ID", .text a.target.database),
   ("Dataset", .text a.target.schema),
   ("Asset Name", .text a.target.name),
   ("Docs Link", .url (docsLink a.target.name)),
   ("Asset SQL Code", .md ("```sql\n" ++ a.relation.selectQuery ++ "\n```"))]

/-- The `dg.AssetSpec(...)` call of both asset loops; `extra` is the metadata the
lazy copy writes after the common entries. -/
def assetSpec (lag : Float) (extra : List (String × MetadataValue))
    (a : CompilationResultAction) : AssetSpec where
  key := a.target.name
  kinds := ["bigquery"]
  metadata := assetMetadata a ++ extra
  groupName := a.target.schema
  tags := a.relation.tags.eraseDups.map (·, "")
  deps := a.relation.dependencyTargets.map (·.name)
  freshnessLag := lag

/-- The entry only `_process_assets` writes. -/
def compilationResultEntry (compilationResultName : Option String) : String × MetadataValue :=
  ("dataform_compilation_result", compilationResultName.elim .null .text)

/-- mirrors resources.py:107-149 (`_process_assets`); `assetFreshPolicyLagMinutes`
is the instance's `asset_fresh_policy_lag_minutes`. -/
def processAssets (host : Host) (assetFreshPolicyLagMinutes : Float)
    (compilationActions : List CompilationResultAction) (compilationResultName : Option String) :
    List AssetSpec :=
  tryEach (fun a => host.assetSpec
    (assetSpec assetFreshPolicyLagMinutes [compilationResultEntry compilationResultName] a))
    compilationActions

/-- mirrors resources.py:435-465, the loop of `load_dataform_assets` -/
def loadDataformAssetsLoop (host : Host) (freshPolicyLagMinutes : Float)
    (compilationActions : List CompilationResultAction) : List AssetSpec :=
  tryEach (fun a => host.assetSpec (assetSpec freshPolicyLagMinutes [] a)) compilationActions

/-! Both asset loops are `tryEach` over `assetSpec lag extra`; what follows is
proved once for that loop and holds for each. -/

theorem tryEach_assetSpec (host : Host) (lag : Float) (extra : List (String × MetadataValue))
    (acts : List CompilationResultAction) :
    tryEach (fun a => host.assetSpec (assetSpec lag extra a)) acts =
      (acts.map (assetSpec lag extra)).filter host.acceptsSpec := by
  rw [tryEach_eq_filterMap, Host.filterMap_assetSpec]

theorem tryEach_assetSpec_keys_sublist (host : Host) (lag : Float)
    (extra : List (String × MetadataValue)) (acts : List CompilationResultAction) :
    ((tryEach (fun a => host.assetSpec (assetSpec lag extra a)) acts).map (·.key)).Sublist
      (acts.map (·.target.name)) := by
  rw [tryEach_assetSpec]
  simpa [Function.comp_def, assetSpec] using
    (List.filter_sublist (p := host.acceptsSpec) (acts.map (assetSpec lag extra))).map AssetSpec.key

theorem mem_tryEach_assetSpec {host : Host} {lag : Float} {extra : List (String × MetadataValue)}
    {acts : List CompilationResultAction} {s : AssetSpec}
    (h : s ∈ tryEach (fun a => host.assetSpec (assetSpec lag extra a)) acts) :
    ∃ a ∈ acts, s = assetSpec lag extra a := by
  rw [tryEach_assetSpec] at h
  obtain ⟨a, ha, rfl⟩ := List.mem_map.mp (List.mem_filter.mp h).1
  exact ⟨a, ha, rfl⟩

/-- The spec without its metadata entry under `key`. -/
def AssetSpec.eraseMetadata (key : String) (s : AssetSpec) : AssetSpec :=
  { s with metadata := s.metadata.filter (·.1 ≠ key) }

theorem assetSpec_eq_with_metadata (lag : Float) (extra : List (String × MetadataValue))
    (a : CompilationResultAction) :
    assetSpec lag extra a = { assetSpec lag [] a with metadata := assetMetadata a ++ extra } := by
  simp [assetSpec]

theorem acceptsSpec_assetSpec (host : Host) (lag : Float) (extra : List (String × MetadataValue))
    (a : CompilationResultAction) :
    host.acceptsSpec (assetSpec lag extra a) = host.acceptsSpec (assetSpec lag [] a) := by
  rw [assetSpec_eq_with_metadata, host.acceptsSpec_metadata]

theorem assetSpec_eraseMetadata (lag : Float) (n : Option String) (a : CompilationResultAction) :
    (assetSpec lag [compilationResultEntry n] a).eraseMetadata "dataform_compilation_result" =
      assetSpec lag [] a := by
  simp [AssetSpec.eraseMetadata, assetSpec, assetMetadata, compilationResultEntry]

/-- The eager asset loop builds what `_process_assets` builds, entry for entry,
once the `dataform_compilation_result` metadata entry is removed. -/
theorem loadDataformAssetsLoop_eq_erase (host : Host) (lag : Float) (n : Option String)
    (acts : List CompilationResultAction) :
    loadDataformAssetsLoop host lag acts =
      (processAssets host lag acts n).map (·.eraseMetadata "dataform_compilation_result") := by
  rw [loadDataformAssetsLoop, processAssets, tryEach_assetSpec, tryEach_assetSpec]
  induction acts with
  | nil => rfl
  | cons a rest ih =>
    simp only [List.map_cons, List.filter_cons, acceptsSpec_assetSpec host lag [compilationResultEntry n]]
    split <;> simp [ih, assetSpec_eraseMetadata]

/-! ## Asset checks -/

/-- The check both check loops build from an action: keyed by the assertion's
parent action's name, named by the action's own target name. -/
def assetCheck (a : CompilationResultAction) : AssetCheck :=
  ⟨a.assertion.parentAction.name, a.target.name⟩

/-- mirrors resources.py:151-194 (`_process_asset_checks`) -/
def processAssetChecks (host : Host) (compilationActions : List CompilationResultAction) :
    List AssetCheck :=
  tryEach (fun a => if a.assertion.truthy then host.assetCheck (assetCheck a) else none)
    compilationActions

/-- mirrors resources.py:481-512, the loop of `load_dataform_asset_check_specs`.
Its `try` block opens with `logger.error(asset.assertion.dependency_targets[0].name)`,
which raises `IndexError` on an assertion with no dependency target. -/
def loadDataformAssetCheckSpecsLoop (host : Host)
    (compilationActions : List CompilationResultAction) : List AssetCheck :=
  tryEach (fun a => if a.assertion.truthy then
      a.assertion.dependencyTargets.head?.bind fun _ => host.assetCheck (assetCheck a)
    else none) compilationActions

theorem processAssetChecks_eq (host : Host) (acts : List CompilationResultAction) :
    processAssetChecks host acts =
      ((acts.filter (·.assertion.truthy)).map assetCheck).filter host.acceptsCheck := by
  simp [processAssetChecks, tryEach_eq_filterMap, Host.filterMap_assetCheck]

/-- An action with a truthy assertion and at least one dependency target. -/
def hasDependencyTarget (a : CompilationResultAction) : Bool :=
  a.assertion.truthy && !a.assertion.dependencyTargets.isEmpty

/-- The eager check loop builds what `_process_asset_checks` builds from the
actions whose assertion names a dependency target, and drops the others. -/
theorem loadDataformAssetCheckSpecsLoop_eq (host : Host) (acts : List CompilationResultAction) :
    loadDataformAssetCheckSpecsLoop host acts =
      processAssetChecks host (acts.filter hasDependencyTarget) := by
  rw [processAssetChecks_eq, loadDataformAssetCheckSpecsLoop, tryEach_eq_filterMap]
  induction acts with
  | nil => rfl
  | cons a rest ih =>
    rw [List.filterMap_cons, ih]
    cases hd : a.assertion.dependencyTargets <;> by_cases ht : a.assertion.truthy <;>
      by_cases hc : host.acceptsCheck (assetCheck a) <;>
      simp [hasDependencyTarget, Host.assetCheck, List.filter_cons, hd, ht, hc]

/-! ## What the builders build -/

/-- Both lazy builders keep, in input order, one node for each action whose
`try` block returns: `_process_assets` for every action (it never asks whether
the action is a relation), `_process_asset_checks` for every action whose
`compiled_object` holds an assertion that is truthy (`relation_descriptor`
counts); an action whose construction raises drops only itself. -/
theorem one_node_per_action (host : Host) (lag : Float) (n : Option String)
    (acts : List CompilationResultAction) :
    processAssets host lag acts n =
        (acts.map (assetSpec lag [compilationResultEntry n])).filter host.acceptsSpec ∧
      processAssetChecks host acts =
        ((acts.filter (·.assertion.truthy)).map assetCheck).filter host.acceptsCheck ∧
      (∀ a ∈ acts, a.assertion.truthy = true ↔
        ∃ x, a.compiledObject = .assertion x ∧ x.truthy = true) ∧
      ∀ xs ys, processAssets host lag (xs ++ ys) n =
          processAssets host lag xs n ++ processAssets host lag ys n ∧
        processAssetChecks host (xs ++ ys) = processAssetChecks host xs ++ processAssetChecks host ys :=
  ⟨tryEach_assetSpec host lag _ acts, processAssetChecks_eq host acts,
    fun a _ => a.assertion_truthy_iff, fun xs ys => ⟨tryEach_append _ xs ys, tryEach_append _ xs ys⟩⟩

/-- `orders_not_null`: an assertion on the `orders` table. -/
def ordersNotNull : CompilationResultAction where
  target := { database := "analytics", schema := "sales", name := "orders_not_null" }
  compiledObject := .assertion
    { parentAction := { database := "analytics", schema := "sales", name := "orders" }
      dependencyTargets := [{ database := "analytics", schema := "sales", name := "orders" }]
      selectQuery := "SELECT * FROM orders WHERE id IS NULL" }

/-- `_process_assets` builds an asset spec from an assertion action. -/
theorem processAssets_keeps_assertion :
    (processAssets Host.acceptAll 1440 [ordersNotNull] none).map (·.key) = ["orders_not_null"] := by
  decide

/-- `orders_row_count`: an assertion on `orders` that names no dependency target. -/
def ordersRowCount : CompilationResultAction where
  target := { database := "analytics", schema := "sales", name := "orders_row_count" }
  compiledObject := .assertion
    { parentAction := { database := "analytics", schema := "sales", name := "orders" }
      selectQuery := "SELECT 1 FROM orders HAVING COUNT(*) = 0" }

/-- The lazy check builder keeps `orders_row_count`; the eager one drops it,
since `dependency_targets[0]` raises inside its `try`. -/
theorem eager_checks_drop_dependency_free_assertion :
    processAssetChecks Host.acceptAll [ordersRowCount] = [⟨"orders", "orders_row_count"⟩] ∧
      loadDataformAssetCheckSpecsLoop Host.acceptAll [ordersRowCount] = [] := by
  decide

/-! ## Keys -/

/-- Every spec `_process_assets` builds carries the name it was given under
`dataform_compilation_result`. -/
theorem processAssets_lookup_compilationResult {host : Host} {lag : Float} {n : Option String}
    {acts : List CompilationResultAction} {s : AssetSpec} (h : s ∈ processAssets host lag acts n) :
    s.metadata.lookup "dataform_compilation_result" = some (n.elim .null .text) := by
  obtain ⟨a, -, rfl⟩ := mem_tryEach_assetSpec h
  simp [assetSpec, assetMetadata, compilationResultEntry, List.lookup_cons]

theorem mem_processAssetChecks {host : Host} {acts : List CompilationResultAction} {c : AssetCheck}
    (h : c ∈ processAssetChecks host acts) : ∃ a ∈ acts, c = assetCheck a := by
  rw [processAssetChecks_eq] at h
  obtain ⟨a, ha, rfl⟩ := List.mem_map.mp (List.mem_filter.mp h).1
  exact ⟨a, (List.mem_filter.mp ha).1, rfl⟩

/-- Asset keys, dependency keys and check keys are bare target names: the specs
of both asset builders have pairwise distinct keys when the actions' target
names are pairwise distinct; whatever the names, a spec's key is its target's
name and its dependency keys are the names of its dependency targets, and a
check's asset key is its parent action's name. -/
theorem asset_keys_are_target_names (host : Host) (lag : Float) (n : Option String)
    (acts : List CompilationResultAction) :
    ((acts.map (·.target.name)).Nodup →
        ((processAssets host lag acts n).map (·.key)).Nodup ∧
          ((loadDataformAssetsLoop host lag acts).map (·.key)).Nodup) ∧
      (∀ s ∈ processAssets host lag acts n, ∃ a ∈ acts,
        s.key = a.target.name ∧ s.deps = a.relation.dependencyTargets.map (·.name)) ∧
      (∀ s ∈ loadDataformAssetsLoop host lag acts, ∃ a ∈ acts,
        s.key = a.target.name ∧ s.deps = a.relation.dependencyTargets.map (·.name)) ∧
      (∀ c ∈ processAssetChecks host acts, ∃ a ∈ acts,
        c.assetKey = a.assertion.parentAction.name ∧ c.name = a.target.name) := by
  refine ⟨fun h => ⟨(tryEach_assetSpec_keys_sublist host lag _ acts).nodup h,
    (tryEach_assetSpec_keys_sublist host lag [] acts).nodup h⟩, ?_, ?_, ?_⟩
  · intro s hs
    obtain ⟨a, ha, rfl⟩ := mem_tryEach_assetSpec hs
    exact ⟨a, ha, rfl, rfl⟩
  · intro s hs
    obtain ⟨a, ha, rfl⟩ := mem_tryEach_assetSpec hs
    exact ⟨a, ha, rfl, rfl⟩
  · intro c hc
    obtain ⟨a, ha, rfl⟩ := mem_processAssetChecks hc
    exact ⟨a, ha, rfl, rfl⟩

/-- `orders` in the `sales` dataset. -/
def salesOrders : CompilationResultAction where
  target := { database := "analytics", schema := "sales", name := "orders" }
  compiledObject := .relation { selectQuery := "SELECT * FROM raw.orders" }

/-- `orders` in the `marketing` dataset of the same project. -/
def marketingOrders : CompilationResultAction where
  target := { database := "analytics", schema := "marketing", name := "orders" }
  compiledObject := .relation { selectQuery := "SELECT * FROM raw.campaign_orders" }

/-- `customers` in the `sales` dataset. -/
def salesCustomers : CompilationResultAction where
  target := { database := "analytics", schema := "sales", name := "customers" }
  compiledObject := .relation
    { selectQuery := "SELECT * FROM raw.customers", dependencyTargets := [salesOrders.target] }

theorem asset_keys_are_target_names_sales :
    ([salesOrders, salesCustomers].map (·.target.name)).Nodup ∧
      (((processAssets Host.acceptAll 1440 [salesOrders, salesCustomers] none).map (·.key)).Nodup ∧
        ((loadDataformAssetsLoop Host.acceptAll 1440 [salesOrders, salesCustomers]).map (·.key)).Nodup) ∧
      (∀ s ∈ processAssets Host.acceptAll 1440 [salesOrders, salesCustomers] none,
        ∃ a ∈ [salesOrders, salesCustomers],
          s.key = a.target.name ∧ s.deps = a.relation.dependencyTargets.map (·.name)) ∧
      (∀ s ∈ loadDataformAssetsLoop Host.acceptAll 1440 [salesOrders, salesCustomers],
        ∃ a ∈ [salesOrders, salesCustomers],
          s.key = a.target.name ∧ s.deps = a.relation.dependencyTargets.map (·.name)) ∧
      (∀ c ∈ processAssetChecks Host.acceptAll [salesOrders, salesCustomers],
        ∃ a ∈ [salesOrders, salesCustomers],
          c.assetKey = a.assertion.parentAction.name ∧ c.name = a.target.name) :=
  have h : ([salesOrders, salesCustomers].map (·.target.name)).Nodup := by decide
  have keys := asset_keys_are_target_names Host.acceptAll 1440 none [salesOrders, salesCustomers]
  ⟨h, keys.1 h, keys.2⟩

/-- Two tables named `orders` in two datasets: distinct targets, one asset key. -/
theorem same_name_assets_share_key :
    salesOrders.target ≠ marketingOrders.target ∧
      ¬((processAssets Host.acceptAll 1440 [salesOrders, marketingOrders] none).map (·.key)).Nodup ∧
      ¬((loadDataformAssetsLoop Host.acceptAll 1440 [salesOrders, marketingOrders]).map (·.key)).Nodup := by
  decide

end DagsterDataform
