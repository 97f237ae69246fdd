import DagsterDataform.Resolver

/-!
# Selective workflow invocations

`create_workflow_invocation` submits a `CreateWorkflowInvocationRequest` for a
compilation result. It attaches an `InvocationConfig` only when targets, tags
or a service account are given (`if included_targets or included_tags or
service_account`); the three transitive flags ride on that config and are not
sent without it. A requested target is a `str` (a bare name) or a `dict` whose
truthy `database`, `schema` and `name` become keyword arguments of
`dataform_v1.Target`, the others being left unset.

The reading methods (`get_latest_workflow_invocations`,
`query_workflow_invocation`, `get_workflow_invocation_details`) are modelled
by the requests they submit.

Results:
* `includedTargetsLoop_eq_map`: the target loop maps each requested target to
  its `dataform_v1.Target`, in order;
* `create_workflow_invocation_request`: the request names the repository and
  the compilation result, carries a config exactly when some selection is
  given, and that config holds the mapped targets, the tags, the service
  account and the three flags as given.
-/
namespace DagsterDataform

/-- An element of `included_targets`: a `str`, or a `dict` seen through the
three keys the code reads (`none`: the key is absent or maps to `None`). -/
inductive IncludedTarget where
  | name (name : String)
  | dict (database schema name : Option String)
  deriving DecidableEq, Repr

/-- The keyword arguments `dataform_v1.Target(...)` receives; `none` is a field
left unset. -/
structure TargetArgs where
  database : Option String := none
  schema : Option String := none
  name : Option String := none
  deriving DecidableEq, Repr

/-- `dataform_v1.InvocationConfig`. -/
structure InvocationConfig where
  includedTargets : List TargetArgs := []
  includedTags : List String := []
  transitiveDependenciesIncluded : Bool := false
  transitiveDependentsIncluded : Bool := false
  fullyRefreshIncrementalTablesEnabled : Bool := false
  serviceAccount : String := ""
  deriving DecidableEq, Repr

/-- `dataform_v1.WorkflowInvocation`, as far as the request sets it. -/
structure WorkflowInvocation where
  compilationResult : String
  invocationConfig : Option InvocationConfig := none
  deriving DecidableEq, Repr

/-- `dataform_v1.CreateWorkflowInvocationRequest`. -/
structure CreateWorkflowInvocationRequest where
  parent : String
  workflowInvocation : WorkflowInvocation
  deriving DecidableEq, Repr

/-- Python truthiness of a `list | None`. -/
def truthyList {α : Type} : Option (List α) → Bool
  | some (_ :: _) => true
  | _ => false

/-- The body of the target loop (resources.py:379-390): a `dict` passes only its
truthy values, a `str` becomes the name. -/
def targetArgs : IncludedTarget → TargetArgs
  | .dict database schema name =>
    { database := truthyName database, schema := truthyName schema, name := truthyName name }
  | .name name => { name := some name }

/-- resources.py:377-390: `targets = []; for target in included_targets: targets.append(...)`. -/
def includedTargetsLoop (includedTargets : List IncludedTarget) : List TargetArgs :=
  includedTargets.foldl (fun targets target => targets ++ [targetArgs target]) []

/-- resources.py:371-395: the config, with each selection field set only when truthy. -/
def invocationConfig (includedTargets : Option (List IncludedTarget))
    (includedTags : Option (List String)) (transitiveDependenciesIncluded
      transitiveDependentsIncluded fullyRefreshIncrementalTablesEnabled : Bool)
    (serviceAccount : Option String) : InvocationConfig :=
  let config : InvocationConfig :=
    { transitiveDependenciesIncluded, transitiveDependentsIncluded,
      fullyRefreshIncrementalTablesEnabled }
  let config := match includedTargets with
    | some targets@(_ :: _) => { config with includedTargets := includedTargetsLoop targets }
    | _ => config
  let config := match includedTags with
    | some tags@(_ :: _) => { config with includedTags := tags }
    | _ => config
  match truthyName serviceAccount with
  | some account => { config with serviceAccount := account }
  | none => config

/-- mirrors resources.py:340-407 (`create_workflow_invocation`): the request it
submits. -/
def createWorkflowInvocation (repository : Repository) (compilationResultName : String)
    (includedTargets : Option (List IncludedTarget) := none)
    (includedTags : Option (List String) := none) (transitiveDependenciesIncluded : Bool := true)
    (transitiveDependentsIncluded : Bool := false)
    (fullyRefreshIncrementalTablesEnabled : Bool := false) (serviceAccount : Option String := none) :
    CreateWorkflowInvocationRequest where
  parent := repository.parent
  workflowInvocation :=
    if truthyList includedTargets || truthyList includedTags || (truthyName serviceAccount).isSome then
      { compilationResult := compilationResultName
        invocationConfig := some (invocationConfig includedTargets includedTags
          transitiveDependenciesIncluded transitiveDependentsIncluded
          fullyRefreshIncrementalTablesEnabled serviceAccount) }
    else { compilationResult := compilationResultName }

theorem includedTargetsLoop_eq_map (targets : List IncludedTarget) :
    includedTargetsLoop targets = targets.map targetArgs := by
  suffices ∀ acc, targets.foldl (fun targets target => targets ++ [targetArgs target]) acc =
      acc ++ targets.map targetArgs from by simpa using this []
  induction targets with
  | nil => simp
  | cons t rest ih => intro acc; simp [ih]

/-- The config holds each selection as given, an absent selection reading as
empty, and the three flags as given. -/
theorem invocationConfig_eq (targets : Option (List IncludedTarget)) (tags : Option (List String))
    (up down full : Bool) (sa : Option String) :
    invocationConfig targets tags up down full sa =
      { includedTargets := (targets.getD []).map targetArgs, includedTags := tags.getD [],
        transitiveDependenciesIncluded := up, transitiveDependentsIncluded := down,
        fullyRefreshIncrementalTablesEnabled := full, serviceAccount := sa.getD "" } := by
  have hsa : (truthyName sa).getD "" = sa.getD "" := by
    rcases h : truthyName sa with _ | a
    · rcases truthyName_eq_none.mp h with rfl | rfl <;> rfl
    · rw [(truthyName_eq_some h).1]
  unfold invocationConfig
  rw [← hsa]
  rcases targets with _ | _ | ⟨t, rest⟩ <;> rcases tags with _ | _ | ⟨g, gs⟩ <;>
    cases truthyName sa <;> simp [includedTargetsLoop_eq_map]

/-- The request `create_workflow_invocation` submits: the repository's parent,
the compilation result, and an invocation config exactly when targets, tags or
a service account are given. The config maps each target, in order, to the
`Target` of its truthy fields, and holds the tags, the service account and the
three flags as given. -/
theorem create_workflow_invocation_request (repository : Repository) (c : String)
    (targets : Option (List IncludedTarget)) (tags : Option (List String)) (up down full : Bool)
    (sa : Option String) :
    (createWorkflowInvocation repository c targets tags up down full sa).parent = repository.parent ∧
      (createWorkflowInvocation repository c targets tags up down full sa).workflowInvocation.compilationResult = c ∧
      (createWorkflowInvocation repository c targets tags up down full sa).workflowInvocation.invocationConfig.isSome =
        (truthyList targets || truthyList tags || (truthyName sa).isSome) ∧
      (∀ s, targetArgs (.name s) = { name := some s }) ∧
      (∀ d s n, targetArgs (.dict d s n) =
        { database := truthyName d, schema := truthyName s, name := truthyName n }) ∧
      ∀ cfg, (createWorkflowInvocation repository c targets tags up down full sa).workflowInvocation.invocationConfig = some cfg →
        cfg.includedTargets = (targets.getD []).map targetArgs ∧ cfg.includedTags = tags.getD [] ∧
        cfg.serviceAccount = sa.getD "" ∧ cfg.transitiveDependenciesIncluded = up ∧
        cfg.transitiveDependentsIncluded = down ∧ cfg.fullyRefreshIncrementalTablesEnabled = full := by
  refine ⟨rfl, ?_, ?_, fun _ => rfl, fun _ _ _ => rfl, ?_⟩
  · unfold createWorkflowInvocation; split <;> rfl
  · unfold createWorkflowInvocation; split <;> simp_all
  · intro cfg h
    unfold createWorkflowInvocation at h
    split at h
    · cases h
      rw [invocationConfig_eq]
      exact ⟨rfl, rfl, rfl, rfl, rfl, rfl⟩
    · cases h

/-! ## Reading workflow invocations -/

/-- `dataform_v1.ListWorkflowInvocationsRequest`. -/
structure ListWorkflowInvocationsRequest where
  parent : String
  pageSize : Nat
  filter : String
  deriving DecidableEq, Repr

/-- `dataform_v1.QueryWorkflowInvocationActionsRequest`. -/
structure QueryWorkflowInvocationActionsRequest where
  name : String
  deriving DecidableEq, Repr

/-- `dataform_v1.GetWorkflowInvocationRequest`. -/
structure GetWorkflowInvocationRequest where
  name : String
  deriving DecidableEq, Repr

/-- mirrors resources.py:300-314 (`get_latest_workflow_invocations`): the request
it submits, for `epoch` the value of `get_epoch_time_ago(minutes=minutes_ago)`. -/
def getLatestWorkflowInvocations (repository : Repository) (epoch : Int) :
    ListWorkflowInvocationsRequest where
  parent := repository.parent
  pageSize := 1000
  filter := "invocation_timing.start_time.seconds > " ++ toString epoch

/-- mirrors resources.py:316-338 (`query_workflow_invocation`): the request it
submits; `none` for an empty name, which returns `[]` without a call. -/
def queryWorkflowInvocation (name : String) : Option QueryWorkflowInvocationActionsRequest :=
  if name.isEmpty then none else some ⟨name⟩

/-- mirrors resources.py:409-420 (`get_workflow_invocation_details`): the request it submits. -/
def getWorkflowInvocationDetails (workflowInvocationName : String) : GetWorkflowInvocationRequest :=
  ⟨workflowInvocationName⟩

end DagsterDataform
