import Mathlib.Data.List.Nodup

/-!
# The records `resources.py` reads and builds

`DataformRepositoryResource` (dagster_dataform/resources.py) reads
`google.cloud.dataform_v1` messages and builds dagster values from them.

**Dataform side.** The messages are proto-plus messages: a field that was not
set reads as its default (`""`, `[]`, an empty message), reading a member of a
oneof that holds another member gives an empty message, and a message is
truthy when one of its fields is (`proto.Message.__bool__`). `Target`,
`Relation`, `Assertion` and `CompilationResultAction` below keep exactly the
fields the resource reads; `Assertion` also keeps every field its truthiness
reads, `relation_descriptor` included. A repeated or map field is truthy when
it is non-empty, so a `RelationDescriptor` is truthy when its description,
its columns or its labels are, whatever the columns hold.

**Dagster side.** `AssetSpec` and `AssetCheck` are the arguments the resource
passes to `dg.AssetSpec(...)` and `dg.AssetChecksDefinition.create(...)`.
Whether dagster accepts them or raises is dagster's business: `Host` takes it
as a parameter. The one thing the model relies on is that dagster validates an
asset spec without reading its metadata values (`Host.acceptsSpec_metadata`):
it checks the metadata mapping only for `str` keys, and every key here is a
literal.
-/
namespace DagsterDataform

/-! ## Dataform messages -/

/-- `dataform_v1.Target`. -/
structure Target where
  database : String := ""
  schema : String := ""
  name : String := ""
  deriving DecidableEq, Repr

/-- Truthiness of a `Target` message. -/
def Target.truthy (t : Target) : Bool :=
  !t.database.isEmpty || !t.schema.isEmpty || !t.name.isEmpty

/-- `CompilationResultAction.Relation`: the fields the resource reads. -/
structure Relation where
  dependencyTargets : List Target := []
  tags : List String := []
  selectQuery : String := ""
  deriving DecidableEq, Repr

/-- `RelationDescriptor.ColumnDescriptor`. -/
structure ColumnDescriptor where
  path : List String := []
  description : String := ""
  bigqueryPolicyTags : List String := []
  deriving DecidableEq, Repr

/-- `dataform_v1.RelationDescriptor`; the map `bigquery_labels` as its list of entries. -/
structure RelationDescriptor where
  description : String := ""
  columns : List ColumnDescriptor := []
  bigqueryLabels : List (String × String) := []
  deriving DecidableEq, Repr

/-- Truthiness of a `RelationDescriptor` message. -/
def RelationDescriptor.truthy (d : RelationDescriptor) : Bool :=
  !d.description.isEmpty || !d.columns.isEmpty || !d.bigqueryLabels.isEmpty

/-- `CompilationResultAction.Assertion`. -/
structure Assertion where
  dependencyTargets : List Target := []
  parentAction : Target := {}
  disabled : Bool := false
  tags : List String := []
  selectQuery : String := ""
  relationDescriptor : RelationDescriptor := {}
  deriving DecidableEq, Repr

/-- `bool(action.assertion)`: some field of the assertion is truthy. -/
def Assertion.truthy (a : Assertion) : Bool :=
  !a.dependencyTargets.isEmpty || a.parentAction.truthy || a.disabled || !a.tags.isEmpty ||
    !a.selectQuery.isEmpty || a.relationDescriptor.truthy

/-- The `compiled_object` oneof of a `CompilationResultAction`. -/
inductive CompiledObject where
  | unset
  | relation (r : Relation)
  | operations
  | assertion (a : Assertion)
  | declaration
  | notebook
  | dataPreparation
  deriving DecidableEq, Repr

/-- `dataform_v1.CompilationResultAction`. -/
structure CompilationResultAction where
  target : Target := {}
  compiledObject : CompiledObject := .unset
  deriving DecidableEq, Repr

/-- `action.relation`: an empty `Relation` unless the oneof holds one. -/
def CompilationResultAction.relation (a : CompilationResultAction) : Relation :=
  match a.compiledObject with
  | .relation r => r
  | _ => {}

/-- `action.assertion`: an empty `Assertion` unless the oneof holds one. -/
def CompilationResultAction.assertion (a : CompilationResultAction) : Assertion :=
  match a.compiledObject with
  | .assertion x => x
  | _ => {}

/-- An empty assertion is falsy, so `if asset.assertion:` passes exactly when the
oneof holds an assertion and that assertion is truthy. -/
theorem CompilationResultAction.assertion_truthy_iff (a : CompilationResultAction) :
    a.assertion.truthy = true ↔ ∃ x, a.compiledObject = .assertion x ∧ x.truthy = true := by
  unfold CompilationResultAction.assertion
  split
  · next x hx => exact ⟨fun h => ⟨x, hx, h⟩, fun ⟨y, hy, h⟩ => by cases hx.symm.trans hy; exact h⟩
  · next hne => exact ⟨fun h => absurd h (by decide), fun ⟨x, hx, _⟩ => (hne x hx).elim⟩

/-- `dataform_v1.CodeCompilationConfig`. -/
structure CodeCompilationConfig where
  defaultDatabase : String := ""
  defaultSchema : String := ""
  defaultLocation : String := ""
  assertionSchema : String := ""
  vars : List (String × String) := []
  databaseSuffix : String := ""
  schemaSuffix : String := ""
  tablePrefix : String := ""
  builtinAssertionNamePrefix : String := ""
  deriving DecidableEq, Repr

/-- `dataform_v1.CompilationResult`. -/
structure CompilationResult where
  name : String := ""
  gitCommitish : String := ""
  codeCompilationConfig : CodeCompilationConfig := {}
  deriving DecidableEq, Repr

/-- `dataform_v1.CreateCompilationResultRequest`. -/
structure CreateCompilationResultRequest where
  parent : String
  compilationResult : CompilationResult
  deriving DecidableEq, Repr

/-- `dataform_v1.ListCompilationResultsRequest`. -/
structure ListCompilationResultsRequest where
  parent : String
  pageSize : Nat
  orderBy : String
  deriving DecidableEq, Repr

/-- `dataform_v1.QueryCompilationResultActionsRequest`. -/
structure QueryCompilationResultActionsRequest where
  name : String
  deriving DecidableEq, Repr

/-- The repository every request of an instance names. -/
structure Repository where
  projectId : String
  location : String
  repositoryId : String
  deriving DecidableEq, Repr

/-- `f"projects/{project_id}/locations/{location}/repositories/{repository_id}"` -/
def Repository.parent (r : Repository) : String :=
  "projects/" ++ r.projectId ++ "/locations/" ++ r.location ++ "/repositories/" ++ r.repositoryId

/-! ## Dagster values -/

/-- A metadata value as the resource passes it: a plain `str`, `None`,
`dg.MetadataValue.url(...)` or `dg.MetadataValue.md(...)`. -/
inductive MetadataValue where
  | text (s : String)
  | null
  | url (s : String)
  | md (s : String)
  deriving DecidableEq, Repr

/-- The arguments of `dg.AssetSpec(...)`. `kinds` and `tags` are Python set and
dict literals, kept in the order the code writes them; `freshnessLag` is the
`maximum_lag_minutes` of the `LegacyFreshnessPolicy`, a Python `float` the code
only passes through. -/
structure AssetSpec where
  key : String
  kinds : List String
  metadata : List (String × MetadataValue)
  groupName : String
  tags : List (String × String)
  deps : List String
  freshnessLag : Float
  deriving Repr

/-- The data of the `dg.AssetChecksDefinition` both check loops build: the
asset key (`keys_by_input_name["asset_key"]` and the spec's `asset`) and the
name of the op and of the check spec. The rest is constant: `empty_fn`, one
output `"spec"`, `can_subset=False`. -/
structure AssetCheck where
  assetKey : String
  name : String
  deriving DecidableEq, Repr

/-- The dagster constructors the resource calls, as far as they can raise. -/
structure Host where
  /-- `dg.AssetSpec(...)` returns rather than raising. -/
  acceptsSpec : AssetSpec → Bool
  /-- Dagster does not read metadata values to validate a spec. -/
  acceptsSpec_metadata : ∀ s m, acceptsSpec { s with metadata := m } = acceptsSpec s
  /-- `dg.AssetKey`, `dg.AssetCheckSpec`, `dg.OpDefinition` and
  `dg.AssetChecksDefinition.create` all return rather than raising. -/
  acceptsCheck : AssetCheck → Bool

/-- A host that accepts everything: dagster on well-formed names. -/
def Host.acceptAll : Host := ⟨fun _ => true, fun _ _ => rfl, fun _ => true⟩

/-- `dg.AssetSpec(...)` inside a `try`: `none` when it raises. -/
def Host.assetSpec (h : Host) (s : AssetSpec) : Option AssetSpec :=
  if h.acceptsSpec s then some s else none

/-- The check constructors inside a `try`: `none` when one raises. -/
def Host.assetCheck (h : Host) (c : AssetCheck) : Option AssetCheck :=
  if h.acceptsCheck c then some c else none

end DagsterDataform
