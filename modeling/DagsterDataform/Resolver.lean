import DagsterDataform.Api

/-!
# Finding the compilation result to read

`get_latest_compilation_result_name` lists the repository's compilation
results (`page_size=1000`, `order_by="create_time desc"`) and returns the name
of the first one compiled from the instance's environment with an empty
`table_prefix`; `None` when there is none. Its callers treat a falsy name
(`None` or `""`) alike: `query_compilation_result` (the eager path) returns no
actions, `_fetch_latest_compilation_actions` (the lazy path) raises.

Results:
* `getLatestCompilationResultName_eq_some`: the name returned is the name of
  the first entry, in the service's order, that `matchesEnvironment` accepts;
* `getLatestCompilationResultName_eq_none`: `None`, without raising, exactly
  when no entry is accepted;
* `getLatestCompilationResultName_append`: on a prefix of a listing it finds
  the same name, or none.
-/
namespace DagsterDataform

/-- mirrors resources.py:196-233 (`create_compilation_result`): the request it
sends. Arguments left at `None` are unset fields of `CodeCompilationConfig`. -/
def createCompilationResult (repository : Repository) (gitCommitish : String)
    (defaultDatabase defaultSchema defaultLocation assertionSchema databaseSuffix schemaSuffix
      tablePrefix builtinAssertionNamePrefix : Option String := none)
    (vars : Option (List (String × String)) := none) : CreateCompilationResultRequest where
  parent := repository.parent
  compilationResult :=
    { gitCommitish
      codeCompilationConfig :=
        { defaultDatabase := defaultDatabase.getD ""
          defaultSchema := defaultSchema.getD ""
          defaultLocation := defaultLocation.getD ""
          assertionSchema := assertionSchema.getD ""
          databaseSuffix := databaseSuffix.getD ""
          schemaSuffix := schemaSuffix.getD ""
          tablePrefix := tablePrefix.getD ""
          builtinAssertionNamePrefix := builtinAssertionNamePrefix.getD ""
          vars := vars.getD [] } }

/-- The request of `get_latest_compilation_result_name` (resources.py:244-248). -/
def listCompilationResultsRequest (repository : Repository) : ListCompilationResultsRequest :=
  ⟨repository.parent, 1000, "create_time desc"⟩

/-- The test of resources.py:257-260: compiled from `environment`, with a falsy
`table_prefix`. -/
def matchesEnvironment (environment : String) (cr : CompilationResult) : Bool :=
  cr.gitCommitish == environment && cr.codeCompilationConfig.tablePrefix.isEmpty

@[simp] theorem matchesEnvironment_with_name (environment : String) (cr : CompilationResult)
    (name : String) :
    matchesEnvironment environment { cr with name } = matchesEnvironment environment cr := rfl

/-- The result `create_compilation_result(git_commitish=environment)` asks for
is one the lookup accepts: compiled from the environment, with no `table_prefix`. -/
@[simp] theorem matchesEnvironment_createCompilationResult (repository : Repository)
    (environment : String) :
    matchesEnvironment environment
      (createCompilationResult repository environment).compilationResult = true := by
  simp [matchesEnvironment, createCompilationResult]
  exact rfl

/-- mirrors resources.py:256-269, the loop of `get_latest_compilation_result_name`
over the `compilation_results` of the listing. -/
def getLatestCompilationResultName (environment : String) : List CompilationResult → Option String
  | [] => none
  | cr :: rest =>
    if matchesEnvironment environment cr then some cr.name
    else getLatestCompilationResultName environment rest

/-- Python truthiness of a `str | None`. -/
def truthyName : Option String → Option String
  | some name => if name = "" then none else some name
  | none => none

theorem getLatestCompilationResultName_eq_find (environment : String) (rs : List CompilationResult) :
    getLatestCompilationResultName environment rs = (rs.find? (matchesEnvironment environment)).map (·.name) := by
  induction rs with
  | nil => rfl
  | cons cr rest ih =>
    by_cases h : matchesEnvironment environment cr <;> simp [getLatestCompilationResultName, h, ih]

theorem getLatestCompilationResultName_eq_some (environment : String) (rs : List CompilationResult)
    (n : String) :
    getLatestCompilationResultName environment rs = some n ↔
      ∃ pre cr post, rs = pre ++ cr :: post ∧ matchesEnvironment environment cr ∧
        (∀ x ∈ pre, matchesEnvironment environment x = false) ∧ cr.name = n := by
  simp only [getLatestCompilationResultName_eq_find, Option.map_eq_some', List.find?_eq_some,
    Bool.not_eq_true']
  constructor
  · rintro ⟨cr, ⟨hm, pre, post, rfl, hpre⟩, rfl⟩
    exact ⟨pre, cr, post, rfl, hm, hpre, rfl⟩
  · rintro ⟨pre, cr, post, rfl, hm, hpre, rfl⟩
    exact ⟨cr, ⟨hm, pre, post, rfl, hpre⟩, rfl⟩

theorem getLatestCompilationResultName_eq_none (environment : String) (rs : List CompilationResult) :
    getLatestCompilationResultName environment rs = none ↔
      ∀ cr ∈ rs, matchesEnvironment environment cr = false := by
  simp [getLatestCompilationResultName_eq_find, List.find?_eq_none]

theorem getLatestCompilationResultName_mem {environment : String} {rs : List CompilationResult}
    {n : String} (h : getLatestCompilationResultName environment rs = some n) :
    ∃ cr ∈ rs, matchesEnvironment environment cr ∧ cr.name = n := by
  obtain ⟨pre, cr, post, rfl, hm, -, hn⟩ := (getLatestCompilationResultName_eq_some _ _ _).mp h
  exact ⟨cr, by simp, hm, hn⟩

/-- On a prefix of a listing the lookup finds the name it finds on the whole
listing, or none: what follows the prefix cannot change an earlier match. -/
theorem getLatestCompilationResultName_append (environment : String) (l t : List CompilationResult) :
    getLatestCompilationResultName environment l = none ∨
      getLatestCompilationResultName environment l =
        getLatestCompilationResultName environment (l ++ t) := by
  induction l with
  | nil => exact .inl rfl
  | cons cr rest ih =>
    by_cases h : matchesEnvironment environment cr
    · simp [getLatestCompilationResultName, h]
    · simpa [getLatestCompilationResultName, h] using ih

theorem truthyName_eq_some {o : Option String} {n : String} (h : truthyName o = some n) :
    o = some n ∧ n ≠ "" := by
  match o, h with
  | some m, h =>
    by_cases hm : m = "" <;> simp_all [truthyName]

theorem truthyName_eq_none {o : Option String} :
    truthyName o = none ↔ o = none ∨ o = some "" := by
  match o with
  | some m => by_cases hm : m = "" <;> simp [truthyName, hm]
  | none => simp [truthyName]

end DagsterDataform
