import DagsterDataform.Machine

/-!
# What one step of the system can do

`Sys.step` is summed up once, in `Moves`: each transition with the guard under
which the code takes it, the state it leads to and what the caller observes
(`step_moves`). Every later invariant proof cases on `Moves`, never on `Sys.step`; a
change to the code behind one transition touches its constructor and the
lemmas below.

`Sys.Shape` is what the code finds in the two cells at each program point;
every step keeps it (`Sys.Shape.moves`).

Results, one step at a time:
* `Moves.frame`: a step changes the cells only by setting the cell of the
  property the code at its program point builds;
* `Moves.cell_of_returned`, `Moves.cell_keep`: a step that returns `v` for a
  property leaves its cell holding `v`, and a cell that holds a value keeps it;
* `Moves.fills`: the three steps that can fill an empty cell, with what each
  puts in it;
* `Moves.lazy_frame`, `Moves.eager_idle`: on a lazy instance only a step that
  returns changes a cell; an eager instance at rest calls nothing.
* `Sys.step_service`: only another client's call or the instance's own create
  changes the service (`Moves` does not say which input a step took);
* `Sys.step_read_set`: a read at rest of a set cell returns its value and
  changes nothing;
* `Sys.step_answer_loadCreate`, `Sys.step_answer_loadList`,
  `Sys.step_answer_loadQuery`: the three answers a loader of `__init__` waits
  for, as equations, for runs computed forward; `Sys.step_answer_fetchList`,
  `Sys.step_answer_fetchQuery` likewise for a getter's fetch.
-/
namespace DagsterDataform

/-! ## What one step can do -/

/-- The transitions of `Sys.step`: each with its guard, the state it leads to
and what the caller observes. -/
inductive Moves (host : Host) (s : Sys) : Sys → List Obs → Prop
  | stay : Moves host s s []
  | serve (c : OtherClient) : Moves host s { s with service := s.service.serve c } []
  | hit (k : Artifact) (hpc : s.pc = .idle)
      (hcell : (s.resource.skipCompilation && (s.resource.cell k).isNone) = false) :
      Moves host s s [.returned k ((s.resource.cell k).getD k.empty)]
  | start (k : Artifact) (hpc : s.pc = .idle) (hskip : s.resource.skipCompilation = true)
      (hcell : s.resource.cell k = none) : Moves host s { s with pc := .fetchList k } []
  | created (k : Artifact) (name : String) (h : name ∉ s.service.names) (cr : CompilationResult)
      (service : Service) (hpc : s.pc = .loadCreate k)
      (hc : s.service.createCompilationResult
        (createCompilationResult s.resource.repository s.resource.environment) name h =
          some (cr, service)) :
      Moves host s { s with service, pc := .loadList k } [.called .createCompilationResult]
  | toLoadQuery (k : Artifact) (n : String) (hpc : s.pc = .loadList k)
      (hn : truthyName s.latestName = some n) :
      Moves host s { s with pc := .loadQuery k n } [.called .listCompilationResults]
  | loadEmpty (k : Artifact) (hpc : s.pc = .loadList k) (hn : truthyName s.latestName = none) :
      Moves host s (s.finishLoad host k []) [.called .listCompilationResults]
  | loaded (k : Artifact) (n : String) (actions : List CompilationResultAction)
      (hpc : s.pc = .loadQuery k n) (hq : s.service.queryCompilationResultActions ⟨n⟩ = some actions) :
      Moves host s (s.finishLoad host k actions) [.called .queryCompilationResultActions]
  | toFetchQuery (k : Artifact) (n : String) (hpc : s.pc = .fetchList k)
      (hn : truthyName s.latestName = some n) :
      Moves host s { s with pc := .fetchQuery k n } [.called .listCompilationResults]
  | noName (k : Artifact) (hpc : s.pc = .fetchList k) (hn : truthyName s.latestName = none) :
      Moves host s { s with pc := .idle }
        [.called .listCompilationResults, .raised (.exception (noCompilationMessage s.resource.environment))]
  | fetched (k : Artifact) (n : String) (actions : List CompilationResultAction)
      (hpc : s.pc = .fetchQuery k n)
      (hq : s.service.queryCompilationResultActions ⟨n⟩ = some actions) :
      Moves host s { s with resource := s.resource.set k (s.resource.fetchBuild host k n actions),
                            pc := .idle }
        [.called .queryCompilationResultActions, .returned k (s.resource.fetchBuild host k n actions)]
  | raise (c : Rpc) (hc : s.pc.call = some c) :
      Moves host s { s with pc := if s.pc.fetching then .idle else .failed }
        [.called c, .raised (.remote c)]

theorem answer_moves (host : Host) (s : Sys) (name : String) :
    Moves host s (s.answer host name).1 (s.answer host name).2 := by
  unfold Sys.answer
  split
  · next k hpc =>
    split
    · exact .stay
    · next h =>
      split
      · next cr svc hc => exact .created k name h cr svc hpc hc
      · have h' : Moves host s _ _ := .raise .createCompilationResult (by simp [hpc, Pc.call])
        simpa [hpc, Pc.fetching] using h'
  · next k hpc =>
    split
    · next n hn => exact .toLoadQuery k n hpc hn
    · next hn => exact .loadEmpty k hpc hn
  · next k n hpc =>
    split
    · next actions hq => exact .loaded k n actions hpc hq
    · have h' : Moves host s _ _ := .raise .queryCompilationResultActions (by simp [hpc, Pc.call])
      simpa [hpc, Pc.fetching] using h'
  · next k hpc =>
    split
    · next n hn => exact .toFetchQuery k n hpc hn
    · next hn => exact .noName k hpc hn
  · next k n hpc =>
    split
    · next actions hq => exact .fetched k n actions hpc hq
    · have h' : Moves host s _ _ := .raise .queryCompilationResultActions (by simp [hpc, Pc.call])
      simpa [hpc, Pc.fetching] using h'
  all_goals exact .stay

/-- Every step is one of the `Moves`. -/
theorem step_moves (host : Host) (s : Sys) (i : Input) :
    Moves host s (s.step host i).1 (s.step host i).2 := by
  cases i with
  | other c => exact .serve c
  | read k =>
    simp only [Sys.step]
    split
    · next hpc =>
      split
      · next h =>
        simp only [Bool.and_eq_true, Option.isNone_iff_eq_none] at h
        exact .start k hpc h.1 h.2
      · next h => exact .hit k hpc (Bool.eq_false_iff.mpr h)
    · exact .stay
  | answer name => exact answer_moves host s name
  | fail =>
    simp only [Sys.step, Sys.fail]
    split
    · next c hc => exact .raise c hc
    · exact .stay

/-- Only another client's call, or the service creating the instance's own
result, changes the service. -/
theorem Sys.step_service (host : Host) (s : Sys) :
    ∀ i, (∀ c, i ≠ .other c) → (s.step host i).1.service = s.service ∨
      ∃ k name h cr service, s.pc = .loadCreate k ∧ i = .answer name ∧
        s.service.createCompilationResult
          (createCompilationResult s.resource.repository s.resource.environment) name h =
            some (cr, service) ∧
        (s.step host i).1 = { s with service, pc := .loadList k }
  | .other c, hi => absurd rfl (hi c)
  | .read k, _ => .inl (by simp only [Sys.step]; split <;> (try split) <;> rfl)
  | .answer name, _ => by
    cases hpc : s.pc with
    | loadCreate k =>
      simp only [Sys.step, Sys.answer, hpc]
      split
      · exact .inl rfl
      · next h =>
        split
        · next cr svc hc => exact .inr ⟨k, name, h, cr, svc, rfl, rfl, hc, rfl⟩
        · exact .inl rfl
    | _ =>
      left
      simp only [Sys.step, Sys.answer, hpc]
      all_goals split <;> rfl
  | .fail, _ => .inl (by simp only [Sys.step, Sys.fail]; split <;> rfl)

theorem Moves.called {host : Host} {s s' : Sys} {obs : List Obs} (hm : Moves host s s' obs) {c : Rpc}
    (h : Obs.called c ∈ obs) : s.pc.call = some c := by
  cases hm <;> simp_all [Pc.call]

theorem Moves.raised {host : Host} {s s' : Sys} {obs : List Obs} (hm : Moves host s s' obs) {e : Error}
    (h : Obs.raised e ∈ obs) : s'.resource = s.resource := by
  cases hm <;> simp_all

theorem Moves.frame {host : Host} {s s' : Sys} {obs : List Obs} (hm : Moves host s s' obs) :
    s'.resource = s.resource ∨ ∃ k v, s.pc.target = some k ∧ s'.resource = s.resource.set k v := by
  cases hm with
  | loadEmpty k hpc => exact .inr ⟨k, _, by simp [hpc, Pc.target], rfl⟩
  | loaded k n _ hpc => exact .inr ⟨k, _, by simp [hpc, Pc.target], rfl⟩
  | fetched k n _ hpc => exact .inr ⟨k, _, by simp [hpc, Pc.target], rfl⟩
  | _ => exact .inl rfl

theorem Moves.skipCompilation {host : Host} {s s' : Sys} {obs : List Obs} (hm : Moves host s s' obs) :
    s'.resource.skipCompilation = s.resource.skipCompilation := by
  rcases hm.frame with h | ⟨k, v, -, h⟩ <;> simp [h]

theorem Moves.builds {host : Host} {s s' : Sys} {obs : List Obs} (hm : Moves host s s' obs) :
    s'.resource.environment = s.resource.environment ∧
      s'.resource.loadBuild host = s.resource.loadBuild host ∧
        s'.resource.fetchBuild host = s.resource.fetchBuild host := by
  rcases hm.frame with h | ⟨k, v, -, h⟩ <;> simp [h]

theorem Pc.target_of_call {pc : Pc} {c : Rpc} (h : pc.call = some c) : ∃ k, pc.target = some k := by
  cases pc <;> simp_all [Pc.call, Pc.target]

theorem Moves.mem_compilationResults {host : Host} {s s' : Sys} {obs : List Obs}
    (hm : Moves host s s' obs) {R : Stored} (hR : R ∈ s.service.compilationResults) :
    R ∈ s'.service.compilationResults := by
  cases hm with
  | serve c => exact Service.serve_mem c hR
  | created _ _ _ _ _ _ hc => exact Service.createCompilationResult_mem hc hR
  | _ => exact hR

/-! ## The cells at each program point -/

/-- The cells the code finds at each program point: an eager instance at rest
has both; `__init__` loads the assets with both cells `None`, then the checks
with only the assets set; a lazy getter fetches property `k` only with `k`'s
cell `None`; only `__init__` can fail. -/
def Sys.Shape (s : Sys) : Prop :=
  match s.pc with
  | .idle => s.resource.skipCompilation = false →
      s.resource.assets.isSome ∧ s.resource.assetChecks.isSome
  | .loadCreate k | .loadList k | .loadQuery k _ =>
      s.resource.skipCompilation = false ∧ s.resource.assetChecks = none ∧
        (s.resource.assets.isSome ↔ k = .assetChecks)
  | .fetchList k | .fetchQuery k _ => s.resource.skipCompilation = true ∧ s.resource.cell k = none
  | .failed => s.resource.skipCompilation = false

theorem Sys.Shape.target_none {s : Sys} (h : s.Shape) {k : Artifact} (hk : s.pc.target = some k) :
    s.resource.cell k = none := by
  unfold Sys.Shape at h
  cases hpc : s.pc with
  | idle | failed => simp [hpc, Pc.target] at hk
  | loadCreate k' | loadList k' | loadQuery k' _ =>
    simp only [hpc, Pc.target, Option.some.injEq] at h hk
    subst hk
    cases k' <;> simp_all [Resource.cell]
  | fetchList k' | fetchQuery k' _ =>
    simp only [hpc, Pc.target, Option.some.injEq] at h hk
    exact hk ▸ h.2

theorem Sys.Shape.fetching {s : Sys} (h : s.Shape) {k : Artifact} (hk : s.pc.target = some k) :
    s.pc.fetching = s.resource.skipCompilation := by
  unfold Sys.Shape at h
  cases hpc : s.pc <;> simp_all [Pc.target, Pc.fetching]

theorem Sys.Shape.skipCompilation_of_pc {s : Sys} (h : s.Shape) {pc : Pc} (hpc : s.pc = pc)
    {k : Artifact} (hk : pc.target = some k) : s.resource.skipCompilation = pc.fetching := by
  subst hpc
  exact (h.fetching hk).symm

theorem Sys.Shape.init (service : Service) (repository : Repository) (environment : String)
    (lag : Float) (skip : Bool) : (Sys.init service repository environment lag skip).Shape := by
  cases skip <;> simp [Sys.Shape, Sys.init]

theorem Sys.Shape.moves {host : Host} {s s' : Sys} {obs : List Obs} (h : s.Shape)
    (hm : Moves host s s' obs) : s'.Shape := by
  cases hm with
  | stay | hit | serve => exact h
  | start k hpc hskip hcell => exact ⟨hskip, hcell⟩
  | created k _ _ _ _ hpc => simpa [Sys.Shape, hpc] using h
  | toLoadQuery k n hpc => simpa [Sys.Shape, hpc] using h
  | toFetchQuery k n hpc => simpa [Sys.Shape, hpc] using h
  | loadEmpty k hpc | loaded k _ _ hpc =>
    simp only [Sys.Shape, hpc] at h
    cases k <;> simp_all [Sys.Shape, Sys.finishLoad, Resource.set]
  | noName k hpc => exact fun hs => by simp_all [Sys.Shape]
  | fetched k n _ hpc =>
    simp only [Sys.Shape, hpc] at h
    cases k <;> simp_all [Sys.Shape, Resource.set, Resource.cell]
  | raise c hc =>
    obtain ⟨k, hk⟩ := Pc.target_of_call hc
    have hf := h.fetching hk
    have hn := h.target_none hk
    unfold Sys.Shape at h ⊢
    split at h <;> simp_all [Pc.fetching, Pc.call]

/-- At rest, a property whose read does not fetch has its cell set. -/
theorem Sys.Shape.idle_cell {s : Sys} (h : s.Shape) (hpc : s.pc = .idle) {k : Artifact}
    (hcell : (s.resource.skipCompilation && (s.resource.cell k).isNone) = false) :
    ∃ x, s.resource.cell k = some x := by
  simp only [Sys.Shape, hpc] at h
  rw [← Option.isSome_iff_exists]
  cases hs : s.resource.skipCompilation
  · cases k
    exacts [(h hs).1, (h hs).2]
  · simpa [hs] using hcell

/-! ## One step and the cells -/

/-- A step returns `v` for property `k` only leaving `k`'s cell holding `v`. -/
theorem Moves.cell_of_returned {host : Host} {s s' : Sys} {obs : List Obs} (h : s.Shape)
    (hm : Moves host s s' obs) {k : Artifact} {v : k.Val} (hr : Obs.returned k v ∈ obs) :
    s'.resource.cell k = some v := by
  cases hm with
  | hit k' hpc hcell =>
    obtain ⟨rfl, hv⟩ := Obs.returned.inj (List.mem_singleton.mp hr)
    obtain ⟨x, hx⟩ := h.idle_cell hpc hcell
    simp [eq_of_heq hv, hx]
  | fetched k' n actions hpc hq =>
    simp only [List.mem_cons, List.mem_singleton, List.not_mem_nil, reduceCtorEq, false_or, or_false] at hr
    obtain ⟨rfl, hv⟩ := Obs.returned.inj hr
    simp [eq_of_heq hv]
  | _ => simp at hr

/-- A step leaves a cell that holds a value as it is. -/
theorem Moves.cell_keep {host : Host} {s s' : Sys} {obs : List Obs} (h : s.Shape)
    (hm : Moves host s s' obs) {k : Artifact} {v : k.Val} (hc : s.resource.cell k = some v) :
    s'.resource.cell k = some v := by
  rcases hm.frame with he | ⟨k', v', hk', he⟩
  · rw [he, hc]
  · have hne : k ≠ k' := by
      rintro rfl
      rw [h.target_none hk'] at hc
      cases hc
    rw [he, Resource.cell_set_of_ne _ _ hne, hc]

/-- A set cell survives a step, and a read of it in that step returns its value. -/
theorem Moves.stable {host : Host} {s s' : Sys} {obs : List Obs} (h : s.Shape)
    (hm : Moves host s s' obs) {k : Artifact} {v : k.Val} (hc : s.resource.cell k = some v) :
    (s'.Shape ∧ s'.resource.cell k = some v) ∧ ∀ o ∈ obs, ∀ v', o = .returned k v' → v' = v := by
  have hc' := hm.cell_keep h hc
  refine ⟨⟨h.moves hm, hc'⟩, fun o ho v' hv' => ?_⟩
  subst hv'
  exact Option.some.inj ((hm.cell_of_returned h ho).symm.trans hc')

/-- The steps that fill an empty cell: a loader that queried a name and builds
from its actions, a loader whose lookup found no name and builds from none,
and a getter that queried a name and returns what it builds. -/
theorem Moves.fills {host : Host} {s s' : Sys} {obs : List Obs} (hm : Moves host s s' obs)
    {k : Artifact} {v : k.Val} (hk : s.resource.cell k = none) (hv : s'.resource.cell k = some v) :
    (∃ n actions, s.pc = .loadQuery k n ∧ s.service.queryCompilationResultActions ⟨n⟩ = some actions ∧
        v = s.resource.loadBuild host k actions) ∨
      (s.pc = .loadList k ∧ truthyName s.latestName = none ∧ v = s.resource.loadBuild host k []) ∨
      (∃ n actions, s.pc = .fetchQuery k n ∧ s.service.queryCompilationResultActions ⟨n⟩ = some actions ∧
        v = s.resource.fetchBuild host k n actions) := by
  cases hm with
  | loaded k' n actions hpc hq =>
    obtain rfl := Resource.set_fills hk hv
    exact .inl ⟨n, actions, hpc, hq, by simpa using hv.symm⟩
  | loadEmpty k' hpc hn =>
    obtain rfl := Resource.set_fills hk hv
    exact .inr (.inl ⟨hpc, hn, by simpa using hv.symm⟩)
  | fetched k' n actions hpc hq =>
    obtain rfl := Resource.set_fills hk hv
    exact .inr (.inr ⟨n, actions, hpc, hq, by simpa using hv.symm⟩)
  | _ => exact absurd (hk.symm.trans hv) (by simp)

/-- On a lazy instance a step changes the cells only by setting the cell of
the property whose value it returns. -/
theorem Moves.lazy_frame {host : Host} {s s' : Sys} {obs : List Obs} (h : s.Shape)
    (hskip : s.resource.skipCompilation = true) (hm : Moves host s s' obs) :
    s'.resource = s.resource ∨ ∃ k v, Obs.returned k v ∈ obs ∧ s'.resource = s.resource.set k v := by
  cases hm with
  | fetched k _ _ => exact .inr ⟨k, _, by simp, rfl⟩
  | loadEmpty _ hpc | loaded _ _ _ hpc => simp [Sys.Shape, hpc, hskip] at h
  | _ => exact .inl rfl

/-- An eager instance at rest stays at rest, keeps its cells and calls nothing. -/
theorem Moves.eager_idle {host : Host} {s s' : Sys} {obs : List Obs}
    (hskip : s.resource.skipCompilation = false) (hpc : s.pc = .idle) (hm : Moves host s s' obs) :
    s'.pc = .idle ∧ s'.resource = s.resource ∧ ∀ c, Obs.called c ∉ obs := by
  cases hm with
  | stay | serve | hit => exact ⟨hpc, rfl, by simp⟩
  | start _ _ hs => simp [hs] at hskip
  | raise c hc => simp [hpc, Pc.call] at hc
  | _ => simp_all

/-! ## Reads at rest and the steps of one loader of `__init__` -/

/-- A read at rest of a set cell returns its value at once: no call, no change. -/
theorem Sys.step_read_set (host : Host) {s : Sys} (hpc : s.pc = .idle) {k : Artifact} {v : k.Val}
    (hc : s.resource.cell k = some v) : s.step host (.read k) = (s, [.returned k v]) := by
  simp [Sys.step, hpc, hc]

/-- The service answers a loader's create: it stores a result compiled from the
environment's branch under the name it chose. -/
theorem Sys.step_answer_loadCreate (host : Host) {s : Sys} {k : Artifact} {name : String}
    {actions : List CompilationResultAction} (hpc : s.pc = .loadCreate k)
    (h : name ∉ s.service.names)
    (hb : s.service.branches.lookup s.resource.environment = some actions) :
    s.step host (.answer name) =
      ({ s with
          service := s.service.store name h
            (createCompilationResult s.resource.repository s.resource.environment).compilationResult
            actions,
          pc := .loadList k }, [.called .createCompilationResult]) := by
  simp only [Sys.step, Sys.answer, hpc, dif_neg h, Service.createCompilationResult]
  simp [createCompilationResult, hb]

theorem Sys.step_answer_loadList (host : Host) {s : Sys} {k : Artifact} {n name : String}
    (hpc : s.pc = .loadList k) (hn : truthyName s.latestName = some n) :
    s.step host (.answer name) = ({ s with pc := .loadQuery k n }, [.called .listCompilationResults]) := by
  simp only [Sys.step, Sys.answer, hpc, hn]

theorem Sys.step_answer_loadQuery (host : Host) {s : Sys} {k : Artifact} {n name : String}
    {actions : List CompilationResultAction} (hpc : s.pc = .loadQuery k n)
    (hq : s.service.queryCompilationResultActions ⟨n⟩ = some actions) :
    s.step host (.answer name) = (s.finishLoad host k actions, [.called .queryCompilationResultActions]) := by
  simp only [Sys.step, Sys.answer, hpc, hq]

theorem Sys.step_answer_loadList_none (host : Host) {s : Sys} {k : Artifact} {name : String}
    (hpc : s.pc = .loadList k) (hn : truthyName s.latestName = none) :
    s.step host (.answer name) = (s.finishLoad host k [], [.called .listCompilationResults]) := by
  simp only [Sys.step, Sys.answer, hpc, hn]

/-! ## The steps of a getter's fetch -/

theorem Sys.step_answer_fetchList (host : Host) {s : Sys} {k : Artifact} {n name : String}
    (hpc : s.pc = .fetchList k) (hn : truthyName s.latestName = some n) :
    s.step host (.answer name) = ({ s with pc := .fetchQuery k n }, [.called .listCompilationResults]) := by
  simp only [Sys.step, Sys.answer, hpc, hn]

theorem Sys.step_answer_fetchList_none (host : Host) {s : Sys} {k : Artifact} {name : String}
    (hpc : s.pc = .fetchList k) (hn : truthyName s.latestName = none) :
    s.step host (.answer name) = ({ s with pc := .idle },
      [.called .listCompilationResults, .raised (.exception (noCompilationMessage s.resource.environment))]) := by
  simp only [Sys.step, Sys.answer, hpc, hn]

theorem Sys.step_answer_fetchQuery (host : Host) {s : Sys} {k : Artifact} {n name : String}
    {actions : List CompilationResultAction} (hpc : s.pc = .fetchQuery k n)
    (hq : s.service.queryCompilationResultActions ⟨n⟩ = some actions) :
    s.step host (.answer name) =
      ({ s with resource := s.resource.set k (s.resource.fetchBuild host k n actions), pc := .idle },
        [.called .queryCompilationResultActions, .returned k (s.resource.fetchBuild host k n actions)]) := by
  simp only [Sys.step, Sys.answer, hpc, hq]

end DagsterDataform
