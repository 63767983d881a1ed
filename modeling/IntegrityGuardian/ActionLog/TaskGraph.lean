import IntegrityGuardian.Library.CycleSearch
import IntegrityGuardian.Library.OnePass
import IntegrityGuardian.Python.Text
import Mathlib.Data.Finset.Sort

/-!
# Relations between tasks

`dependency_cycles` and the `task_neighbors` of `build_mind` in `codex_action_log.py`, over
the tasks by their ids in the order of the dict.
-/

namespace IntegrityGuardian.ActionLog

open Python Library CycleSearch

/-- The relations of a task; an absent parent is the empty text, an absent list is empty. -/
structure Task where
  parentTaskId : Str
  dependsOnTaskIds : List Str
  relatedTaskIds : List Str
  supersedesTaskIds : List Str
  blocksTaskIds : List Str
  deriving DecidableEq

/-- `dict[str, dict]`, in the order of insertion. -/
structure TaskMap where
  entries : List (Str × Task)
  distinct : (entries.map Prod.fst).Nodup

def TaskMap.ids (tasks : TaskMap) : List Str := tasks.entries.map Prod.fst

def TaskMap.get (tasks : TaskMap) (id : Str) : Option Task := tasks.entries.lookup id

/-! ## Dependency cycles -/

/-- `graph.get(node, [])`. -/
def TaskMap.graph (tasks : TaskMap) (id : Str) : List Str :=
  match tasks.get id with
  | some task => task.dependsOnTaskIds.filter (· ∈ tasks.ids)
  | none => []

def dependencyCycles (tasks : TaskMap) (limit : Int) : Option (List (List Str)) :=
  search tasks.graph limit tasks.ids

/-- A known task names a known one. -/
def DependsOn (tasks : TaskMap) (u v : Str) : Prop :=
  ∃ task, (u, task) ∈ tasks.entries ∧ v ∈ task.dependsOnTaskIds ∧ v ∈ tasks.ids

variable {tasks : TaskMap}

theorem TaskMap.get_eq_some {id : Str} {task : Task} :
    tasks.get id = some task ↔ (id, task) ∈ tasks.entries := by
  have hdistinct := tasks.distinct
  unfold TaskMap.get
  generalize tasks.entries = entries at *
  induction entries with
  | nil => simp
  | cons entry entries ih =>
    obtain ⟨key, value⟩ := entry
    rw [List.map_cons, List.nodup_cons] at hdistinct
    rw [List.lookup_cons, List.mem_cons, Prod.mk.injEq]
    by_cases hkey : id = key
    · subst hkey
      have hnot : (id, task) ∉ entries := by
        intro hmem
        exact hdistinct.1 (List.mem_map.2 ⟨_, hmem, rfl⟩)
      simp [hnot, eq_comm]
    · rw [beq_eq_false_iff_ne.2 hkey]
      simp [hkey, ih hdistinct.2]

theorem mem_graph {u v : Str} : v ∈ tasks.graph u ↔ DependsOn tasks u v := by
  unfold TaskMap.graph DependsOn
  cases htask : tasks.get u with
  | some task =>
    have hentry := TaskMap.get_eq_some.1 htask
    rw [List.mem_filter, decide_eq_true_iff]
    constructor
    · intro hv
      exact ⟨task, hentry, hv⟩
    · rintro ⟨task', hentry', hv⟩
      have hsame := TaskMap.get_eq_some.2 hentry'
      rw [htask] at hsame
      injection hsame with hsame
      rw [hsame]
      exact hv
  | none =>
    constructor
    · intro hv
      cases hv
    · rintro ⟨task, hentry, -⟩
      rw [TaskMap.get_eq_some.2 hentry] at htask
      cases htask

/-- Soundness, completeness below the limit, and emptiness of the cycles that are found. -/
theorem dependencyCycles_exact (tasks : TaskMap) {limit : Int} (hlimit : 1 ≤ limit) :
    ∃ cycles, dependencyCycles tasks limit = some cycles
      ∧ (∀ c ∈ cycles, ClosedWalk (DependsOn tasks) c ∧ c.dropLast.Nodup)
      ∧ (cycles = [] ↔ ∀ v, ¬ Relation.TransGen (DependsOn tasks) v v)
      ∧ ((cycles.length : Int) < limit →
        ∀ walk, ClosedWalk (DependsOn tasks) walk →
          ∃ u v, [u, v] <:+: walk ∧ Recorded cycles u v) := by
  have hedge : (fun u v => v ∈ tasks.graph u) = DependsOn tasks := by
    ext u v
    exact mem_graph
  have hgraph : ∀ u, ∀ v ∈ tasks.graph u, v ∈ tasks.ids := by
    intro u v hv
    obtain ⟨-, -, -, hknown⟩ := mem_graph.1 hv
    exact hknown
  obtain ⟨cycles, hcycles, hsound, hcomplete⟩ := search_spec hgraph limit
  have hempty := search_eq_nil_iff hgraph hlimit
  rw [hedge] at hsound hcomplete hempty
  rw [hcycles, Option.some_inj] at hempty
  exact ⟨cycles, hcycles, hsound, hempty, hcomplete⟩

namespace Sample

def dependent (ids : List Str) : Task := ⟨[], ids, [], [], []⟩

/-- Two tasks that wait for each other, and one that waits for an unknown one. -/
def waiting : TaskMap where
  entries := [(str "a", dependent [str "b"]), (str "b", dependent [str "a", str "c"]),
    (str "d", dependent [str "e"])]
  distinct := by decide

theorem waiting_cycles :
    ∃ cycles, dependencyCycles waiting 20 = some cycles
      ∧ (∀ c ∈ cycles, ClosedWalk (DependsOn waiting) c ∧ c.dropLast.Nodup)
      ∧ (cycles = [] ↔ ∀ v, ¬ Relation.TransGen (DependsOn waiting) v v)
      ∧ ((cycles.length : Int) < 20 →
        ∀ walk, ClosedWalk (DependsOn waiting) walk →
          ∃ u v, [u, v] <:+: walk ∧ Recorded cycles u v) :=
  dependencyCycles_exact waiting (by decide)

example : dependencyCycles waiting 20 = some [[str "a", str "b", str "a"]] := by decide

end Sample

/-! ## Neighbours -/

/-- The ids in the relation fields. -/
def Task.relations (task : Task) : List (List Str) :=
  [task.dependsOnTaskIds, task.relatedTaskIds, task.supersedesTaskIds, task.blocksTaskIds]

/-- What the first loop adds for one id. -/
def TaskMap.direct (tasks : TaskMap) (id : Str) : List Str :=
  match tasks.get id with
  | some task =>
    (if task.parentTaskId ∈ tasks.ids then [task.parentTaskId] else [])
      ++ task.relations.flatten.filter (· ∈ tasks.ids)
  | none => []

/-- `selected` behind the first loop. -/
def TaskMap.selected (tasks : TaskMap) (taskIds : List Str) : Finset Str :=
  (taskIds ++ taskIds.flatMap tasks.direct).toFinset

/-- One round of the second loop. -/
def select (selected : Finset Str) (candidate : Str × Task) : Finset Str :=
  if candidate.2.parentTaskId ∈ selected then insert candidate.1 selected
  else if ∃ field ∈ candidate.2.relations, ∃ item ∈ field, item ∈ selected then
    insert candidate.1 selected
  else selected

def taskNeighbors (tasks : TaskMap) (taskIds : List Str) : List Str :=
  (tasks.entries.foldl select (tasks.selected taskIds)).sort

/-- The ids a candidate is tested for. -/
def adjacent (candidate : Str × Task) : Finset Str :=
  (candidate.2.parentTaskId :: candidate.2.relations.flatten).toFinset

theorem select_eq (selected : Finset Str) (candidate : Str × Task) :
    select selected candidate = OnePass.step adjacent (fun c => {c.1}) selected candidate := by
  have hread : (adjacent candidate ∩ selected).Nonempty
      ↔ candidate.2.parentTaskId ∈ selected
        ∨ ∃ field ∈ candidate.2.relations, ∃ item ∈ field, item ∈ selected := by
    unfold adjacent
    simp only [Finset.Nonempty, Finset.mem_inter, List.mem_toFinset, List.mem_cons,
      List.mem_flatten]
    constructor
    · rintro ⟨k, rfl | ⟨field, hfield, hk⟩, hselected⟩
      · exact .inl hselected
      · exact .inr ⟨field, hfield, k, hk, hselected⟩
    · rintro (h | ⟨field, hfield, k, hk, hselected⟩)
      · exact ⟨_, .inl rfl, h⟩
      · exact ⟨k, .inr ⟨field, hfield, hk⟩, hselected⟩
  unfold select OnePass.step
  by_cases hparent : candidate.2.parentTaskId ∈ selected
  · rw [if_pos hparent, if_pos (hread.2 (.inl hparent)), Finset.union_singleton]
  · rw [if_neg hparent]
    by_cases hrelated : ∃ field ∈ candidate.2.relations, ∃ item ∈ field, item ∈ selected
    · rw [if_pos hrelated, if_pos (hread.2 (.inr hrelated)), Finset.union_singleton]
    · rw [if_neg hrelated, if_neg fun h => (hread.1 h).elim hparent hrelated]

theorem taskNeighbors_eq (tasks : TaskMap) (taskIds : List Str) :
    taskNeighbors tasks taskIds
      = (OnePass.pass adjacent (fun c => {c.1}) (tasks.selected taskIds) tasks.entries).sort := by
  unfold taskNeighbors OnePass.pass
  congr 1
  have hselect : select = OnePass.step adjacent fun c => {c.1} := by
    funext selected candidate
    exact select_eq selected candidate
  rw [hselect]

/-- The same tasks in another order. -/
def TaskMap.reorder (tasks : TaskMap) {order : List (Str × Task)} (h : order.Perm tasks.entries) :
    TaskMap := ⟨order, (h.map Prod.fst).nodup_iff.2 tasks.distinct⟩

theorem selected_reorder (tasks : TaskMap) {order : List (Str × Task)}
    (h : order.Perm tasks.entries) (taskIds : List Str) :
    (tasks.reorder h).selected taskIds = tasks.selected taskIds := by
  have hget : (tasks.reorder h).get = tasks.get := by
    funext id
    ext task
    rw [TaskMap.get_eq_some, TaskMap.get_eq_some]
    exact h.mem_iff
  have hids (id : Str) : id ∈ (tasks.reorder h).ids ↔ id ∈ tasks.ids := (h.map Prod.fst).mem_iff
  have hdirect : (tasks.reorder h).direct = tasks.direct := by
    funext id
    unfold TaskMap.direct
    rw [hget]
    simp only [hids]
  unfold TaskMap.selected
  rw [hdirect]

/-- The ids within one step of the first loop's. -/
def TaskMap.near (tasks : TaskMap) (taskIds : List Str) : Finset Str :=
  OnePass.near adjacent Prod.fst (tasks.selected taskIds) tasks.entries

/-- The neighbours are the same in every order if and only if every task with a relation into
the near ids is near itself. -/
theorem taskNeighbors_order_iff (tasks : TaskMap) (taskIds : List Str) :
    (∀ (order : List (Str × Task)) (h : order.Perm tasks.entries),
      taskNeighbors (tasks.reorder h) taskIds = taskNeighbors tasks taskIds)
      ↔ ∀ candidate ∈ tasks.entries, (adjacent candidate ∩ tasks.near taskIds).Nonempty
        → candidate.1 ∈ tasks.near taskIds := by
  unfold TaskMap.near
  rw [← OnePass.pass_perm_iff tasks.distinct]
  constructor
  · intro hsame order horder
    have hsort := hsame order horder
    rw [taskNeighbors_eq, taskNeighbors_eq, selected_reorder] at hsort
    have hset := congrArg List.toFinset hsort
    rw [Finset.sort_toFinset, Finset.sort_toFinset] at hset
    exact hset
  · intro hsame order horder
    rw [taskNeighbors_eq, taskNeighbors_eq, selected_reorder]
    exact congrArg Finset.sort (hsame order horder)

namespace Sample

/-- Each task waits for the one before. -/
def chain : TaskMap where
  entries := [(str "a", dependent []), (str "b", dependent [str "a"]),
    (str "c", dependent [str "b"])]
  distinct := by decide

theorem chain_perm : [(str "c", dependent [str "b"]), (str "b", dependent [str "a"]),
    (str "a", dependent [])].Perm chain.entries := by decide

/-- With the last task first, it is not found. -/
theorem neighbors_depend_on_order :
    ¬ ∀ (tasks : TaskMap) (taskIds : List Str) (order : List (Str × Task))
      (h : order.Perm tasks.entries),
      (taskNeighbors (tasks.reorder h) taskIds).toFinset = (taskNeighbors tasks taskIds).toFinset := by
  intro hall
  have hsame := hall chain [str "a"] _ chain_perm
  rw [taskNeighbors_eq, taskNeighbors_eq, Finset.sort_toFinset, Finset.sort_toFinset] at hsame
  have hfound : str "c" ∈ OnePass.pass adjacent (fun c => {c.1}) (chain.selected [str "a"])
      chain.entries := by decide
  rw [← hsame] at hfound
  exact absurd hfound (by decide)

end Sample

end IntegrityGuardian.ActionLog
