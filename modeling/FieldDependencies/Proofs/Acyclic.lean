import Mathlib.Logic.Relation
import FieldDependencies.Proofs.Reachable
import FieldDependencies.Proofs.CircularReferenceChecker

/-!
# `FieldDependencies.Proofs.Acyclic`: the resolved rows form no cycle

`DependsOn s a b`: some row of `s` has dependant `a` and dependency `b`. `reachable_acyclic`:
in every reachable table this graph has no cycle, provided only that the checker reports a
cycle whenever the candidate dependency reaches the dependant (`a = b` included).

The checker is asked about each new arc against the table as it was before the call, never
about the arcs the same call adds. That is sound because the arcs of one call share an end:
a rebuild adds arcs out of the field it rebuilds, a repair adds arcs into the field it repairs
to. `not_transGen_of_arcs_into` is the graph fact behind it: arcs `d → t` into one node, each
with no old path from `t` back to `d`, close no cycle, since a cycle through a new arc would
leave `t` on old arcs only and come back to some `d`. `not_transGen_of_arcs_out` is the same
fact for the reversed graph.

`acyclic_apply` is the step: every call keeps a table acyclic. `invariant_of_reachable` carries
it over every run.

The spec's checker meets the assumption (`CircularReferenceChecker.willCauseCircularDep_sound`):
it follows every resolved row's dependency arc, and the via arcs besides.
-/

set_option autoImplicit false

namespace FieldDependencies

open Relation

section Graph
variable {α : Type} {R R' : α → α → Prop}

/-- A path in a graph grown by arcs into `t`, each `d → t` with no old path from `t` to `d`,
is old, or reaches `t` by a new arc and continues on old arcs. -/
theorem transGen_of_arcs_into {t : α}
    (h : ∀ x y, R' x y → R x y ∨ (y = t ∧ ¬ ReflTransGen R t x)) {x y : α}
    (hxy : TransGen R' x y) :
    TransGen R x y ∨
      (ReflTransGen R t y ∧ ∃ d, ReflTransGen R x d ∧ ¬ ReflTransGen R t d) := by
  induction hxy with
  | single hxy =>
    rcases h _ _ hxy with hxy | ⟨rfl, hd⟩
    · exact .inl (.single hxy)
    · exact .inr ⟨.refl, _, .refl, hd⟩
  | tail _ hzy ih =>
    rcases h _ _ hzy with hzy | ⟨rfl, hz⟩
    · rcases ih with ih | ⟨ht, hd⟩
      · exact .inl (ih.tail hzy)
      · exact .inr ⟨ht.tail hzy, hd⟩
    · rcases ih with ih | ⟨ht, -⟩
      · exact .inr ⟨.refl, _, ih.to_reflTransGen, hz⟩
      · exact absurd ht hz

/-- Arcs into one node `t`, each `d → t` with no old path from `t` to `d`, keep a graph
acyclic. -/
theorem not_transGen_of_arcs_into {t : α} (hR : ∀ x, ¬ TransGen R x x)
    (h : ∀ x y, R' x y → R x y ∨ (y = t ∧ ¬ ReflTransGen R t x)) (x : α) :
    ¬ TransGen R' x x := fun hx => by
  rcases transGen_of_arcs_into h hx with hx | ⟨ht, d, hd, htd⟩
  · exact hR x hx
  · exact htd (ht.trans hd)

/-- Arcs out of one node `f`, each `f → b` with no old path from `b` to `f`, keep a graph
acyclic. -/
theorem not_transGen_of_arcs_out {f : α} (hR : ∀ x, ¬ TransGen R x x)
    (h : ∀ x y, R' x y → R x y ∨ (x = f ∧ ¬ ReflTransGen R y f)) (x : α) :
    ¬ TransGen R' x x := fun hx => by
  refine @not_transGen_of_arcs_into _ (Function.swap R) (Function.swap R') f
    (fun x hx => hR x (transGen_swap.mp hx)) (fun x y hxy => ?_) x hx.swap
  rcases h y x hxy with hxy | ⟨rfl, hd⟩
  · exact .inl hxy
  · exact .inr ⟨rfl, fun h' => hd (reflTransGen_swap.mp h')⟩

end Graph

/-- The graph of the resolved rows: an arc from the dependant to the dependency of each. -/
def DependsOn (s : FieldDependencyStore) (a b : FieldId) : Prop :=
  ∃ dep ∈ s.rows, dep.dependant = a ∧ dep.dependency = some b

variable (schema : Schema)
variable (willCauseCircularDep : FieldDependencyStore → FieldId → FieldId → Bool)

/-- The spec's checker reports a cycle along every path of resolved rows. -/
theorem CircularReferenceChecker.willCauseCircularDep_sound (s : FieldDependencyStore)
    (a b : FieldId) (h : ReflTransGen (DependsOn s) b a) :
    CircularReferenceChecker.willCauseCircularDep s a b = true :=
  (CircularReferenceChecker.willCauseCircularDep_iff s a b).mpr <|
    h.mono fun _ _ ⟨dep, hdep, hd, hb⟩ =>
      (CircularReferenceChecker.mem_readsOf s).mpr ⟨dep, hdep, hd, by simp [hb], .inl hb⟩

/-- A break adds no arc. -/
theorem dependsOn_breakDependenciesForField {field : Field} {s : FieldDependencyStore}
    {a b : FieldId} (h : DependsOn (breakDependenciesForField schema field s) a b) :
    DependsOn s a b := by
  obtain ⟨_, hdep, rfl, hb⟩ := h
  obtain ⟨dep, hmem, -, rfl⟩ := exists_of_mem_breakDependenciesForField schema hdep
  exact ⟨dep, hmem, (dependant_breakRow schema field dep).symm,
    dependency_breakRow_eq_some schema hb⟩

/-- A repair adds only arcs into its field, each accepted by the checker. -/
theorem dependsOn_updateFieldsWithBrokenReferences {field : Field} {s : FieldDependencyStore}
    {a b : FieldId}
    (h : DependsOn (updateFieldsWithBrokenReferences schema willCauseCircularDep field s).2 a b) :
    DependsOn s a b ∨ (b = field.id ∧ willCauseCircularDep s a field.id = false) := by
  obtain ⟨_, hdep, rfl, hb⟩ := h
  simp only [rows_updateFieldsWithBrokenReferences, List.mem_map] at hdep
  obtain ⟨dep, hdep, rfl⟩ := hdep
  rcases dependency_repairRow_eq_some schema willCauseCircularDep hb with hb | ⟨rfl, hr⟩
  · exact .inl ⟨dep, hdep, by simp, hb⟩
  · simp only [repairs, Bool.and_eq_true, Bool.not_eq_true'] at hr
    exact .inr ⟨rfl, by simpa using hr.2⟩

/-- A rebuild adds only arcs out of its field, each accepted by the checker. -/
theorem dependsOn_rebuiltStore {s : FieldDependencyStore} {fieldInstance : Field}
    {fieldLookupCache : FieldCache schema} {descs : List DependencyDescriptor}
    {newDependencies : List FieldDependency}
    (hnew : constructDependencies schema fieldInstance fieldLookupCache descs =
      .ok newDependencies)
    (hc : ∀ dep ∈ (rebuildDiff (currentDependencies s fieldInstance) newDependencies).2,
      causesCircularDep willCauseCircularDep s fieldInstance dep = false)
    {a b : FieldId} (h : DependsOn (rebuiltStore s fieldInstance newDependencies) a b) :
    DependsOn s a b ∨
      (a = fieldInstance.id ∧ willCauseCircularDep s fieldInstance.id b = false) := by
  obtain ⟨_, hdep, rfl, hb⟩ := h
  rcases mem_rebuiltStore s fieldInstance newDependencies hdep with hdep | ⟨d, hd, _, rfl⟩
  · exact .inl ⟨_, hdep, rfl, hb⟩
  · have hcd := hc d hd
    simp only [causesCircularDep, show d.dependency = some b from hb] at hcd
    exact .inr ⟨(toCreate_spec schema hnew hd).1, hcd⟩

/-- The empty table has no arc. -/
theorem acyclic_empty : ∀ a, ¬ TransGen (DependsOn .empty) a a := fun a ha => by
  obtain ⟨_, -, _, hdep, -⟩ := TransGen.tail'_iff.mp ha
  simp at hdep

/-- Every call keeps a table acyclic, when the checker reports a cycle whenever the candidate
dependency reaches the dependant. A rebuild adds arcs out of its field only, a repair arcs into
its field only, each accepted by the checker on the table before the call; a break adds none. -/
theorem acyclic_apply
    (hsound : ∀ s a b, ReflTransGen (DependsOn s) b a → willCauseCircularDep s a b = true)
    (op : Operation schema) {s : FieldDependencyStore}
    (ih : ∀ a, ¬ TransGen (DependsOn s) a a) :
    ∀ a, ¬ TransGen (DependsOn (Operation.apply schema willCauseCircularDep op s)) a a := by
  have hcheck :
      ∀ s a b, willCauseCircularDep s a b = false → ¬ ReflTransGen (DependsOn s) b a :=
    fun s a b hf hr => by simp [hsound s a b hr] at hf
  cases op with
  | rebuild fieldInstance fieldDependencies fieldLookupCache =>
    rcases storeOf_rebuildFieldDependencies schema willCauseCircularDep fieldInstance
      fieldDependencies fieldLookupCache s with h | ⟨newDependencies, hnew, hc, h⟩ <;>
      rw [Operation.apply, h]
    · exact ih
    · refine not_transGen_of_arcs_out (f := fieldInstance.id) ih fun a b hab => ?_
      rcases dependsOn_rebuiltStore schema willCauseCircularDep hnew hc hab with hab | ⟨rfl, hf⟩
      · exact .inl hab
      · exact .inr ⟨rfl, hcheck _ _ _ hf⟩
  | breakDependencies field =>
    exact fun a ha => ih a (ha.mono fun _ _ => dependsOn_breakDependenciesForField schema)
  | updateBrokenReferences field =>
    refine not_transGen_of_arcs_into (t := field.id) ih fun a b hab => ?_
    rcases dependsOn_updateFieldsWithBrokenReferences schema willCauseCircularDep hab with
      hab | ⟨rfl, hf⟩
    · exact .inl hab
    · exact .inr ⟨rfl, hcheck _ _ _ hf⟩

/-- Every reachable table is acyclic: no field reaches itself through resolved rows, in
particular no row depends on its own dependant. The checker is only assumed to report a cycle
whenever the candidate dependency `b` reaches the dependant `a` (`a = b` included) on the table
it is asked about. -/
theorem reachable_acyclic
    (hsound : ∀ s a b, ReflTransGen (DependsOn s) b a → willCauseCircularDep s a b = true)
    {s : FieldDependencyStore} (h : Reachable schema willCauseCircularDep s) :
    ∀ a, ¬ TransGen (DependsOn s) a a :=
  invariant_of_reachable schema willCauseCircularDep (fun s => ∀ a, ¬ TransGen (DependsOn s) a a)
    acyclic_empty (fun _ op => acyclic_apply schema willCauseCircularDep hsound op) h

/-- With the spec's checker, the table of a lookup through `link` is acyclic. -/
theorem reachable_acyclic_lookupStore :
    (∀ s a b, ReflTransGen (DependsOn s) b a →
      CircularReferenceChecker.willCauseCircularDep s a b = true) ∧
    Reachable linkedTables CircularReferenceChecker.willCauseCircularDep lookupStore ∧
    ∀ a, ¬ TransGen (DependsOn lookupStore) a a :=
  ⟨CircularReferenceChecker.willCauseCircularDep_sound, reachable_runOperations linkedTables _ _,
    reachable_acyclic linkedTables _ CircularReferenceChecker.willCauseCircularDep_sound
      (reachable_runOperations linkedTables _ _)⟩

end FieldDependencies
