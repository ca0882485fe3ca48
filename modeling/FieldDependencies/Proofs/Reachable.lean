import FieldDependencies.Proofs.Break
import FieldDependencies.Proofs.Repair
import FieldDependencies.Proofs.Rebuild
import FieldDependencies.Spec.CircularReferenceChecker

/-!
# `FieldDependencies.Proofs.Reachable`: the tables the three operations reach

`Reachable schema willCauseCircularDep s`: the table `s` comes from the empty table by calls
of `rebuild_field_dependencies`, `break_dependencies_for_field` and
`update_fields_with_broken_references`, in any order and with any arguments. Fields may be
created, renamed or deleted between the calls: every call takes its field with whatever name it
has then, and every rebuild its own cache. The schema (tables, types, link targets) and the
checker are fixed. A rebuild that raises leaves the table as it was
(`rebuildFieldDependencies_error_store`), so `storeOf` takes both outcomes.

Each invariant below is proved the same way: it holds of the empty table and of each row an
operation writes, given that it holds before.

* `reachable_wellFormed`: every row has the shape `FieldDependency.WellFormed` names. Exactly
  one of `dependency` and `broken_reference_field_name` is set; a via is a link-row field of
  the dependant's table; a dependency lies in the dependant's table or in the table the via
  links to. The last is the disjunction the repair query matches, and it is all the repair
  keeps: its first clause also matches rows with a via.
* `reachable_dependency_ne_dependant`: when the checker reports a field as circular with
  itself, no row depends on its own dependant.
-/

set_option autoImplicit false

namespace FieldDependencies

variable (schema : Schema)
variable (willCauseCircularDep : FieldDependencyStore → FieldId → FieldId → Bool)

/-- The table after a call that returned or raised. -/
def storeOf {α : Type} : EStateM.Result RebuilderError FieldDependencyStore α →
    FieldDependencyStore
  | .ok _ s => s
  | .error _ s => s

/-- The tables reachable from the empty table by the three operations. -/
inductive Reachable : FieldDependencyStore → Prop
  | empty : Reachable .empty
  | rebuild {s : FieldDependencyStore} (fieldInstance : Field)
      (fieldDependencies : Option (List DependencyDescriptor))
      (fieldLookupCache : FieldCache schema) :
      Reachable s →
      Reachable (storeOf ((rebuildFieldDependencies schema willCauseCircularDep fieldInstance
        fieldDependencies fieldLookupCache).run s))
  | breakDependencies {s : FieldDependencyStore} (field : Field) :
      Reachable s → Reachable (breakDependenciesForField schema field s)
  | updateBrokenReferences {s : FieldDependencyStore} (field : Field) :
      Reachable s →
      Reachable (updateFieldsWithBrokenReferences schema willCauseCircularDep field s).2

/-- A rebuild that raises leaves its table; one that returns leaves `rebuiltStore`. -/
theorem storeOf_rebuildFieldDependencies (fieldInstance : Field)
    (fieldDependencies : Option (List DependencyDescriptor))
    (fieldLookupCache : FieldCache schema) (s : FieldDependencyStore) :
    storeOf ((rebuildFieldDependencies schema willCauseCircularDep fieldInstance
        fieldDependencies fieldLookupCache).run s) = s ∨
    ∃ newDependencies, constructDependencies schema fieldInstance fieldLookupCache
        (fieldDependencies.getD []) = .ok newDependencies ∧
      (∀ dep ∈ (rebuildDiff (currentDependencies s fieldInstance) newDependencies).2,
        causesCircularDep willCauseCircularDep s fieldInstance dep = false) ∧
      storeOf ((rebuildFieldDependencies schema willCauseCircularDep fieldInstance
        fieldDependencies fieldLookupCache).run s) =
        rebuiltStore s fieldInstance newDependencies := by
  cases h : (rebuildFieldDependencies schema willCauseCircularDep fieldInstance
      fieldDependencies fieldLookupCache).run s with
  | ok u s' =>
    obtain ⟨newDependencies, hnew, hc, rfl⟩ := rebuildFieldDependencies_ok schema _ h
    exact .inr ⟨newDependencies, hnew, hc, rfl⟩
  | error e s' => exact .inl (rebuildFieldDependencies_error_store schema _ h)

/-- One call of the three operations, with its arguments. -/
inductive Operation
  | rebuild (fieldInstance : Field) (fieldDependencies : Option (List DependencyDescriptor))
      (fieldLookupCache : FieldCache schema)
  | breakDependencies (field : Field)
  | updateBrokenReferences (field : Field)

/-- The table after one call. -/
def Operation.apply : Operation schema → FieldDependencyStore → FieldDependencyStore
  | .rebuild fieldInstance fieldDependencies fieldLookupCache, s =>
    storeOf ((rebuildFieldDependencies schema willCauseCircularDep fieldInstance
      fieldDependencies fieldLookupCache).run s)
  | .breakDependencies field, s => breakDependenciesForField schema field s
  | .updateBrokenReferences field, s =>
    (updateFieldsWithBrokenReferences schema willCauseCircularDep field s).2

/-- The table after the calls `ops`, in order, from the empty table. -/
def runOperations (ops : List (Operation schema)) : FieldDependencyStore :=
  ops.foldl (fun s op => Operation.apply schema willCauseCircularDep op s) .empty

theorem reachable_apply {s : FieldDependencyStore} (h : Reachable schema willCauseCircularDep s)
    (op : Operation schema) :
    Reachable schema willCauseCircularDep (Operation.apply schema willCauseCircularDep op s) := by
  cases op with
  | rebuild fieldInstance fieldDependencies fieldLookupCache =>
    exact .rebuild fieldInstance fieldDependencies fieldLookupCache h
  | breakDependencies field => exact .breakDependencies field h
  | updateBrokenReferences field => exact .updateBrokenReferences field h

/-- A property of the empty table that every call keeps holds of every reachable table. -/
theorem invariant_of_reachable (P : FieldDependencyStore → Prop) (hempty : P .empty)
    (hstep : ∀ s op, P s → P (Operation.apply schema willCauseCircularDep op s))
    {s : FieldDependencyStore} (h : Reachable schema willCauseCircularDep s) : P s := by
  induction h with
  | empty => exact hempty
  | rebuild fieldInstance fieldDependencies fieldLookupCache _ ih =>
    exact hstep _ (.rebuild fieldInstance fieldDependencies fieldLookupCache) ih
  | breakDependencies field _ ih => exact hstep _ (.breakDependencies field) ih
  | updateBrokenReferences field _ ih => exact hstep _ (.updateBrokenReferences field) ih

/-- Every run of calls reaches a reachable table. -/
theorem reachable_runOperations (ops : List (Operation schema)) :
    Reachable schema willCauseCircularDep (runOperations schema willCauseCircularDep ops) := by
  suffices ∀ s, Reachable schema willCauseCircularDep s →
      Reachable schema willCauseCircularDep
        (ops.foldl (fun s op => Operation.apply schema willCauseCircularDep op s) s) from
    this _ .empty
  induction ops with
  | nil => exact fun _ h => h
  | cons op ops ih => exact fun s h => ih _ (reachable_apply schema willCauseCircularDep h op)

/-- The table of `test_rebuilding_a_link_row_field_creates_dependencies_with_vias`: `link`
rebuilt to read the other table's `primary` through itself. The checker is the spec's. -/
def linkRowStore : FieldDependencyStore :=
  runOperations linkedTables CircularReferenceChecker.willCauseCircularDep
    [.rebuild ⟨4, "link"⟩ (some [.via "link" "primary"]) linkTestCache]

/-- Then `field` rebuilt as a lookup of the same field through `link`: the via row
`test_trashing_a_link_row_field_breaks_vias` creates by hand, with its direct row on `link`. -/
def lookupStore : FieldDependencyStore :=
  runOperations linkedTables CircularReferenceChecker.willCauseCircularDep
    [.rebuild ⟨4, "link"⟩ (some [.via "link" "primary"]) linkTestCache,
     .rebuild ⟨2, "field"⟩ (some [.via "link" "primary"]) linkTestCache]

/-- The table of `link`'s rebuild after the other table's `primary` is rebuilt as a lookup of
`field` through `back`: `link` now reaches `field`. -/
def backLinkStore : FieldDependencyStore :=
  runOperations linkedTables CircularReferenceChecker.willCauseCircularDep
    [.rebuild ⟨4, "link"⟩ (some [.via "link" "primary"]) linkTestCache,
     .rebuild ⟨3, "primary"⟩ (some [.via "back" "field"]) linkedCache]

/-- The shape every row of a reachable table has. -/
structure FieldDependency.WellFormed (dep : FieldDependency) : Prop where
  /-- Exactly one of `dependency` and `broken_reference_field_name` is set. -/
  resolved_or_broken : dep.dependency.isSome = dep.brokenReferenceFieldName.isNone
  /-- A via is a link-row field of the dependant's table. -/
  via_linkRow : ∀ v, dep.via = some v →
    (schema.linkRowTable v).isSome ∧ schema.table v = schema.table dep.dependant
  /-- A dependency lies in the dependant's table or in the table the via links to. -/
  dependency_table : ∀ t, dep.dependency = some t →
    schema.table t = schema.table dep.dependant ∨
      ∃ v, dep.via = some v ∧ schema.linkRowTable v = some (schema.table t)

/-- Every object `_construct_dependency` returns belongs to the field and is well formed. -/
theorem constructDependency_wellFormed {fieldInstance : Field}
    {dependency : DependencyDescriptor} {fieldLookupCache : FieldCache schema}
    {deps : List FieldDependency}
    (h : constructDependency schema fieldInstance dependency fieldLookupCache = .ok deps) :
    ∀ dep ∈ deps, dep.dependant = fieldInstance.id ∧ dep.WellFormed schema := by
  rcases constructDependency_cases schema h with
    ⟨n, rfl⟩ | ⟨g, hg, rfl⟩ | ⟨v, tt, hv, htt, h⟩
  · exact List.forall_mem_singleton.mpr
      ⟨rfl, rfl, (fun _ h => nomatch h), fun _ h => nomatch h⟩
  · exact List.forall_mem_singleton.mpr
      ⟨rfl, rfl, (fun _ h => nomatch h), fun _ h => .inl (Option.some.inj h ▸ hg)⟩
  -- The via resolved to a link-row field of the field's table.
  have hvia : ∀ w, some v = some w →
      (schema.linkRowTable w).isSome ∧ schema.table w = schema.table fieldInstance.id :=
    fun _ h => Option.some.inj h ▸ ⟨Option.isSome_iff_exists.mpr ⟨tt, htt⟩, hv⟩
  rcases h with ⟨n, rfl⟩ | ⟨t, ht, rfl⟩
  · exact List.forall_mem_singleton.mpr ⟨rfl, rfl, hvia, fun _ h => nomatch h⟩
  · intro dep hdep
    rcases List.mem_append.mp hdep with hdep | hdep
    · split_ifs at hdep
      · obtain rfl := List.mem_singleton.mp hdep
        exact ⟨rfl, rfl, (fun _ h => nomatch h), fun _ h => .inl (Option.some.inj h ▸ hv)⟩
      · cases hdep
    · obtain rfl := List.mem_singleton.mp hdep
      exact ⟨rfl, rfl, hvia, fun _ h => .inr ⟨v, rfl, Option.some.inj h ▸ ht ▸ htt⟩⟩

/-- A saved copy of a well-formed object is well formed. -/
theorem FieldDependency.WellFormed.withId {dep : FieldDependency} (h : dep.WellFormed schema)
    (k : Option Nat) : ({ dep with id := k } : FieldDependency).WellFormed schema :=
  ⟨h.1, h.2, h.3⟩

theorem wellFormed_breakRow (field : Field) {dep : FieldDependency}
    (h : dep.WellFormed schema) : (breakRow schema field dep).WellFormed schema := by
  by_cases hv : dep.via = some field.id
  · rw [breakRow_of_via_eq schema (h.via_linkRow _ hv).1 hv]
    exact ⟨rfl, (fun _ h => nomatch h), fun _ h => nomatch h⟩
  by_cases hd : dep.dependency = some field.id
  · rw [breakRow_of_dependency_eq schema hd hv]
    exact ⟨rfl, h.2, fun _ h => nomatch h⟩
  · rwa [breakRow_of_ne schema hd hv]

theorem wellFormed_repairRow (field : Field) (s : FieldDependencyStore)
    {dep : FieldDependency} (h : dep.WellFormed schema) :
    (repairRow schema willCauseCircularDep field s dep).WellFormed schema := by
  unfold repairRow; split_ifs with hr
  · refine ⟨by simp, h.2, ?_⟩
    simp only [repairs, fixedByFieldsName, Bool.and_eq_true, Bool.or_eq_true, beq_iff_eq] at hr
    rintro t ⟨⟩
    rcases hr.1 with ⟨ht, -⟩ | ⟨hv, -⟩
    · exact .inl ht.symm
    · obtain ⟨v, hv', hvt⟩ := Option.bind_eq_some.mp hv
      exact .inr ⟨v, hv', hvt⟩
  · exact h

/-- The rows a rebuild writes are well formed when the rows it keeps are. -/
theorem wellFormed_rebuiltStore {s : FieldDependencyStore} {fieldInstance : Field}
    {fieldLookupCache : FieldCache schema} {descs : List DependencyDescriptor}
    {newDependencies : List FieldDependency}
    (hnew : constructDependencies schema fieldInstance fieldLookupCache descs =
      .ok newDependencies)
    (hs : ∀ dep ∈ s.rows, dep.WellFormed schema) :
    ∀ dep ∈ (rebuiltStore s fieldInstance newDependencies).rows, dep.WellFormed schema := by
  intro dep hdep
  rcases mem_rebuiltStore s fieldInstance newDependencies hdep with hdep | ⟨d, hd, _, rfl⟩
  · exact hs dep hdep
  · obtain ⟨desc, -, ds, hds, hdds⟩ :=
      mem_constructDependencies schema hnew (mem_toCreate hd).1
    exact ((constructDependency_wellFormed schema hds d hdds).2).withId schema _

/-- Every row of a reachable table is well formed. -/
theorem reachable_wellFormed {s : FieldDependencyStore}
    (h : Reachable schema willCauseCircularDep s) : ∀ dep ∈ s.rows, dep.WellFormed schema := by
  induction h with
  | empty => simp
  | rebuild fieldInstance fieldDependencies fieldLookupCache _ ih =>
    rcases storeOf_rebuildFieldDependencies schema willCauseCircularDep fieldInstance
      fieldDependencies fieldLookupCache _ with h | ⟨newDependencies, hnew, -, h⟩ <;> rw [h]
    · exact ih
    · exact wellFormed_rebuiltStore schema hnew ih
  | breakDependencies field _ ih =>
    intro _ hdep'
    obtain ⟨dep, hdep, -, rfl⟩ := exists_of_mem_breakDependenciesForField schema hdep'
    exact wellFormed_breakRow schema field (ih dep hdep)
  | updateBrokenReferences field _ ih =>
    simp only [rows_updateFieldsWithBrokenReferences, List.mem_map]
    rintro _ ⟨dep, hdep, rfl⟩
    exact wellFormed_repairRow schema willCauseCircularDep field _ (ih dep hdep)

/-- The repair's first clause resolves a row through `link` with a field of the dependant's own
table. `field` looks up `extra` through `link` before the other table has a field of that name;
then the first table's `primary` is renamed `extra`. The row keeps `link` as its via and now
depends on a field of table `1`, which is not the table `link` links to. -/
theorem reachable_dependency_outside_via_table :
    (runOperations linkedTables CircularReferenceChecker.willCauseCircularDep
        [.rebuild ⟨2, "field"⟩ (some [.via "link" "extra"]) linkTestCache,
         .updateBrokenReferences ⟨1, "extra"⟩]).rows =
      [{ id := some 0, dependant := 2, dependency := some 1, via := some 4 }] ∧
    linkedTables.linkRowTable 4 ≠ some (linkedTables.table 1) := by
  decide

/-- The same call seen from the repair: renaming the first table's `primary` to `extra`
resolves the broken row of the lookup through `link`, whose target table is the other one. -/
theorem updateFieldsWithBrokenReferences_repairs_other_table :
    (runOperations linkedTables CircularReferenceChecker.willCauseCircularDep
        [.rebuild ⟨2, "field"⟩ (some [.via "link" "extra"]) linkTestCache]).rows =
      [{ id := some 0, dependant := 2, via := some 4, brokenReferenceFieldName := some "extra" }] ∧
    updateFieldsWithBrokenReferences linkedTables CircularReferenceChecker.willCauseCircularDep
        ⟨1, "extra"⟩ (runOperations linkedTables CircularReferenceChecker.willCauseCircularDep
          [.rebuild ⟨2, "field"⟩ (some [.via "link" "extra"]) linkTestCache]) =
      (true, runOperations linkedTables CircularReferenceChecker.willCauseCircularDep
        [.rebuild ⟨2, "field"⟩ (some [.via "link" "extra"]) linkTestCache,
         .updateBrokenReferences ⟨1, "extra"⟩]) ∧
    linkedTables.linkRowTable 4 ≠ some (linkedTables.table 1) :=
  ⟨by decide, rfl, by decide⟩

/-- The objects a rebuild creates belong to the field it rebuilds and passed the check. -/
theorem toCreate_spec {s : FieldDependencyStore} {fieldInstance : Field}
    {fieldLookupCache : FieldCache schema} {descs : List DependencyDescriptor}
    {newDependencies : List FieldDependency}
    (hnew : constructDependencies schema fieldInstance fieldLookupCache descs =
      .ok newDependencies)
    {d : FieldDependency} (hd : d ∈ (rebuildDiff (currentDependencies s fieldInstance)
      newDependencies).2) : d.dependant = fieldInstance.id ∧ d.WellFormed schema := by
  obtain ⟨desc, -, ds, hds, hdds⟩ := mem_constructDependencies schema hnew (mem_toCreate hd).1
  exact constructDependency_wellFormed schema hds d hdds

/-- `_construct_dependency` builds a resolved row through a via other than the field itself only
together with the field's direct row on that via. -/
theorem constructDependency_companion {fieldInstance : Field}
    {dependency : DependencyDescriptor} {fieldLookupCache : FieldCache schema}
    {deps : List FieldDependency}
    (h : constructDependency schema fieldInstance dependency fieldLookupCache = .ok deps)
    {dep : FieldDependency} (hdep : dep ∈ deps) (hres : dep.dependency.isSome = true)
    {v : FieldId} (hv : dep.via = some v) (hne : v ≠ fieldInstance.id) :
    ({ dependant := fieldInstance.id, dependency := some v } : FieldDependency) ∈ deps := by
  rcases constructDependency_cases schema h with ⟨n, rfl⟩ | ⟨g, -, rfl⟩ |
    ⟨v', tt, -, -, ⟨n, rfl⟩ | ⟨t, -, rfl⟩⟩
  · simp only [List.mem_singleton] at hdep; subst hdep; cases hv
  · simp only [List.mem_singleton] at hdep; subst hdep; cases hv
  · simp only [List.mem_singleton] at hdep; subst hdep; cases hres
  · rcases List.mem_append.mp hdep with hdep | hdep
    · split_ifs at hdep
      · simp only [List.mem_singleton] at hdep; subst hdep; cases hv
      · cases hdep
    · simp only [List.mem_singleton] at hdep; subst hdep; cases hv
      simp [Ne.symm hne]

/-- The repair resolves a via row without adding the direct row on its via. `field` looks up
`extra` through `link` before the other table has it; then `extra` is created there. The table
is that one row. -/
theorem reachable_via_row_without_companion :
    (runOperations linkedTables CircularReferenceChecker.willCauseCircularDep
        [.rebuild ⟨2, "field"⟩ (some [.via "link" "extra"]) linkTestCache,
         .updateBrokenReferences ⟨6, "extra"⟩]).rows =
      [{ id := some 0, dependant := 2, dependency := some 6, via := some 4 }] := by
  decide

/-- When the checker reports every field as circular with itself, no row of a reachable
table depends on its own dependant. -/
theorem reachable_dependency_ne_dependant
    (hself : ∀ s a, willCauseCircularDep s a a = true) {s : FieldDependencyStore}
    (h : Reachable schema willCauseCircularDep s) :
    ∀ dep ∈ s.rows, dep.dependency ≠ some dep.dependant := by
  induction h with
  | empty => simp
  | rebuild fieldInstance fieldDependencies fieldLookupCache _ ih =>
    rcases storeOf_rebuildFieldDependencies schema willCauseCircularDep fieldInstance
      fieldDependencies fieldLookupCache _ with h | ⟨newDependencies, hnew, hc, h⟩ <;> rw [h]
    · exact ih
    · intro dep hdep hself'
      rcases mem_rebuiltStore _ fieldInstance newDependencies hdep with hdep | ⟨d, hd, _, rfl⟩
      · exact ih dep hdep hself'
      · have hcd := hc d hd
        simp only [causesCircularDep, show d.dependency = some d.dependant from hself',
          (toCreate_spec schema hnew hd).1, hself, Bool.true_eq_false] at hcd
  | breakDependencies field _ ih =>
    intro _ hdep' h'
    obtain ⟨dep, hdep, -, rfl⟩ := exists_of_mem_breakDependenciesForField schema hdep'
    exact ih dep hdep
      (dependant_breakRow schema field dep ▸ dependency_breakRow_eq_some schema h')
  | updateBrokenReferences field _ ih =>
    simp only [rows_updateFieldsWithBrokenReferences, List.mem_map]
    rintro _ ⟨dep, hdep, rfl⟩ h'
    rcases dependency_repairRow_eq_some schema willCauseCircularDep (by simpa using h') with
      h' | ⟨ht, hr⟩
    · exact ih dep hdep h'
    · simp [repairs, ← ht, hself] at hr

end FieldDependencies
