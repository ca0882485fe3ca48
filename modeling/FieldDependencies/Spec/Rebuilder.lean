import FieldDependencies.Spec.Models

/-!
# `FieldDependencies.Spec.Rebuilder`: `depedency_rebuilder.py`

The six functions of the module, one definition each, under the source's names:

* `breakDependenciesForField`: the three statements of `break_dependencies_for_field`.
* `updateFieldsWithBrokenReferences`: the two-clause query, the loop that skips rows whose
  repair `will_cause_circular_dep` rejects, and the `bulk_update`.
* `constructDependency` and `constructDependencies`: `_construct_dependency` and the loop of
  `rebuild_field_dependencies` that calls it.
* `rebuildFieldDependencies`: the diff of the current rows against the constructed ones by
  `str(dep)`, the cycle check of the rows to create, the `bulk_create` and the delete.
* `getDependencyField` and `checkForCircular`: the read-only pre-check.

`will_cause_circular_dep` lives in `circular_reference_checker.py`, which is not among the
sources. The functions that call it take it as the parameter `willCauseCircularDep`, a
function of the table and the two field keys, so that every theorem states what it assumes of
the checker. The descriptors a field type lists (`get_field_dependencies`) are an argument as
well.

Python dicts are insertion ordered: `dictSet` keeps a present key in its place and gives it
the new value, so `{str(dep): dep for dep in deps}` (`dictOf`) holds, for each key, the last
object with that key, at the place of the first.

Functions that write the table are state transformers: `break_dependencies_for_field` and
`update_fields_with_broken_references` cannot raise, and `rebuild_field_dependencies` is an
`EStateM` action, whose error result carries the table as it stands when the exception leaves
the function.
-/

set_option autoImplicit false

namespace FieldDependencies

section PyDict
variable {κ α : Type} [DecidableEq κ]

/-- `d[k] = v` on an insertion-ordered dict. -/
def dictSet (d : List (κ × α)) (k : κ) (v : α) : List (κ × α) :=
  if d.any (·.1 == k) then d.map fun e => if e.1 = k then (k, v) else e else d ++ [(k, v)]

/-- The dict comprehension `{key(x): x for x in xs}`. -/
def dictOf (key : α → κ) (xs : List α) : List (κ × α) :=
  xs.foldl (fun d x => dictSet d (key x) x) []

end PyDict

variable (schema : Schema)
variable (willCauseCircularDep : FieldDependencyStore → FieldId → FieldId → Bool)

/-- `break_dependencies_for_field(field)`. The rows of `field` go; the rows that depend on it
become broken references to its name; if it is a link-row field, the rows that go through it
become broken references to its name with no via. -/
def breakDependenciesForField (field : Field) (s : FieldDependencyStore) :
    FieldDependencyStore :=
  let s := s.deleteWhere (·.dependant == field.id)
  let s := s.updateWhere (·.dependency == some field.id) fun dep =>
    { dep with dependency := none, brokenReferenceFieldName := some field.name }
  if schema.isLinkRow field.id then
    s.updateWhere (·.via == some field.id) fun dep =>
      { dep with dependency := none, brokenReferenceFieldName := some field.name, via := none }
  else s

/-- The filter of `update_fields_with_broken_references`: the two `Q` clauses, on the table
of the dependant and on the `link_row_table` of the via. -/
def fixedByFieldsName (field : Field) (dep : FieldDependency) : Bool :=
  (schema.table dep.dependant == schema.table field.id &&
      dep.brokenReferenceFieldName == some field.name) ||
    (dep.via.bind schema.linkRowTable == some (schema.table field.id) &&
      dep.brokenReferenceFieldName == some field.name)

/-- `update_fields_with_broken_references(field)`: the rows the query matches and the checker
accepts take `field` as their dependency and lose their broken name. The result says whether
any row was updated. -/
def updateFieldsWithBrokenReferences (field : Field) (s : FieldDependencyStore) :
    Bool × FieldDependencyStore :=
  let brokenDependenciesFixedByFieldsName := s.rows.filter (fixedByFieldsName schema field)
  let updatedDeps := brokenDependenciesFixedByFieldsName.filterMap fun dep =>
    if !willCauseCircularDep s dep.dependant field.id then
      some { dep with dependency := some field.id, brokenReferenceFieldName := none }
    else none
  (decide (updatedDeps.length > 0), s.bulkUpdate updatedDeps)

/-- `_construct_dependency(field_instance, dependency, field_lookup_cache)`. -/
def constructDependency (fieldInstance : Field) (dependency : DependencyDescriptor)
    (fieldLookupCache : FieldCache schema) : Except RebuilderError (List FieldDependency) :=
  let (viaFieldName, dependency) : Option String × String :=
    match dependency with
    | .via viaFieldName dependency => (some viaFieldName, dependency)
    | .name dependency => (none, dependency)
  if fieldInstance.name = dependency ∧ viaFieldName = none then .error .selfReference else
  let table := schema.table fieldInstance.id
  match viaFieldName with
  | none =>
    match fieldLookupCache.lookupByName table dependency with
    | none => .ok [{ dependant := fieldInstance.id, brokenReferenceFieldName := some dependency }]
    | some dependencyField =>
      .ok [{ dependant := fieldInstance.id, dependency := some dependencyField.id, via := none }]
  | some viaFieldName =>
    match fieldLookupCache.lookupByName table viaFieldName with
    | none =>
      .ok [{ dependant := fieldInstance.id, brokenReferenceFieldName := some viaFieldName }]
    | some viaField =>
      match schema.linkRowTable viaField.id with
      | none => .ok [{ dependant := fieldInstance.id, dependency := some viaField.id }]
      | some targetTable =>
        match fieldLookupCache.lookupByName targetTable dependency with
        | none =>
          .ok [{ dependant := fieldInstance.id, brokenReferenceFieldName := some dependency,
                 via := some viaField.id }]
        | some targetField =>
          .ok ((if fieldInstance.id ≠ viaField.id then
                  [{ dependant := fieldInstance.id, dependency := some viaField.id,
                     via := none }]
                else []) ++
                [{ dependant := fieldInstance.id, dependency := some targetField.id,
                   via := some viaField.id }])

/-- The loop `for dependency in field_dependencies: new_dependencies += ...` of
`rebuild_field_dependencies`. -/
def constructDependencies (fieldInstance : Field) (fieldLookupCache : FieldCache schema) :
    List DependencyDescriptor → Except RebuilderError (List FieldDependency)
  | [] => .ok []
  | dependency :: rest => do
    let deps ← constructDependency schema fieldInstance dependency fieldLookupCache
    let more ← constructDependencies fieldInstance fieldLookupCache rest
    return deps ++ more

/-- One turn of the loop over `new_deps_by_str.items()`: pop the key from
`current_deps_by_str`, or, when it is not there, append the object to
`new_dependencies_to_create`. -/
def popOrCreate (acc : List (DependencyKey × FieldDependency) × List FieldDependency)
    (item : DependencyKey × FieldDependency) :
    List (DependencyKey × FieldDependency) × List FieldDependency :=
  if acc.1.any (·.1 == item.1) then (acc.1.filter (·.1 != item.1), acc.2)
  else (acc.1, acc.2 ++ [item.2])

/-- The objects `rebuild_field_dependencies` creates and the entries of `current_deps_by_str`
left after the loop, whose rows it deletes. -/
def rebuildDiff (currentDependencies newDependencies : List FieldDependency) :
    List (DependencyKey × FieldDependency) × List FieldDependency :=
  (dictOf FieldDependency.str newDependencies).foldl popOrCreate
    (dictOf FieldDependency.str currentDependencies, [])

/-- The condition of the loop that raises `CircularFieldDependencyError`. -/
def causesCircularDep (s : FieldDependencyStore) (fieldInstance : Field)
    (dep : FieldDependency) : Bool :=
  match dep.dependency with
  | some dependency => willCauseCircularDep s fieldInstance.id dependency
  | none => false

/-- `rebuild_field_dependencies(field_instance, field_lookup_cache)`. `fieldDependencies` is
what `field_type.get_field_dependencies(field_instance, field_lookup_cache)` returns. -/
def rebuildFieldDependencies (fieldInstance : Field)
    (fieldDependencies : Option (List DependencyDescriptor))
    (fieldLookupCache : FieldCache schema) : EStateM RebuilderError FieldDependencyStore Unit :=
  fun s =>
  match constructDependencies schema fieldInstance fieldLookupCache
      (fieldDependencies.getD []) with
  | .error e => .error e s
  | .ok newDependencies =>
    let currentDependencies := s.rows.filter (·.dependant == fieldInstance.id)
    let (currentDepsByStr, newDependenciesToCreate) :=
      rebuildDiff currentDependencies newDependencies
    if newDependenciesToCreate.any (causesCircularDep willCauseCircularDep s fieldInstance) then
      .error .circular s
    else
      let s := s.bulkCreate newDependenciesToCreate
      let deleteIds := currentDepsByStr.map (·.2.id)
      .ok () (s.deleteWhere fun dep => deleteIds.contains dep.id)

/-- `_get_dependency_field(dependency, field_instance, field_lookup_cache)`. A via field that
is not a `LinkRowField` has no `link_row_table`, and reading it raises. -/
def getDependencyField (dependency : DependencyDescriptor) (fieldInstance : Field)
    (fieldLookupCache : FieldCache schema) : Except RebuilderError (Option Field) :=
  match dependency with
  | .via viaFieldName dependency =>
    match fieldLookupCache.lookupByName (schema.table fieldInstance.id) viaFieldName with
    | some viaField =>
      match schema.linkRowTable viaField.id with
      | some linkRowTable => .ok (fieldLookupCache.lookupByName linkRowTable dependency)
      | none => .error .attributeError
    | none => .ok none
  | .name dependency =>
    .ok (fieldLookupCache.lookupByName (schema.table fieldInstance.id) dependency)

/-- `check_for_circular(field_instance, field_lookup_cache)` on the table `s`. -/
def checkForCircular (fieldInstance : Field)
    (fieldDependencies : Option (List DependencyDescriptor))
    (fieldLookupCache : FieldCache schema) (s : FieldDependencyStore) :
    Except RebuilderError Unit :=
  (fieldDependencies.getD []).forM fun dependency => do
    match ← getDependencyField schema dependency fieldInstance fieldLookupCache with
    | some dependencyField =>
      if fieldInstance.name = dependencyField.name then throw .selfReference
      if willCauseCircularDep s fieldInstance.id dependencyField.id then throw .circular
    | none => pure ()

end FieldDependencies
