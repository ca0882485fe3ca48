import FieldDependencies.Proofs.Store

/-!
# `FieldDependencies.Proofs.Repair`: `update_fields_with_broken_references`

The function selects rows with its two-clause query, asks the checker about each, and writes
the accepted ones with one `bulk_update`. Every object it writes is a row of the table with
two columns changed, so the `bulk_update` touches exactly those rows
(`FieldDependencyStore.rows_bulkUpdate_filterMap`). `rows_updateFieldsWithBrokenReferences`
states the result row by row: `repairRow` gives a matched row whose repair the checker
accepts `field` as its dependency and no broken name, and keeps every other row. All checks
read the table as it was before the call, because the `bulk_update` runs after the loop.
`updateFieldsWithBrokenReferences_fst`: the call returns `True` exactly when some row is
repaired. `updateFieldsWithBrokenReferences_spec` gathers the call's whole effect on any
table: what a repaired row becomes, that every other row stays, that no row is added or
deleted, and that `True` means the table changed.
-/

set_option autoImplicit false

namespace FieldDependencies

variable (schema : Schema)
variable (willCauseCircularDep : FieldDependencyStore → FieldId → FieldId → Bool)

/-- The rows `update_fields_with_broken_references(field)` repairs: matched by the query and
accepted by the checker on the table `s` as it was before the call. -/
def repairs (field : Field) (s : FieldDependencyStore) (dep : FieldDependency) : Bool :=
  fixedByFieldsName schema field dep && !willCauseCircularDep s dep.dependant field.id

/-- What `update_fields_with_broken_references(field)` does to one row of `s`. -/
def repairRow (field : Field) (s : FieldDependencyStore) (dep : FieldDependency) :
    FieldDependency :=
  if repairs schema willCauseCircularDep field s dep then
    { dep with dependency := some field.id, brokenReferenceFieldName := none }
  else dep

@[simp] theorem id_repairRow (field : Field) (s : FieldDependencyStore) (dep : FieldDependency) :
    (repairRow schema willCauseCircularDep field s dep).id = dep.id := by
  unfold repairRow; split_ifs <;> rfl

@[simp] theorem dependant_repairRow (field : Field) (s : FieldDependencyStore)
    (dep : FieldDependency) :
    (repairRow schema willCauseCircularDep field s dep).dependant = dep.dependant := by
  unfold repairRow; split_ifs <;> rfl

@[simp] theorem via_repairRow (field : Field) (s : FieldDependencyStore)
    (dep : FieldDependency) :
    (repairRow schema willCauseCircularDep field s dep).via = dep.via := by
  unfold repairRow; split_ifs <;> rfl

/-- A repair only sets `field` as the dependency of a row it repairs. -/
theorem dependency_repairRow_eq_some {field : Field} {s : FieldDependencyStore}
    {dep : FieldDependency} {t : FieldId}
    (h : (repairRow schema willCauseCircularDep field s dep).dependency = some t) :
    dep.dependency = some t ∨
      (t = field.id ∧ repairs schema willCauseCircularDep field s dep) := by
  unfold repairRow at h; split_ifs at h with hr
  · cases h; exact .inr ⟨rfl, hr⟩
  · exact .inl h

/-- The objects the loop of `update_fields_with_broken_references` collects, as a `filterMap`
over all rows. -/
theorem updatedDeps_eq (field : Field) (s : FieldDependencyStore) :
    (s.rows.filter (fixedByFieldsName schema field)).filterMap (fun dep =>
      if !willCauseCircularDep s dep.dependant field.id then
        some { dep with dependency := some field.id, brokenReferenceFieldName := none }
      else none) =
    s.rows.filterMap fun dep =>
      if repairs schema willCauseCircularDep field s dep then
        some { dep with dependency := some field.id, brokenReferenceFieldName := none }
      else none := by
  rw [List.filterMap_filter]
  refine List.filterMap_congr fun dep _ => ?_
  unfold repairs
  cases fixedByFieldsName schema field dep <;> rfl

/-- The rows after `update_fields_with_broken_references(field)`. -/
theorem rows_updateFieldsWithBrokenReferences (field : Field) (s : FieldDependencyStore) :
    (updateFieldsWithBrokenReferences schema willCauseCircularDep field s).2.rows =
      s.rows.map (repairRow schema willCauseCircularDep field s) := by
  simp only [updateFieldsWithBrokenReferences, updatedDeps_eq]
  rw [FieldDependencyStore.rows_bulkUpdate_filterMap _ _ fun dep d h => by
    split_ifs at h; cases h; rfl]
  refine List.map_congr_left fun dep _ => ?_
  unfold repairRow
  split_ifs <;> rfl

@[simp] theorem nextId_updateFieldsWithBrokenReferences (field : Field)
    (s : FieldDependencyStore) :
    (updateFieldsWithBrokenReferences schema willCauseCircularDep field s).2.nextId =
      s.nextId := rfl

/-- `update_fields_with_broken_references(field)` returns `True` exactly when it repairs some
row. -/
theorem updateFieldsWithBrokenReferences_fst (field : Field) (s : FieldDependencyStore) :
    (updateFieldsWithBrokenReferences schema willCauseCircularDep field s).1 = true ↔
      ∃ dep ∈ s.rows, repairs schema willCauseCircularDep field s dep = true := by
  simp only [updateFieldsWithBrokenReferences, updatedDeps_eq, decide_eq_true_eq,
    List.length_pos, ne_eq, List.filterMap_eq_nil_iff, not_forall]
  constructor
  · rintro ⟨dep, hdep, h⟩
    exact ⟨dep, hdep, by by_contra hr; simp [hr] at h⟩
  · rintro ⟨dep, hdep, h⟩
    exact ⟨dep, hdep, by simp [h]⟩

/-- A row the query matches is a broken reference to the field's name. -/
theorem brokenReferenceFieldName_of_fixedByFieldsName {field : Field} {dep : FieldDependency}
    (h : fixedByFieldsName schema field dep = true) :
    dep.brokenReferenceFieldName = some field.name := by
  simp only [fixedByFieldsName, Bool.or_eq_true, Bool.and_eq_true, beq_iff_eq] at h
  rcases h with ⟨-, h⟩ | ⟨-, h⟩ <;> exact h

/-- The query matches only broken references. -/
theorem repairs_of_brokenReferenceFieldName_eq_none {field : Field} {s : FieldDependencyStore}
    {dep : FieldDependency} (h : dep.brokenReferenceFieldName = none) :
    repairs schema willCauseCircularDep field s dep = false := by
  cases hfix : fixedByFieldsName schema field dep
  · simp only [repairs, hfix, Bool.false_and]
  · cases h.symm.trans (brokenReferenceFieldName_of_fixedByFieldsName schema hfix)

/-- The repair changes exactly the rows it repairs: each loses its broken name. -/
theorem repairRow_eq_self_iff {field : Field} {s : FieldDependencyStore}
    {dep : FieldDependency} :
    repairRow schema willCauseCircularDep field s dep = dep ↔
      repairs schema willCauseCircularDep field s dep = false := by
  unfold repairRow
  split_ifs with hr
  · refine iff_of_false (fun h => ?_) (by rw [hr]; exact Bool.true_eq_false_eq_False)
    have hname : (none : Option String) = some field.name :=
      (congrArg FieldDependency.brokenReferenceFieldName h).trans
        (brokenReferenceFieldName_of_fixedByFieldsName schema (Bool.and_eq_true _ _ ▸ hr).1)
    cases hname
  · exact iff_of_true rfl (Bool.eq_false_iff.mpr hr)

/-- What `update_fields_with_broken_references(F)` does, on every table. A row the query
matches (a broken reference to `F`'s name, of a dependant in `F`'s table or through a via that
links to it) whose dependant the checker accepts, on the table as it was before the call, now
depends on `F` with no broken name, and keeps its key, dependant and via. Every other row is
unchanged, and the call adds and deletes no row. It returns `True` exactly when it changed the
table. -/
theorem updateFieldsWithBrokenReferences_spec (field : Field) (s : FieldDependencyStore) :
    (∀ dep ∈ s.rows, fixedByFieldsName schema field dep = true →
      willCauseCircularDep s dep.dependant field.id = false →
      { dep with dependency := some field.id, brokenReferenceFieldName := none } ∈
        (updateFieldsWithBrokenReferences schema willCauseCircularDep field s).2.rows) ∧
    (∀ dep ∈ s.rows, (fixedByFieldsName schema field dep = true →
        willCauseCircularDep s dep.dependant field.id = true) →
      dep ∈ (updateFieldsWithBrokenReferences schema willCauseCircularDep field s).2.rows) ∧
    (updateFieldsWithBrokenReferences schema willCauseCircularDep field s).2.rows.length =
      s.rows.length ∧
    ((updateFieldsWithBrokenReferences schema willCauseCircularDep field s).1 = true ↔
      (updateFieldsWithBrokenReferences schema willCauseCircularDep field s).2.rows ≠
        s.rows) := by
  rw [updateFieldsWithBrokenReferences_fst, rows_updateFieldsWithBrokenReferences]
  have hmap : s.rows.map (repairRow schema willCauseCircularDep field s) = s.rows ↔
      ∀ dep ∈ s.rows, repairRow schema willCauseCircularDep field s dep = dep := by
    simpa only [List.map_id] using List.map_inj_left (l := s.rows) (g := id)
  refine ⟨fun dep hdep hfix hwill => ?_, fun dep hdep hkeep => ?_, List.length_map _ _, ?_⟩
  · have hr : repairs schema willCauseCircularDep field s dep = true := by
      simp only [repairs, hfix, hwill, Bool.not_false, Bool.and_self]
    exact List.mem_map.mpr ⟨dep, hdep, by rw [repairRow, if_pos hr]⟩
  · have hr : repairs schema willCauseCircularDep field s dep = false := by
      cases hfix : fixedByFieldsName schema field dep
      · simp only [repairs, hfix, Bool.false_and]
      · simp only [repairs, hfix, hkeep hfix, Bool.not_true, Bool.and_false]
    exact List.mem_map.mpr
      ⟨dep, hdep, (repairRow_eq_self_iff schema willCauseCircularDep).mpr hr⟩
  · rw [Ne, hmap]
    simp only [repairRow_eq_self_iff, not_forall, Bool.not_eq_false, exists_prop]

end FieldDependencies
