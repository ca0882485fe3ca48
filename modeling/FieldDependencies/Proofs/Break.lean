import FieldDependencies.Proofs.Store

/-!
# `FieldDependencies.Proofs.Break`: `break_dependencies_for_field`

`break_dependencies_for_field(field)` runs three statements: a delete of the rows of `field`,
an update of the rows that depend on it, and, for a link-row field, an update of the rows
that go through it. `rows_breakDependenciesForField` puts them in one shape: the rows whose
dependant is not `field`, each sent through `breakRow`. Every later fact about the break is
read off that equation.

`breakDependenciesForField_comm`: the breaks of two distinct fields commute, on every table.
Deleting a link-row field also deletes its related field in the other table, and the caller
picks the order of the two breaks. Per row, `breakRow_comm` is a case analysis on whether the
row's dependency and via are one of the two fields: a row whose dependency is one and whose
via is the other ends as a broken reference to the via's name in both orders, because the via
update runs last in the break of the via field and changes nothing in the other order.

`breakDependenciesForField_idempotent`: a second break of the same field changes nothing, since
a row the break keeps no longer has the field as its dependency or, for a link-row field, as
its via.
-/

set_option autoImplicit false

namespace FieldDependencies

variable (schema : Schema)

/-- The update of `field.dependants` on one row. -/
def breakDependency (field : Field) (dep : FieldDependency) : FieldDependency :=
  if dep.dependency = some field.id then
    { dep with dependency := none, brokenReferenceFieldName := some field.name }
  else dep

/-- The update of `field.vias` on one row. -/
def breakVia (field : Field) (dep : FieldDependency) : FieldDependency :=
  if dep.via = some field.id then
    { dep with dependency := none, brokenReferenceFieldName := some field.name, via := none }
  else dep

/-- What `break_dependencies_for_field(field)` does to a row that it keeps: the update of
`field.dependants`, then, for a link-row field, the update of `field.vias`. -/
def breakRow (field : Field) (dep : FieldDependency) : FieldDependency :=
  if schema.isLinkRow field.id then breakVia field (breakDependency field dep)
  else breakDependency field dep

theorem breakDependency_of_ne {field : Field} {dep : FieldDependency}
    (h : dep.dependency ≠ some field.id) : breakDependency field dep = dep := if_neg h

theorem breakVia_of_ne {field : Field} {dep : FieldDependency}
    (h : dep.via ≠ some field.id) : breakVia field dep = dep := if_neg h

/-- An update of `field.dependants` leaves a row that does not depend on `t` so. -/
theorem dependency_breakDependency_ne (field : Field) {dep : FieldDependency} {t : FieldId}
    (h : dep.dependency ≠ some t) : (breakDependency field dep).dependency ≠ some t := by
  unfold breakDependency
  split_ifs
  · exact fun h' => nomatch h'
  · exact h

/-- An update of `field.vias` leaves a row that does not go through `t` so. -/
theorem via_breakVia_ne (field : Field) {dep : FieldDependency} {t : FieldId}
    (h : dep.via ≠ some t) : (breakVia field dep).via ≠ some t := by
  unfold breakVia
  split_ifs
  · exact fun h' => nomatch h'
  · exact h

/-- An update of `field.vias` leaves a row that does not depend on `t` so. -/
theorem dependency_breakVia_ne (field : Field) {dep : FieldDependency} {t : FieldId}
    (h : dep.dependency ≠ some t) : (breakVia field dep).dependency ≠ some t := by
  unfold breakVia
  split_ifs
  · exact fun h' => nomatch h'
  · exact h

/-- After the update of `field.dependants`, no row depends on `field`. -/
theorem dependency_breakDependency_ne_self (field : Field) (dep : FieldDependency) :
    (breakDependency field dep).dependency ≠ some field.id := by
  unfold breakDependency
  split_ifs with h
  · exact fun h' => nomatch h'
  · exact h

/-- After the update of `field.vias`, no row goes through `field`. -/
theorem via_breakVia_ne_self (field : Field) (dep : FieldDependency) :
    (breakVia field dep).via ≠ some field.id := by
  unfold breakVia
  split_ifs with h
  · exact fun h' => nomatch h'
  · exact h

@[simp] theorem via_breakDependency (field : Field) (dep : FieldDependency) :
    (breakDependency field dep).via = dep.via := by
  unfold breakDependency; split_ifs <;> rfl

@[simp] theorem id_breakRow (field : Field) (dep : FieldDependency) :
    (breakRow schema field dep).id = dep.id := by
  simp only [breakRow, breakVia, breakDependency, apply_ite FieldDependency.id, ite_self]

@[simp] theorem dependant_breakRow (field : Field) (dep : FieldDependency) :
    (breakRow schema field dep).dependant = dep.dependant := by
  simp only [breakRow, breakVia, breakDependency, apply_ite FieldDependency.dependant, ite_self]

/-- A break only clears dependencies. -/
theorem dependency_breakRow_eq_some {field : Field} {dep : FieldDependency} {t : FieldId}
    (h : (breakRow schema field dep).dependency = some t) : dep.dependency = some t := by
  by_contra hne
  unfold breakRow at h
  split_ifs at h
  · exact dependency_breakVia_ne field (dependency_breakDependency_ne field hne) h
  · exact dependency_breakDependency_ne field hne h

/-- A row in which the field plays no role is kept as it is. -/
theorem breakRow_of_ne {field : Field} {dep : FieldDependency}
    (hd : dep.dependency ≠ some field.id) (hv : dep.via ≠ some field.id) :
    breakRow schema field dep = dep := by
  unfold breakRow
  split_ifs
  · rw [breakDependency_of_ne hd, breakVia_of_ne hv]
  · exact breakDependency_of_ne hd

/-- The break of `F` turns a row that depends on `F` through another via into a broken
reference to `F`'s name with the same via. -/
theorem breakRow_of_dependency_eq {field : Field} {dep : FieldDependency}
    (hdep : dep.dependency = some field.id) (hvia : dep.via ≠ some field.id) :
    breakRow schema field dep =
      { dep with dependency := none, brokenReferenceFieldName := some field.name } := by
  unfold breakRow
  rw [breakDependency, if_pos hdep]
  split_ifs
  · exact breakVia_of_ne hvia
  · rfl

/-- The break of a link-row field turns a row that goes through it into a broken reference to
its name with no via, whatever the row depended on. -/
theorem breakRow_of_via_eq {field : Field} {dep : FieldDependency}
    (hL : schema.isLinkRow field.id = true) (hvia : dep.via = some field.id) :
    breakRow schema field dep =
      { dep with
        dependency := none, brokenReferenceFieldName := some field.name, via := none } := by
  rw [breakRow, if_pos hL, breakVia, if_pos ((via_breakDependency field dep).trans hvia)]
  unfold breakDependency
  split_ifs <;> rfl

/-- After its break, no row depends on a field. -/
theorem dependency_breakRow_ne (field : Field) (dep : FieldDependency) :
    (breakRow schema field dep).dependency ≠ some field.id := by
  unfold breakRow
  split_ifs
  · exact dependency_breakVia_ne field (dependency_breakDependency_ne_self field dep)
  · exact dependency_breakDependency_ne_self field dep

/-- After its break, no row goes through a field, when only a link-row field could. -/
theorem via_breakRow_ne {field : Field} {dep : FieldDependency}
    (h : dep.via = some field.id → schema.isLinkRow field.id = true) :
    (breakRow schema field dep).via ≠ some field.id := by
  unfold breakRow
  split_ifs with hL
  · exact via_breakVia_ne_self field _
  · rw [via_breakDependency]
    exact fun hv => hL (h hv)

/-- The rows after `break_dependencies_for_field(field)`. -/
theorem rows_breakDependenciesForField (field : Field) (s : FieldDependencyStore) :
    (breakDependenciesForField schema field s).rows =
      (s.rows.filter fun dep => dep.dependant != field.id).map (breakRow schema field) := by
  unfold breakDependenciesForField breakRow breakVia breakDependency
  cases schema.isLinkRow field.id <;> simp [List.map_map, Function.comp_def, bne]

@[simp] theorem nextId_breakDependenciesForField (field : Field) (s : FieldDependencyStore) :
    (breakDependenciesForField schema field s).nextId = s.nextId := by
  unfold breakDependenciesForField; split <;> rfl

/-- A row of another field survives the break, sent through `breakRow`. -/
theorem mem_breakDependenciesForField {field : Field} {s : FieldDependencyStore}
    {dep : FieldDependency} (hdep : dep ∈ s.rows) (hne : dep.dependant ≠ field.id) :
    breakRow schema field dep ∈ (breakDependenciesForField schema field s).rows := by
  rw [rows_breakDependenciesForField]
  exact List.mem_map_of_mem _ (List.mem_filter.mpr ⟨hdep, bne_iff_ne.mpr hne⟩)

/-- Every row after the break is a row of another field sent through `breakRow`. -/
theorem exists_of_mem_breakDependenciesForField {field : Field} {s : FieldDependencyStore}
    {dep' : FieldDependency} (h : dep' ∈ (breakDependenciesForField schema field s).rows) :
    ∃ dep ∈ s.rows, dep.dependant ≠ field.id ∧ breakRow schema field dep = dep' := by
  rw [rows_breakDependenciesForField] at h
  obtain ⟨dep, hdep, rfl⟩ := List.mem_map.mp h
  obtain ⟨hdep, hne⟩ := List.mem_filter.mp hdep
  exact ⟨dep, hdep, bne_iff_ne.mp hne, rfl⟩

section Comm
variable (F G : Field) (dep : FieldDependency)

/-- The two updates of one break and the updates of another field's break are independent,
with no condition on the fields: a row whose dependency is `F` and whose via is `G` ends as a
broken reference to `G`'s name in both orders. -/
theorem breakDependency_breakVia_comm :
    breakDependency F (breakVia G dep) = breakVia G (breakDependency F dep) := by
  by_cases hG : dep.via = some G.id
  · have hv : (breakDependency F dep).via = some G.id := (via_breakDependency F dep).trans hG
    rw [breakDependency_of_ne (by rw [breakVia, if_pos hG]; exact fun h => nomatch h),
      breakVia, breakVia, if_pos hG, if_pos hv]
    unfold breakDependency; split_ifs <;> rfl
  · rw [breakVia_of_ne hG, breakVia_of_ne ((via_breakDependency F dep).trans_ne hG)]

variable (hFG : F.id ≠ G.id)
include hFG

theorem breakDependency_comm :
    breakDependency G (breakDependency F dep) = breakDependency F (breakDependency G dep) := by
  by_cases hF : dep.dependency = some F.id
  · have hG : dep.dependency ≠ some G.id := fun hG => hFG (Option.some.inj (hF.symm.trans hG))
    rw [breakDependency_of_ne hG, breakDependency_of_ne (dependency_breakDependency_ne F hG)]
  · rw [breakDependency_of_ne hF, breakDependency_of_ne (dependency_breakDependency_ne G hF)]

theorem breakVia_comm : breakVia G (breakVia F dep) = breakVia F (breakVia G dep) := by
  by_cases hF : dep.via = some F.id
  · have hG : dep.via ≠ some G.id := fun hG => hFG (Option.some.inj (hF.symm.trans hG))
    rw [breakVia_of_ne hG, breakVia_of_ne (via_breakVia_ne F hG)]
  · rw [breakVia_of_ne hF, breakVia_of_ne (via_breakVia_ne G hF)]

/-- Per row, the breaks of two distinct fields commute: the four updates are pairwise
independent except the two of one field, which keep their order. -/
theorem breakRow_comm :
    breakRow schema G (breakRow schema F dep) = breakRow schema F (breakRow schema G dep) := by
  unfold breakRow
  split_ifs
  · rw [breakDependency_breakVia_comm G F, breakVia_comm F G _ hFG,
      breakDependency_comm F G _ hFG, breakDependency_breakVia_comm F G]
  · rw [breakDependency_comm F G _ hFG, breakDependency_breakVia_comm F G]
  · rw [breakDependency_breakVia_comm G F, breakDependency_comm F G _ hFG]
  · rw [breakDependency_comm F G _ hFG]

end Comm

/-- `break_dependencies_for_field` of two distinct fields gives the same table in both
orders: the same rows, with the same keys and columns, in the same order. -/
theorem breakDependenciesForField_comm (F G : Field) (hFG : F.id ≠ G.id)
    (s : FieldDependencyStore) :
    breakDependenciesForField schema G (breakDependenciesForField schema F s) =
      breakDependenciesForField schema F (breakDependenciesForField schema G s) := by
  ext1
  · simp only [rows_breakDependenciesForField, List.filter_map, List.map_map,
      List.filter_filter, Function.comp_def, dependant_breakRow]
    rw [List.filter_congr fun dep _ => Bool.and_comm _ _]
    exact List.map_congr_left fun dep _ => breakRow_comm schema F G dep hFG
  · simp

/-- On the table of `test_trashing_a_link_row_field_breaks_vias`, trashing `link` and the other
table's `primary` in either order gives one table. -/
theorem breakDependenciesForField_comm_trashTest :
    (⟨4, "link"⟩ : Field).id ≠ (⟨3, "primary"⟩ : Field).id ∧
    breakDependenciesForField linkedTables ⟨3, "primary"⟩
        (breakDependenciesForField linkedTables ⟨4, "link"⟩ trashTestStore) =
      breakDependenciesForField linkedTables ⟨4, "link"⟩
        (breakDependenciesForField linkedTables ⟨3, "primary"⟩ trashTestStore) :=
  ⟨by decide, breakDependenciesForField_comm linkedTables _ _ (by decide) _⟩

/-- A row broken by a field is broken: breaking it again changes nothing. -/
theorem breakRow_breakRow (field : Field) (dep : FieldDependency) :
    breakRow schema field (breakRow schema field dep) = breakRow schema field dep := by
  by_cases hL : schema.isLinkRow field.id = true
  · exact breakRow_of_ne schema (dependency_breakRow_ne schema field dep)
      (via_breakRow_ne schema fun _ => hL)
  · rw [breakRow, if_neg hL]
    exact breakDependency_of_ne (dependency_breakRow_ne schema field dep)

/-- `break_dependencies_for_field` is idempotent on every table: a second break of the same
field deletes and updates nothing. -/
theorem breakDependenciesForField_idempotent (field : Field) (s : FieldDependencyStore) :
    breakDependenciesForField schema field (breakDependenciesForField schema field s) =
      breakDependenciesForField schema field s := by
  ext1
  · simp only [rows_breakDependenciesForField, List.filter_map, List.map_map,
      List.filter_filter, Function.comp_def, dependant_breakRow, Bool.and_self]
    exact List.map_congr_left fun dep _ => breakRow_breakRow schema field dep
  · simp

end FieldDependencies
