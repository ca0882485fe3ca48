import FieldDependencies.Spec.Rebuilder

/-!
# `FieldDependencies.Proofs.Store`: the statements on the `FieldDependency` table

The rows each of the four statements leaves, as `@[simp]` equations, so that no later proof
unfolds a statement. Two facts need the unique primary keys the table carries:

* `eq_of_id_eq`: two rows with one key are one row.
* `rows_bulkUpdate_filterMap`: a `bulk_update` with objects computed row by row from the
  table's own rows (the shape `update_fields_with_broken_references` has) is a `map` over the
  rows. Each object carries the key of the row it came from, and no other row has that key.
-/

set_option autoImplicit false

namespace FieldDependencies

/-- A saved copy of an object has the object's columns. -/
theorem mem_saveFrom {k : Nat} {deps : List FieldDependency} {d : FieldDependency}
    (h : d ∈ saveFrom k deps) : ∃ dep ∈ deps, ∃ n, d = { dep with id := n } := by
  induction deps generalizing k with
  | nil => cases h
  | cons dep deps ih =>
    rcases List.mem_cons.mp h with rfl | h
    · exact ⟨dep, List.mem_cons_self _ _, _, rfl⟩
    · obtain ⟨dep', hdep', hd⟩ := ih h
      exact ⟨dep', List.mem_cons_of_mem _ hdep', hd⟩

theorem saveFrom_map_str (k : Nat) (deps : List FieldDependency) :
    (saveFrom k deps).map FieldDependency.str = deps.map FieldDependency.str := by
  induction deps generalizing k with
  | nil => rfl
  | cons dep deps ih => simp [saveFrom, ih, FieldDependency.str]

namespace FieldDependencyStore

variable (s : FieldDependencyStore)

/-- A table is its rows and its next key; the invariant fields are proofs. -/
@[ext] theorem ext {s t : FieldDependencyStore} (hrows : s.rows = t.rows)
    (hnext : s.nextId = t.nextId) : s = t := by
  cases s; cases t; cases hrows; cases hnext; rfl

@[simp] theorem rows_empty : empty.rows = [] := rfl

@[simp] theorem rows_deleteWhere (p : FieldDependency → Bool) :
    (s.deleteWhere p).rows = s.rows.filter fun dep => !p dep := rfl

@[simp] theorem rows_updateWhere (p : FieldDependency → Bool)
    (set : FieldDependency → FieldDependency) :
    (s.updateWhere p set).rows =
      s.rows.map fun dep => if p dep then { set dep with id := dep.id } else dep := rfl

@[simp] theorem rows_bulkCreate (deps : List FieldDependency) :
    (s.bulkCreate deps).rows = s.rows ++ saveFrom s.nextId deps := rfl

@[simp] theorem nextId_deleteWhere (p : FieldDependency → Bool) :
    (s.deleteWhere p).nextId = s.nextId := rfl

@[simp] theorem nextId_updateWhere (p : FieldDependency → Bool)
    (set : FieldDependency → FieldDependency) : (s.updateWhere p set).nextId = s.nextId := rfl

@[simp] theorem nextId_bulkCreate (deps : List FieldDependency) :
    (s.bulkCreate deps).nextId = s.nextId + deps.length := rfl

/-- Primary keys are unique: two rows with one key are one row. -/
theorem eq_of_id_eq {a b : FieldDependency} (ha : a ∈ s.rows) (hb : b ∈ s.rows)
    (h : a.id = b.id) : a = b :=
  List.inj_on_of_nodup_map s.nodup_id ha hb h

/-- A saved row has a key, and the rows `bulk_create` adds have keys no old row has. -/
theorem id_ne_of_mem_saveFrom {deps : List FieldDependency} {a d : FieldDependency}
    (ha : a ∈ s.rows) (hd : d ∈ saveFrom s.nextId deps) : a.id ≠ d.id := fun he => by
  have h := (s.bulkCreate deps).nodup_id
  rw [rows_bulkCreate, List.map_append, List.nodup_append] at h
  exact h.2.2 (List.mem_map_of_mem _ ha) (he ▸ List.mem_map_of_mem _ hd)

/-- In objects computed row by row from rows with unique keys, each carrying the key of its
row, the first object with the key of a row is the one computed from that row. -/
theorem find?_filterMap_id (g : FieldDependency → Option FieldDependency)
    (hg : ∀ dep d, g dep = some d → d.id = dep.id) :
    ∀ (rows : List FieldDependency), (rows.map FieldDependency.id).Nodup →
      ∀ row ∈ rows, (rows.filterMap g).find? (·.id == row.id) = g row
  | [], _, _, h => nomatch h
  | r :: rs, hnd, row, hrow => by
    rw [List.map_cons, List.nodup_cons] at hnd
    have hfresh : ∀ d ∈ rs.filterMap g, d.id ≠ r.id := fun d hd he => by
      obtain ⟨dep, hdep, hgd⟩ := List.mem_filterMap.mp hd
      exact hnd.1 (List.mem_map.mpr ⟨dep, hdep, (hg dep d hgd ▸ he)⟩)
    rcases List.mem_cons.mp hrow with rfl | hrow
    · cases hgr : g row with
      | none =>
        rw [List.filterMap_cons_none hgr, List.find?_eq_none]
        exact fun d hd => by simpa using hfresh d hd
      | some d => simp [List.filterMap_cons_some hgr, hg row d hgr]
    · have hne : row.id ≠ r.id := fun he => hnd.1 (he ▸ List.mem_map_of_mem _ hrow)
      rw [List.filterMap_cons]
      cases hgr : g r with
      | none => exact find?_filterMap_id g hg rs hnd.2 row hrow
      | some d =>
        rw [List.find?_cons_of_neg _ (by simpa [hg r d hgr] using Ne.symm hne)]
        exact find?_filterMap_id g hg rs hnd.2 row hrow

/-- A `bulk_update` with objects computed row by row from the table's rows, each carrying
the key of its row, updates each row from the object computed from it. -/
theorem rows_bulkUpdate_filterMap (g : FieldDependency → Option FieldDependency)
    (hg : ∀ dep d, g dep = some d → d.id = dep.id) :
    (s.bulkUpdate (s.rows.filterMap g)).rows = s.rows.map fun row =>
      match g row with
      | some d => { row with dependency := d.dependency,
                             brokenReferenceFieldName := d.brokenReferenceFieldName }
      | none => row := by
  simp only [bulkUpdate, rows_updateWhere, if_true]
  refine List.map_congr_left fun row hrow => ?_
  rw [find?_filterMap_id g hg s.rows s.nodup_id row hrow]
  cases g row <;> rfl

end FieldDependencyStore

end FieldDependencies
