import FieldDependencies.Proofs.Reachable
import FieldDependencies.Proofs.CircularReferenceChecker

/-!
# `FieldDependencies.Proofs.BreakRepair`: what a break leaves, and a break undone by a repair

`breakDependenciesForField_spec`: on a reachable table, after `break_dependencies_for_field(F)`
no row has `F` in any role. A row of another field that depended on `F` through another via is
a broken reference to `F.name` with the same via; one that went through `F` is a broken
reference to `F.name` with no via; one that had `F` in no role is unchanged. Each part is one
of the equations of `breakRow` (`breakRow_of_dependency_eq`, `breakRow_of_via_eq`,
`breakRow_of_ne`), and a via is always a link-row field
(`FieldDependency.WellFormed.via_linkRow`). The rows of `F` are deleted before either update
runs, so a row of a link-row field that goes through the field itself, which a rebuild of the
link-row field creates, is deleted rather than broken
(`breakDependenciesForField_deletes_own_via_row`).

`update_after_break_restores`: on a reachable table, `break_dependencies_for_field(F)`
followed by `update_fields_with_broken_references(F)`, with `F` unchanged in between, gives
back every row that depended on `F` through a via other than `F`: same key, dependant and via,
dependency `F` again. The repair returns `True` when there was such a row.

Three facts make it work.

* The break turns such a row into a broken reference to `F.name` with the same via, and the
  repair query matches it again: the row's dependency lay in its dependant's table or in the
  table its via links to (`FieldDependency.WellFormed.dependency_table`), and those are the
  two clauses of the query.
* The break deletes every row of `F`, so `F` reads nothing afterwards, and a checker that only
  reports cycles it can trace (`Reads`) accepts every repair into `F` except one from `F`
  itself.
* No row depended on its own dependant (`reachable_dependency_ne_dependant`), so the row's
  dependant is not `F`. That needs the checker to report a field as circular with itself.

The other order composes as well. `breakDependenciesForField_after_update`: a break of `F`
after a repair into `F` leaves a reachable table as the break alone does, because every row the
repair wrote was a broken reference to `F`'s name and the break makes it one again
(`breakRow_repairRow`). `updateFieldsWithBrokenReferences_twice`: a second repair into `F` right
after the first changes nothing, with a checker that reads only resolved rows, as the spec's
does (`CircularReferenceChecker.willCauseCircularDep_mono`).
-/

set_option autoImplicit false

namespace FieldDependencies

open Relation

/-- The graph a checker can trace: an arc from the dependant of each row to its dependency and
to its via. -/
def Reads (s : FieldDependencyStore) (a b : FieldId) : Prop :=
  ∃ dep ∈ s.rows, dep.dependant = a ∧ (dep.dependency = some b ∨ dep.via = some b)

/-- The spec's checker reports only cycles along rows of the table. -/
theorem CircularReferenceChecker.willCauseCircularDep_complete (s : FieldDependencyStore)
    (a b : FieldId) (h : CircularReferenceChecker.willCauseCircularDep s a b = true) :
    ReflTransGen (Reads s) b a :=
  ((CircularReferenceChecker.willCauseCircularDep_iff s a b).mp h).mono fun _ _ hxy => by
    obtain ⟨dep, hdep, hd, -, hb⟩ := (CircularReferenceChecker.mem_readsOf s).mp hxy
    exact ⟨dep, hdep, hd, hb⟩

variable (schema : Schema)
variable (willCauseCircularDep : FieldDependencyStore → FieldId → FieldId → Bool)

/-- After its break, a field reads nothing. -/
theorem not_reads_breakDependenciesForField (field : Field) (s : FieldDependencyStore)
    (b : FieldId) : ¬ Reads (breakDependenciesForField schema field s) field.id b := by
  rintro ⟨_, hdep, hd, -⟩
  obtain ⟨dep, -, hne, rfl⟩ := exists_of_mem_breakDependenciesForField schema hdep
  exact hne ((dependant_breakRow schema field dep).symm.trans hd)

/-- What `break_dependencies_for_field(F)` leaves of a reachable table. No row has `F` as its
dependant, its dependency or its via. Of the rows of the other fields, one that depended on `F`
through another via is now a broken reference to `F`'s name with its key, dependant and via;
one that went through `F` is a broken reference to `F`'s name with no via, with its key and
dependant; one in which `F` played no role is unchanged. The rows of `F` itself are gone, also
those that went through `F`. -/
theorem breakDependenciesForField_spec {s : FieldDependencyStore}
    (hs : Reachable schema willCauseCircularDep s) (field : Field) :
    (∀ dep ∈ (breakDependenciesForField schema field s).rows,
      dep.dependant ≠ field.id ∧ dep.dependency ≠ some field.id ∧
        dep.via ≠ some field.id) ∧
    ∀ dep ∈ s.rows, dep.dependant ≠ field.id →
      (dep.dependency = some field.id → dep.via ≠ some field.id →
        { dep with dependency := none, brokenReferenceFieldName := some field.name } ∈
          (breakDependenciesForField schema field s).rows) ∧
      (dep.via = some field.id →
        { dep with
          dependency := none, brokenReferenceFieldName := some field.name, via := none } ∈
          (breakDependenciesForField schema field s).rows) ∧
      (dep.dependency ≠ some field.id → dep.via ≠ some field.id →
        dep ∈ (breakDependenciesForField schema field s).rows) := by
  -- Only a link-row field is a via.
  have hlink : ∀ dep ∈ s.rows, dep.via = some field.id → schema.isLinkRow field.id = true :=
    fun dep hdep hv => ((reachable_wellFormed schema willCauseCircularDep hs dep hdep).via_linkRow
      _ hv).1
  refine ⟨fun dep' hdep' => ?_, fun dep hdep hne =>
    ⟨fun hd hv => ?_, fun hv => ?_, fun hd hv => ?_⟩⟩
  · obtain ⟨dep, hdep, hne, rfl⟩ := exists_of_mem_breakDependenciesForField schema hdep'
    exact ⟨(dependant_breakRow schema field dep).trans_ne hne,
      dependency_breakRow_ne schema field dep, via_breakRow_ne schema (hlink dep hdep)⟩
  · exact breakRow_of_dependency_eq schema hd hv ▸ mem_breakDependenciesForField schema hdep hne
  · exact breakRow_of_via_eq schema (hlink dep hdep hv) hv ▸
      mem_breakDependenciesForField schema hdep hne
  · exact breakRow_of_ne schema hd hv ▸ mem_breakDependenciesForField schema hdep hne

/-- Trashing `link` after the lookup through it, as in the sources' test of a trashed link-row
field. -/
theorem breakDependenciesForField_spec_lookupStore :
    Reachable linkedTables CircularReferenceChecker.willCauseCircularDep lookupStore ∧
    (∀ dep ∈ (breakDependenciesForField linkedTables ⟨4, "link"⟩ lookupStore).rows,
      dep.dependant ≠ 4 ∧ dep.dependency ≠ some 4 ∧ dep.via ≠ some 4) ∧
    ∀ dep ∈ lookupStore.rows, dep.dependant ≠ 4 →
      (dep.dependency = some 4 → dep.via ≠ some 4 →
        { dep with dependency := none, brokenReferenceFieldName := some "link" } ∈
          (breakDependenciesForField linkedTables ⟨4, "link"⟩ lookupStore).rows) ∧
      (dep.via = some 4 →
        { dep with dependency := none, brokenReferenceFieldName := some "link", via := none } ∈
          (breakDependenciesForField linkedTables ⟨4, "link"⟩ lookupStore).rows) ∧
      (dep.dependency ≠ some 4 → dep.via ≠ some 4 →
        dep ∈ (breakDependenciesForField linkedTables ⟨4, "link"⟩ lookupStore).rows) :=
  ⟨reachable_runOperations linkedTables _ _,
    breakDependenciesForField_spec linkedTables CircularReferenceChecker.willCauseCircularDep
      (reachable_runOperations linkedTables _ _) ⟨4, "link"⟩⟩

/-- `link`'s own row goes through `link`, and the break deletes it with `link`'s other rows
instead of turning it into a broken reference: of the three rows of the lookup's table, the
two of `field` are left. -/
theorem breakDependenciesForField_deletes_own_via_row :
    Reachable linkedTables CircularReferenceChecker.willCauseCircularDep lookupStore ∧
    ({ id := some 0, dependant := 4, dependency := some 3, via := some 4 } : FieldDependency) ∈
      lookupStore.rows ∧
    (breakDependenciesForField linkedTables ⟨4, "link"⟩ lookupStore).rows =
      [{ id := some 1, dependant := 2, brokenReferenceFieldName := some "link" },
        { id := some 2, dependant := 2, brokenReferenceFieldName := some "link" }] :=
  ⟨reachable_runOperations linkedTables _ _, by decide, by decide⟩

/-- After the break of `F`, a checker that reports only cycles it can trace reports no field
but `F` as circular with `F`. -/
theorem willCauseCircularDep_breakDependenciesForField
    (hcomplete : ∀ s a b, willCauseCircularDep s a b = true → ReflTransGen (Reads s) b a)
    (field : Field) (s : FieldDependencyStore) {a : FieldId} (hne : a ≠ field.id) :
    willCauseCircularDep (breakDependenciesForField schema field s) a field.id = false := by
  by_contra hc
  rcases (hcomplete _ _ _ (Bool.of_not_eq_false hc)).cases_head with h | ⟨c, hc, -⟩
  · exact hne h.symm
  · exact not_reads_breakDependenciesForField schema field s c hc

/-- The repair of `F` takes back a well-formed row that depended on `F` through another via,
once broken by `F`, when the checker accepts its dependant. -/
theorem repairRow_breakRow {field : Field} {s : FieldDependencyStore} {dep : FieldDependency}
    (hwf : dep.WellFormed schema) (hd : dep.dependency = some field.id)
    (hv : dep.via ≠ some field.id)
    (hcheck : willCauseCircularDep s dep.dependant field.id = false) :
    repairs schema willCauseCircularDep field s (breakRow schema field dep) = true ∧
      repairRow schema willCauseCircularDep field s (breakRow schema field dep) = dep := by
  have hrepairs :
      repairs schema willCauseCircularDep field s (breakRow schema field dep) = true := by
    rw [breakRow_of_dependency_eq schema hd hv]
    simp only [repairs, fixedByFieldsName, hcheck]
    -- The query's two clauses: the dependency's table, or the table the via links to.
    rcases hwf.dependency_table _ hd with ht | ⟨v, hvia, hlink⟩
    · simp [ht]
    · simp [hvia, hlink]
  refine ⟨hrepairs, ?_⟩
  rw [repairRow, if_pos hrepairs, breakRow_of_dependency_eq schema hd hv]
  obtain ⟨id, dependant, dependency, via, name⟩ := dep
  cases hd
  cases name with
  | none => rfl
  | some n => exact nomatch hwf.resolved_or_broken

/-- `break_dependencies_for_field(F)` then `update_fields_with_broken_references(F)` puts
back every row of a reachable table that depended on `F` through a via other than `F`, with
its key, dependant and via, and the repair then returns `True`. The checker is assumed to
report a field as circular with itself, and to report a cycle only along rows of the table. -/
theorem update_after_break_restores
    (hself : ∀ s a, willCauseCircularDep s a a = true)
    (hcomplete : ∀ s a b, willCauseCircularDep s a b = true → ReflTransGen (Reads s) b a)
    {s : FieldDependencyStore} (hs : Reachable schema willCauseCircularDep s) (field : Field) :
    (∀ dep ∈ s.rows, dep.dependency = some field.id → dep.via ≠ some field.id →
      dep ∈ (updateFieldsWithBrokenReferences schema willCauseCircularDep field
        (breakDependenciesForField schema field s)).2.rows) ∧
    ((∃ dep ∈ s.rows, dep.dependency = some field.id ∧ dep.via ≠ some field.id) →
      (updateFieldsWithBrokenReferences schema willCauseCircularDep field
        (breakDependenciesForField schema field s)).1 = true) := by
  set s₁ := breakDependenciesForField schema field s
  -- Each such row survives the break as a broken reference that the repair takes back.
  have key : ∀ dep ∈ s.rows, dep.dependency = some field.id → dep.via ≠ some field.id →
      breakRow schema field dep ∈ s₁.rows ∧
      repairs schema willCauseCircularDep field s₁ (breakRow schema field dep) = true ∧
      repairRow schema willCauseCircularDep field s₁ (breakRow schema field dep) = dep := by
    intro dep hdep hd hv
    have hne : dep.dependant ≠ field.id := fun h =>
      reachable_dependency_ne_dependant schema willCauseCircularDep hself hs dep hdep (h ▸ hd)
    exact ⟨mem_breakDependenciesForField schema hdep hne, repairRow_breakRow schema
      willCauseCircularDep (reachable_wellFormed schema willCauseCircularDep hs dep hdep) hd hv
      (willCauseCircularDep_breakDependenciesForField schema willCauseCircularDep hcomplete
        field s hne)⟩
  refine ⟨fun dep hdep hd hv => ?_, fun ⟨dep, hdep, hd, hv⟩ => ?_⟩
  · obtain ⟨hmem, -, hrow⟩ := key dep hdep hd hv
    rw [rows_updateFieldsWithBrokenReferences]
    exact hrow ▸ List.mem_map_of_mem _ hmem
  · obtain ⟨hmem, hrepairs, -⟩ := key dep hdep hd hv
    exact (updateFieldsWithBrokenReferences_fst schema willCauseCircularDep field s₁).mpr
      ⟨_, hmem, hrepairs⟩

/-- With the spec's checker, deleting and restoring the other table's `primary` after a lookup
of it through `link` gives back the rows that read it. -/
theorem update_after_break_restores_lookupStore :
    (∀ s a, CircularReferenceChecker.willCauseCircularDep s a a = true) ∧
    (∀ s a b, CircularReferenceChecker.willCauseCircularDep s a b = true →
      ReflTransGen (Reads s) b a) ∧
    Reachable linkedTables CircularReferenceChecker.willCauseCircularDep lookupStore ∧
    (∀ dep ∈ lookupStore.rows, dep.dependency = some 3 → dep.via ≠ some 3 →
      dep ∈ (updateFieldsWithBrokenReferences linkedTables
        CircularReferenceChecker.willCauseCircularDep ⟨3, "primary"⟩
        (breakDependenciesForField linkedTables ⟨3, "primary"⟩ lookupStore)).2.rows) ∧
    ((∃ dep ∈ lookupStore.rows, dep.dependency = some 3 ∧ dep.via ≠ some 3) →
      (updateFieldsWithBrokenReferences linkedTables
        CircularReferenceChecker.willCauseCircularDep ⟨3, "primary"⟩
        (breakDependenciesForField linkedTables ⟨3, "primary"⟩ lookupStore)).1 = true) :=
  ⟨CircularReferenceChecker.willCauseCircularDep_self,
    CircularReferenceChecker.willCauseCircularDep_complete,
    reachable_runOperations linkedTables _ _,
    update_after_break_restores linkedTables _ CircularReferenceChecker.willCauseCircularDep_self
      CircularReferenceChecker.willCauseCircularDep_complete
      (reachable_runOperations linkedTables _ _) ⟨3, "primary"⟩⟩

/-- A second `update_fields_with_broken_references(F)` straight after the first repairs nothing
and returns `False`, on every reachable table. A row the first call repaired has no broken name,
and the query no longer matches it. A row it left alone was not matched, or its dependant was
rejected; the first call keeps every resolved row, so a checker that reads only resolved rows
still rejects it. -/
theorem updateFieldsWithBrokenReferences_twice
    (hmono : ∀ s s' a b, (∀ dep ∈ s.rows, dep.dependency.isSome → dep ∈ s'.rows) →
      willCauseCircularDep s a b = true → willCauseCircularDep s' a b = true)
    {s : FieldDependencyStore} (hs : Reachable schema willCauseCircularDep s) (field : Field) :
    updateFieldsWithBrokenReferences schema willCauseCircularDep field
        (updateFieldsWithBrokenReferences schema willCauseCircularDep field s).2 =
      (false, (updateFieldsWithBrokenReferences schema willCauseCircularDep field s).2) := by
  have hrows := rows_updateFieldsWithBrokenReferences schema willCauseCircularDep field s
  generalize (updateFieldsWithBrokenReferences schema willCauseCircularDep field s).2 = s'
    at hrows ⊢
  -- A resolved row has no broken name, so the first call keeps it.
  have hresolved : ∀ dep ∈ s.rows, dep.dependency.isSome → dep ∈ s'.rows :=
    fun dep hdep hd => hrows ▸ List.mem_map.mpr ⟨dep, hdep, (repairRow_eq_self_iff schema _).mpr
      (repairs_of_brokenReferenceFieldName_eq_none schema _ (Option.isNone_iff_eq_none.mp
        ((reachable_wellFormed schema _ hs dep hdep).resolved_or_broken.symm.trans hd)))⟩
  have hdone : ∀ r ∈ s'.rows, repairs schema willCauseCircularDep field s' r = false := by
    rw [hrows, List.forall_mem_map]
    intro dep _
    unfold repairRow
    split_ifs with hr
    · exact repairs_of_brokenReferenceFieldName_eq_none schema _ rfl
    · cases hfix : fixedByFieldsName schema field dep
      · simp only [repairs, hfix, Bool.false_and]
      · have hwill : willCauseCircularDep s dep.dependant field.id = true := by
          simpa only [repairs, hfix, Bool.true_and, Bool.not_eq_true', Bool.not_eq_false]
            using hr
        simp only [repairs, hfix, hmono _ _ _ _ hresolved hwill, Bool.not_true, Bool.and_false]
  refine Prod.ext (Bool.eq_false_iff.mpr fun h => ?_) (FieldDependencyStore.ext ?_ rfl)
  · obtain ⟨r, hr, hrep⟩ := (updateFieldsWithBrokenReferences_fst schema _ field s').mp h
    exact Bool.false_ne_true ((hdone r hr).symm.trans hrep)
  · rw [rows_updateFieldsWithBrokenReferences]
    exact (List.map_congr_left fun r hr =>
      (repairRow_eq_self_iff schema _).mpr (hdone r hr)).trans (List.map_id _)

/-- With the spec's checker, after `primary` is deleted and restored under the lookup of it, a
second restore of `primary` changes nothing. -/
theorem updateFieldsWithBrokenReferences_twice_lookupStore :
    (∀ s s' a b, (∀ dep ∈ s.rows, dep.dependency.isSome → dep ∈ s'.rows) →
      CircularReferenceChecker.willCauseCircularDep s a b = true →
      CircularReferenceChecker.willCauseCircularDep s' a b = true) ∧
    Reachable linkedTables CircularReferenceChecker.willCauseCircularDep
      (breakDependenciesForField linkedTables ⟨3, "primary"⟩ lookupStore) ∧
    updateFieldsWithBrokenReferences linkedTables CircularReferenceChecker.willCauseCircularDep
        ⟨3, "primary"⟩ (updateFieldsWithBrokenReferences linkedTables
          CircularReferenceChecker.willCauseCircularDep ⟨3, "primary"⟩
          (breakDependenciesForField linkedTables ⟨3, "primary"⟩ lookupStore)).2 =
      (false, (updateFieldsWithBrokenReferences linkedTables
        CircularReferenceChecker.willCauseCircularDep ⟨3, "primary"⟩
        (breakDependenciesForField linkedTables ⟨3, "primary"⟩ lookupStore)).2) :=
  ⟨fun _ _ _ _ h => CircularReferenceChecker.willCauseCircularDep_mono h,
    .breakDependencies _ (reachable_runOperations linkedTables _ _),
    updateFieldsWithBrokenReferences_twice linkedTables
      CircularReferenceChecker.willCauseCircularDep
      (fun _ _ _ _ h => CircularReferenceChecker.willCauseCircularDep_mono h)
      (.breakDependencies _ (reachable_runOperations linkedTables _ _)) ⟨3, "primary"⟩⟩

/-- A break of `F` undoes a repair into `F` of a well-formed row: the repaired row was a broken
reference to `F`'s name with no dependency, and the break makes it one again. -/
theorem breakRow_repairRow {field : Field} {s : FieldDependencyStore} {dep : FieldDependency}
    (hwf : dep.WellFormed schema) :
    breakRow schema field (repairRow schema willCauseCircularDep field s dep) =
      breakRow schema field dep := by
  unfold repairRow
  split_ifs with hr
  · have hname : dep.brokenReferenceFieldName = some field.name :=
      brokenReferenceFieldName_of_fixedByFieldsName schema (Bool.and_eq_true _ _ ▸ hr).1
    have hdep : dep.dependency = none :=
      Option.not_isSome_iff_eq_none.mp (by simp [hwf.resolved_or_broken, hname])
    -- Both rows leave the update of `field.dependants` as `dep`.
    have h : breakDependency field
        { dep with dependency := some field.id, brokenReferenceFieldName := none } =
        breakDependency field dep := by
      rw [breakDependency_of_ne (show dep.dependency ≠ some field.id by simp [hdep]),
        breakDependency, if_pos rfl]
      obtain ⟨id, dependant, dependency, via, name⟩ := dep
      cases hdep
      cases hname
      rfl
    simp only [breakRow, h]
  · rfl

/-- `update_fields_with_broken_references(F)` followed by `break_dependencies_for_field(F)`
leaves a reachable table as the break alone does, whatever the checker: the break deletes or
breaks again every row the repair wrote. -/
theorem breakDependenciesForField_after_update {s : FieldDependencyStore}
    (hs : Reachable schema willCauseCircularDep s) (field : Field) :
    breakDependenciesForField schema field
        (updateFieldsWithBrokenReferences schema willCauseCircularDep field s).2 =
      breakDependenciesForField schema field s := by
  ext1
  · simp only [rows_breakDependenciesForField, rows_updateFieldsWithBrokenReferences,
      List.filter_map, List.map_map, Function.comp_def, dependant_repairRow]
    exact List.map_congr_left fun dep hdep => breakRow_repairRow schema willCauseCircularDep
      (reachable_wellFormed schema willCauseCircularDep hs dep (List.mem_of_mem_filter hdep))
  · simp

/-- Restoring `primary` after its deletion and deleting it again leaves the lookup's table as
the first deletion did. -/
theorem breakDependenciesForField_after_update_lookupStore :
    Reachable linkedTables CircularReferenceChecker.willCauseCircularDep
      (breakDependenciesForField linkedTables ⟨3, "primary"⟩ lookupStore) ∧
    breakDependenciesForField linkedTables ⟨3, "primary"⟩
        (updateFieldsWithBrokenReferences linkedTables
          CircularReferenceChecker.willCauseCircularDep ⟨3, "primary"⟩
          (breakDependenciesForField linkedTables ⟨3, "primary"⟩ lookupStore)).2 =
      breakDependenciesForField linkedTables ⟨3, "primary"⟩
        (breakDependenciesForField linkedTables ⟨3, "primary"⟩ lookupStore) :=
  ⟨.breakDependencies _ (reachable_runOperations linkedTables _ _),
    breakDependenciesForField_after_update linkedTables _
      (.breakDependencies _ (reachable_runOperations linkedTables _ _)) ⟨3, "primary"⟩⟩

end FieldDependencies
