import FieldDependencies.Proofs.Acyclic

/-!
# `FieldDependencies.Proofs.RebuildErrors`: what a rebuild raises

`rebuildFieldDependencies_raises`: a rebuild raises `SelfReferenceFieldDependencyError` exactly
on a bare descriptor naming the field itself. Otherwise it raises
`CircularFieldDependencyError` exactly when the checker reports the dependency of a constructed
resolved object whose identity none of the field's current rows has. Whatever it raises, it
leaves the table as it was. The check skips the objects the field already has a row for: those
rows stay and are never checked again.

Skipping them loses nothing when the checker reports cycles on the resolved rows' dependency
arcs exactly (`dependencyChecker` is one): such a row's dependency does not reach back to the
field, or the table would have a cycle, and reachable tables have none (`reachable_acyclic`).
`rebuildFieldDependencies_circular_iff_of_exact` drops the qualifier for such a checker on every
acyclic table, and `rebuildFieldDependencies_circular_iff_of_reachable` on every table the
operations reach with it.

The spec's checker also follows the via arcs, and those do close cycles on reachable tables:
a repair resolves a via row without its direct row on the via, and no check ever asked about
the arc to the via. `rebuildFieldDependencies_returns_on_reported_row` builds such a table,
on which a rebuild returns although the checker reports one of the rows it constructs.
-/

set_option autoImplicit false

namespace FieldDependencies

open Relation

variable (schema : Schema)
variable (willCauseCircularDep : FieldDependencyStore → FieldId → FieldId → Bool)

/-- The check of `rebuild_field_dependencies` on one object: it reports the object's
dependency. -/
theorem causesCircularDep_eq_true_iff (s : FieldDependencyStore) (fieldInstance : Field)
    (dep : FieldDependency) :
    causesCircularDep willCauseCircularDep s fieldInstance dep = true ↔
      ∃ t, dep.dependency = some t ∧ willCauseCircularDep s fieldInstance.id t = true := by
  unfold causesCircularDep
  split <;> simp_all

section Run
variable (fieldInstance : Field) (fieldDependencies : Option (List DependencyDescriptor))
  (fieldLookupCache : FieldCache schema) (s : FieldDependencyStore)

/-- A rebuild raises `SelfReferenceFieldDependencyError` exactly on a bare descriptor naming
the field itself. -/
theorem rebuildFieldDependencies_eq_error_selfReference_iff :
    (∃ s', (rebuildFieldDependencies schema willCauseCircularDep fieldInstance fieldDependencies
        fieldLookupCache).run s = .error .selfReference s') ↔
      .name fieldInstance.name ∈ fieldDependencies.getD [] := by
  rw [rebuildFieldDependencies_run]
  cases hc : constructDependencies schema fieldInstance fieldLookupCache
      (fieldDependencies.getD []) with
  | error e =>
    obtain ⟨rfl, hmem⟩ := (constructDependencies_eq_error schema _ _ _ _).mp hc
    simpa using hmem
  | ok newDependencies =>
    have hmem : .name fieldInstance.name ∉ fieldDependencies.getD [] := fun hmem =>
      nomatch hc.symm.trans ((constructDependencies_eq_error schema _ _ _ _).mpr ⟨rfl, hmem⟩)
    simp only [hmem, iff_false, not_exists]
    intro s' h
    split_ifs at h; cases h

/-- When the descriptors construct, a rebuild raises `CircularFieldDependencyError` exactly
when the checker reports the dependency of a constructed object whose identity none of the
field's current rows has. -/
theorem rebuildFieldDependencies_eq_error_circular_iff {newDependencies : List FieldDependency}
    (hnew : constructDependencies schema fieldInstance fieldLookupCache
      (fieldDependencies.getD []) = .ok newDependencies) :
    (∃ s', (rebuildFieldDependencies schema willCauseCircularDep fieldInstance fieldDependencies
        fieldLookupCache).run s = .error .circular s') ↔
      ∃ dep ∈ newDependencies,
        dep.str ∉ (currentDependencies s fieldInstance).map FieldDependency.str ∧
        ∃ t, dep.dependency = some t ∧ willCauseCircularDep s fieldInstance.id t = true := by
  rw [rebuildFieldDependencies_run, hnew]
  dsimp only
  constructor
  · rintro ⟨s', h⟩
    split_ifs at h with hc
    · obtain ⟨d, hd, hcd⟩ := List.any_eq_true.mp hc
      exact ⟨d, (mem_toCreate hd).1, (mem_toCreate hd).2,
        (causesCircularDep_eq_true_iff willCauseCircularDep s fieldInstance d).mp hcd⟩
  · rintro ⟨dep, hdep, hk, t, ht, hw⟩
    obtain ⟨d, hd, hstr⟩ := exists_toCreate hdep hk
    have hdt : d.dependency = some t := (congrArg (fun k : DependencyKey => k.2.1) hstr).trans ht
    have hcd := (causesCircularDep_eq_true_iff willCauseCircularDep s fieldInstance d).mpr
      ⟨t, hdt, hw⟩
    exact ⟨s, if_pos (List.any_eq_true.mpr ⟨d, hd, hcd⟩)⟩

end Run

/-- What `rebuild_field_dependencies` raises, for every checker and every table. It raises
`SelfReferenceFieldDependencyError` exactly on a bare descriptor naming the field itself.
Otherwise it raises `CircularFieldDependencyError` exactly when the checker, on the table as it
was, reports the dependency of a constructed resolved object whose identity none of the field's
current rows has. Whatever it raises, the table is as it was. -/
theorem rebuildFieldDependencies_raises (fieldInstance : Field)
    (fieldDependencies : Option (List DependencyDescriptor))
    (fieldLookupCache : FieldCache schema) (s : FieldDependencyStore) :
    ((∃ s', (rebuildFieldDependencies schema willCauseCircularDep fieldInstance fieldDependencies
        fieldLookupCache).run s = .error .selfReference s') ↔
      .name fieldInstance.name ∈ fieldDependencies.getD []) ∧
    (∀ newDependencies, constructDependencies schema fieldInstance fieldLookupCache
        (fieldDependencies.getD []) = .ok newDependencies →
      ((∃ s', (rebuildFieldDependencies schema willCauseCircularDep fieldInstance
          fieldDependencies fieldLookupCache).run s = .error .circular s') ↔
        ∃ dep ∈ newDependencies,
          dep.str ∉ (currentDependencies s fieldInstance).map FieldDependency.str ∧
          ∃ t, dep.dependency = some t ∧ willCauseCircularDep s fieldInstance.id t = true)) ∧
    (∀ e s', (rebuildFieldDependencies schema willCauseCircularDep fieldInstance
        fieldDependencies fieldLookupCache).run s = .error e s' → s' = s) :=
  ⟨rebuildFieldDependencies_eq_error_selfReference_iff schema _ _ _ _ _,
    fun _ hnew => rebuildFieldDependencies_eq_error_circular_iff schema _ _ _ _ _ hnew,
    fun _ _ h => rebuildFieldDependencies_error_store schema _ h⟩

/-- The dependencies of `field` in resolved rows. -/
def dependenciesOf (s : FieldDependencyStore) (field : FieldId) : List FieldId :=
  s.rows.filterMap fun dep => if dep.dependant = field then dep.dependency else none

/-- A checker that follows the dependency arcs of the resolved rows and nothing else: the search
of the spec's checker over the graph `DependsOn`. -/
def dependencyChecker (s : FieldDependencyStore) (fromField toField : FieldId) : Bool :=
  decide (fromField ∈ CircularReferenceChecker.reachableFrom (dependenciesOf s)
    (s.rows.filterMap (·.dependency)).length [toField])

theorem mem_dependenciesOf {s : FieldDependencyStore} {a b : FieldId} :
    b ∈ dependenciesOf s a ↔ DependsOn s a b := by
  simp only [dependenciesOf, List.mem_filterMap, DependsOn]
  refine exists_congr fun dep => and_congr_right fun _ => ?_
  split_ifs with h <;> simp [h]

/-- `dependencyChecker` reports a cycle exactly when `toField` reaches `fromField` along
`DependsOn`. -/
theorem dependencyChecker_iff (s : FieldDependencyStore) (fromField toField : FieldId) :
    dependencyChecker s fromField toField = true ↔
      ReflTransGen (DependsOn s) toField fromField := by
  rw [dependencyChecker, decide_eq_true_iff, CircularReferenceChecker.mem_reachableFrom_iff _
    (fun _ _ hy => by
      obtain ⟨dep, hdep, -, hb⟩ := mem_dependenciesOf.mp hy
      exact List.mem_filterMap.mpr ⟨dep, hdep, hb⟩) le_rfl]
  simp only [mem_dependenciesOf]

/-- A table is acyclic when `dependencyChecker` reports no row's dependency: a cycle starts
with the arc of some row, whose dependency then reaches back to its dependant. -/
theorem acyclic_of_dependencyChecker {s : FieldDependencyStore}
    (h : ∀ dep ∈ s.rows, ∀ t, dep.dependency = some t →
      dependencyChecker s dep.dependant t = false) :
    ∀ a, ¬ TransGen (DependsOn s) a a := fun a ha => by
  obtain ⟨b, ⟨dep, hdep, rfl, hb⟩, hba⟩ := TransGen.head'_iff.mp ha
  have hreported := (dependencyChecker_iff s _ b).mpr hba
  rw [h dep hdep b hb] at hreported
  cases hreported

/-- On an acyclic table, no row of the field depends on a field that reaches the field back:
such a row would close a cycle. -/
theorem str_not_mem_currentDependencies_of_reaches {s : FieldDependencyStore}
    (hacyclic : ∀ a, ¬ TransGen (DependsOn s) a a) {fieldInstance : Field}
    {dep : FieldDependency} {t : FieldId} (ht : dep.dependency = some t)
    (hreach : ReflTransGen (DependsOn s) t fieldInstance.id) :
    dep.str ∉ (currentDependencies s fieldInstance).map FieldDependency.str := fun hk => by
  obtain ⟨c, hc, hcstr⟩ := List.mem_map.mp hk
  have hct : c.dependency = some t := (congrArg (fun k : DependencyKey => k.2.1) hcstr).trans ht
  have hcf : c.dependant = fieldInstance.id := by simpa using (List.mem_filter.mp hc).2
  exact hacyclic _ (TransGen.head' ⟨c, (List.mem_filter.mp hc).1, hcf, hct⟩ hreach)

/-- With a checker that reports cycles on the dependency arcs exactly, a rebuild on an acyclic
table (every reachable one is) raises `CircularFieldDependencyError`, when the descriptors
construct, exactly when the checker reports the dependency of some constructed object, whether
or not the field already has a row of its identity. -/
theorem rebuildFieldDependencies_circular_iff_of_exact
    (hexact : ∀ s a b, willCauseCircularDep s a b = true ↔ ReflTransGen (DependsOn s) b a)
    {s : FieldDependencyStore} (hacyclic : ∀ a, ¬ TransGen (DependsOn s) a a)
    (fieldInstance : Field) (fieldDependencies : Option (List DependencyDescriptor))
    (fieldLookupCache : FieldCache schema) {newDependencies : List FieldDependency}
    (hnew : constructDependencies schema fieldInstance fieldLookupCache
      (fieldDependencies.getD []) = .ok newDependencies) :
    (∃ s', (rebuildFieldDependencies schema willCauseCircularDep fieldInstance fieldDependencies
        fieldLookupCache).run s = .error .circular s') ↔
      ∃ dep ∈ newDependencies,
        ∃ t, dep.dependency = some t ∧ willCauseCircularDep s fieldInstance.id t = true := by
  rw [rebuildFieldDependencies_eq_error_circular_iff schema _ _ _ _ _ hnew]
  exact ⟨fun ⟨dep, hdep, _, ht⟩ => ⟨dep, hdep, ht⟩, fun ⟨dep, hdep, t, ht, hw⟩ =>
    ⟨dep, hdep, str_not_mem_currentDependencies_of_reaches hacyclic ht ((hexact s _ _).mp hw),
      t, ht, hw⟩⟩

/-- The lookup through `link` rebuilt once more on its own table, with `dependencyChecker`. -/
theorem rebuildFieldDependencies_circular_iff_of_exact_lookupStore :
    (∀ s a b, dependencyChecker s a b = true ↔ ReflTransGen (DependsOn s) b a) ∧
    (∀ dep ∈ lookupStore.rows, ∀ t, dep.dependency = some t →
      dependencyChecker lookupStore dep.dependant t = false) ∧
    constructDependencies linkedTables ⟨2, "field"⟩ linkTestCache [.via "link" "primary"] =
      .ok [{ dependant := 2, dependency := some 4 },
        { dependant := 2, dependency := some 3, via := some 4 }] ∧
    ((∃ s', (rebuildFieldDependencies linkedTables dependencyChecker ⟨2, "field"⟩
        (some [.via "link" "primary"]) linkTestCache).run lookupStore = .error .circular s') ↔
      ∃ dep ∈ [({ dependant := 2, dependency := some 4 } : FieldDependency),
          { dependant := 2, dependency := some 3, via := some 4 }],
        ∃ t, dep.dependency = some t ∧ dependencyChecker lookupStore 2 t = true) :=
  ⟨dependencyChecker_iff, by decide, rfl,
    @rebuildFieldDependencies_circular_iff_of_exact linkedTables dependencyChecker
      dependencyChecker_iff lookupStore (acyclic_of_dependencyChecker (by decide)) ⟨2, "field"⟩
      (some [.via "link" "primary"]) linkTestCache _ rfl⟩

/-- With a checker that reports cycles on the dependency arcs exactly, on every table the three
operations reach with that checker, a rebuild raises `CircularFieldDependencyError`, when the
descriptors construct, exactly when the checker reports the dependency of some constructed
object, whether or not the field already has a row of its identity. Such a table is acyclic
(`acyclic_apply` over the run), so a row the field has never closes a cycle. -/
theorem rebuildFieldDependencies_circular_iff_of_reachable
    (hexact : ∀ s a b, willCauseCircularDep s a b = true ↔ ReflTransGen (DependsOn s) b a)
    {s : FieldDependencyStore} (hs : Reachable schema willCauseCircularDep s)
    (fieldInstance : Field) (fieldDependencies : Option (List DependencyDescriptor))
    (fieldLookupCache : FieldCache schema) {newDependencies : List FieldDependency}
    (hnew : constructDependencies schema fieldInstance fieldLookupCache
      (fieldDependencies.getD []) = .ok newDependencies) :
    (∃ s', (rebuildFieldDependencies schema willCauseCircularDep fieldInstance fieldDependencies
        fieldLookupCache).run s = .error .circular s') ↔
      ∃ dep ∈ newDependencies,
        ∃ t, dep.dependency = some t ∧ willCauseCircularDep s fieldInstance.id t = true := by
  have hacyclic := invariant_of_reachable schema willCauseCircularDep
    (fun s => ∀ a, ¬ TransGen (DependsOn s) a a) acyclic_empty
    (fun _ op => acyclic_apply schema willCauseCircularDep (fun s a b => (hexact s a b).mpr) op)
    hs
  rw [rebuildFieldDependencies_eq_error_circular_iff schema _ _ _ _ _ hnew]
  exact ⟨fun ⟨dep, hdep, _, ht⟩ => ⟨dep, hdep, ht⟩, fun ⟨dep, hdep, t, ht, hw⟩ =>
    ⟨dep, hdep, str_not_mem_currentDependencies_of_reaches hacyclic ht ((hexact s _ _).mp hw),
      t, ht, hw⟩⟩

/-- With `dependencyChecker`, `link` reads the other table's `primary`, which reads `field` back
through `back`; `field` then rebuilt as a lookup through `link` raises, since `link` and the
other table's `primary` both reach `field`. -/
theorem rebuildFieldDependencies_circular_iff_of_reachable_backLink :
    (∀ s a b, dependencyChecker s a b = true ↔ ReflTransGen (DependsOn s) b a) ∧
    Reachable linkedTables dependencyChecker
      (runOperations linkedTables dependencyChecker
        [.rebuild ⟨4, "link"⟩ (some [.via "link" "primary"]) linkTestCache,
         .rebuild ⟨3, "primary"⟩ (some [.via "back" "field"]) linkedCache]) ∧
    constructDependencies linkedTables ⟨2, "field"⟩ linkTestCache [.via "link" "primary"] =
      .ok [{ dependant := 2, dependency := some 4 },
        { dependant := 2, dependency := some 3, via := some 4 }] ∧
    ((∃ s', (rebuildFieldDependencies linkedTables dependencyChecker ⟨2, "field"⟩
        (some [.via "link" "primary"]) linkTestCache).run
        (runOperations linkedTables dependencyChecker
          [.rebuild ⟨4, "link"⟩ (some [.via "link" "primary"]) linkTestCache,
           .rebuild ⟨3, "primary"⟩ (some [.via "back" "field"]) linkedCache]) =
          .error .circular s') ↔
      ∃ dep ∈ [({ dependant := 2, dependency := some 4 } : FieldDependency),
          { dependant := 2, dependency := some 3, via := some 4 }],
        ∃ t, dep.dependency = some t ∧ dependencyChecker
          (runOperations linkedTables dependencyChecker
            [.rebuild ⟨4, "link"⟩ (some [.via "link" "primary"]) linkTestCache,
             .rebuild ⟨3, "primary"⟩ (some [.via "back" "field"]) linkedCache]) 2 t = true) ∧
    ∃ s', (rebuildFieldDependencies linkedTables dependencyChecker ⟨2, "field"⟩
        (some [.via "link" "primary"]) linkTestCache).run
        (runOperations linkedTables dependencyChecker
          [.rebuild ⟨4, "link"⟩ (some [.via "link" "primary"]) linkTestCache,
           .rebuild ⟨3, "primary"⟩ (some [.via "back" "field"]) linkedCache]) =
        .error .circular s' :=
  ⟨dependencyChecker_iff, reachable_runOperations linkedTables _ _, rfl,
    @rebuildFieldDependencies_circular_iff_of_reachable linkedTables dependencyChecker
      dependencyChecker_iff _ (reachable_runOperations linkedTables _ _) ⟨2, "field"⟩
      (some [.via "link" "primary"]) linkTestCache _ rfl,
    _, rfl⟩

/-- The table of a via row resolved without its direct row, under the spec's checker. `link`
reads the other table's `primary`, which reads `field` back through `back`; `field` looks up
`extra` through `link` before `extra` exists; then `extra` is created and the repair resolves
the row. The spec's graph now has the cycle `field → link → primary → field`. -/
def viaCycleStore : FieldDependencyStore :=
  runOperations linkedTables CircularReferenceChecker.willCauseCircularDep
    [.rebuild ⟨4, "link"⟩ (some [.via "link" "primary"]) linkTestCache,
     .rebuild ⟨3, "primary"⟩ (some [.via "back" "field"]) linkedCache,
     .rebuild ⟨2, "field"⟩ (some [.via "link" "extra"]) linkTestCache,
     .updateBrokenReferences ⟨6, "extra"⟩]

/-- On that table, rebuilding the other table's `primary` with its descriptors unchanged
returns and leaves the table as it is, although the spec's checker reports the dependency
`field` of one of the objects it constructs. -/
theorem rebuildFieldDependencies_returns_on_reported_row :
    constructDependencies linkedTables ⟨3, "primary"⟩ linkedCache [.via "back" "field"] =
      .ok [{ dependant := 3, dependency := some 5 },
        { dependant := 3, dependency := some 2, via := some 5 }] ∧
    CircularReferenceChecker.willCauseCircularDep viaCycleStore 3 2 = true ∧
    (rebuildFieldDependencies linkedTables CircularReferenceChecker.willCauseCircularDep
      ⟨3, "primary"⟩ (some [.via "back" "field"]) linkedCache).run viaCycleStore =
      .ok () viaCycleStore :=
  ⟨rfl, by decide, rfl⟩

end FieldDependencies
