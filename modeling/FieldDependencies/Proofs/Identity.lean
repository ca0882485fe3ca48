import FieldDependencies.Proofs.Reachable
import FieldDependencies.Spec.CircularReferenceChecker

/-!
# `FieldDependencies.Proofs.Identity`: the identity of a row and the rebuild's diff

`rebuild_field_dependencies` matches the field's current rows with the objects it constructs
by `str(dep)`, the identity (`dependant`, `dependency`, `via`, `broken_reference_field_name`),
through a dict, and a dict holds one row per identity. The diff is exact when the field's rows
have distinct identities:

* `currentDependencies_rebuiltStore`: the field's rows after a rebuild are its earlier rows
  whose identity is constructed, in place and with their keys, followed by the created rows.
* `rebuildFieldDependencies_ok_spec` reads off what a rebuild that returns does: the other
  fields' rows are as they were, and the field's rows have distinct identities, exactly those
  of the constructed objects. `rebuildFieldDependencies_idempotent`: a second rebuild right
  after changes nothing.
* `rebuildFieldDependencies_restores_direct_row`: after such a rebuild every resolved row of
  the field through another field has the field's direct row on that field beside it, since
  `_construct_dependency` builds the two together. A repair can leave the direct row out; the
  next rebuild of the dependant restores it.

Tables do not keep identities distinct. `break_dependencies_for_field(L)` for a link-row field
`L` turns a row of another field on `L` with no via, and a row of the same field through `L`,
into two broken references to `L`'s name with no via: one identity for two rows. A lookup
through a link has such a pair, since `_construct_dependency` builds both
(`breakDependenciesForField_merges_identities`). A rebuild of the dependant then sees one of
the two rows only: it keeps or deletes that one, and never touches the other
(`rebuildFieldDependencies_keeps_merged_row`).
-/

set_option autoImplicit false

namespace FieldDependencies

variable (schema : Schema)
variable (willCauseCircularDep : FieldDependencyStore → FieldId → FieldId → Bool)

section Rebuilt
variable (s : FieldDependencyStore) (field : Field) (newDependencies : List FieldDependency)

/-- The created objects carry identities no current row of the field has, each once. -/
theorem nodup_str_toCreate :
    ((rebuildDiff (currentDependencies s field) newDependencies).2.map
      FieldDependency.str).Nodup := by
  rw [rebuildDiff_eq, List.map_map]
  have hkey : ∀ e ∈ (dictOf FieldDependency.str newDependencies).filter
      (fun e => e.1 ∉ (currentDependencies s field).map FieldDependency.str),
      (FieldDependency.str ∘ Prod.snd) e = e.1 :=
    fun e he => (mem_dictOf _ (List.mem_filter.mp he).1).1
  rw [List.map_congr_left hkey]
  exact (nodup_keys_dictOf _ _).sublist ((List.filter_sublist _).map _)

/-- When the field's rows have distinct identities, a rebuild deletes exactly those whose
identity it does not construct. -/
theorem contains_leftover_id_iff
    (hcur : ((currentDependencies s field).map FieldDependency.str).Nodup)
    {dep : FieldDependency} (hdep : dep ∈ currentDependencies s field) :
    ((rebuildDiff (currentDependencies s field) newDependencies).1.map (·.2.id)).contains
        dep.id = true ↔ dep.str ∉ newDependencies.map FieldDependency.str := by
  simp only [List.contains, List.elem_eq_mem, decide_eq_true_eq]
  rw [List.mem_map]
  constructor
  · rintro ⟨e, he, hid⟩
    obtain ⟨hcur', hk⟩ := mem_leftover he
    rwa [← s.eq_of_id_eq (List.mem_filter.mp hcur').1 (List.mem_filter.mp hdep).1 hid]
  · intro hk
    obtain ⟨e, he, hstr⟩ := exists_leftover hdep hk
    exact ⟨e, he, congrArg _ (List.inj_on_of_nodup_map hcur (mem_leftover he).1 hdep hstr)⟩

/-- When the field's rows have distinct identities, its rows after a rebuild are its earlier
rows whose identity is constructed, followed by the created rows. -/
theorem currentDependencies_rebuiltStore
    (hcur : ((currentDependencies s field).map FieldDependency.str).Nodup)
    (hnew : ∀ dep ∈ newDependencies, dep.dependant = field.id) :
    currentDependencies (rebuiltStore s field newDependencies) field =
      (currentDependencies s field).filter
          (fun dep => dep.str ∈ newDependencies.map FieldDependency.str) ++
        saveFrom s.nextId (rebuildDiff (currentDependencies s field) newDependencies).2 := by
  show ((s.rows ++ saveFrom s.nextId _).filter _).filter _ = _
  rw [List.filter_filter, List.filter_append]
  congr 1
  · -- A row of the table stays when it is not the field's, or its identity is constructed.
    show _ = List.filter _ (List.filter _ s.rows)
    rw [List.filter_filter]
    refine List.filter_congr fun dep hdep => ?_
    by_cases hd : dep.dependant = field.id
    · have hmem : dep ∈ currentDependencies s field :=
        List.mem_filter.mpr ⟨hdep, by simpa using hd⟩
      have hdel := contains_leftover_id_iff s field newDependencies hcur hmem
      simp only [hd, beq_self_eq_true, Bool.true_and, Bool.and_true]
      rw [Bool.eq_iff_iff, Bool.not_eq_true', ← Bool.not_eq_true, hdel, not_not,
        decide_eq_true_iff]
    · have hd' : (dep.dependant == field.id) = false := by simpa using hd
      simp only [hd', Bool.false_and, Bool.and_false]
  · -- A created row is the field's, under a key no deleted row has.
    refine List.filter_eq_self.mpr fun d hd => ?_
    obtain ⟨c, hc, n, rfl⟩ := mem_saveFrom hd
    simp only [Bool.and_eq_true, Bool.not_eq_true', beq_iff_eq, List.contains, List.elem_eq_mem,
      decide_eq_false_iff_not, List.mem_map, not_exists, not_and]
    refine ⟨hnew c (mem_toCreate hc).1, fun e he hid => ?_⟩
    exact s.id_ne_of_mem_saveFrom (List.mem_filter.mp (mem_leftover he).1).1 hd hid

/-- When the field's rows have distinct identities, the identities of its rows after a rebuild
are exactly those of the constructed objects, each once. -/
theorem str_currentDependencies_rebuiltStore
    (hcur : ((currentDependencies s field).map FieldDependency.str).Nodup)
    (hnew : ∀ dep ∈ newDependencies, dep.dependant = field.id) :
    ((currentDependencies (rebuiltStore s field newDependencies) field).map
        FieldDependency.str).Nodup ∧
    ∀ k, k ∈ (currentDependencies (rebuiltStore s field newDependencies) field).map
        FieldDependency.str ↔ k ∈ newDependencies.map FieldDependency.str := by
  rw [currentDependencies_rebuiltStore s field newDependencies hcur hnew, List.map_append,
    saveFrom_map_str]
  refine ⟨List.nodup_append.mpr ⟨hcur.sublist ((List.filter_sublist _).map _),
    nodup_str_toCreate s field newDependencies, fun k hk hk' => ?_⟩, fun k => ?_⟩
  · obtain ⟨d, hd, rfl⟩ := List.mem_map.mp hk'
    exact (mem_toCreate hd).2 ((List.filter_sublist _).map _ |>.subset hk)
  · rw [List.mem_append]
    constructor
    · rintro (hk | hk)
      · obtain ⟨d, hd, rfl⟩ := List.mem_map.mp hk
        simpa using (List.mem_filter.mp hd).2
      · obtain ⟨d, hd, rfl⟩ := List.mem_map.mp hk
        exact List.mem_map_of_mem _ (mem_toCreate hd).1
    · intro hk
      obtain ⟨d, hd, rfl⟩ := List.mem_map.mp hk
      by_cases hc : d.str ∈ (currentDependencies s field).map FieldDependency.str
      · obtain ⟨c, hc, hcd⟩ := List.mem_map.mp hc
        exact .inl (hcd ▸ List.mem_map_of_mem _
          (List.mem_filter.mpr ⟨hc, by simpa [hcd] using hk⟩))
      · obtain ⟨c, hc', hcd⟩ := exists_toCreate hd hc
        exact .inr (hcd ▸ List.mem_map_of_mem _ hc')

end Rebuilt

/-- A rebuild that returns leaves `rebuiltStore` of the objects it constructs, all of which
belong to the field. -/
theorem rebuildFieldDependencies_ok_rebuiltStore {fieldInstance : Field}
    {fieldDependencies : Option (List DependencyDescriptor)}
    {fieldLookupCache : FieldCache schema} {newDependencies : List FieldDependency}
    {s s' : FieldDependencyStore}
    (hnew : constructDependencies schema fieldInstance fieldLookupCache
      (fieldDependencies.getD []) = .ok newDependencies)
    (h : (rebuildFieldDependencies schema willCauseCircularDep fieldInstance fieldDependencies
      fieldLookupCache).run s = .ok () s') :
    s' = rebuiltStore s fieldInstance newDependencies ∧
      ∀ dep ∈ newDependencies, dep.dependant = fieldInstance.id := by
  obtain ⟨new', hnew', -, hs'⟩ := rebuildFieldDependencies_ok schema willCauseCircularDep h
  rw [hnew] at hnew'
  cases hnew'
  refine ⟨hs', fun dep hdep => ?_⟩
  obtain ⟨desc, -, ds, hds, hdds⟩ := mem_constructDependencies schema hnew hdep
  exact (constructDependency_wellFormed schema hds dep hdds).1

/-- A rebuild that returns, from a table in which the field's rows have distinct identities.
The rows of other fields are as they were. The field's rows have distinct identities, and they
are exactly the identities of the objects `_construct_dependency` builds from the descriptors.
Each earlier row of the field whose identity is among them is still there, with its key. -/
theorem rebuildFieldDependencies_ok_spec {fieldInstance : Field}
    {fieldDependencies : Option (List DependencyDescriptor)}
    {fieldLookupCache : FieldCache schema} {newDependencies : List FieldDependency}
    {s s' : FieldDependencyStore}
    (hcur : ((currentDependencies s fieldInstance).map FieldDependency.str).Nodup)
    (hnew : constructDependencies schema fieldInstance fieldLookupCache
      (fieldDependencies.getD []) = .ok newDependencies)
    (h : (rebuildFieldDependencies schema willCauseCircularDep fieldInstance fieldDependencies
      fieldLookupCache).run s = .ok () s') :
    (∀ dep, dep.dependant ≠ fieldInstance.id → (dep ∈ s'.rows ↔ dep ∈ s.rows)) ∧
    ((currentDependencies s' fieldInstance).map FieldDependency.str).Nodup ∧
    (∀ k, k ∈ (currentDependencies s' fieldInstance).map FieldDependency.str ↔
      k ∈ newDependencies.map FieldDependency.str) ∧
    (∀ dep ∈ currentDependencies s fieldInstance,
      dep.str ∈ newDependencies.map FieldDependency.str → dep ∈ s'.rows) := by
  obtain ⟨rfl, hmine⟩ := rebuildFieldDependencies_ok_rebuiltStore schema _ hnew h
  obtain ⟨hnodup, hkeys⟩ := str_currentDependencies_rebuiltStore s fieldInstance _ hcur hmine
  refine ⟨fun dep hne => ⟨fun hdep => ?_, fun hdep => mem_rebuiltStore_of_ne _ _ _ hdep hne⟩,
    hnodup, hkeys, fun dep hdep hk => ?_⟩
  · rcases mem_rebuiltStore s fieldInstance newDependencies hdep with hdep | ⟨d, hd, n, rfl⟩
    · exact hdep
    · exact absurd (hmine d (mem_toCreate hd).1) hne
  · have hmem : dep ∈ currentDependencies (rebuiltStore s fieldInstance newDependencies)
        fieldInstance := by
      rw [currentDependencies_rebuiltStore s fieldInstance _ hcur hmine]
      exact List.mem_append_left _ (List.mem_filter.mpr ⟨hdep, by simpa using hk⟩)
    exact (List.mem_filter.mp hmem).1

/-- The lookup through `link` rebuilt with one more descriptor, a bare name of its own table's
`primary`. -/
def lookupPrimaryStore : FieldDependencyStore :=
  runOperations linkedTables CircularReferenceChecker.willCauseCircularDep
    [.rebuild ⟨4, "link"⟩ (some [.via "link" "primary"]) linkTestCache,
     .rebuild ⟨2, "field"⟩ (some [.via "link" "primary"]) linkTestCache,
     .rebuild ⟨2, "field"⟩ (some [.via "link" "primary", .name "primary"]) linkTestCache]

/-- On the lookup's table `field` has two rows; rebuilt with one more descriptor, it keeps both
with their keys and gains the row of the new one. -/
theorem rebuildFieldDependencies_ok_spec_lookupStore :
    (currentDependencies lookupStore ⟨2, "field"⟩).length = 2 ∧
    ((currentDependencies lookupStore ⟨2, "field"⟩).map FieldDependency.str).Nodup ∧
    constructDependencies linkedTables ⟨2, "field"⟩ linkTestCache
        [.via "link" "primary", .name "primary"] =
      .ok [{ dependant := 2, dependency := some 4 },
        { dependant := 2, dependency := some 3, via := some 4 },
        { dependant := 2, dependency := some 1 }] ∧
    (rebuildFieldDependencies linkedTables CircularReferenceChecker.willCauseCircularDep
      ⟨2, "field"⟩ (some [.via "link" "primary", .name "primary"]) linkTestCache).run
      lookupStore = .ok () lookupPrimaryStore ∧
    (∀ dep, dep.dependant ≠ 2 →
      (dep ∈ lookupPrimaryStore.rows ↔ dep ∈ lookupStore.rows)) ∧
    ((currentDependencies lookupPrimaryStore ⟨2, "field"⟩).map FieldDependency.str).Nodup ∧
    (∀ k, k ∈ (currentDependencies lookupPrimaryStore ⟨2, "field"⟩).map
        FieldDependency.str ↔
      k ∈ [{ dependant := 2, dependency := some 4 },
        { dependant := 2, dependency := some 3, via := some 4 },
        { dependant := 2, dependency := some 1 }].map FieldDependency.str) ∧
    (∀ dep ∈ currentDependencies lookupStore ⟨2, "field"⟩,
      dep.str ∈ [{ dependant := 2, dependency := some 4 },
        { dependant := 2, dependency := some 3, via := some 4 },
        { dependant := 2, dependency := some 1 }].map FieldDependency.str →
      dep ∈ lookupPrimaryStore.rows) :=
  ⟨by decide, by decide, rfl, rfl,
    @rebuildFieldDependencies_ok_spec linkedTables CircularReferenceChecker.willCauseCircularDep
      ⟨2, "field"⟩ (some [.via "link" "primary", .name "primary"]) linkTestCache _ lookupStore
      lookupPrimaryStore (by decide) rfl rfl⟩

/-- After a rebuild that returned, from a table in which the field's rows had distinct
identities, a second rebuild with nothing changed in between returns and leaves the table as
it is: it inserts and deletes nothing. -/
theorem rebuildFieldDependencies_idempotent {fieldInstance : Field}
    {fieldDependencies : Option (List DependencyDescriptor)}
    {fieldLookupCache : FieldCache schema} {s s' : FieldDependencyStore}
    (hcur : ((currentDependencies s fieldInstance).map FieldDependency.str).Nodup)
    (h : (rebuildFieldDependencies schema willCauseCircularDep fieldInstance fieldDependencies
      fieldLookupCache).run s = .ok () s') :
    (rebuildFieldDependencies schema willCauseCircularDep fieldInstance fieldDependencies
      fieldLookupCache).run s' = .ok () s' := by
  obtain ⟨newDependencies, hnew, -, -⟩ := rebuildFieldDependencies_ok schema _ h
  obtain ⟨hs', hmine⟩ := rebuildFieldDependencies_ok_rebuiltStore schema _ hnew h
  obtain ⟨-, hkeys⟩ := str_currentDependencies_rebuiltStore s fieldInstance _ hcur hmine
  rw [← hs'] at hkeys
  -- The field's rows now carry exactly the constructed identities: nothing to pop or create.
  have hdiff : rebuildDiff (currentDependencies s' fieldInstance) newDependencies = ([], []) := by
    rw [rebuildDiff_eq]
    refine Prod.ext (List.filter_eq_nil_iff.mpr fun e he => ?_)
      (List.map_eq_nil_iff.mpr (List.filter_eq_nil_iff.mpr fun e he => ?_))
    · obtain ⟨hk, hcur'⟩ := mem_dictOf _ he
      rw [decide_eq_true_iff, not_not, ← hk]
      exact (hkeys _).mp (List.mem_map_of_mem _ hcur')
    · obtain ⟨hk, hnew'⟩ := mem_dictOf _ he
      rw [decide_eq_true_iff, not_not, ← hk]
      exact (hkeys _).mpr (List.mem_map_of_mem _ hnew')
  rw [rebuildFieldDependencies_run, hnew]
  simp only [hdiff, List.any_nil, Bool.false_eq_true, if_false]
  congr 1
  ext1 <;> simp [rebuiltStore, hdiff, saveFrom]

/-- Rebuilding the lookup through `link` a second time changes nothing. -/
theorem rebuildFieldDependencies_idempotent_lookupStore :
    ((currentDependencies linkRowStore ⟨2, "field"⟩).map FieldDependency.str).Nodup ∧
    (rebuildFieldDependencies linkedTables CircularReferenceChecker.willCauseCircularDep
      ⟨2, "field"⟩ (some [.via "link" "primary"]) linkTestCache).run linkRowStore =
      .ok () lookupStore ∧
    (rebuildFieldDependencies linkedTables CircularReferenceChecker.willCauseCircularDep
      ⟨2, "field"⟩ (some [.via "link" "primary"]) linkTestCache).run lookupStore =
      .ok () lookupStore :=
  ⟨by decide, rfl,
    @rebuildFieldDependencies_idempotent linkedTables CircularReferenceChecker.willCauseCircularDep
      ⟨2, "field"⟩ (some [.via "link" "primary"]) linkTestCache linkRowStore lookupStore
      (by decide) rfl⟩

/-- A rebuild that returns, from a table in which the field's rows have distinct identities,
leaves every resolved row of the field through another field `v` together with a row of the
field's direct dependency on `v`. The repair can resolve a via row without that direct row
(`reachable_via_row_without_companion`); the dependant's next rebuild puts it back. -/
theorem rebuildFieldDependencies_restores_direct_row {fieldInstance : Field}
    {fieldDependencies : Option (List DependencyDescriptor)}
    {fieldLookupCache : FieldCache schema} {s s' : FieldDependencyStore}
    (hcur : ((currentDependencies s fieldInstance).map FieldDependency.str).Nodup)
    (h : (rebuildFieldDependencies schema willCauseCircularDep fieldInstance fieldDependencies
      fieldLookupCache).run s = .ok () s')
    {dep : FieldDependency} (hdep : dep ∈ s'.rows) (hd : dep.dependant = fieldInstance.id)
    (hres : dep.dependency.isSome = true) {v : FieldId} (hv : dep.via = some v)
    (hne : v ≠ fieldInstance.id) :
    ∃ d ∈ s'.rows, d.str = (fieldInstance.id, some v, none, none) := by
  obtain ⟨newDependencies, hnew, -, -⟩ := rebuildFieldDependencies_ok schema _ h
  obtain ⟨rfl, hmine⟩ := rebuildFieldDependencies_ok_rebuiltStore schema _ hnew h
  obtain ⟨-, hkeys⟩ := str_currentDependencies_rebuiltStore s fieldInstance _ hcur hmine
  -- The row's identity is constructed, by an object with the same columns.
  obtain ⟨c, hc, hcstr⟩ := List.mem_map.mp ((hkeys _).mp
    (List.mem_map_of_mem _ (List.mem_filter.mpr ⟨hdep, by simpa using hd⟩)))
  have hcres : c.dependency.isSome = true :=
    (congrArg (fun k : DependencyKey => k.2.1.isSome) hcstr).trans hres
  have hcv : c.via = some v := (congrArg (fun k : DependencyKey => k.2.2.1) hcstr).trans hv
  -- The descriptor that built it also built the direct row on the via.
  obtain ⟨desc, hdesc, ds, hds, hcds⟩ := mem_constructDependencies schema hnew hc
  have hdirect := subset_constructDependencies schema hnew hdesc hds
    (constructDependency_companion schema hds hcds hcres hcv hne)
  obtain ⟨d, hd', hdstr⟩ := List.mem_map.mp ((hkeys _).mpr (List.mem_map_of_mem _ hdirect))
  exact ⟨d, (List.mem_filter.mp hd').1, hdstr⟩

/-- The table of the repair that resolves a via row without its direct row: `field` looks up
`extra` through `link` before `extra` exists, then `extra` is created. -/
def repairedViaStore : FieldDependencyStore :=
  runOperations linkedTables CircularReferenceChecker.willCauseCircularDep
    [.rebuild ⟨2, "field"⟩ (some [.via "link" "extra"]) linkTestCache,
     .updateBrokenReferences ⟨6, "extra"⟩]

/-- Then `field` rebuilt with its descriptor unchanged, `extra` now in the cache. -/
def restoredViaStore : FieldDependencyStore :=
  runOperations linkedTables CircularReferenceChecker.willCauseCircularDep
    [.rebuild ⟨2, "field"⟩ (some [.via "link" "extra"]) linkTestCache,
     .updateBrokenReferences ⟨6, "extra"⟩,
     .rebuild ⟨2, "field"⟩ (some [.via "link" "extra"]) linkedCache]

/-- After the repair `field` has no direct row on `link`; its rebuild creates one. -/
theorem rebuildFieldDependencies_restores_direct_row_repairedVia :
    ((currentDependencies repairedViaStore ⟨2, "field"⟩).map FieldDependency.str).Nodup ∧
    (rebuildFieldDependencies linkedTables CircularReferenceChecker.willCauseCircularDep
      ⟨2, "field"⟩ (some [.via "link" "extra"]) linkedCache).run repairedViaStore =
      .ok () restoredViaStore ∧
    ({ id := some 0, dependant := 2, dependency := some 6, via := some 4 } : FieldDependency) ∈
      restoredViaStore.rows ∧
    (¬ ∃ d ∈ repairedViaStore.rows, d.str = (2, some 4, none, none)) ∧
    ∃ d ∈ restoredViaStore.rows, d.str = (2, some 4, none, none) :=
  ⟨by decide, rfl, by decide, by decide,
    @rebuildFieldDependencies_restores_direct_row linkedTables
      CircularReferenceChecker.willCauseCircularDep ⟨2, "field"⟩ (some [.via "link" "extra"])
      linkedCache repairedViaStore restoredViaStore (by decide) rfl
      { id := some 0, dependant := 2, dependency := some 6, via := some 4 } (by decide) rfl rfl
      4 rfl (by decide)⟩

/-- A lookup through `link`, then `link` trashed: the lookup's direct row on `link` and its row
through `link` become two rows with one identity. -/
theorem breakDependenciesForField_merges_identities :
    Reachable linkedTables CircularReferenceChecker.willCauseCircularDep
      (breakDependenciesForField linkedTables ⟨4, "link"⟩ lookupStore) ∧
    ∃ a ∈ (breakDependenciesForField linkedTables ⟨4, "link"⟩ lookupStore).rows,
    ∃ b ∈ (breakDependenciesForField linkedTables ⟨4, "link"⟩ lookupStore).rows,
      a ≠ b ∧ a.str = b.str :=
  ⟨.breakDependencies _ (reachable_runOperations linkedTables _ _), by decide⟩

/-- On that table, `field` rebuilt with no descriptors left returns, and one of its two rows
stays: the dict over `str(dep)` held the other one only, and the rebuild deleted that one. -/
theorem rebuildFieldDependencies_keeps_merged_row :
    Reachable linkedTables CircularReferenceChecker.willCauseCircularDep
      (breakDependenciesForField linkedTables ⟨4, "link"⟩ lookupStore) ∧
    ∃ s', (rebuildFieldDependencies linkedTables CircularReferenceChecker.willCauseCircularDep
        ⟨2, "field"⟩ (some [])
        (FieldCache.ofFields linkedTables [⟨1, "primary"⟩, ⟨2, "field"⟩, ⟨3, "primary"⟩])).run
        (breakDependenciesForField linkedTables ⟨4, "link"⟩ lookupStore) = .ok () s' ∧
      currentDependencies s' ⟨2, "field"⟩ =
        [{ id := some 1, dependant := 2, brokenReferenceFieldName := some "link" }] :=
  ⟨.breakDependencies _ (reachable_runOperations linkedTables _ _), _, rfl, by decide⟩

end FieldDependencies
