import FieldDependencies.Proofs.Identity

/-!
# `FieldDependencies.Proofs.RebuildEffect`: what a rebuild does to the whole table

`Identity` reads a rebuild off a table in which the field's rows have distinct identities.
This module drops that assumption and says what `rebuild_field_dependencies` does on every
table.

* `rebuildFieldDependencies_frame`: whether the call raises or returns, the rows of every
  other field are as they were, in their order. Its docstring's "does not affect any
  dependencies from other fields to this field".
* `rebuildFieldDependencies_count_str`: the table seen as a multiset of identities, the
  graph of spec section 3, changes by one row per identity at most. An identity the field
  has now and does not construct loses one row, one constructed that the field does not have
  gains one, and every other count stays. `current_deps_by_str` keeps one row per identity,
  so "loses one row" is exact: a field with two rows of one identity keeps one of them
  (`rebuildFieldDependencies_keeps_merged_row`).

* `rebuildFieldDependencies_comm_count`: the rebuilds of two distinct fields commute on that
  multiset whenever both orders return. Neither reads or writes the other field's rows
  (`currentDependencies_rebuiltStore_of_ne`), so each changes the counts as it would alone.

The count is assembled from the two sides of the diff. The created objects have distinct
identities, exactly the constructed ones the field lacks (`count_str_toCreate`). The deleted
rows are the rows of the leftover entries, one per identity, since the leftover keys are
distinct and primary keys are unique (`count_str_deleted`).
-/

set_option autoImplicit false

namespace FieldDependencies

variable (schema : Schema)
variable (willCauseCircularDep : FieldDependencyStore → FieldId → FieldId → Bool)

/-- In a list without duplicates an element occurs once or not at all. -/
theorem count_eq_ite_of_nodup {α : Type} [BEq α] [LawfulBEq α] (a : α) :
    ∀ {l : List α}, l.Nodup → l.count a = if a ∈ l then 1 else 0
  | [], _ => rfl
  | b :: l, h => by
    rw [List.nodup_cons] at h
    rw [List.count_cons, count_eq_ite_of_nodup a h.2]
    by_cases hb : b = a
    · subst hb
      simp [h.1]
    · simp [hb, Ne.symm hb]

/-- Splitting a list by a test splits the count of each image. -/
theorem count_map_filter_add {α β : Type} [BEq β] (f : α → β) (p : α → Bool) (l : List α)
    (b : β) :
    ((l.filter p).map f).count b + ((l.filter fun x => !p x).map f).count b =
      (l.map f).count b := by
  rw [← List.count_append, ← List.map_append]
  exact ((List.filter_append_perm p l).map f).countP_eq _

section Counts
variable (s : FieldDependencyStore) (field : Field) (newDependencies : List FieldDependency)

/-- A rebuild creates one object of each constructed identity the field has no row of. -/
theorem count_str_toCreate (k : DependencyKey) :
    ((rebuildDiff (currentDependencies s field) newDependencies).2.map
        FieldDependency.str).count k =
      if k ∈ newDependencies.map FieldDependency.str ∧
          k ∉ (currentDependencies s field).map FieldDependency.str then 1 else 0 := by
  rw [count_eq_ite_of_nodup k (nodup_str_toCreate s field newDependencies)]
  refine if_congr ⟨fun hk => ?_, fun ⟨hk, hcur⟩ => ?_⟩ rfl rfl
  · obtain ⟨d, hd, rfl⟩ := List.mem_map.mp hk
    exact ⟨List.mem_map_of_mem _ (mem_toCreate hd).1, (mem_toCreate hd).2⟩
  · obtain ⟨dep, hdep, rfl⟩ := List.mem_map.mp hk
    obtain ⟨d, hd, hstr⟩ := exists_toCreate hdep hcur
    exact hstr ▸ List.mem_map_of_mem _ hd

/-- A rebuild deletes one row of each identity the field has and does not construct. -/
theorem count_str_deleted (k : DependencyKey) :
    ((s.rows.filter fun dep =>
        ((rebuildDiff (currentDependencies s field) newDependencies).1.map
          (·.2.id)).contains dep.id).map FieldDependency.str).count k =
      if k ∈ (currentDependencies s field).map FieldDependency.str ∧
          k ∉ newDependencies.map FieldDependency.str then 1 else 0 := by
  set leftover := (rebuildDiff (currentDependencies s field) newDependencies).1
  -- A deleted row is the row of a leftover entry: primary keys are unique.
  have hrow : ∀ dep ∈ s.rows.filter (fun dep => (leftover.map (·.2.id)).contains dep.id),
      ∃ e ∈ leftover, e.2 = dep := fun dep hdep => by
    obtain ⟨hdep, hid⟩ := List.mem_filter.mp hdep
    obtain ⟨e, he, hid⟩ := List.mem_map.mp (List.elem_iff.mp hid)
    exact ⟨e, he, s.eq_of_id_eq (List.mem_filter.mp (mem_leftover he).1).1 hdep hid⟩
  have hnodup : ((s.rows.filter fun dep => (leftover.map (·.2.id)).contains dep.id).map
      FieldDependency.str).Nodup := by
    refine List.Nodup.map_on (fun x hx y hy hxy => ?_) ((s.nodup_id.of_map _).filter _)
    obtain ⟨e₁, he₁, rfl⟩ := hrow x hx
    obtain ⟨e₂, he₂, rfl⟩ := hrow y hy
    rw [key_leftover he₁, key_leftover he₂] at hxy
    rw [List.inj_on_of_nodup_map (nodup_keys_leftover _ _) he₁ he₂ hxy]
  rw [count_eq_ite_of_nodup k hnodup]
  refine if_congr ⟨fun hk => ?_, fun ⟨hk, hnew⟩ => ?_⟩ rfl rfl
  · obtain ⟨dep, hdep, rfl⟩ := List.mem_map.mp hk
    obtain ⟨e, he, rfl⟩ := hrow dep hdep
    exact ⟨List.mem_map_of_mem _ (mem_leftover he).1, (mem_leftover he).2⟩
  · obtain ⟨dep, hdep, rfl⟩ := List.mem_map.mp hk
    obtain ⟨e, he, hstr⟩ := exists_leftover hdep hnew
    rw [← hstr]
    refine List.mem_map_of_mem _ (List.mem_filter.mpr
      ⟨(List.mem_filter.mp (mem_leftover he).1).1, List.elem_iff.mpr ?_⟩)
    exact List.mem_map_of_mem _ he

/-- The identities after a rebuild, counted: one row fewer of each current identity not
constructed, one more of each constructed identity not current. -/
theorem count_str_rebuiltStore (k : DependencyKey) :
    ((rebuiltStore s field newDependencies).rows.map FieldDependency.str).count k +
        (if k ∈ (currentDependencies s field).map FieldDependency.str ∧
          k ∉ newDependencies.map FieldDependency.str then 1 else 0) =
      (s.rows.map FieldDependency.str).count k +
        (if k ∈ newDependencies.map FieldDependency.str ∧
          k ∉ (currentDependencies s field).map FieldDependency.str then 1 else 0) := by
  have hsplit := count_map_filter_add FieldDependency.str (fun dep =>
    ((rebuildDiff (currentDependencies s field) newDependencies).1.map (·.2.id)).contains dep.id)
    s.rows k
  rw [rows_rebuiltStore, List.map_append, List.count_append, saveFrom_map_str,
    count_str_toCreate, ← count_str_deleted]
  omega

/-- A row of another field keeps its key out of the delete. -/
theorem contains_leftover_id_of_ne {dep : FieldDependency} (hdep : dep ∈ s.rows)
    (hne : dep.dependant ≠ field.id) :
    ((rebuildDiff (currentDependencies s field) newDependencies).1.map (·.2.id)).contains
      dep.id = false := by
  refine Bool.eq_false_iff.mpr fun hid => hne ?_
  obtain ⟨e, he, hid⟩ := List.mem_map.mp (List.elem_iff.mp hid)
  have hcur := List.mem_filter.mp (mem_leftover he).1
  rw [← s.eq_of_id_eq hcur.1 hdep hid]
  exact beq_iff_eq.mp hcur.2

/-- When the created objects are the field's, the rows of the other fields after a rebuild
are the rows they had, in order. -/
theorem filter_rebuiltStore_ne
    (hmine : ∀ d ∈ (rebuildDiff (currentDependencies s field) newDependencies).2,
      d.dependant = field.id) :
    (rebuiltStore s field newDependencies).rows.filter (fun dep => dep.dependant != field.id) =
      s.rows.filter fun dep => dep.dependant != field.id := by
  rw [rows_rebuiltStore, List.filter_append, List.filter_filter]
  have hsaved : (saveFrom s.nextId (rebuildDiff (currentDependencies s field)
      newDependencies).2).filter (fun dep => dep.dependant != field.id) = [] :=
    List.filter_eq_nil_iff.mpr fun d hd => by
      obtain ⟨c, hc, n, rfl⟩ := mem_saveFrom hd
      simp only [hmine c hc, bne_self_eq_false, Bool.false_eq_true, not_false_eq_true]
  rw [hsaved, List.append_nil]
  refine List.filter_congr fun dep hdep => ?_
  by_cases hne : dep.dependant = field.id
  · simp only [hne, bne_self_eq_false, Bool.false_and]
  · rw [contains_leftover_id_of_ne s field newDependencies hdep hne, Bool.not_false,
      Bool.and_true]

/-- A rebuild leaves the rows of every other field as they were. -/
theorem currentDependencies_rebuiltStore_of_ne {other : Field} (hne : other.id ≠ field.id)
    (hmine : ∀ d ∈ (rebuildDiff (currentDependencies s field) newDependencies).2,
      d.dependant = field.id) :
    currentDependencies (rebuiltStore s field newDependencies) other =
      currentDependencies s other := by
  -- The rows of `other` are among the rows of the fields other than `field`.
  have hsub : ∀ t : FieldDependencyStore, currentDependencies t other =
      (t.rows.filter fun dep => dep.dependant != field.id).filter (·.dependant == other.id) :=
    fun t => by
      rw [currentDependencies, List.filter_filter]
      refine List.filter_congr fun dep _ => ?_
      by_cases h : dep.dependant = other.id
      · simp [h, hne]
      · simp [h]
  rw [hsub, filter_rebuiltStore_ne s field newDependencies hmine, ← hsub]

end Counts

/-- A rebuild, whether it raises or returns, leaves the rows of every other field as they
were, in their order: it deletes only rows of the field and creates only rows of the
field. -/
theorem rebuildFieldDependencies_frame (fieldInstance : Field)
    (fieldDependencies : Option (List DependencyDescriptor))
    (fieldLookupCache : FieldCache schema) (s : FieldDependencyStore) :
    (storeOf ((rebuildFieldDependencies schema willCauseCircularDep fieldInstance
        fieldDependencies fieldLookupCache).run s)).rows.filter
        (fun dep => dep.dependant != fieldInstance.id) =
      s.rows.filter fun dep => dep.dependant != fieldInstance.id := by
  rcases storeOf_rebuildFieldDependencies schema willCauseCircularDep fieldInstance
    fieldDependencies fieldLookupCache s with h | ⟨newDependencies, hnew, -, h⟩ <;> rw [h]
  exact filter_rebuiltStore_ne s fieldInstance newDependencies fun d hd =>
    (toCreate_spec schema hnew hd).1

/-- What a rebuild that returns does to the table seen as a multiset of identities: an
identity the field has and does not construct loses one row, however many the field has; an
identity constructed that the field lacks gains one; every other count stays. -/
theorem rebuildFieldDependencies_count_str {fieldInstance : Field}
    {fieldDependencies : Option (List DependencyDescriptor)}
    {fieldLookupCache : FieldCache schema} {newDependencies : List FieldDependency}
    {s s' : FieldDependencyStore}
    (hnew : constructDependencies schema fieldInstance fieldLookupCache
      (fieldDependencies.getD []) = .ok newDependencies)
    (h : (rebuildFieldDependencies schema willCauseCircularDep fieldInstance fieldDependencies
      fieldLookupCache).run s = .ok () s') (k : DependencyKey) :
    (s'.rows.map FieldDependency.str).count k +
        (if k ∈ (currentDependencies s fieldInstance).map FieldDependency.str ∧
          k ∉ newDependencies.map FieldDependency.str then 1 else 0) =
      (s.rows.map FieldDependency.str).count k +
        (if k ∈ newDependencies.map FieldDependency.str ∧
          k ∉ (currentDependencies s fieldInstance).map FieldDependency.str then 1 else 0) := by
  obtain ⟨rfl, -⟩ := rebuildFieldDependencies_ok_rebuiltStore schema _ hnew h
  exact count_str_rebuiltStore s fieldInstance newDependencies k

/-- Rebuilds of two distinct fields that return in either order leave the same identities, each
as many times: only the keys and the places of the created rows depend on the order. Neither
rebuild reads or writes the other field's rows, and the objects each constructs do not depend on
the table. -/
theorem rebuildFieldDependencies_comm_count {F G : Field} (hFG : F.id ≠ G.id)
    {depsF depsG : Option (List DependencyDescriptor)} {cacheF cacheG : FieldCache schema}
    {s sF sFG sG sGF : FieldDependencyStore}
    (hF : (rebuildFieldDependencies schema willCauseCircularDep F depsF cacheF).run s =
      .ok () sF)
    (hFthenG : (rebuildFieldDependencies schema willCauseCircularDep G depsG cacheG).run sF =
      .ok () sFG)
    (hG : (rebuildFieldDependencies schema willCauseCircularDep G depsG cacheG).run s =
      .ok () sG)
    (hGthenF : (rebuildFieldDependencies schema willCauseCircularDep F depsF cacheF).run sG =
      .ok () sGF)
    (k : DependencyKey) :
    (sFG.rows.map FieldDependency.str).count k = (sGF.rows.map FieldDependency.str).count k := by
  obtain ⟨newF, hnewF, -⟩ := rebuildFieldDependencies_ok schema _ hF
  obtain ⟨newG, hnewG, -⟩ := rebuildFieldDependencies_ok schema _ hG
  obtain ⟨rfl, hmineF⟩ := rebuildFieldDependencies_ok_rebuiltStore schema _ hnewF hF
  obtain ⟨rfl, hmineG⟩ := rebuildFieldDependencies_ok_rebuiltStore schema _ hnewG hG
  obtain ⟨rfl, -⟩ := rebuildFieldDependencies_ok_rebuiltStore schema _ hnewG hFthenG
  obtain ⟨rfl, -⟩ := rebuildFieldDependencies_ok_rebuiltStore schema _ hnewF hGthenF
  have hcountFG := count_str_rebuiltStore (rebuiltStore s F newF) G newG k
  have hcountGF := count_str_rebuiltStore (rebuiltStore s G newG) F newF k
  rw [currentDependencies_rebuiltStore_of_ne s F newF (Ne.symm hFG) fun d hd =>
    hmineF d (mem_toCreate hd).1] at hcountFG
  rw [currentDependencies_rebuiltStore_of_ne s G newG hFG fun d hd =>
    hmineG d (mem_toCreate hd).1] at hcountGF
  have := count_str_rebuiltStore s F newF k
  have := count_str_rebuiltStore s G newG k
  omega

/-- The table of `field`'s rebuild as a lookup through `link`, on the empty table. -/
def fieldLookupStore : FieldDependencyStore :=
  runOperations linkedTables CircularReferenceChecker.willCauseCircularDep
    [.rebuild ⟨2, "field"⟩ (some [.via "link" "primary"]) linkTestCache]

/-- Then `link`'s own rebuild: the two rebuilds of `lookupStore` in the other order. -/
def fieldLinkStore : FieldDependencyStore :=
  runOperations linkedTables CircularReferenceChecker.willCauseCircularDep
    [.rebuild ⟨2, "field"⟩ (some [.via "link" "primary"]) linkTestCache,
     .rebuild ⟨4, "link"⟩ (some [.via "link" "primary"]) linkTestCache]

/-- The lookup through `link` and `link`'s own rebuild, in both orders from the empty table:
the rows differ in their keys and order, and every identity has as many rows. -/
theorem rebuildFieldDependencies_comm_count_lookup :
    (rebuildFieldDependencies linkedTables CircularReferenceChecker.willCauseCircularDep
        ⟨4, "link"⟩ (some [.via "link" "primary"]) linkTestCache).run .empty =
      .ok () linkRowStore ∧
    (rebuildFieldDependencies linkedTables CircularReferenceChecker.willCauseCircularDep
        ⟨2, "field"⟩ (some [.via "link" "primary"]) linkTestCache).run linkRowStore =
      .ok () lookupStore ∧
    (rebuildFieldDependencies linkedTables CircularReferenceChecker.willCauseCircularDep
        ⟨2, "field"⟩ (some [.via "link" "primary"]) linkTestCache).run .empty =
      .ok () fieldLookupStore ∧
    (rebuildFieldDependencies linkedTables CircularReferenceChecker.willCauseCircularDep
        ⟨4, "link"⟩ (some [.via "link" "primary"]) linkTestCache).run fieldLookupStore =
      .ok () fieldLinkStore ∧
    lookupStore.rows ≠ fieldLinkStore.rows ∧
    ∀ k, (lookupStore.rows.map FieldDependency.str).count k =
      (fieldLinkStore.rows.map FieldDependency.str).count k :=
  ⟨rfl, rfl, rfl, rfl, by decide,
    @rebuildFieldDependencies_comm_count linkedTables
      CircularReferenceChecker.willCauseCircularDep ⟨4, "link"⟩ ⟨2, "field"⟩ (by decide)
      (some [.via "link" "primary"]) (some [.via "link" "primary"]) linkTestCache linkTestCache
      .empty linkRowStore lookupStore fieldLookupStore fieldLinkStore rfl rfl rfl rfl⟩

/-- The lookup's table after `link` is trashed, in which `field` has two rows of one identity. -/
def trashedLinkStore : FieldDependencyStore :=
  breakDependenciesForField linkedTables ⟨4, "link"⟩ lookupStore

/-- `field` rebuilt with no descriptors on that table: of the two rows of its identity
`(field, None, None, "link")` one goes and one stays. -/
theorem rebuildFieldDependencies_count_str_trashedLink :
    constructDependencies linkedTables ⟨2, "field"⟩ linkTestCache
        ((some ([] : List DependencyDescriptor)).getD []) = .ok [] ∧
    (rebuildFieldDependencies linkedTables CircularReferenceChecker.willCauseCircularDep
        ⟨2, "field"⟩ (some []) linkTestCache).run trashedLinkStore =
      .ok () (rebuiltStore trashedLinkStore ⟨2, "field"⟩ []) ∧
    ((rebuiltStore trashedLinkStore ⟨2, "field"⟩ []).rows.map FieldDependency.str).count
          (2, none, none, some "link") +
        (if (2, none, none, some "link") ∈
            (currentDependencies trashedLinkStore ⟨2, "field"⟩).map FieldDependency.str ∧
          (2, none, none, some "link") ∉ ([] : List FieldDependency).map FieldDependency.str
          then 1 else 0) =
      (trashedLinkStore.rows.map FieldDependency.str).count (2, none, none, some "link") +
        (if (2, none, none, some "link") ∈ ([] : List FieldDependency).map FieldDependency.str ∧
          (2, none, none, some "link") ∉
            (currentDependencies trashedLinkStore ⟨2, "field"⟩).map FieldDependency.str
          then 1 else 0) ∧
    (trashedLinkStore.rows.map FieldDependency.str).count (2, none, none, some "link") = 2 ∧
    ((rebuiltStore trashedLinkStore ⟨2, "field"⟩ []).rows.map FieldDependency.str).count
      (2, none, none, some "link") = 1 :=
  ⟨rfl, rfl, @rebuildFieldDependencies_count_str linkedTables
    CircularReferenceChecker.willCauseCircularDep ⟨2, "field"⟩ (some []) linkTestCache []
    trashedLinkStore _ rfl rfl _, by decide, by decide⟩

end FieldDependencies
