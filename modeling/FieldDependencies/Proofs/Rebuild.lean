import FieldDependencies.Proofs.Store

/-!
# `FieldDependencies.Proofs.Rebuild`: `rebuild_field_dependencies`

A rebuild constructs the objects the field's descriptors ask for, diffs them against the
field's current rows by `str(dep)`, checks the objects it is about to create, and then
inserts them and deletes the leftover rows.

* The dicts. `dictOf key xs` has one entry per key of `xs` (`mem_keys_dictOf`,
  `nodup_keys_dictOf`), and each entry holds an element of `xs` with that key
  (`mem_dictOf`). Which element that is (the last one) is never needed.
* The diff. `rebuildDiff_eq`: the loop over `new_deps_by_str` leaves the current entries whose
  key is not new, and creates the new entries whose key is not current. `mem_toCreate`
  reads that back on the objects.
* The construction. `constructDependency_cases` lists the five shapes of the result of
  `_construct_dependency`; `constructDependencies_eq_error` says the loop raises exactly on a
  bare descriptor naming the field itself.
* The run. `rebuildFieldDependencies_run` names the pieces of a call: what it raises, and
  otherwise the table `rebuiltStore` it leaves.
-/

set_option autoImplicit false

namespace FieldDependencies

section PyDict

/-- The test `d.any (·.1 == k)` of `dictSet` and `popOrCreate` is membership among the keys. -/
theorem any_fst_beq_iff {κ α : Type} [BEq κ] [LawfulBEq κ] (d : List (κ × α)) (k : κ) :
    (d.any fun e => e.1 == k) = true ↔ k ∈ d.map Prod.fst := by
  simp only [List.any_eq_true, beq_iff_eq, List.mem_map]

variable {κ α : Type} [DecidableEq κ]

theorem mem_dictSet {d : List (κ × α)} {k : κ} {v : α} {e : κ × α}
    (h : e ∈ dictSet d k v) : e ∈ d ∨ e = (k, v) := by
  unfold dictSet at h
  split_ifs at h
  · obtain ⟨e', he', rfl⟩ := List.mem_map.mp h
    split_ifs
    · exact .inr rfl
    · exact .inl he'
  · simpa using h

theorem keys_dictSet (d : List (κ × α)) (k : κ) (v : α) :
    (dictSet d k v).map Prod.fst =
      if k ∈ d.map Prod.fst then d.map Prod.fst else d.map Prod.fst ++ [k] := by
  by_cases h : k ∈ d.map Prod.fst
  · rw [dictSet, if_pos ((any_fst_beq_iff d k).mpr h), if_pos h, List.map_map]
    refine List.map_congr_left fun e _ => ?_
    show (if e.1 = k then (k, v) else e).1 = e.1
    split_ifs with he
    exacts [he.symm, rfl]
  · rw [dictSet, if_neg (mt (any_fst_beq_iff d k).mp h), if_neg h, List.map_append]
    rfl

theorem mem_keys_dictSet (d : List (κ × α)) (k' : κ) (v : α) (k : κ) :
    k ∈ (dictSet d k' v).map Prod.fst ↔ k ∈ d.map Prod.fst ∨ k = k' := by
  rw [keys_dictSet]
  split_ifs with h
  · exact ⟨.inl, fun h' => h'.elim id (· ▸ h)⟩
  · simp only [List.mem_append, List.mem_singleton]

variable (key : α → κ)

theorem mem_foldl_dictSet (xs : List α) (d : List (κ × α)) {e : κ × α}
    (h : e ∈ xs.foldl (fun d x => dictSet d (key x) x) d) :
    e ∈ d ∨ (key e.2 = e.1 ∧ e.2 ∈ xs) := by
  induction xs generalizing d with
  | nil => exact .inl h
  | cons x xs ih =>
    rcases ih _ h with h | ⟨hk, hx⟩
    · rcases mem_dictSet h with h | rfl
      · exact .inl h
      · exact .inr ⟨rfl, List.mem_cons_self _ _⟩
    · exact .inr ⟨hk, List.mem_cons_of_mem _ hx⟩

theorem keys_foldl_dictSet (xs : List α) (d : List (κ × α)) (k : κ) :
    k ∈ (xs.foldl (fun d x => dictSet d (key x) x) d).map Prod.fst ↔
      k ∈ d.map Prod.fst ∨ k ∈ xs.map key := by
  induction xs generalizing d with
  | nil => simp only [List.foldl_nil, List.map_nil, List.not_mem_nil, or_false]
  | cons x xs ih =>
    rw [List.foldl_cons, ih, mem_keys_dictSet, List.map_cons, List.mem_cons]
    exact or_assoc

theorem nodup_keys_foldl_dictSet (xs : List α) (d : List (κ × α))
    (hd : (d.map Prod.fst).Nodup) :
    ((xs.foldl (fun d x => dictSet d (key x) x) d).map Prod.fst).Nodup := by
  induction xs generalizing d with
  | nil => exact hd
  | cons x xs ih =>
    refine ih _ ?_
    rw [keys_dictSet]
    split_ifs with h
    · exact hd
    · exact hd.append (List.nodup_singleton _) fun a ha hb => h (List.mem_singleton.mp hb ▸ ha)

/-- An entry of `{key(x): x for x in xs}` holds an element of `xs` with its key. -/
theorem mem_dictOf {xs : List α} {e : κ × α} (h : e ∈ dictOf key xs) :
    key e.2 = e.1 ∧ e.2 ∈ xs :=
  (mem_foldl_dictSet key xs [] h).resolve_left (List.not_mem_nil _)

/-- The keys of `{key(x): x for x in xs}` are the keys of `xs`. -/
theorem mem_keys_dictOf (xs : List α) (k : κ) :
    k ∈ (dictOf key xs).map Prod.fst ↔ k ∈ xs.map key :=
  (keys_foldl_dictSet key xs [] k).trans (or_iff_right (List.not_mem_nil k))

/-- A dict has each key once. -/
theorem nodup_keys_dictOf (xs : List α) : ((dictOf key xs).map Prod.fst).Nodup :=
  nodup_keys_foldl_dictSet key xs [] List.nodup_nil

end PyDict

/-- One pass of the loop over `new_deps_by_str.items()`: the current entries lose the item's
key (popped, or never there), and the item is created when no current entry had its key. -/
theorem popOrCreate_eq (cur : List (DependencyKey × FieldDependency))
    (acc : List FieldDependency) (it : DependencyKey × FieldDependency) :
    popOrCreate (cur, acc) it =
      (cur.filter (·.1 != it.1), if it.1 ∈ cur.map Prod.fst then acc else acc ++ [it.2]) := by
  dsimp only [popOrCreate]
  by_cases h : it.1 ∈ cur.map Prod.fst
  · rw [if_pos ((any_fst_beq_iff cur it.1).mpr h), if_pos h]
  · rw [if_neg (mt (any_fst_beq_iff cur it.1).mp h), if_neg h]
    exact congrArg (·, _) (List.filter_eq_self.mpr fun e he => bne_iff_ne.mpr fun hk =>
      h (List.mem_map.mpr ⟨e, he, hk⟩)).symm

/-- The loop over `new_deps_by_str.items()`: it pops every current entry whose key is new,
and appends to `new_dependencies_to_create` every new entry whose key is not current. -/
theorem foldl_popOrCreate (items : List (DependencyKey × FieldDependency))
    (hnd : (items.map Prod.fst).Nodup) (cur : List (DependencyKey × FieldDependency))
    (acc : List FieldDependency) :
    items.foldl popOrCreate (cur, acc) =
      (cur.filter fun e => e.1 ∉ items.map Prod.fst,
        acc ++ (items.filter fun it => it.1 ∉ cur.map Prod.fst).map Prod.snd) := by
  induction items generalizing cur acc with
  | nil =>
    simp only [List.foldl_nil, List.map_nil, List.not_mem_nil, not_false_eq_true, decide_True,
      List.filter_true, List.filter_nil, List.append_nil]
  | cons it items ih =>
    rw [List.map_cons, List.nodup_cons] at hnd
    rw [List.foldl_cons, popOrCreate_eq, ih hnd.2]
    -- The later items' keys differ from `it`'s, so popping `it`'s key leaves their membership.
    have hkeys : ∀ e ∈ items, e.1 ∈ (cur.filter (·.1 != it.1)).map Prod.fst ↔
        e.1 ∈ cur.map Prod.fst := fun e he => by
      have hne : e.1 ≠ it.1 := fun h => hnd.1 (h ▸ List.mem_map_of_mem _ he)
      simp only [List.mem_map, List.mem_filter]
      exact ⟨fun ⟨c, ⟨hc, _⟩, hce⟩ => ⟨c, hc, hce⟩,
        fun ⟨c, hc, hce⟩ => ⟨c, ⟨hc, bne_iff_ne.mpr (hce ▸ hne)⟩, hce⟩⟩
    have hlater : (items.filter fun e => e.1 ∉ (cur.filter (·.1 != it.1)).map Prod.fst) =
        items.filter fun e => e.1 ∉ cur.map Prod.fst :=
      List.filter_congr fun e he => by simp only [hkeys e he]
    refine Prod.ext ?_ ?_
    · rw [List.filter_filter]
      refine List.filter_congr fun e _ => Bool.eq_iff_iff.mpr ?_
      simp only [Bool.and_eq_true, decide_eq_true_eq, bne_iff_ne, ne_eq, List.map_cons,
        List.mem_cons, not_or, and_comm]
    · rw [hlater, List.filter_cons]
      by_cases hit : it.1 ∈ cur.map Prod.fst
      · simp only [hit, if_true, not_true_eq_false, decide_False, Bool.false_eq_true, if_false]
      · simp only [hit, if_false, not_false_eq_true, decide_True, if_true, List.map_cons,
          List.append_assoc, List.singleton_append]

/-- `rebuildDiff` in closed form: the current entries whose key is not new, and the new
objects whose key is not current. -/
theorem rebuildDiff_eq (cur new : List FieldDependency) :
    rebuildDiff cur new =
      ((dictOf FieldDependency.str cur).filter fun e => e.1 ∉ new.map FieldDependency.str,
        ((dictOf FieldDependency.str new).filter fun e =>
          e.1 ∉ cur.map FieldDependency.str).map Prod.snd) := by
  unfold rebuildDiff
  rw [foldl_popOrCreate _ (nodup_keys_dictOf _ _)]
  simp only [mem_keys_dictOf, List.nil_append]

/-- The objects a rebuild creates are constructed objects whose key is not current. -/
theorem mem_toCreate {cur new : List FieldDependency} {dep : FieldDependency}
    (h : dep ∈ (rebuildDiff cur new).2) :
    dep ∈ new ∧ dep.str ∉ cur.map FieldDependency.str := by
  rw [rebuildDiff_eq] at h
  obtain ⟨e, he, rfl⟩ := List.mem_map.mp h
  obtain ⟨he, hk⟩ := List.mem_filter.mp he
  obtain ⟨hkey, hnew⟩ := mem_dictOf _ he
  exact ⟨hnew, hkey ▸ of_decide_eq_true hk⟩

/-- Every constructed object whose key is not current is created, under an object with its
key. -/
theorem exists_toCreate {cur new : List FieldDependency} {dep : FieldDependency}
    (hdep : dep ∈ new) (hk : dep.str ∉ cur.map FieldDependency.str) :
    ∃ d ∈ (rebuildDiff cur new).2, d.str = dep.str := by
  obtain ⟨e, he, hke⟩ := List.mem_map.mp
    ((mem_keys_dictOf FieldDependency.str new dep.str).mpr (List.mem_map_of_mem _ hdep))
  refine ⟨e.2, ?_, (mem_dictOf _ he).1.trans hke⟩
  rw [rebuildDiff_eq]
  exact List.mem_map_of_mem _ (List.mem_filter.mpr ⟨he, decide_eq_true (hke ▸ hk)⟩)

/-- The rows a rebuild deletes are current rows whose key is not constructed. -/
theorem mem_leftover {cur new : List FieldDependency} {e : DependencyKey × FieldDependency}
    (h : e ∈ (rebuildDiff cur new).1) :
    e.2 ∈ cur ∧ e.2.str ∉ new.map FieldDependency.str := by
  rw [rebuildDiff_eq] at h
  obtain ⟨he, hk⟩ := List.mem_filter.mp h
  obtain ⟨hkey, hcur⟩ := mem_dictOf _ he
  exact ⟨hcur, hkey ▸ of_decide_eq_true hk⟩

/-- A leftover entry is keyed by its row's identity. -/
theorem key_leftover {cur new : List FieldDependency} {e : DependencyKey × FieldDependency}
    (h : e ∈ (rebuildDiff cur new).1) : e.2.str = e.1 := by
  rw [rebuildDiff_eq] at h
  exact (mem_dictOf _ (List.mem_filter.mp h).1).1

/-- The leftover entries have distinct keys. -/
theorem nodup_keys_leftover (cur new : List FieldDependency) :
    ((rebuildDiff cur new).1.map Prod.fst).Nodup := by
  rw [rebuildDiff_eq]
  exact (nodup_keys_dictOf _ _).sublist ((List.filter_sublist _).map _)

/-- Every current row whose key is not constructed is deleted, through an entry with its
key. -/
theorem exists_leftover {cur new : List FieldDependency} {dep : FieldDependency}
    (hdep : dep ∈ cur) (hk : dep.str ∉ new.map FieldDependency.str) :
    ∃ e ∈ (rebuildDiff cur new).1, e.2.str = dep.str := by
  obtain ⟨e, he, hke⟩ := List.mem_map.mp
    ((mem_keys_dictOf FieldDependency.str cur dep.str).mpr (List.mem_map_of_mem _ hdep))
  refine ⟨e, ?_, (mem_dictOf _ he).1.trans hke⟩
  rw [rebuildDiff_eq]
  exact List.mem_filter.mpr ⟨he, decide_eq_true (hke ▸ hk)⟩

variable (schema : Schema)
variable (willCauseCircularDep : FieldDependencyStore → FieldId → FieldId → Bool)

/-- The five results of `_construct_dependency`: a broken reference with no via, a resolved
reference to a field of the same table (a bare name, or a via that is not a `LinkRowField`),
and, through a link-row field of the same table, a broken reference to the far field's name or
the far field itself together with the link-row field unless that is the field being built. -/
theorem constructDependency_cases {fieldInstance : Field} {dependency : DependencyDescriptor}
    {fieldLookupCache : FieldCache schema} {deps : List FieldDependency}
    (h : constructDependency schema fieldInstance dependency fieldLookupCache = .ok deps) :
    (∃ n, deps = [{ dependant := fieldInstance.id, brokenReferenceFieldName := some n }]) ∨
    (∃ g, schema.table g = schema.table fieldInstance.id ∧
      deps = [{ dependant := fieldInstance.id, dependency := some g }]) ∨
    (∃ v tt, schema.table v = schema.table fieldInstance.id ∧
      schema.linkRowTable v = some tt ∧
      ((∃ n, deps = [{ dependant := fieldInstance.id, brokenReferenceFieldName := some n,
                       via := some v }]) ∨
       (∃ t, schema.table t = tt ∧
        deps = (if fieldInstance.id ≠ v then
                  [{ dependant := fieldInstance.id, dependency := some v }] else []) ++
                [{ dependant := fieldInstance.id, dependency := some t, via := some v }]))) := by
  have htab := @fieldLookupCache.table_of_lookupByName
  unfold constructDependency at h
  cases dependency with
  | name n =>
    dsimp only at h
    split_ifs at h
    split at h <;> cases h
    · exact .inl ⟨_, rfl⟩
    · exact .inr (.inl ⟨_, htab ‹_›, rfl⟩)
  | via v n =>
    dsimp only at h
    rw [if_neg (by simp)] at h
    split at h
    · cases h; exact .inl ⟨_, rfl⟩
    · rename_i viaField hvia
      split at h
      · cases h; exact .inr (.inl ⟨_, htab hvia, rfl⟩)
      · rename_i tt htt
        split at h <;> cases h
        · exact .inr (.inr ⟨_, _, htab hvia, htt, .inl ⟨_, rfl⟩⟩)
        · exact .inr (.inr ⟨_, _, htab hvia, htt, .inr ⟨_, htab ‹_›, rfl⟩⟩)

/-- `_construct_dependency` raises exactly on a bare descriptor naming the field itself. -/
theorem constructDependency_eq_error (fieldInstance : Field) (dependency : DependencyDescriptor)
    (fieldLookupCache : FieldCache schema) (e : RebuilderError) :
    constructDependency schema fieldInstance dependency fieldLookupCache = .error e ↔
      e = .selfReference ∧ dependency = .name fieldInstance.name := by
  unfold constructDependency
  cases dependency with
  | name n =>
    dsimp only
    by_cases h : fieldInstance.name = n
    · simp [h, eq_comm]
    · rw [if_neg (by simp [h])]
      split <;> simp [Ne.symm h]
  | via v n =>
    dsimp only
    rw [if_neg (by simp)]
    simp only [reduceCtorEq, and_false, iff_false]
    intro he
    repeat' split at he
    all_goals cases he

/-- The loop of `rebuild_field_dependencies` over the descriptors raises exactly when one of
them is a bare name of the field itself, and then it raises `SelfReferenceFieldDependencyError`. -/
theorem constructDependencies_eq_error (fieldInstance : Field)
    (fieldLookupCache : FieldCache schema) (descs : List DependencyDescriptor)
    (e : RebuilderError) :
    constructDependencies schema fieldInstance fieldLookupCache descs = .error e ↔
      e = .selfReference ∧ .name fieldInstance.name ∈ descs := by
  induction descs with
  | nil => simp [constructDependencies]
  | cons d descs ih =>
    simp only [constructDependencies, bind, Except.bind, List.mem_cons]
    cases hd : constructDependency schema fieldInstance d fieldLookupCache with
    | error e' =>
      obtain ⟨rfl, rfl⟩ := (constructDependency_eq_error schema _ _ _ _).mp hd
      simp [eq_comm]
    | ok deps =>
      have hne : d ≠ .name fieldInstance.name := fun h =>
        nomatch hd.symm.trans ((constructDependency_eq_error schema _ _ _ _).mpr ⟨rfl, h⟩)
      cases hrest : constructDependencies schema fieldInstance fieldLookupCache descs <;>
        simpa [hrest, Ne.symm hne, pure, Except.pure] using ih

/-- One turn of the loop that constructs: the objects of the first descriptor, then those of
the rest. -/
theorem constructDependencies_cons_eq_ok {fieldInstance : Field}
    {fieldLookupCache : FieldCache schema} {d : DependencyDescriptor}
    {descs : List DependencyDescriptor} {deps : List FieldDependency} :
    constructDependencies schema fieldInstance fieldLookupCache (d :: descs) = .ok deps ↔
      ∃ ds more, constructDependency schema fieldInstance d fieldLookupCache = .ok ds ∧
        constructDependencies schema fieldInstance fieldLookupCache descs = .ok more ∧
        deps = ds ++ more := by
  simp only [constructDependencies, bind, Except.bind]
  cases constructDependency schema fieldInstance d fieldLookupCache with
  | error e => exact iff_of_false (fun h => nomatch h) fun ⟨_, _, h, _⟩ => nomatch h
  | ok ds =>
    cases constructDependencies schema fieldInstance fieldLookupCache descs with
    | error e => exact iff_of_false (fun h => nomatch h) fun ⟨_, _, _, h, _⟩ => nomatch h
    | ok more =>
      refine ⟨fun h => ⟨ds, more, rfl, rfl, (Except.ok.inj h).symm⟩, ?_⟩
      rintro ⟨_, _, ⟨⟩, ⟨⟩, rfl⟩
      rfl

/-- Each object the loop constructs comes from one descriptor. -/
theorem mem_constructDependencies {fieldInstance : Field} {fieldLookupCache : FieldCache schema}
    {descs : List DependencyDescriptor} {deps : List FieldDependency}
    (h : constructDependencies schema fieldInstance fieldLookupCache descs = .ok deps)
    {dep : FieldDependency} (hdep : dep ∈ deps) :
    ∃ d ∈ descs, ∃ ds,
      constructDependency schema fieldInstance d fieldLookupCache = .ok ds ∧ dep ∈ ds := by
  induction descs generalizing deps with
  | nil => cases h; cases hdep
  | cons d descs ih =>
    obtain ⟨ds, more, hd, hrest, rfl⟩ := constructDependencies_cons_eq_ok schema |>.mp h
    rcases List.mem_append.mp hdep with hdep | hdep
    · exact ⟨d, List.mem_cons_self _ _, ds, hd, hdep⟩
    · obtain ⟨d', hd', ds', h', hdep'⟩ := ih hrest hdep
      exact ⟨d', List.mem_cons_of_mem _ hd', ds', h', hdep'⟩

/-- The loop keeps every object each descriptor constructs. -/
theorem subset_constructDependencies {fieldInstance : Field}
    {fieldLookupCache : FieldCache schema} {descs : List DependencyDescriptor}
    {deps : List FieldDependency}
    (h : constructDependencies schema fieldInstance fieldLookupCache descs = .ok deps)
    {d : DependencyDescriptor} (hd : d ∈ descs) {ds : List FieldDependency}
    (hds : constructDependency schema fieldInstance d fieldLookupCache = .ok ds) :
    ds ⊆ deps := by
  induction descs generalizing deps with
  | nil => cases hd
  | cons d' descs ih =>
    obtain ⟨ds', more, hd', hrest, rfl⟩ := constructDependencies_cons_eq_ok schema |>.mp h
    rcases List.mem_cons.mp hd with rfl | hd
    · cases hds.symm.trans hd'
      exact List.subset_append_left _ _
    · exact (ih hrest hd).trans (List.subset_append_right _ _)

/-- `field_instance.dependencies.all()`: the rows whose dependant is the field. -/
def currentDependencies (s : FieldDependencyStore) (field : Field) : List FieldDependency :=
  s.rows.filter (·.dependant == field.id)

/-- The table a rebuild leaves when it has constructed `newDependencies` and raised nothing:
the created objects inserted, then the leftover rows deleted. -/
def rebuiltStore (s : FieldDependencyStore) (field : Field)
    (newDependencies : List FieldDependency) : FieldDependencyStore :=
  (s.bulkCreate (rebuildDiff (currentDependencies s field) newDependencies).2).deleteWhere
    fun dep => ((rebuildDiff (currentDependencies s field) newDependencies).1.map
      (·.2.id)).contains dep.id

/-- A call of `rebuild_field_dependencies`, piece by piece: the construction loop may raise;
otherwise the check of the objects to create may raise; otherwise the table becomes
`rebuiltStore`. Both raises leave the table as it was. -/
theorem rebuildFieldDependencies_run (fieldInstance : Field)
    (fieldDependencies : Option (List DependencyDescriptor))
    (fieldLookupCache : FieldCache schema) (s : FieldDependencyStore) :
    (rebuildFieldDependencies schema willCauseCircularDep fieldInstance fieldDependencies
        fieldLookupCache).run s =
      match constructDependencies schema fieldInstance fieldLookupCache
          (fieldDependencies.getD []) with
      | .error e => .error e s
      | .ok newDependencies =>
        if (rebuildDiff (currentDependencies s fieldInstance) newDependencies).2.any
            (causesCircularDep willCauseCircularDep s fieldInstance) then .error .circular s
        else .ok () (rebuiltStore s fieldInstance newDependencies) := rfl

/-- Whatever a rebuild raises, it raises before writing: the table is as it was. -/
theorem rebuildFieldDependencies_error_store {fieldInstance : Field}
    {fieldDependencies : Option (List DependencyDescriptor)}
    {fieldLookupCache : FieldCache schema} {s s' : FieldDependencyStore} {e : RebuilderError}
    (h : (rebuildFieldDependencies schema willCauseCircularDep fieldInstance fieldDependencies
        fieldLookupCache).run s = .error e s') : s' = s := by
  rw [rebuildFieldDependencies_run] at h
  split at h
  · cases h; rfl
  · split_ifs at h; cases h; rfl

/-- A rebuild that returns has constructed its objects without raising, found none of the
objects to create circular, and left `rebuiltStore`. -/
theorem rebuildFieldDependencies_ok {fieldInstance : Field}
    {fieldDependencies : Option (List DependencyDescriptor)}
    {fieldLookupCache : FieldCache schema} {s s' : FieldDependencyStore} {u : Unit}
    (h : (rebuildFieldDependencies schema willCauseCircularDep fieldInstance fieldDependencies
        fieldLookupCache).run s = .ok u s') :
    ∃ newDependencies, constructDependencies schema fieldInstance fieldLookupCache
        (fieldDependencies.getD []) = .ok newDependencies ∧
      (∀ dep ∈ (rebuildDiff (currentDependencies s fieldInstance) newDependencies).2,
        causesCircularDep willCauseCircularDep s fieldInstance dep = false) ∧
      s' = rebuiltStore s fieldInstance newDependencies := by
  rw [rebuildFieldDependencies_run] at h
  split at h
  · cases h
  · rename_i newDependencies hnew
    split_ifs at h with hc
    cases h
    simp only [List.any_eq_true, not_exists, not_and, Bool.not_eq_true] at hc
    exact ⟨newDependencies, hnew, hc, rfl⟩

section RebuiltStore
variable (s : FieldDependencyStore) (field : Field) (newDependencies : List FieldDependency)

/-- The rows after a rebuild: the old rows but the leftover ones, then the created objects
under fresh keys, none of which the delete matches. -/
theorem rows_rebuiltStore :
    (rebuiltStore s field newDependencies).rows =
      s.rows.filter (fun dep => !((rebuildDiff (currentDependencies s field)
          newDependencies).1.map (·.2.id)).contains dep.id) ++
        saveFrom s.nextId (rebuildDiff (currentDependencies s field) newDependencies).2 := by
  rw [rebuiltStore, FieldDependencyStore.rows_deleteWhere, FieldDependencyStore.rows_bulkCreate,
    List.filter_append]
  refine congrArg _ (List.filter_eq_self.mpr fun d hd => ?_)
  rw [Bool.not_eq_true', Bool.eq_false_iff]
  intro hid
  obtain ⟨e, he, hid⟩ := List.mem_map.mp (List.elem_iff.mp hid)
  exact s.id_ne_of_mem_saveFrom (List.mem_filter.mp (mem_leftover he).1).1 hd hid

/-- A row after a rebuild was there before, or is a created object under a fresh key. -/
theorem mem_rebuiltStore {dep : FieldDependency}
    (h : dep ∈ (rebuiltStore s field newDependencies).rows) :
    dep ∈ s.rows ∨ ∃ d ∈ (rebuildDiff (currentDependencies s field) newDependencies).2,
      ∃ n, dep = { d with id := n } := by
  unfold rebuiltStore at h
  simp only [FieldDependencyStore.rows_deleteWhere, FieldDependencyStore.rows_bulkCreate,
    List.mem_filter, List.mem_append] at h
  exact h.1.imp_right mem_saveFrom

/-- A rebuild deletes only rows of the field it rebuilds. -/
theorem mem_rebuiltStore_of_ne {dep : FieldDependency} (hdep : dep ∈ s.rows)
    (hne : dep.dependant ≠ field.id) : dep ∈ (rebuiltStore s field newDependencies).rows := by
  unfold rebuiltStore
  simp only [FieldDependencyStore.rows_deleteWhere, FieldDependencyStore.rows_bulkCreate,
    List.mem_filter, List.mem_append, Bool.not_eq_true', List.contains, List.elem_eq_mem,
    decide_eq_false_iff_not]
  refine ⟨.inl hdep, fun hid => ?_⟩
  obtain ⟨e, he, hid⟩ := List.mem_map.mp hid
  have hcur := (List.mem_filter.mp (mem_leftover he).1)
  have := s.eq_of_id_eq hdep hcur.1 hid.symm
  exact hne (this ▸ by simpa using hcur.2)

end RebuiltStore

end FieldDependencies
