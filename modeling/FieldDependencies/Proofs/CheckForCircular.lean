import FieldDependencies.Proofs.RebuildErrors

/-!
# `FieldDependencies.Proofs.CheckForCircular`: the read-only pre-check

`check_for_circular` resolves each descriptor with `_get_dependency_field` and raises on the
first one that resolves to a field with the field's own name, or to a field the checker reports.
`checkForCircular_eq_ok_iff` states the loop: the check returns exactly when every descriptor
passes (`PassesCheck`).

It agrees with `rebuild_field_dependencies` on a bare descriptor naming the field itself: when
the cache resolves the field's name in its table to the field, both raise
(`checkForCircular_raises_of_selfReference`). Elsewhere the two read the descriptors
differently. The check compares the name of the field a descriptor resolves to, in whatever
table; it raises `AttributeError` on a via that is not a link-row field, which the rebuild
turns into a direct row; and it never asks the checker about the direct row on a via.
`checkForCircular_disagrees_with_rebuild` runs the first and the last of these.

The last is all the check misses of the rebuild's cycles. Every resolved object
`_construct_dependency` builds depends on the field `_get_dependency_field` returns, except the
direct row on a via (`constructDependency_dependency_eq_some`). So when the check returns and
the rebuild raises `CircularFieldDependencyError`, the checker reports a link-row field some
descriptor goes through (`rebuildFieldDependencies_circular_of_checkForCircular_ok`).
-/

set_option autoImplicit false

namespace FieldDependencies

/-- A step of an `Except` computation returns exactly when what it binds returns and the rest
returns on that value. -/
theorem except_bind_eq_ok {ε α β : Type} {x : Except ε α} {f : α → Except ε β} {b : β} :
    x >>= f = .ok b ↔ ∃ a, x = .ok a ∧ f a = .ok b := by
  cases x with
  | error e => exact iff_of_false (fun h => nomatch h) fun ⟨_, h, _⟩ => nomatch h
  | ok a => exact ⟨fun h => ⟨a, rfl, h⟩, fun ⟨_, h, hf⟩ => by cases h; exact hf⟩

theorem except_bind_eq_ok_unit {ε : Type} {x : Except ε Unit} {f : Unit → Except ε Unit} :
    x >>= f = .ok () ↔ x = .ok () ∧ f () = .ok () :=
  except_bind_eq_ok.trans
    ⟨fun ⟨(), h, hf⟩ => ⟨h, hf⟩, fun ⟨h, hf⟩ => ⟨(), h, hf⟩⟩

/-- A guard `if c: raise e` passes exactly when its condition is false. -/
theorem ite_throw_eq_ok {ε : Type} {c : Prop} [Decidable c] {e : ε} :
    (if c then throw e else pure () : Except ε Unit) = .ok () ↔ ¬ c := by
  split_ifs with h
  · exact iff_of_false (fun h' => nomatch h') (not_not.mpr h)
  · exact iff_of_true rfl h

variable (schema : Schema)
variable (willCauseCircularDep : FieldDependencyStore → FieldId → FieldId → Bool)

/-- The descriptors one pass of the loop of `check_for_circular` lets through: it resolves
without raising, to no field, or to a field with another name than the field's that the checker
accepts. -/
def PassesCheck (fieldInstance : Field) (fieldLookupCache : FieldCache schema)
    (s : FieldDependencyStore) (dependency : DependencyDescriptor) : Prop :=
  ∃ dependencyField?, getDependencyField schema dependency fieldInstance fieldLookupCache =
      .ok dependencyField? ∧
    ∀ dependencyField ∈ dependencyField?, fieldInstance.name ≠ dependencyField.name ∧
      willCauseCircularDep s fieldInstance.id dependencyField.id = false

/-- `check_for_circular` returns exactly when every descriptor passes. -/
theorem checkForCircular_eq_ok_iff (fieldInstance : Field)
    (fieldDependencies : Option (List DependencyDescriptor))
    (fieldLookupCache : FieldCache schema) (s : FieldDependencyStore) :
    checkForCircular schema willCauseCircularDep fieldInstance fieldDependencies
        fieldLookupCache s = .ok () ↔
      ∀ dependency ∈ fieldDependencies.getD [],
        PassesCheck schema willCauseCircularDep fieldInstance fieldLookupCache s dependency := by
  unfold checkForCircular
  generalize fieldDependencies.getD [] = descs
  induction descs with
  | nil => exact iff_of_true rfl fun _ h => absurd h (List.not_mem_nil _)
  | cons dependency descs ih =>
    rw [List.forM_cons', except_bind_eq_ok_unit, List.forall_mem_cons, ← ih, PassesCheck,
      except_bind_eq_ok]
    refine and_congr_left' (exists_congr fun g? => and_congr_right fun _ => ?_)
    cases g? with
    | none => exact iff_of_true rfl fun _ h => nomatch h
    | some g =>
      simp only [Option.mem_def, Option.some.injEq, forall_eq', ne_eq, ← Bool.not_eq_true]
      by_cases hn : fieldInstance.name = g.name
      · simp only [hn, if_true, not_true_eq_false, false_and, iff_false]
        exact fun h => nomatch h
      · simp only [hn, if_false, not_false_eq_true, true_and, pure_bind]
        exact ite_throw_eq_ok

/-- When the cache resolves the field's own name in its table to the field, a bare descriptor
naming the field makes `check_for_circular` raise, as it makes `rebuild_field_dependencies`
raise `SelfReferenceFieldDependencyError`. -/
theorem checkForCircular_raises_of_selfReference {fieldInstance : Field}
    {fieldDependencies : Option (List DependencyDescriptor)}
    {fieldLookupCache : FieldCache schema} {s s' : FieldDependencyStore}
    (hcache : fieldLookupCache.lookupByName (schema.table fieldInstance.id) fieldInstance.name =
      some fieldInstance)
    (h : (rebuildFieldDependencies schema willCauseCircularDep fieldInstance fieldDependencies
      fieldLookupCache).run s = .error .selfReference s') :
    checkForCircular schema willCauseCircularDep fieldInstance fieldDependencies
      fieldLookupCache s ≠ .ok () := by
  intro hok
  have hmem : DependencyDescriptor.name fieldInstance.name ∈ fieldDependencies.getD [] := by
    rw [rebuildFieldDependencies_run] at h
    split at h
    · rename_i e he
      cases h
      exact ((constructDependencies_eq_error schema _ _ _ _).mp he).2
    · split_ifs at h; cases h
  obtain ⟨g, hg, hpass⟩ :=
    (checkForCircular_eq_ok_iff schema willCauseCircularDep _ _ _ _).mp hok _ hmem
  simp only [getDependencyField, hcache, Except.ok.injEq] at hg
  subst hg
  exact (hpass fieldInstance rfl).1 rfl

/-- `field` with a bare descriptor of its own name, on the empty table. -/
theorem checkForCircular_raises_of_selfReference_field :
    linkTestCache.lookupByName (linkedTables.table 2) "field" = some ⟨2, "field"⟩ ∧
    (rebuildFieldDependencies linkedTables CircularReferenceChecker.willCauseCircularDep
      ⟨2, "field"⟩ (some [.name "field"]) linkTestCache).run .empty = .error .selfReference .empty ∧
    checkForCircular linkedTables CircularReferenceChecker.willCauseCircularDep ⟨2, "field"⟩
      (some [.name "field"]) linkTestCache .empty ≠ .ok () :=
  ⟨rfl, rfl,
    @checkForCircular_raises_of_selfReference linkedTables
      CircularReferenceChecker.willCauseCircularDep ⟨2, "field"⟩ (some [.name "field"])
      linkTestCache .empty .empty rfl rfl⟩

/-- The pre-check and the rebuild disagree both ways, on fields the cache resolves by their own
names. The first table's `primary` as a lookup of the other table's `primary` through `link`:
the pre-check raises `SelfReferenceFieldDependencyError`, since it compares the names of the
fields the descriptors resolve to, and the rebuild returns. `field` as a lookup of `extra`
through `link`, once the other table's `primary` reads `field` back through `back`: the
pre-check returns, since it never asks about the direct row on `link`, and the rebuild raises
`CircularFieldDependencyError` on that row. -/
theorem checkForCircular_disagrees_with_rebuild :
    linkTestCache.lookupByName (linkedTables.table 1) "primary" = some ⟨1, "primary"⟩ ∧
    checkForCircular linkedTables CircularReferenceChecker.willCauseCircularDep ⟨1, "primary"⟩
        (some [.via "link" "primary"]) linkTestCache .empty = .error .selfReference ∧
    (rebuildFieldDependencies linkedTables CircularReferenceChecker.willCauseCircularDep
        ⟨1, "primary"⟩ (some [.via "link" "primary"]) linkTestCache).run .empty =
      .ok () (runOperations linkedTables CircularReferenceChecker.willCauseCircularDep
        [.rebuild ⟨1, "primary"⟩ (some [.via "link" "primary"]) linkTestCache]) ∧
    linkedCache.lookupByName (linkedTables.table 2) "field" = some ⟨2, "field"⟩ ∧
    checkForCircular linkedTables CircularReferenceChecker.willCauseCircularDep ⟨2, "field"⟩
        (some [.via "link" "extra"]) linkedCache backLinkStore = .ok () ∧
    (rebuildFieldDependencies linkedTables CircularReferenceChecker.willCauseCircularDep
        ⟨2, "field"⟩ (some [.via "link" "extra"]) linkedCache).run backLinkStore =
      .error .circular backLinkStore :=
  ⟨rfl, rfl, rfl, rfl, rfl, rfl⟩

/-- The field `_construct_dependency` makes an object depend on is the one
`_get_dependency_field` resolves the descriptor to, with two exceptions: the direct row on a
link-row via, which `_get_dependency_field` never returns, and the row on a via that is not a
link-row field, on which `_get_dependency_field` raises. -/
theorem constructDependency_dependency_eq_some {fieldInstance : Field}
    {dependency : DependencyDescriptor} {fieldLookupCache : FieldCache schema}
    {deps : List FieldDependency}
    (h : constructDependency schema fieldInstance dependency fieldLookupCache = .ok deps)
    {dep : FieldDependency} (hdep : dep ∈ deps) {t : FieldId} (ht : dep.dependency = some t) :
    (∃ g, getDependencyField schema dependency fieldInstance fieldLookupCache = .ok (some g) ∧
      g.id = t) ∨
    getDependencyField schema dependency fieldInstance fieldLookupCache =
      .error .attributeError ∨
    ∃ viaFieldName name viaField, dependency = .via viaFieldName name ∧
      fieldLookupCache.lookupByName (schema.table fieldInstance.id) viaFieldName =
        some viaField ∧
      (schema.linkRowTable viaField.id).isSome ∧ viaField.id = t := by
  unfold constructDependency at h
  cases dependency with
  | name n =>
    dsimp only at h
    split_ifs at h
    split at h <;> cases h <;> rw [List.mem_singleton] at hdep <;> subst hdep <;> cases ht
    exact .inl ⟨_, by simp only [getDependencyField, *], rfl⟩
  | via v n =>
    dsimp only at h
    rw [if_neg (by simp)] at h
    split at h
    · cases h; rw [List.mem_singleton] at hdep; subst hdep; cases ht
    · rename_i viaField hvia
      split at h
      · exact .inr (.inl (by simp only [getDependencyField, *]))
      · rename_i tt htt
        split at h <;> cases h
        · rw [List.mem_singleton] at hdep; subst hdep; cases ht
        · rcases List.mem_append.mp hdep with hd | hd
          · split_ifs at hd
            · rw [List.mem_singleton] at hd; subst hd; cases ht
              exact .inr (.inr ⟨v, n, viaField, rfl, hvia, by simp [htt], rfl⟩)
            · cases hd
          · rw [List.mem_singleton] at hd; subst hd; cases ht
            exact .inl ⟨_, by simp only [getDependencyField, *], rfl⟩

/-- What `check_for_circular` misses. When it returns and `rebuild_field_dependencies` with the
same descriptors and cache on the same table raises `CircularFieldDependencyError`, the object
the rebuild refused is the direct row on a via: some descriptor goes through a link-row field of
the field's table, and the checker reports that link-row field. -/
theorem rebuildFieldDependencies_circular_of_checkForCircular_ok {fieldInstance : Field}
    {fieldDependencies : Option (List DependencyDescriptor)}
    {fieldLookupCache : FieldCache schema} {s s' : FieldDependencyStore}
    (hcheck : checkForCircular schema willCauseCircularDep fieldInstance fieldDependencies
      fieldLookupCache s = .ok ())
    (h : (rebuildFieldDependencies schema willCauseCircularDep fieldInstance fieldDependencies
      fieldLookupCache).run s = .error .circular s') :
    ∃ viaFieldName name viaField,
      .via viaFieldName name ∈ fieldDependencies.getD [] ∧
      fieldLookupCache.lookupByName (schema.table fieldInstance.id) viaFieldName =
        some viaField ∧
      (schema.linkRowTable viaField.id).isSome ∧
      willCauseCircularDep s fieldInstance.id viaField.id = true := by
  -- The construction did not raise: it raises only `SelfReferenceFieldDependencyError`.
  obtain ⟨newDependencies, hnew⟩ : ∃ newDependencies, constructDependencies schema
      fieldInstance fieldLookupCache (fieldDependencies.getD []) = .ok newDependencies := by
    cases hc : constructDependencies schema fieldInstance fieldLookupCache
        (fieldDependencies.getD []) with
    | ok newDependencies => exact ⟨newDependencies, rfl⟩
    | error e =>
      obtain ⟨rfl, -⟩ := (constructDependencies_eq_error schema _ _ _ _).mp hc
      rw [rebuildFieldDependencies_run, hc] at h
      cases h
  obtain ⟨dep, hdep, -, t, ht, hw⟩ := (rebuildFieldDependencies_eq_error_circular_iff schema
    willCauseCircularDep fieldInstance fieldDependencies fieldLookupCache s hnew).mp ⟨s', h⟩
  obtain ⟨desc, hdesc, deps, hdeps, hdep⟩ := mem_constructDependencies schema hnew hdep
  obtain ⟨g?, hg, hpass⟩ :=
    (checkForCircular_eq_ok_iff schema willCauseCircularDep _ _ _ _).mp hcheck desc hdesc
  rcases constructDependency_dependency_eq_some schema hdeps hdep ht with
    ⟨g, hg', rfl⟩ | hg' | ⟨v, n, viaField, rfl, hvia, hlink, rfl⟩
  · -- The check asked the checker about `g` and was told no.
    cases hg.symm.trans hg'
    exact absurd ((hpass g rfl).2.symm.trans hw) Bool.false_ne_true
  · cases hg.symm.trans hg'
  · exact ⟨v, n, viaField, hdesc, hvia, hlink, hw⟩

/-- `field` as a lookup of `extra` through `link`, once the other table's `primary` reads
`field` back through `back`: the rebuild refuses the direct row on `link`. -/
theorem rebuildFieldDependencies_circular_of_checkForCircular_ok_backLink :
    checkForCircular linkedTables CircularReferenceChecker.willCauseCircularDep ⟨2, "field"⟩
        (some [.via "link" "extra"]) linkedCache backLinkStore = .ok () ∧
    (rebuildFieldDependencies linkedTables CircularReferenceChecker.willCauseCircularDep
        ⟨2, "field"⟩ (some [.via "link" "extra"]) linkedCache).run backLinkStore =
      .error .circular backLinkStore ∧
    ∃ viaFieldName name viaField,
      .via viaFieldName name ∈ (some [DependencyDescriptor.via "link" "extra"]).getD [] ∧
      linkedCache.lookupByName (linkedTables.table 2) viaFieldName = some viaField ∧
      (linkedTables.linkRowTable viaField.id).isSome ∧
      CircularReferenceChecker.willCauseCircularDep backLinkStore 2 viaField.id = true :=
  ⟨rfl, rfl, @rebuildFieldDependencies_circular_of_checkForCircular_ok linkedTables
    CircularReferenceChecker.willCauseCircularDep ⟨2, "field"⟩ (some [.via "link" "extra"])
    linkedCache backLinkStore backLinkStore rfl rfl⟩

end FieldDependencies
