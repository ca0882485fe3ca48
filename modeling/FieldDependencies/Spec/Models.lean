import Mathlib.Data.List.Nodup
import Mathlib.Data.List.Range

/-!
# `FieldDependencies.Spec.Models`: fields, dependency rows and the field cache

The data that `depedency_rebuilder.py` reads and writes. The rebuilder keeps one table of its
own, `FieldDependency`: a row says that the field `dependant` reads the field `dependency`,
possibly through the link-row field `via`. A row whose `dependency` is unset is broken and keeps
the name it was looking for in `broken_reference_field_name`.

Everything else is read from collaborators. `Schema` is the part of the `Field` table the
rebuilder reads, fixed over a run: the table of a field and the table a link-row field links to.
A `Field` argument is a primary key with the name the field has at the time of the call.
`FieldCache` is the name lookup a rebuild resolves descriptors with; it carries the two facts
every lookup by `(table, name)` guarantees. `FieldDependencyStore` is the `FieldDependency` table
with the four statements the rebuilder runs against it (`deleteWhere`, `updateWhere`,
`bulkCreate`, `bulkUpdate`); it carries the fact that primary keys are unique, so the statements
that match rows by key touch exactly the rows they name.
-/

set_option autoImplicit false

namespace FieldDependencies

/-- The primary key of a `Field` row. -/
abbrev FieldId := Nat

/-- The primary key of a `Table` row. -/
abbrev TableId := Nat

/-- The attributes of a field that the rebuilder reads and that do not change while the
dependency graph does: the table the field belongs to, and, for a `LinkRowField`, the table it
links to (`none` for every other field type). -/
structure Schema where
  table : FieldId → TableId
  linkRowTable : FieldId → Option TableId

/-- `isinstance(field, LinkRowField)`. -/
def Schema.isLinkRow (schema : Schema) (field : FieldId) : Bool :=
  (schema.linkRowTable field).isSome

/-- A field object as the rebuilder receives it: its primary key and its name at the time of
the call. Its table and type are read from the `Schema`. -/
structure Field where
  id : FieldId
  name : String
deriving DecidableEq, Repr

/-- A `FieldDependency` object. `id` is `none` until the row is saved. The defaults are those
of the Django model, so `{ dependant := f, brokenReferenceFieldName := some n }` is
`FieldDependency(dependant=f, broken_reference_field_name=n)`. -/
structure FieldDependency where
  id : Option Nat := none
  dependant : FieldId
  dependency : Option FieldId := none
  via : Option FieldId := none
  brokenReferenceFieldName : Option String := none
deriving DecidableEq, Repr

/-- The key `str(dep)` takes its values in. -/
abbrev DependencyKey := FieldId × Option FieldId × Option FieldId × Option String

/-- Modelled from the spec: `str(dep)`. `FieldDependency.__str__` lives in `models.py`, which
is not among the sources. The spec asks that edges differing in any one of `dependant`,
`dependency`, `via` and `broken_reference_field_name` get distinct keys, and that the row id
play no part (§8, edge canonical identity), and that the key be a tuple (§9). This is that
tuple; the sources' test `test_str_of_field_dependency_uniquely_identifies_it` checks the same
distinctness on a fixture. -/
def FieldDependency.str (dep : FieldDependency) : DependencyKey :=
  (dep.dependant, dep.dependency, dep.via, dep.brokenReferenceFieldName)

/-- The rows `bulk_create` inserts: `deps` in order, under the keys `k`, `k + 1`, and so on. -/
def saveFrom : Nat → List FieldDependency → List FieldDependency
  | _, [] => []
  | k, dep :: deps => { dep with id := some k } :: saveFrom (k + 1) deps

theorem saveFrom_map_id (k : Nat) (deps : List FieldDependency) :
    (saveFrom k deps).map FieldDependency.id = (List.range' k deps.length).map some := by
  induction deps generalizing k with
  | nil => rfl
  | cons dep deps ih => simp [saveFrom, ih, List.range'_succ]

/-- The `FieldDependency` table: its rows in insertion order and the primary key the next
insert receives. Every row is saved under a key below `nextId`, and no two rows share a key. -/
structure FieldDependencyStore where
  rows : List FieldDependency
  nextId : Nat
  id_lt : ∀ dep ∈ rows, ∃ k < nextId, dep.id = some k
  nodup_id : (rows.map FieldDependency.id).Nodup

namespace FieldDependencyStore

/-- The table before any field has been rebuilt. -/
def empty : FieldDependencyStore :=
  ⟨[], 0, fun _ h => absurd h (List.not_mem_nil _), List.nodup_nil⟩

/-- `FieldDependency.objects.filter(p).delete()`. -/
def deleteWhere (s : FieldDependencyStore) (p : FieldDependency → Bool) :
    FieldDependencyStore where
  rows := s.rows.filter fun dep => !p dep
  nextId := s.nextId
  id_lt dep h := s.id_lt dep (List.mem_of_mem_filter h)
  nodup_id := s.nodup_id.sublist ((List.filter_sublist _).map _)

/-- `FieldDependency.objects.filter(p).update(...)`: a matched row takes the columns `set`
gives it and keeps its primary key. -/
def updateWhere (s : FieldDependencyStore) (p : FieldDependency → Bool)
    (set : FieldDependency → FieldDependency) : FieldDependencyStore where
  rows := s.rows.map fun dep => if p dep then { set dep with id := dep.id } else dep
  nextId := s.nextId
  id_lt dep h := by
    obtain ⟨dep₀, h₀, rfl⟩ := List.mem_map.mp h
    split <;> exact s.id_lt dep₀ h₀
  nodup_id := by
    rw [List.map_map]
    refine (List.map_congr_left fun dep _ => ?_) ▸ s.nodup_id
    simp only [Function.comp]
    split <;> rfl

/-- `FieldDependency.objects.bulk_create(deps)`: the objects are inserted after the existing
rows, under fresh consecutive keys. -/
def bulkCreate (s : FieldDependencyStore) (deps : List FieldDependency) :
    FieldDependencyStore where
  rows := s.rows ++ saveFrom s.nextId deps
  nextId := s.nextId + deps.length
  id_lt dep h := by
    rcases List.mem_append.mp h with h | h
    · obtain ⟨k, hk, hid⟩ := s.id_lt dep h
      exact ⟨k, by omega, hid⟩
    · have : dep.id ∈ (List.range' s.nextId deps.length).map some :=
        saveFrom_map_id s.nextId deps ▸ List.mem_map_of_mem _ h
      obtain ⟨k, hk, hid⟩ := List.mem_map.mp this
      exact ⟨k, by simp [List.mem_range'] at hk; omega, hid.symm⟩
  nodup_id := by
    rw [List.map_append, saveFrom_map_id, List.nodup_append]
    refine ⟨s.nodup_id, (List.nodup_range' _ _).map (Option.some_injective _), ?_⟩
    intro a ha hb
    obtain ⟨dep, hdep, rfl⟩ := List.mem_map.mp ha
    obtain ⟨k, hk, hk'⟩ := List.mem_map.mp hb
    obtain ⟨j, hj, hid⟩ := s.id_lt dep hdep
    simp only [List.mem_range'] at hk
    rw [hid, Option.some_inj] at hk'
    omega

/-- `FieldDependency.objects.bulk_update(deps, ["dependency", "broken_reference_field_name"])`:
a row whose key one of `deps` carries takes that object's `dependency` and
`broken_reference_field_name`. -/
def bulkUpdate (s : FieldDependencyStore) (deps : List FieldDependency) :
    FieldDependencyStore :=
  s.updateWhere (fun _ => true) fun row =>
    match deps.find? (·.id == row.id) with
    | some dep =>
      { row with dependency := dep.dependency,
                 brokenReferenceFieldName := dep.brokenReferenceFieldName }
    | none => row

end FieldDependencyStore

/-- A `FieldCache` as a rebuild uses it: `lookup_by_name(table, name)` returns the field of
that table with that name, or `none`. The cache answers from one snapshot for the whole
rebuild, so it is a function; the two fields are what a lookup by table and name
guarantees. -/
structure FieldCache (schema : Schema) where
  lookupByName : TableId → String → Option Field
  table_of_lookupByName : ∀ {t n g}, lookupByName t n = some g → schema.table g.id = t
  name_of_lookupByName : ∀ {t n g}, lookupByName t n = some g → g.name = n

/-- The cache over the live fields `fields`: a lookup returns the first live field of the
table with the name. -/
def FieldCache.ofFields (schema : Schema) (fields : List Field) : FieldCache schema where
  lookupByName t n := fields.find? fun g => schema.table g.id == t && g.name == n
  table_of_lookupByName h := by simpa using (by simpa using List.find?_some h :
    _ ∧ _).1
  name_of_lookupByName h := by simpa using (by simpa using List.find?_some h : _ ∧ _).2

/-- One entry of the list `get_field_dependencies` returns: the name of a field of the same
table, or the pair of a via field's name and the name of a field in the table it links
to. -/
inductive DependencyDescriptor
  | name (dependency : String)
  | via (viaFieldName dependency : String)
deriving DecidableEq, Repr

/-- The exceptions the functions of `depedency_rebuilder.py` raise. -/
inductive RebuilderError
  /-- `SelfReferenceFieldDependencyError`. -/
  | selfReference
  /-- `CircularFieldDependencyError`. -/
  | circular
  /-- `AttributeError`: `link_row_table` read from a field that is not a `LinkRowField`. -/
  | attributeError
deriving DecidableEq, Repr

section Fixture

/-- The two tables of the sources' link-row tests (`test_trashing_a_link_row_field_breaks_vias`):
table `1` holds `primary` (1), `field` (2) and `link` (4), a link-row field to table `2`, which
holds `primary` (3). Table `2` also has the link-row field `back` (5) to table `1` and the
field `extra` (6), for runs that need a link back or a field created late. -/
def linkedTables : Schema where
  table field := if field = 3 ∨ field = 5 ∨ field = 6 then 2 else 1
  linkRowTable field := if field = 4 then some 2 else if field = 5 then some 1 else none

/-- The table `test_trashing_a_link_row_field_breaks_vias` builds before it trashes `link`:
the via row of `link` on the other table's `primary`, then the two rows the test creates by
hand, a via row and a direct row of `field`. -/
def trashTestStore : FieldDependencyStore :=
  FieldDependencyStore.empty.bulkCreate
    [{ dependant := 4, dependency := some 3, via := some 4 },
     { dependant := 2, dependency := some 3, via := some 4 },
     { dependant := 2, dependency := some 4 }]

/-- The cache of the link-row tests: the four fields they create. -/
def linkTestCache : FieldCache linkedTables :=
  FieldCache.ofFields linkedTables [⟨1, "primary"⟩, ⟨2, "field"⟩, ⟨3, "primary"⟩, ⟨4, "link"⟩]

/-- The cache over all six fields. -/
def linkedCache : FieldCache linkedTables :=
  FieldCache.ofFields linkedTables
    [⟨1, "primary"⟩, ⟨2, "field"⟩, ⟨3, "primary"⟩, ⟨4, "link"⟩, ⟨5, "back"⟩, ⟨6, "extra"⟩]

end Fixture

end FieldDependencies
