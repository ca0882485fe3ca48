import FieldDependencies.Spec.Models

/-!
# `FieldDependencies.Spec.CircularReferenceChecker`: `will_cause_circular_dep`, from the spec

`circular_reference_checker.py` is not among the sources; the rebuilder's functions take its
one function as a parameter. This module gives the spec's account of it (§4.2), for the
theorems that need a checker at a concrete input: the resolved rows form a graph from
dependant to dependency, with an arc from the dependant to the via of each resolved row that
has one, and adding `from_field → to_field` closes a cycle when `to_field` reaches
`from_field` in that graph or is `from_field`.

The search is breadth first over a list of seen fields, one round per unit of fuel, over any
graph given by its successor lists. The fuel is the number of arc ends in the table, which caps
the traversal as §5 asks: every round that adds nothing has reached a closed set, and every
other round adds an arc end not seen before.
-/

set_option autoImplicit false

namespace FieldDependencies.CircularReferenceChecker

/-- One round of the search in the graph `next`: the fields seen so far and every field they
lead to. -/
def expand (next : FieldId → List FieldId) (seen : List FieldId) : List FieldId :=
  (seen.flatMap next).foldl (fun acc x => acc.insert x) seen

/-- The fields seen after `fuel` rounds. -/
def reachableFrom (next : FieldId → List FieldId) : Nat → List FieldId → List FieldId
  | 0, seen => seen
  | fuel + 1, seen => reachableFrom next fuel (expand next seen)

/-- The fields `field` reads in the spec's cycle-detection graph: the dependency of each
resolved row of `field`, and the via of such a row when it has one. -/
def readsOf (s : FieldDependencyStore) (field : FieldId) : List FieldId :=
  s.rows.flatMap fun dep =>
    if dep.dependant = field ∧ dep.dependency.isSome then dep.dependency.toList ++ dep.via.toList
    else []

/-- The ends of all arcs of the graph. -/
def allReads (s : FieldDependencyStore) : List FieldId :=
  s.rows.flatMap fun dep =>
    if dep.dependency.isSome then dep.dependency.toList ++ dep.via.toList else []

/-- Modelled from the spec: `will_cause_circular_dep(from_field, to_field)`, which lives in
`circular_reference_checker.py`, not among the sources. Adding an arc from `fromField` to
`toField` causes a cycle when `toField` reaches `fromField`, itself included (§4.2). -/
def willCauseCircularDep (s : FieldDependencyStore) (fromField toField : FieldId) : Bool :=
  decide (fromField ∈ reachableFrom (readsOf s) (allReads s).length [toField])

end FieldDependencies.CircularReferenceChecker
