import Mathlib.Logic.Relation
import FieldDependencies.Spec.CircularReferenceChecker

/-!
# `FieldDependencies.Proofs.CircularReferenceChecker`: the search decides reachability

`mem_reachableFrom_iff`: in a graph given by successor lists `next`, the search of
`reachableFrom` from `[a]` sees `b` exactly when `a` reaches `b`, given at least as much fuel as
there are arc ends. One direction is a plain induction: everything the search sees is reachable.
The other needs the fuel. A seen set that is closed under the arcs contains everything reachable
from it; a round on a set that is not closed adds an arc end not seen before, so the number of
arc ends not yet seen drops by one at least (`closed_reachableFrom`).

`willCauseCircularDep_iff` is the instance for the spec's checker: it answers `true` exactly
when `toField` reaches `fromField` along `readsOf`. The modules on reachable tables read the
assumptions they make on a checker off it: `willCauseCircularDep_sound` (`Acyclic`),
`willCauseCircularDep_complete` (`BreakRepair`), and `willCauseCircularDep_self` below.
-/

set_option autoImplicit false

namespace FieldDependencies.CircularReferenceChecker

open Relation

section Search
variable (next : FieldId → List FieldId)

theorem mem_foldl_insert (l seen : List FieldId) (x : FieldId) :
    x ∈ l.foldl (fun acc y => acc.insert y) seen ↔ x ∈ seen ∨ x ∈ l := by
  induction l generalizing seen with
  | nil => simp
  | cons y l ih =>
    rw [List.foldl_cons, ih, List.mem_insert_iff, List.mem_cons]
    exact or_assoc.trans or_left_comm

theorem mem_expand {seen : List FieldId} {x : FieldId} :
    x ∈ expand next seen ↔ x ∈ seen ∨ ∃ y ∈ seen, x ∈ next y := by
  simp [expand, mem_foldl_insert]

/-- A set closed under the arcs: the search adds nothing to it. -/
def Closed (seen : List FieldId) : Prop := ∀ x ∈ seen, ∀ y ∈ next x, y ∈ seen

theorem expand_of_closed {seen : List FieldId} (h : Closed next seen) :
    expand next seen = seen := by
  unfold expand
  generalize hl : seen.flatMap next = l
  have hl' : ∀ y ∈ l, y ∈ seen := fun y hy => by
    obtain ⟨x, hx, hy⟩ := List.mem_flatMap.mp (hl ▸ hy)
    exact h x hx y hy
  clear hl
  induction l with
  | nil => rfl
  | cons y l ih =>
    rw [List.foldl_cons, List.insert_of_mem (hl' y (List.mem_cons_self _ _))]
    exact ih fun z hz => hl' z (List.mem_cons_of_mem _ hz)

theorem reachableFrom_of_closed {seen : List FieldId} (h : Closed next seen) (fuel : Nat) :
    reachableFrom next fuel seen = seen := by
  induction fuel with
  | zero => rfl
  | succ fuel ih => rw [reachableFrom, expand_of_closed next h, ih]

theorem subset_reachableFrom (fuel : Nat) {seen : List FieldId} {x : FieldId} (h : x ∈ seen) :
    x ∈ reachableFrom next fuel seen := by
  induction fuel generalizing seen with
  | zero => exact h
  | succ fuel ih => exact ih ((mem_expand next).mpr (.inl h))

/-- Everything the search sees is reachable from where it started. -/
theorem reachable_of_mem_reachableFrom (fuel : Nat) {seen : List FieldId} {x : FieldId}
    (h : x ∈ reachableFrom next fuel seen) :
    ∃ y ∈ seen, ReflTransGen (fun a b => b ∈ next a) y x := by
  induction fuel generalizing seen with
  | zero => exact ⟨x, h, .refl⟩
  | succ fuel ih =>
    obtain ⟨y, hy, hyx⟩ := ih h
    rcases (mem_expand next).mp hy with hy | ⟨z, hz, hzy⟩
    · exact ⟨y, hy, hyx⟩
    · exact ⟨z, hz, ReflTransGen.head hzy hyx⟩

/-- A closed set contains everything reachable from its elements. -/
theorem mem_of_closed {seen : List FieldId} (h : Closed next seen) {x y : FieldId}
    (hx : x ∈ seen) (hxy : ReflTransGen (fun a b => b ∈ next a) x y) : y ∈ seen := by
  induction hxy with
  | refl => exact hx
  | tail _ hbc ih => exact h _ ih _ hbc

/-- A round that finds a new field makes fewer of the fields of `U` unseen. -/
theorem length_filter_not_mem_lt {U seen seen' : List FieldId} (hsub : ∀ z ∈ seen, z ∈ seen')
    {y : FieldId} (hyU : y ∈ U) (hy : y ∉ seen) (hy' : y ∈ seen') :
    (U.filter (· ∉ seen')).length < (U.filter (· ∉ seen)).length := by
  -- A field not seen after the round was not seen before it.
  have hfilter : U.filter (· ∉ seen') = (U.filter (· ∉ seen)).filter (· ∉ seen') := by
    rw [List.filter_filter]
    refine List.filter_congr fun z _ => ?_
    by_cases hz : z ∈ seen'
    · simp only [hz, not_true_eq_false, decide_False, Bool.false_and]
    · have hz' : z ∉ seen := fun h => hz (hsub z h)
      simp only [hz, hz', not_false_eq_true, decide_True, Bool.and_self]
  rw [hfilter, List.length_filter_lt_length_iff_exists]
  exact ⟨y, List.mem_filter.mpr ⟨hyU, decide_eq_true hy⟩, fun h => of_decide_eq_true h hy'⟩

variable {U : List FieldId} (hU : ∀ x, ∀ y ∈ next x, y ∈ U)
include hU

/-- With at least as much fuel as there are fields of `U` not yet seen, where `U` holds every
arc end, the search ends on a closed set. -/
theorem closed_reachableFrom :
    ∀ (fuel : Nat) (seen : List FieldId), (U.filter (· ∉ seen)).length ≤ fuel →
      Closed next (reachableFrom next fuel seen) := by
  intro fuel
  induction fuel with
  | zero =>
    intro seen hlen x _ y hxy
    by_contra hy
    have hmem : y ∈ U.filter (· ∉ seen) :=
      List.mem_filter.mpr ⟨hU x y hxy, by simpa [reachableFrom] using hy⟩
    rw [List.length_eq_zero.mp (Nat.le_zero.mp hlen)] at hmem
    cases hmem
  | succ fuel ih =>
    intro seen hlen
    by_cases hc : Closed next seen
    · rw [reachableFrom_of_closed next hc]; exact hc
    · simp only [Closed, not_forall] at hc
      obtain ⟨x, hx, y, hxy, hy⟩ := hc
      refine ih _ (Nat.le_of_lt_succ (lt_of_lt_of_le ?_ hlen))
      exact length_filter_not_mem_lt (fun z hz => (mem_expand next).mpr (.inl hz)) (hU x y hxy)
        hy ((mem_expand next).mpr (.inr ⟨x, hx, hxy⟩))

/-- With as much fuel as there are arc ends, the search from `a` sees exactly the fields `a`
reaches. -/
theorem mem_reachableFrom_iff {fuel : Nat} (hfuel : U.length ≤ fuel) (a b : FieldId) :
    b ∈ reachableFrom next fuel [a] ↔ ReflTransGen (fun x y => y ∈ next x) a b := by
  constructor
  · intro h
    obtain ⟨y, hy, hyb⟩ := reachable_of_mem_reachableFrom next _ h
    exact List.mem_singleton.mp hy ▸ hyb
  · intro h
    have hclosed := closed_reachableFrom next hU fuel [a]
      ((List.length_filter_le _ _).trans hfuel)
    exact mem_of_closed next hclosed (subset_reachableFrom next _ (List.mem_singleton_self _)) h

end Search

variable (s : FieldDependencyStore)

/-- The arcs of the spec's cycle-detection graph. -/
def Arc (a b : FieldId) : Prop := b ∈ readsOf s a

theorem mem_readsOf {a b : FieldId} :
    b ∈ readsOf s a ↔ ∃ dep ∈ s.rows, dep.dependant = a ∧ dep.dependency.isSome ∧
      (dep.dependency = some b ∨ dep.via = some b) := by
  simp only [readsOf, List.mem_flatMap]
  refine exists_congr fun dep => and_congr_right fun _ => ?_
  split_ifs with h
  · simp [h.1, h.2]
  · simp only [List.not_mem_nil, false_iff]
    exact fun h' => h ⟨h'.1, h'.2.1⟩

theorem mem_allReads_of_mem_readsOf {a b : FieldId} (h : b ∈ readsOf s a) : b ∈ allReads s := by
  simp only [readsOf, allReads, List.mem_flatMap] at h ⊢
  obtain ⟨dep, hdep, hb⟩ := h
  refine ⟨dep, hdep, ?_⟩
  split_ifs at hb with h
  · simpa [h.2] using hb
  · cases hb

/-- The spec's checker answers `true` exactly when `toField` reaches `fromField` in the
cycle-detection graph. -/
theorem willCauseCircularDep_iff (fromField toField : FieldId) :
    willCauseCircularDep s fromField toField = true ↔
      ReflTransGen (Arc s) toField fromField := by
  rw [willCauseCircularDep, decide_eq_true_iff]
  exact mem_reachableFrom_iff (readsOf s) (fun _ _ => mem_allReads_of_mem_readsOf s) le_rfl _ _

/-- The checker reports a field as circular with itself. -/
theorem willCauseCircularDep_self (a : FieldId) : willCauseCircularDep s a a = true :=
  (willCauseCircularDep_iff s a a).mpr .refl

/-- The checker reads only resolved rows: a cycle it reports is still reported on a table that
keeps every resolved row. -/
theorem willCauseCircularDep_mono {s s' : FieldDependencyStore}
    (h : ∀ dep ∈ s.rows, dep.dependency.isSome → dep ∈ s'.rows) {a b : FieldId}
    (hw : willCauseCircularDep s a b = true) : willCauseCircularDep s' a b = true := by
  rw [willCauseCircularDep_iff] at hw ⊢
  refine hw.mono fun x y hxy => ?_
  obtain ⟨dep, hdep, hd, hs, hy⟩ := (mem_readsOf s).mp hxy
  exact (mem_readsOf s').mpr ⟨dep, h dep hdep hs, hd, hs, hy⟩

end FieldDependencies.CircularReferenceChecker
