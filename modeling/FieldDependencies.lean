import FieldDependencies.Spec.Models
import FieldDependencies.Spec.Rebuilder
import FieldDependencies.Spec.CircularReferenceChecker
import FieldDependencies.Proofs.Store
import FieldDependencies.Proofs.Break
import FieldDependencies.Proofs.Repair
import FieldDependencies.Proofs.Rebuild
import FieldDependencies.Proofs.Reachable
import FieldDependencies.Proofs.CircularReferenceChecker
import FieldDependencies.Proofs.Acyclic
import FieldDependencies.Proofs.BreakRepair
import FieldDependencies.Proofs.Identity
import FieldDependencies.Proofs.RebuildEffect
import FieldDependencies.Proofs.RebuildErrors
import FieldDependencies.Proofs.CheckForCircular
