import QueryContract.MethodTable
import QueryContract.Proofs.Bootstrap
import QueryContract.Proofs.Conservation
import QueryContract.Proofs.Construction
import QueryContract.Proofs.Declarations
import QueryContract.Proofs.Descriptions
import QueryContract.Proofs.Elements
import QueryContract.Proofs.ErrorTypes
import QueryContract.Proofs.Instantiation
import QueryContract.Proofs.Mirrors
import QueryContract.Proofs.NestedWrappers
import QueryContract.Proofs.OptionalSemicolon
import QueryContract.Proofs.Overloads
import QueryContract.Proofs.Reachability
import QueryContract.Proofs.RepositoryDomains
import QueryContract.Proofs.Schema
import QueryContract.Proofs.Spans
import QueryContract.Proofs.Spine
import QueryContract.Proofs.Substitution
import QueryContract.Proofs.TraitMethods
import QueryContract.Proofs.Transparency
import QueryContract.Proofs.Unwrapping
import QueryContract.Proofs.Verdict
import QueryContract.Proofs.Views
import QueryContract.Settings
import QueryContract.Source
