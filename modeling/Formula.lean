import Formula.Demo
import Formula.Host.Prices
import Formula.Proofs.Calling
import Formula.Proofs.Guarded
import Formula.Proofs.MoreVariables
import Formula.Proofs.Preservation
import Formula.Proofs.Provenance
import Formula.Proofs.Reduction
import Formula.Proofs.Reentry
import Formula.Proofs.Registrations
import Formula.Proofs.Remainders
import Formula.Proofs.Stages
import Formula.Proofs.Substitution
import Formula.Proofs.TextNesting
import Formula.Session
