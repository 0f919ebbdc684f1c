import Remoting.JsonText.Codec
import Remoting.Proofs.Correlation
import Remoting.Proofs.HeaderFirst
import Remoting.Proofs.Narrowing
import Remoting.Proofs.Collisions
import Remoting.Proofs.ShutDown
import Remoting.Proofs.Truncation
import Remoting.Proofs.AnsweredRequests
import Remoting.Proofs.Splitting
import Remoting.Proofs.Unfolding
import Remoting.Proofs.AncestorSearch
import Remoting.Proofs.CycleReport
import Remoting.Proofs.DigestStack
import Remoting.Proofs.TypesQuestion
import Remoting.Proofs.Conformance
import Remoting.Proofs.BaseLists
import Remoting.Proofs.EnumHistory
import Remoting.Proofs.ObjectHistory
import Remoting.Proofs.QualifiedNames
import Remoting.Proofs.Annotating
import Remoting.Proofs.ConnectionNumbers
import Remoting.Proofs.Confinement
import Remoting.Proofs.Spellings
