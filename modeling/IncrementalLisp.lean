import IncrementalLisp.Main
import IncrementalLisp.Proofs.Store.Redefinition
import IncrementalLisp.Proofs.Store.Resolution
import IncrementalLisp.Proofs.Grounds.Expansion
import IncrementalLisp.Proofs.Host.Standard
import IncrementalLisp.Proofs.Simulation.Calls
import IncrementalLisp.Proofs.Simulation.Copies
import IncrementalLisp.Proofs.Store.Scratch
import IncrementalLisp.Proofs.Host.Blind
import IncrementalLisp.Proofs.Machine.Analysis
import IncrementalLisp.Proofs.Machine.Constants
import IncrementalLisp.Proofs.Machine.Definitions
import IncrementalLisp.Proofs.Machine.Limits
import IncrementalLisp.Proofs.Machine.Optimized
import IncrementalLisp.Proofs.Machine.Places
import IncrementalLisp.Proofs.Machine.Quoting
import IncrementalLisp.Proofs.Machine.Substituted
import IncrementalLisp.Proofs.Machine.Threaded
import IncrementalLisp.Proofs.Node.Unchanged
import IncrementalLisp.Proofs.Reader.Appended
import IncrementalLisp.Proofs.Reader.Discarded
import IncrementalLisp.Proofs.Reader.Lists
import IncrementalLisp.Proofs.Forcing.Circles
import IncrementalLisp.Proofs.Forcing.Cyclic
import IncrementalLisp.Proofs.Forcing.Finishes
import IncrementalLisp.Proofs.Forcing.Once
import IncrementalLisp.Proofs.Forcing.Spaces
import IncrementalLisp.Proofs.Forcing.Tower
import IncrementalLisp.Proofs.Forcing.Written
import IncrementalLisp.Proofs.Host.Extremes
import IncrementalLisp.Proofs.Machine.Applied
import IncrementalLisp.Proofs.Number.Rounding
import IncrementalLisp.Proofs.Primitive.Integers
import IncrementalLisp.Proofs.Prelude.Standing
import IncrementalLisp.Proofs.Prelude.Stocked
import IncrementalLisp.Proofs.Prelude.Evaluation
import IncrementalLisp.Proofs.Prelude.Sequences
import IncrementalLisp.Proofs.Prelude.Texts
import IncrementalLisp.Proofs.Prelude.Expansion
import IncrementalLisp.Proofs.Prelude.Loading
import IncrementalLisp.Proofs.Prelude.Definitions
import IncrementalLisp.Proofs.Prelude.Initial
import IncrementalLisp.Proofs.Host.Histories
