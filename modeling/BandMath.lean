import BandMath.Main
import BandMath.Proofs.Batch
import BandMath.Proofs.Combination.Coordinates
import BandMath.Proofs.Deferred.Realization
import BandMath.Proofs.Formula.Beginnings
import BandMath.Proofs.Formula.Inlining
import BandMath.Proofs.Formula.Spellings
import BandMath.Proofs.Formula.Symbols
import BandMath.Proofs.Kernel
import BandMath.Proofs.Registry.Defaults
import BandMath.Proofs.Registry.Sufficiency
import BandMath.Proofs.Value.Delivery
import BandMath.Proofs.Value.Elements
import BandMath.Proofs.Value.Fitting
import BandMath.Proofs.Value.Labels
import BandMath.Proofs.Batch.Dependence
import BandMath.Proofs.CommandLine.Aggregation
import BandMath.Proofs.Remote.Formulas
import BandMath.Proofs.Kernel.Routes
import BandMath.Proofs.Decimal.Binary
import BandMath.Proofs.Decimal.Layout
import BandMath.Proofs.Json.Quoted
import BandMath.Proofs.Remote.Serialization
import BandMath.Proofs.Combination.Shares
import BandMath.Proofs.Batch.Bands
import BandMath.Proofs.Value.Names
import BandMath.Proofs.Deferred.Cutting
import BandMath.Proofs.NDArray.Broadcasting
import BandMath.Proofs.CommandLine.Shortages
import BandMath.Proofs.Registry.Loading
import BandMath.Proofs.Registry.Filling
import BandMath.Proofs.Formula.Scanning
