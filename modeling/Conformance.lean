import Conformance.Declaration.Builder
import Conformance.LogFormat
import Conformance.Main
import Conformance.Resolution.Encoding
import Conformance.Proofs.Binding.Gate
import Conformance.Proofs.Binding.Ring
import Conformance.Proofs.Binding.NormalForm
import Conformance.Proofs.Compilation.Explicit
import Conformance.Proofs.Compilation.Lineage
import Conformance.Proofs.Compilation.RoundTrip
import Conformance.Proofs.Compilation.Verdicts
import Conformance.Proofs.Manifest.Filled
import Conformance.Proofs.Manifest.Runtimes
import Conformance.Proofs.Resolution.PlainLists
import Conformance.Proofs.Resolution.Accessors
import Conformance.Proofs.Manifest.Validation
import Conformance.Proofs.Manifest.Closure
import Conformance.Proofs.Manifest.Locality
import Conformance.Proofs.Binding.Intact
import Conformance.Proofs.Binding.Preserved
import Conformance.Proofs.Binding.Aligned
import Conformance.Proofs.Binding.Exchange
import Conformance.Proofs.Compilation.Faithful
import Conformance.Proofs.Compilation.Permutation
import Conformance.Proofs.Manifest.Permutation
import Conformance.Proofs.Compilation.Keys
import Conformance.Proofs.Declaration.RoundTrip
import Conformance.Proofs.Binding.Erasure
import Conformance.Proofs.Binding.WithoutNew
import Conformance.Proofs.Resolution.WithoutNew
import Conformance.Proofs.Compilation.WithoutNew
import Conformance.Proofs.Compilation.Hiding
import Conformance.Proofs.Manifest.WithoutNew
import Conformance.Proofs.Binding.Unrepaired
import Conformance.Proofs.Binding.InterfaceCycles
import Conformance.Proofs.Resolution.SoundLists
import Conformance.Proofs.Binding.Accessibility
import Conformance.Proofs.Diagnostic.Messages
