import DspIsa.Main
import DspIsa.Spec.Draft
import DspIsa.Proofs.Descent
import DspIsa.Proofs.Disassembly
import DspIsa.Proofs.Distinction
import DspIsa.Proofs.ExtensionRoundTrip
import DspIsa.Proofs.Filtering
import DspIsa.Proofs.GeneratedDecoder
import DspIsa.Proofs.GeneratedExtensions
import DspIsa.Proofs.LineGrammar
import DspIsa.Proofs.Overlaps
import DspIsa.Proofs.Unmatched
import DspIsa.Proofs.Reordering
import DspIsa.Proofs.ControlCharacters
import DspIsa.Proofs.GeneratedSizes
import DspIsa.Proofs.OperandSources
import DspIsa.Proofs.MalformedLines
import DspIsa.Proofs.EmittedTables
import DspIsa.Proofs.Identifiers
import DspIsa.Proofs.Partition
import DspIsa.Proofs.TokenPieces
import DspIsa.Proofs.HeaderComments
import DspIsa.Proofs.Delivery
import DspIsa.Proofs.ListingParts
import DspIsa.Proofs.FreeNumbers
import DspIsa.Proofs.FirstMatches
import DspIsa.Proofs.Independence
import DspIsa.Proofs.RepeatedCalls
import DspIsa.Proofs.LineEndings
import DspIsa.Proofs.Drafts
import DspIsa.Proofs.Scattering
import DspIsa.Proofs.FieldValues
import DspIsa.Proofs.Progress
