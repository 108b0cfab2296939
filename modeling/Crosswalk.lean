import Crosswalk.Inspect
import Crosswalk.Json.Policies
import Crosswalk.Proofs.AllOrNothing
import Crosswalk.Proofs.SourceCompleteness
import Crosswalk.Proofs.CacheLaws
import Crosswalk.Proofs.CacheDiagnostics
import Crosswalk.Proofs.RowIndependence
import Crosswalk.Proofs.NamePairing
import Crosswalk.Proofs.Effects
import Crosswalk.Proofs.SelfMapping
import Crosswalk.Proofs.CallSafety
import Crosswalk.Proofs.StaticReads
import Crosswalk.Proofs.Locality
import Crosswalk.Proofs.Modes
import Crosswalk.Proofs.NullableBehaviors
import Crosswalk.Proofs.LastDirective
import Crosswalk.Proofs.Agenda
import Crosswalk.Proofs.Verdicts
import Crosswalk.Proofs.Deletion
import Crosswalk.Proofs.Relisting
import Crosswalk.Proofs.Demands
import Crosswalk.Proofs.Rearrangement
import Crosswalk.Proofs.FirstFailure
import Crosswalk.Proofs.CoercionDomain
import Crosswalk.Proofs.NullablePaths
import Crosswalk.Proofs.RoundTrips
import Crosswalk.Proofs.IntegerGrammar
import Crosswalk.Proofs.IntegerPaths
import Crosswalk.Proofs.BindingFaults
import Crosswalk.Proofs.EnumRoundTrips
import Crosswalk.Proofs.Fingerprints
import Crosswalk.Proofs.RecordStore
import Crosswalk.Proofs.RowForm
import Crosswalk.Proofs.Respacing
import Crosswalk.Proofs.MemberLeaves
import Crosswalk.Proofs.TextForms
import Crosswalk.Proofs.TypeNames
import Crosswalk.Proofs.Reports
