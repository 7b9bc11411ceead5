import SharedCounters.Main
import SharedCounters.Writer
import SharedCounters.Proofs.Atomicity
import SharedCounters.Proofs.Searching
import SharedCounters.Proofs.Refinement
import SharedCounters.Proofs.SlotHistory
import SharedCounters.Proofs.Legibility
import SharedCounters.Proofs.RoundTrip
import SharedCounters.Proofs.SessionRuns
import SharedCounters.Proofs.Placing
import SharedCounters.Proofs.FailedCreation
import SharedCounters.Proofs.CleanStart
import SharedCounters.Proofs.Retries
import SharedCounters.Proofs.Confinement
import SharedCounters.Proofs.Rejection
import SharedCounters.Proofs.Framing
import SharedCounters.Proofs.Releases
import SharedCounters.Proofs.StaticLookups
import SharedCounters.Proofs.LabelCuts
import SharedCounters.Proofs.Separators
import SharedCounters.Proofs.FlatMemory
import SharedCounters.Proofs.Tiling
import SharedCounters.Proofs.MappedLengths
import SharedCounters.Proofs.Visits
