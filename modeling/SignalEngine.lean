import SignalEngine.Main
import SignalEngine.Proofs.Checkpoint.Consistency
import SignalEngine.Proofs.Checkpoint.Loss
import SignalEngine.Proofs.Data.Loading
import SignalEngine.Proofs.Indicator.Readiness
import SignalEngine.Proofs.Indicator.Strength
import SignalEngine.Proofs.Safety.Engine
import SignalEngine.Proofs.Session.Cancellation
import SignalEngine.Proofs.Session.Grouping
import SignalEngine.Proofs.Session.Phases
import SignalEngine.Proofs.Session.Readback
import SignalEngine.Proofs.Session.Reopening
import SignalEngine.Proofs.Strategy.Agreement
import SignalEngine.Proofs.Strategy.Bands
import SignalEngine.Proofs.Strategy.Bounds
import SignalEngine.Proofs.Strategy.Channels
import SignalEngine.Proofs.Strategy.Divergence
import SignalEngine.Proofs.Strategy.Position
import SignalEngine.Proofs.Strategy.Restriction
import SignalEngine.Proofs.Strategy.Settings
import SignalEngine.Proofs.Strategy.Tagging
import SignalEngine.Proofs.Strategy.Trailing
import SignalEngine.Proofs.Window.Writes
