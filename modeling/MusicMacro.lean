import MusicMacro.Journal.Entry
import MusicMacro.Sound.Wav
import MusicMacro.Device.Offline
import MusicMacro.Device.Scripted
import MusicMacro.Device.Synth
import MusicMacro.Performance.Player
import MusicMacro.Main
import MusicMacro.Proofs.Score.Lexeme
import MusicMacro.Proofs.Score.MaximalMunch
import MusicMacro.Proofs.Score.Printing
import MusicMacro.Proofs.Score.Pieces
import MusicMacro.Proofs.Score.Seams
import MusicMacro.Proofs.Score.Names
import MusicMacro.Proofs.Scalar.Exact
import MusicMacro.Proofs.Score.Lasting
import MusicMacro.Proofs.Score.Denominator
import MusicMacro.Proofs.Timeline.History
import MusicMacro.Proofs.Timeline.Found
import MusicMacro.Proofs.Timeline.Parallel
import MusicMacro.Proofs.Timeline.Ties
import MusicMacro.Proofs.Timeline.Pace
import MusicMacro.Proofs.Timeline.Tracks
import MusicMacro.Proofs.Timeline.Closing
import MusicMacro.Proofs.Timeline.Enharmonics
import MusicMacro.Proofs.Device.Fresh
import MusicMacro.Proofs.Performance.Steps
import MusicMacro.Proofs.Performance.Registry
import MusicMacro.Proofs.Performance.Recorder
import MusicMacro.Proofs.Performance.Programme
import MusicMacro.Proofs.Performance.Replies
import MusicMacro.Proofs.Performance.Calls
import MusicMacro.Proofs.Performance.Protocol
import MusicMacro.Proofs.Sound.Blocks
import MusicMacro.Proofs.Sound.Overdub
import MusicMacro.Proofs.Sound.Asleep
import MusicMacro.Proofs.Sound.Curve
import MusicMacro.Proofs.Sound.Insertions
import MusicMacro.Proofs.Scalar.Gradual
import MusicMacro.Proofs.Sound.Bounds
import MusicMacro.Proofs.Sound.Outline
import MusicMacro.Proofs.Scalar.Wide
import MusicMacro.Proofs.Sound.Mixture
import MusicMacro.Proofs.Device.Buffers
import MusicMacro.Proofs.Device.Agreement
import MusicMacro.Proofs.Device.Delivery
import MusicMacro.Proofs.Device.Settled
import MusicMacro.Proofs.Device.Limiter
import MusicMacro.Proofs.Device.Live
import MusicMacro.Proofs.Device.Waiting
import MusicMacro.Proofs.Device.Finish
import MusicMacro.Proofs.Device.Notices
import MusicMacro.Proofs.Performance.Cancellation
import MusicMacro.Proofs.Performance.Concert
import MusicMacro.Proofs.Performance.Trials
import MusicMacro.Proofs.Performance.Capacity
