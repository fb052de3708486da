import CPong.Framing
import CPong.RecvBounds
import CPong.Client
import CPong.Rooms
import CPong.Lib.Tally
import CPong.RoundSections
import CPong.ClientSections
import CPong.Room
import CPong.RoundAgreement
import CPong.ByteRoom
import CPong.PaddlePrediction
import CPong.Presses
import CPong.PaddlePlaces
import CPong.BallTrip
import CPong.Lib.Trail
import CPong.BallTermination
import CPong.BallContainment
import CPong.TickSplitting
import CPong.BoxTest
import CPong.Mirror
import CPong.Fairness
import CPong.Lib.Chain
import CPong.Lib.Pointers
import CPong.TsQueue
import CPong.Matchmaking
import CPong.Lobby
import CPong.LockDiscipline
import CPong.Disconnection
import CPong.Disband
import CPong.Leftovers
import CPong.WireRange
import CPong.Contacts
import CPong.RealContacts
import CPong.Lib.Sweep
import CPong.RestingBox
import CPong.Outputs
import CPong.Rally
import CPong.InputOverflow
import CPong.RecvResult
import CPong.GenuineInput
import CPong.PredictedBall
import CPong.QueueRuns
import CPong.QueueLocks
import CPong.Broadcast
import CPong.Tunnelling
import CPong.Relay
import CPong.Lib.Layout
import CPong.TypedArray
import CPong.Lib.WrappedClock
import CPong.RunEvery
import CPong.Overlap
import CPong.Lib.Locks
import CPong.Lib.SerialOrder
import CPong.Lib.LockProgress
import CPong.ServerLocks
import CPong.ClientLocks
import CPong.Lib.WordSum
import CPong.FieldShape
import CPong.MatchProgress
import CPong.MatchSections
import CPong.WholeCalls
import CPong.PressRounds
import CPong.PaddlesConverge
import CPong.MatchSettles
