import MsQuicH3.Footprint
import MsQuicH3.Concurrency.Focus
import MsQuicH3.SendChart
import MsQuicH3.Effect
import MsQuicH3.FinishOnce
import MsQuicH3.FirstTerminal
import MsQuicH3.ConnCause
import MsQuicH3.NativeExclusion
import MsQuicH3.CancelFinal
import MsQuicH3.SendBounded
import MsQuicH3.SendPayload
import MsQuicH3.AcceptOrder
import MsQuicH3.OpenFate
import MsQuicH3.RecvDrop
import MsQuicH3.UnitCap
import MsQuicH3.RecvIntegrity
import MsQuicH3.PanicFinal
import MsQuicH3.RundownWait
import MsQuicH3.ListenerEnd
import MsQuicH3.HandleFate
import MsQuicH3.SendBuffers
import MsQuicH3.PeerStream
