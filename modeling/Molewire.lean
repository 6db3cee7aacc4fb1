import Molewire.Library.Transition
import Molewire.Library.OnesComplement
import Molewire.Library.ByteBuffer
import Molewire.Library.BigEndian
import Molewire.Library.MarkedList
import Molewire.Library.RecordRing
import Molewire.Library.Tlv
import Molewire.AccessPoint
import Molewire.BootCounter
import Molewire.ClientDelivery
import Molewire.ClientLeases
import Molewire.Ipv4
import Molewire.EthCsum
import Molewire.HandshakeTime
import Molewire.NaptMapping
import Molewire.NaptFlows
import Molewire.Confinement
import Molewire.CsumRestorers
import Molewire.ExitMode
import Molewire.FrameBounds
import Molewire.LocalReplies
import Molewire.MssClamp
import Molewire.MssRecompute
import Molewire.NaptChecksum
import Molewire.NaptExpiry
import Molewire.NaptDisabled
import Molewire.NaptFrame
import Molewire.NaptInbound
import Molewire.TunnelEndpoint
import Molewire.ProfileEdits
import Molewire.JoinAttribution
import Molewire.ManagerInvariant
import Molewire.ProvenCredentials
import Molewire.MenuIsolation
import Molewire.ScanOwnership
import Molewire.ScanTable
import Molewire.CommandAtomicity
import Molewire.ConfigDomain
import Molewire.SavedNames
import Molewire.NamedCommands
import Molewire.CandidateOrder
import Molewire.UsbReplug
import Molewire.UsbTxQueue
import Molewire.BridgeSession
import Molewire.PcapStream
import Molewire.StoredConfig
import Molewire.TunnelLifecycle
import Molewire.TelnetReplies
import Molewire.HttpSplits
import Molewire.ScanNumbers
import Molewire.Library.BlockBuffer
import Molewire.Crypto
import Molewire.ChaCha20
import Molewire.Poly1305
import Molewire.Poly1305Value
import Molewire.ChaCha20Poly1305
import Molewire.Blake2s
import Molewire.Library.PrimeCertificate
import Molewire.Library.MontgomeryLadder
import Molewire.X25519
import Molewire.X25519Field
import Molewire.X25519Value
import Molewire.X25519Order
import Molewire.WireguardReplay
import Molewire.WireguardAgreement
import Molewire.WireguardCompletion
import Molewire.WireguardTraffic
