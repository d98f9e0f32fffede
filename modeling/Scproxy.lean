import Scproxy.LongestPrefix
import Scproxy.FakeDns
import Scproxy.FakeDnsFifo
import Scproxy.DnsQuery
import Scproxy.DnsGrammar
import Scproxy.DnsMessage
import Scproxy.DnsResponse
import Scproxy.ResponseQuestion
import Scproxy.Crlf
import Scproxy.HttpConnect
import Scproxy.RequestHead
import Scproxy.Bpf
import Scproxy.Seccomp
import Scproxy.SeccompVerdict
import Scproxy.Hoare
import Scproxy.IoError
import Scproxy.Relay
import Scproxy.RelayInvariant
import Scproxy.RelayBalance
import Scproxy.DomainRoute
import Scproxy.ConnectTcp
import Scproxy.AnswerHistory
import Scproxy.ConnectOutcome
import Scproxy.DnsServers
import Scproxy.Transition
import Scproxy.Interaction
import Scproxy.Datagram
import Scproxy.Engine
import Scproxy.DatagramDiscipline
import Scproxy.DatagramSafe
import Scproxy.DispatchOutcome
import Scproxy.UdpInvariant
import Scproxy.UdpOperations
import Scproxy.UdpRuns
import Scproxy.UdpExchange
import Scproxy.UdpGuarantees
import Scproxy.Ingress
import Scproxy.IngressSystem
import Scproxy.IngressMatching
import Scproxy.IngressRuns
import Scproxy.IngressTable
import Scproxy.IngressTableRuns
import Scproxy.IngressHanded
import Scproxy.IngressListed
import Scproxy.Exchange
import Scproxy.ResponseLayout
import Scproxy.ProxyStream
import Scproxy.Socks5
import Scproxy.Socks5Handshake
import Scproxy.Buffered
import Scproxy.HttpResponse
import Scproxy.HttpTunnel
import Scproxy.Supervise
import Scproxy.SuperviseSafety
import Scproxy.TcpProgram
import Scproxy.TcpAlone
import Scproxy.TcpSystem
import Scproxy.TcpNative
import Scproxy.TcpDiscipline
import Scproxy.TcpPeers
import Scproxy.TcpEntries
import Scproxy.TcpConnections
import Scproxy.Request
import Scproxy.PlainAct
import Scproxy.RequestAnswer
import Scproxy.NotifySystem
import Scproxy.NotifyPlaces
import Scproxy.NotifyRuns
import Scproxy.DomainMatch
import Scproxy.ProxyUrl
import Scproxy.Base64
import Scproxy.BasicCredentials
import Scproxy.Socks5Decode
import Scproxy.CopyMemory
import Scproxy.PathRead
import Scproxy.InteractionRuns
import Scproxy.TcpBind
import Scproxy.Diagnostics
import Scproxy.DiagnosticsFrames
import Scproxy.DnsTcp
import Scproxy.MemoryStores
import Scproxy.MessageFrame
import Scproxy.DatagramSteps
import Scproxy.DatagramRetries
import Scproxy.DatagramEffects
import Scproxy.DatagramMoves
import Scproxy.DatagramTransfer
import Scproxy.BatchTransfer
import Scproxy.BatchTimeout
import Scproxy.BatchRuns
import Scproxy.BatchReport
import Scproxy.CommandTree
import Scproxy.DescendantRound
import Scproxy.Descendants
import Scproxy.DescendantSearch
import Scproxy.Reaper
import Scproxy.ReaperExit
import Scproxy.ReaperLaw
import Scproxy.PeerName
import Scproxy.SocketLocks
import Scproxy.LockDiscipline
import Scproxy.OutboundOwnership
import Scproxy.OutboundSystem
import Scproxy.DirectLookup
import Scproxy.BootstrapStart
import Scproxy.BootstrapProgress
import Scproxy.BootstrapInvariant
import Scproxy.BootstrapAgreement
import Scproxy.BootstrapDiscipline
import Scproxy.BootstrapSystem
import Scproxy.DirectAttempts
import Scproxy.DirectConnector
import Scproxy.Bootstrap
import Scproxy.SocketAccess
import Scproxy.PendingConnect
import Scproxy.ReceiverStop
import Scproxy.ReceiverAccount
import Scproxy.ReceiverMoves
import Scproxy.ReceiverSystem
import Scproxy.ShutdownEnds
import Scproxy.NameJourney
import Scproxy.ResolverConfig
import Scproxy.ConfinedFilter
import Scproxy.Confinement
import Scproxy.ConfinedDispatch
import Scproxy.ConfinedCalls
import Scproxy.DnsAddresses
import Scproxy.DnsTurns
import Scproxy.DnsService
import Scproxy.RelayDrain
import Scproxy.RelayQueues
import Scproxy.RelayTurn
