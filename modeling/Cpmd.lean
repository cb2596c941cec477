import Cpmd.MessageCodecSafety
import Cpmd.ClientInfo
import Cpmd.MessageConservation
import Cpmd.MessageOrder
import Cpmd.ConnectAttempts
import Cpmd.SourceAddress
import Cpmd.Registry
import Cpmd.SelfInitialisation
import Cpmd.ProtocolMessageStream
import Cpmd.ResponseDecoding
import Cpmd.ClientImpl
import Cpmd.LocalRouting
import Cpmd.HandShake
import Cpmd.CloseDuringRead
import Cpmd.ConnectingFlags
import Cpmd.ResolvingStates
import Cpmd.IndexConsistency
import Cpmd.CacheCoherence
import Cpmd.ReplyMemory
import Cpmd.ResolveAssertions
import Cpmd.KickOffTimers
import Cpmd.BusPaths
import Cpmd.ConfigurationIndexes
import Cpmd.ServedNodes
import Cpmd.ResolverAnswers
import Cpmd.BusDraining
import Cpmd.HandShakeRefusal
import Cpmd.ReservedAddress
import Cpmd.AddressAgreement
import Cpmd.FlushMessage
import Cpmd.BuilderOrder
import Cpmd.EndToEnd
import Cpmd.ResolveServerLink
import Cpmd.HandShakeRoundTrip
import Cpmd.ConfigurationReading
import Cpmd.MessageAccounts
import Cpmd.ChatBroadcast
import Cpmd.HostedClient
