import AmneziaBox.Guarantees.LegacyFlow
import AmneziaBox.Guarantees.LegacyOptions
import AmneziaBox.Guarantees.RaceBarrier
import AmneziaBox.Guarantees.CompletionOrder
import AmneziaBox.Guarantees.SharedConnection
import AmneziaBox.Guarantees.MultiplexerProgress
import AmneziaBox.Guarantees.MultiplexerIsolation
import AmneziaBox.Guarantees.RejectionStore
import AmneziaBox.Guarantees.PreMatchAgreement
import AmneziaBox.Guarantees.MappedRuleSet
import AmneziaBox.Guarantees.MappedBounds
import AmneziaBox.Guarantees.TLSFragmentation
import AmneziaBox.Guarantees.DivertFilter
import AmneziaBox.Guarantees.TunnelPackets
import AmneziaBox.Guarantees.UploadProgress
import AmneziaBox.Guarantees.StreamSniffing
import AmneziaBox.Guarantees.AdGuardRoundTrip
import AmneziaBox.Guarantees.URLTestSelection
import AmneziaBox.Guarantees.UserManagement
import AmneziaBox.Guarantees.RecordLifetimes
import AmneziaBox.Guarantees.RejectionExpiry
import AmneziaBox.Guarantees.FailedFlush
import AmneziaBox.Guarantees.ClientSubnet
import AmneziaBox.Guarantees.PersistentKeys
import AmneziaBox.Guarantees.FlushedQueries
import AmneziaBox.Guarantees.TrojanStreams
import AmneziaBox.Guarantees.CapsuleStream
