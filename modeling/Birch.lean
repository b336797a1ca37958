import Birch.AcceptedLines
import Birch.BoundedChannel
import Birch.DeliveredMessages
import Birch.EventRuns
import Birch.MessageRoundTrip
import Birch.ConnectionDisconnect
import Birch.ConnectionWriteOrder
import Birch.ParameterOctets
import Birch.PrefixFilter
import Birch.TagSections
import Birch.TagAdditions
import Birch.RedundantSpaces
import Birch.ChannelNames
import Birch.LinkedHashMapIndex
import Birch.WinDirWatcher
import Birch.WinFileWatcher
import Birch.ResourceLedger
import Birch.TomlConfig
import Birch.ServerConfig
import Birch.KqueueWatchRuns
import Birch.FileWatcherCallbacks
import Birch.Strand
import Birch.ConnectionTeardown
import Birch.ServerConnections
import Birch.ServerRegistry
import Birch.ServerShutdown
import Birch.ServerTeardown
import Birch.WinDirectoryTables
import Birch.WinFileWatcherReads
import Birch.WinFileWatcherRegistry
import Birch.ResourceLedger
import Birch.KqueueDescriptors
import Birch.ConfigPaths
import Birch.TomlNavigation
import Birch.TomlNodeIdentity
import Birch.ServerNumbers
import Birch.WinNotifications
import Birch.WinUnwatching
import Birch.FailedWatchFile
import Birch.KqueueLoop
import Birch.KqueueCoalescing
import Birch.ChangeHistory
import Birch.ChannelMembers
import Birch.CapabilitySet
import Birch.LiveEntries
import Birch.Observable
import Birch.ObservableNotify
import Birch.SharedOwnership
import Birch.WatcherLifetime
import Birch.MessageGrammar
import Birch.MessageRelay
import Birch.Debouncing
import Birch.MessageTransport
import Birch.WatcherRounds
import Birch.ConnectionWork
import Birch.ServerAccepting
import Birch.IrcState
import Birch.SessionConnection
import Birch.Startup
import Birch.KqueueResponse
import Birch.WinResponse
import Birch.WinCallbacks
