import TutaBridge.Std.Guarded
import TutaBridge.Events.Transient
import TutaBridge.Runs.Uids
import TutaBridge.Store.UidHistory
import TutaBridge.Std.Replay
import TutaBridge.Events.Bucketing
import TutaBridge.Runs.Restart
import TutaBridge.Runs.Startup
import TutaBridge.Events.Cursor
import TutaBridge.Events.MailChanges
import TutaBridge.Events.Settled
import TutaBridge.Runs.Redelivery
import TutaBridge.Imap.Fetch
import TutaBridge.Runs.Deletion
import TutaBridge.Std.Catalog
import TutaBridge.Sync.Backfill
import TutaBridge.Runs.SearchIndex
import TutaBridge.Imap.Search
import TutaBridge.Std.Calendar
import TutaBridge.Imap.SearchPrint
import TutaBridge.Imap.SequenceSets
import TutaBridge.Imap.ClientMirror
import TutaBridge.Imap.Selection
import TutaBridge.Sync.Listing
import TutaBridge.Runs.FullSync
import TutaBridge.Runs.FirstSync
import TutaBridge.Runs.Launches
import TutaBridge.Runs.Bootstrap
import TutaBridge.Std.Forest
import TutaBridge.Tuta.FolderSystem
import TutaBridge.Events.FolderList
import TutaBridge.Runs.Freshness
import TutaBridge.Runs.Completeness
import TutaBridge.Runs.Placeholders
import TutaBridge.Runs.UidNext
import TutaBridge.Imap.Names
import TutaBridge.Imap.Gate
import TutaBridge.Std.Transducer
import TutaBridge.Mail.Headers
import TutaBridge.Std.Utf8
import TutaBridge.Imap.Secrecy
import TutaBridge.Imap.Literals
import TutaBridge.Smtp.Connection
import TutaBridge.Smtp.Transactions
import TutaBridge.Std.TwoRuns
import TutaBridge.Imap.ClientLog
import TutaBridge.Smtp.ClientLog
import TutaBridge.Smtp.Transparency
import TutaBridge.Session.Store
import TutaBridge.Session.Runs
import TutaBridge.Session.Cell
import TutaBridge.Std.Json
import TutaBridge.Std.History
import TutaBridge.Session.Inspection
import TutaBridge.Session.Login
import TutaBridge.Net.GovernedClient
import TutaBridge.Net.Governor
import TutaBridge.Tuta.SelfSendCache
import TutaBridge.Mail.Rfc2822
import TutaBridge.Mcp.Server
import TutaBridge.Mcp.Metadata
import TutaBridge.Store.Watching
import TutaBridge.Sync.PrefetchLoop
import TutaBridge.Runs.Retries
import TutaBridge.Backup.Export
import TutaBridge.Backup.Resume
import TutaBridge.Store.Eviction
import TutaBridge.Imap.Withdrawals
import TutaBridge.Mail.Html
import TutaBridge.Imap.StoreFlags
import TutaBridge.Service.Supervisor
import TutaBridge.Mail.Rendering
import TutaBridge.Mail.EncodedWords
import TutaBridge.Mail.AddressLists
import TutaBridge.Imap.UnknownCriteria
import TutaBridge.Mail.Mime
import TutaBridge.Mail.MimeTrees
import TutaBridge.Mail.MimeBodies
import TutaBridge.Mail.Encodings
import TutaBridge.Mail.SubmittedParts
import TutaBridge.Mail.HeaderWords
import TutaBridge.Imap.Envelope
import TutaBridge.Mail.MailParts
import TutaBridge.Mail.Bodystructure
import TutaBridge.Mail.MailStructure
import TutaBridge.Imap.Bodystructure
import TutaBridge.Imap.MailBodystructure
import TutaBridge.Mail.OpenedFields
import TutaBridge.Mail.AttachmentHeads
import TutaBridge.Std.Slices
import TutaBridge.Tuta.MailBatches
import TutaBridge.Store.FullText
import TutaBridge.Imap.Utf7Pieces
import TutaBridge.Imap.HeaderFields
import TutaBridge.Imap.Dates
import TutaBridge.Imap.DateArguments
import TutaBridge.Tuta.LoadedAttachments
import TutaBridge.Tuta.FolderTree
import TutaBridge.Session.PassAtomic
import TutaBridge.Mail.Nesting
import TutaBridge.Mail.BodyText
import TutaBridge.Mail.SlicedHeaders
import TutaBridge.Mail.SlicedParts
import TutaBridge.Mail.SlicedStructure
import TutaBridge.Mcp.OriginGuard
import TutaBridge.Backup.Paths
import TutaBridge.Std.FormUrl
import TutaBridge.Bus.Address
import TutaBridge.Bus.Messages
import TutaBridge.Bus.Client
import TutaBridge.Bus.Reconnecting
import TutaBridge.Bus.Heartbeat
import TutaBridge.Imap.FetchResponse
import TutaBridge.Tuta.Delivery
import TutaBridge.Service.Worker
