import Forserino.Qt.PlaceMarkers
import Forserino.Filters.Grammar
import Forserino.Filters.ParserSoundness
import Forserino.Filters.ParserCompleteness
import Forserino.Qt.Variant
import Forserino.Qt.Utf16
import Forserino.Emotes.Occurrences
import Forserino.Emotes.TagDecoding
import Forserino.Emotes.Words
import Forserino.Emotes.WordLoop
import Forserino.Filters.Evaluation
import Forserino.Filters.Arithmetic
import Forserino.Filters.TypeSoundness
import Forserino.Filters.Lexing
import Forserino.Filters.PrintedForm
import Forserino.Filters.RoundTrip
import Forserino.EventSub.Sessions
import Forserino.Foundation.Runs
import Forserino.EventSub.Assertions
import Forserino.EventSub.Progress
import Forserino.EventSub.Cleanup
import Forserino.LiveUpdates.Progress
import Forserino.LiveUpdates.Conservation
import Forserino.LiveUpdates.Wanted
import Forserino.TwitchPubSub.Manager
import Forserino.TwitchPubSub.Relisten
import Forserino.Messages.BoundedList
import Forserino.Messages.Channel
import Forserino.Messages.ChannelView
import Forserino.Foundation.RoseTree
import Forserino.Splits.SplitContainer
import Forserino.Splits.TreeInvariant
import Forserino.Common.SignalVectorModel
import Forserino.Common.Mirror
import Forserino.Common.TableModels
import Forserino.Emotes.Emission
import Forserino.Messages.Filling
import Forserino.Messages.Shown
import Forserino.Messages.ViewMirror
import Forserino.Messages.ViewFillIn
import Forserino.Messages.ViewRuns
import Forserino.Qt.Json
import Forserino.Windows.Channels
import Forserino.Windows.Descriptors
import Forserino.Splits.Relayout
import Forserino.Windows.Loading
import Forserino.Windows.RoundTrip
import Forserino.Sending.Once
import Forserino.Sending.Routing
import Forserino.Foundation.NamedMap
import Forserino.LiveEmotes.EmoteMap
import Forserino.LiveEmotes.Bttv
import Forserino.LiveEmotes.Seventv
import Forserino.LiveEmotes.Dispatches
import Forserino.LiveEmotes.BttvReload
import Forserino.LiveEmotes.SeventvReload
import Forserino.Links.LinkParser
import Forserino.Emotes.Emojis
import Forserino.Links.WellFormed
import Forserino.Messages.Chronology
import Forserino.LiveEmotes.SeventvRequests
import Forserino.Messages.History
import Forserino.Emotes.IgnorePhrases
import Forserino.Emotes.IgnoredEmotes
import Forserino.Common.Credentials
import Forserino.Filters.Coverage
import Forserino.Messages.Refilling
import Forserino.Messages.Replacement
import Forserino.Notebooks.Notebook
import Forserino.Notebooks.Selection
import Forserino.Notebooks.TabHighlights
import Forserino.Messages.ScrollBounds
import Forserino.Messages.TimeoutStacking
import Forserino.Threads.ReplyThreads
import Forserino.Highlights.HighlightController
import Forserino.Highlights.Checks
import Forserino.Foundation.Scan
import Forserino.Emotes.ShortCodes
import Forserino.Emotes.PlainPhrases
import Forserino.Emotes.RegexPhrases
import Forserino.Links.Authority
import Forserino.EventSub.RetryBudget
import Forserino.Emotes.Cheermotes
import Forserino.Emotes.ReplyMention
import Forserino.TwitchPubSub.Frames
import Forserino.Filters.Equality
import Forserino.Foundation.Windows
import Forserino.Util.RatelimitBucket
import Forserino.Sending.RateLimits
import Forserino.Windows.Activation
import Forserino.Foundation.CommonSubstring
import Forserino.Foundation.Rounding
import Forserino.Messages.Similarity
import Forserino.Foundation.Spans
import Forserino.Util.Durations
import Forserino.Util.FormatTime
import Forserino.Links.Idempotence
import Forserino.Splits.Restoring
import Forserino.Commands.UserCommands
import Forserino.Commands.CustomCommand
import Forserino.Commands.Expansion
import Forserino.Messages.Pauses
import Forserino.Messages.Selections
import Forserino.Util.TagStrings
import Forserino.Foundation.LruCache
import Forserino.Common.ChatterSet
import Forserino.Input.History
import Forserino.Input.Replies
import Forserino.Completion.Users
import Forserino.Input.CompletionPopup
import Forserino.Layouts.Copying
import Forserino.Layouts.Lines
import Forserino.Completion.TabCompletionModel
import Forserino.Qt.CodePoints
import Forserino.Util.CodepointSlice
import Forserino.Twitch.TwitchUsers
import Forserino.Foundation.Ahead
import Forserino.Splits.ClosedSplits
import Forserino.Accounts.AccountController
import Forserino.Messages.VectorMessageSink
import Forserino.Twitch.LiveUpdates
import Forserino.Messages.SearchPopup
import Forserino.Hotkeys.HotkeyController
import Forserino.Irc.TwitchIrcServer
import Forserino.Twitch.Redemptions
import Forserino.Twitch.LiveController
import Forserino.Images.Image
import Forserino.EventSub.Library
import Forserino.Twitch.Notifications
import Forserino.Layouts.Selecting
import Forserino.Common.SettingsRecords
import Forserino.Images.ImageUploader
import Forserino.Images.UploadLinks
import Forserino.Network.NetworkTask
import Forserino.Layouts.TextElement
