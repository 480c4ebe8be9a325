import PlateChat.Foundation.Run
import PlateChat.Foundation.EventLoop
import PlateChat.Foundation.Dictionary
import PlateChat.Model.Members
import PlateChat.Model.LocalData
import PlateChat.Block.Service
import PlateChat.Block.Interleaving
import PlateChat.Block.Agreement
import PlateChat.Model.Room
import PlateChat.ChatRoom.Service
import PlateChat.ChatRoom.Uniqueness
import PlateChat.ChatRoom.Deletion
import PlateChat.Foundation.Rules
import PlateChat.Model.Profile
import PlateChat.Account.Service
import PlateChat.Account.Propagation
import PlateChat.Account.Cache
import PlateChat.Screen.Lists
import PlateChat.Account.Switch
import PlateChat.Screen.Ownership
import PlateChat.Foundation.Presentation
import PlateChat.Passcode.Lock
import PlateChat.Foundation.Newest
import PlateChat.Foundation.Settle
import PlateChat.History.Daily
import PlateChat.History.Interleaving
import PlateChat.History.Overwrite
import PlateChat.Thread.Cascade
import PlateChat.Account.Cleanup
import PlateChat.Account.Edit
import PlateChat.Account.Feedback
import PlateChat.Binding.Removal
import PlateChat.Screen.Talk
import PlateChat.Screen.ReadMarks
import PlateChat.Screen.Reload
import PlateChat.Screen.Blocking
import PlateChat.Binding.Pages
import PlateChat.Binding.Cursor
import PlateChat.Binding.Gate
import PlateChat.Screen.SearchLoop
import PlateChat.Screen.Deleted
import PlateChat.Block.Fields
import PlateChat.History.Exact
import PlateChat.Screen.NoticeRows
import PlateChat.Screen.Cells
import PlateChat.Account.Editors
import PlateChat.Screen.Writing
import PlateChat.Foundation.Fleet
import PlateChat.Foundation.Ownership
import PlateChat.Account.Fleet
import PlateChat.Account.Tokens
import PlateChat.Account.Pairs
import PlateChat.Screen.UnreadCounts
import PlateChat.Screen.Preview
import PlateChat.Foundation.Callbacks
import PlateChat.Completion.Operations
import PlateChat.Completion.Discipline
import PlateChat.Block.Cache
import PlateChat.Thread.Posting
import PlateChat.Binding.Unreadable
import PlateChat.Screen.Sorting
import PlateChat.Screen.Unwraps
import PlateChat.Foundation.Progress
import PlateChat.Screen.Scrolling
import PlateChat.Screen.Extending
import PlateChat.Foundation.Rounding
import PlateChat.Screen.TimeAgo
import PlateChat.Account.RoundTrip
import PlateChat.Foundation.Span
import PlateChat.Screen.Slider
import PlateChat.Screen.SearchWindow
import PlateChat.Screen.Photos
import PlateChat.Screen.PhotoTraps
import PlateChat.Screen.PhotoMessages
import PlateChat.Foundation.Navigation
import PlateChat.Screen.Stacks
import PlateChat.Screen.LateCallbacks
import PlateChat.Screen.LateTraps
import PlateChat.Account.Orphans
import PlateChat.Screen.RowTraps
import PlateChat.Passcode.Pads
import PlateChat.Passcode.Setting
import PlateChat.Screen.Badges
import PlateChat.Foundation.Recency
import PlateChat.Screen.ConfirmedRow
