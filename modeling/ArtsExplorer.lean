import ArtsExplorer.Content.Authorship
import ArtsExplorer.Content.Board
import ArtsExplorer.Content.Bookmarks
import ArtsExplorer.Content.Categories
import ArtsExplorer.Content.Draft
import ArtsExplorer.Content.FailedUpdates
import ArtsExplorer.Content.Images
import ArtsExplorer.Content.Input
import ArtsExplorer.Content.Media
import ArtsExplorer.Content.Ownership
import ArtsExplorer.Content.References
import ArtsExplorer.Content.Schema
import ArtsExplorer.Content.UploadForm
import ArtsExplorer.Content.Wording
import ArtsExplorer.Feeds.Home
import ArtsExplorer.Feeds.Profile
import ArtsExplorer.Feeds.Quiet
import ArtsExplorer.Feeds.ReusedCell
import ArtsExplorer.Feeds.Rows
import ArtsExplorer.Feeds.SaveButton
import ArtsExplorer.Feeds.Saved
import ArtsExplorer.Feeds.Shown
import ArtsExplorer.Feeds.Snapshots
import ArtsExplorer.Moderation.Decisions
import ArtsExplorer.Moderation.Gate
import ArtsExplorer.Moderation.Queue
import ArtsExplorer.Moderation.Screens
import ArtsExplorer.Profile.Directory
import ArtsExplorer.Profile.Edit
import ArtsExplorer.Profile.EditMode
import ArtsExplorer.Sessions.Entries
import ArtsExplorer.Sessions.LogOut
import ArtsExplorer.Sessions.Registry
import ArtsExplorer.Sessions.SignUp
import ArtsExplorer.Sessions.Validation
import ArtsExplorer.System.Faults
import ArtsExplorer.System.Settling
