import PlumosBubble.Crash.Program
import PlumosBubble.FileSystem.Programs
import PlumosBubble.Update.Programs
import PlumosBubble.Update.Paths
import PlumosBubble.Update.OwnFiles
import PlumosBubble.FileSystem.Undo
import PlumosBubble.Update.Rollback
import PlumosBubble.FileSystem.Containment
import PlumosBubble.Update.Manifest
import PlumosBubble.Update.Staging
import PlumosBubble.Update.Transaction
import PlumosBubble.FileSystem.Growth
import PlumosBubble.Update.Extraction
import PlumosBubble.Update.Installation
import PlumosBubble.Update.CrashSafety
import PlumosBubble.Update.Commands
import PlumosBubble.Update.HealthGate
import PlumosBubble.Update.Signed
import PlumosBubble.Frontend.RomPath
import PlumosBubble.Frontend.LibraryIndex
import PlumosBubble.Frontend.LaunchCommand
import PlumosBubble.Frontend.FavoritesRuns
import PlumosBubble.Frontend.Completeness
import PlumosBubble.Ggfe.Carousel
import PlumosBubble.Ggfe.Selection
import PlumosBubble.Ggfe.Art
import PlumosBubble.Ggfe.Launchable
import PlumosBubble.Cart3d.Stripes
import PlumosBubble.Ggfe.HandOff
import PlumosBubble.PortMaster.Runs
import PlumosBubble.Storage.Convergence
import PlumosBubble.Power.Thaw
import PlumosBubble.Sd2.Exclusion
import PlumosBubble.Health.Verdict
import PlumosBubble.Shutdown.NoDeadEnd
import PlumosBubble.Shutdown.CleanVerdict
import PlumosBubble.Network.Preferences
import PlumosBubble.PortMaster.FrontendHold
import PlumosBubble.Frontend.MediaIndex
import PlumosBubble.PortMaster.Prepare
import PlumosBubble.Drm.Exactness
import PlumosBubble.Settings.Survival
import PlumosBubble.PortMaster.Teardown
import PlumosBubble.PortMaster.GuiSessions
import PlumosBubble.Frontend.GalleryRuns
import PlumosBubble.Cpufreq.GivenBack
import PlumosBubble.Frontend.ScanRuns
import PlumosBubble.Controller.BackHome
import PlumosBubble.Controller.Confirm
import PlumosBubble.Foreground.Marker
import PlumosBubble.Launch.SameStart
import PlumosBubble.Launch.RecentRuns
import PlumosBubble.Ggfe.Profiles
import PlumosBubble.Ggfe.OverrideRuns
import PlumosBubble.Ggfe.CoreRing
import PlumosBubble.Frontend.Normalize
import PlumosBubble.Frontend.RomDescent
import PlumosBubble.Update.InboxRecords
import PlumosBubble.Frontend.JsonStrict
import PlumosBubble.Settings.SystemConfig
import PlumosBubble.Sequence.StableSort
import PlumosBubble.Sequence.FirstOfKey
import PlumosBubble.Frontend.Reordered
import PlumosBubble.Frontend.ThumbnailOrder
import PlumosBubble.Frontend.DirectoryOrder
import PlumosBubble.Frontend.DirectoryChoice
import PlumosBubble.Crash.Keeps
import PlumosBubble.FileSystem.Fresh
import PlumosBubble.FileSystem.Fence
import PlumosBubble.Update.Escape
import PlumosBubble.Shell.Environment
import PlumosBubble.PortMaster.ExecGuard
import PlumosBubble.Volume.Keys
import PlumosBubble.Sd2.Device
import PlumosBubble.Sd2.Mounts
import PlumosBubble.Sd2.Conservative
import PlumosBubble.Renderer.PageFlip
import PlumosBubble.Renderer.Pages
import PlumosBubble.Frontend.AnimationBoost
import PlumosBubble.RetroArch.ConfigKept
import PlumosBubble.Foreground.Background
import PlumosBubble.Scraper.Neighbours
import PlumosBubble.Settings.Persisting
import PlumosBubble.PortMaster.Bootstrap
import PlumosBubble.Ggfe.Compose
import PlumosBubble.Controller.KeyRepeat
import PlumosBubble.Network.Credentials
import PlumosBubble.Reset.Truthful
import PlumosBubble.Update.InboxLatest
import PlumosBubble.Frontend.IndexReadBack
import PlumosBubble.Ggfe.ParallelFrame
