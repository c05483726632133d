import SiliconOmni.Lib.Program
import SiliconOmni.Chat.Acceptance
import SiliconOmni.Chat.Authority
import SiliconOmni.Chat.Endings
import SiliconOmni.Chat.Files
import SiliconOmni.Chat.Mirror
import SiliconOmni.Chat.Owners
import SiliconOmni.Chat.Residue
import SiliconOmni.Chat.Boundaries
import SiliconOmni.Chat.Pairs
import SiliconOmni.Chat.Waits
import SiliconOmni.Chat.Custody
import SiliconOmni.Chat.Settings
import SiliconOmni.Daemon.Lanes
import SiliconOmni.Daemon.Attach
import SiliconOmni.Daemon.Listeners
import SiliconOmni.Daemon.Reclaim
import SiliconOmni.Daemon.Requests
import SiliconOmni.Antigravity.Steps
import SiliconOmni.Codex.Routes
import SiliconOmni.Codex.Steering
import SiliconOmni.Process.Silence
import SiliconOmni.Logins.Watch
import SiliconOmni.Claude.Echo
import SiliconOmni.Claude.Replays
import SiliconOmni.Client.Multiplexing
import SiliconOmni.Metadata
import SiliconOmni.Seeds
import SiliconOmni.Web.Choose
import SiliconOmni.Python.Resume
import SiliconOmni.Python.Polling
import SiliconOmni.Wire.Lines
import SiliconOmni.Codex.AppServer
