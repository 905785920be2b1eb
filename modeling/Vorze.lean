import Vorze.Serial.Release
import Vorze.Action.Schedule
import Vorze.Serial.Callbacks
import Vorze.Serial.CommandOrder
import Vorze.Serial.Atomic
import Vorze.Serial.Finder
import Vorze.Serial.Init
import Vorze.Web.Status
import Vorze.System.Timer
import Vorze.System.Shutdown
import Vorze.System.Ports
import Vorze.System.Isolation
import Vorze.System.Command
import Vorze.System.Devices
import Vorze.System.Drain
import Vorze.Serial.RefreshClock
import Vorze.EmbedWeb.AllowList
import Vorze.EmbedWeb.Containment
import Vorze.EmbedWeb.ElementAccess
import Vorze.EmbedWeb.Head
import Vorze.EmbedWeb.Resolution
import Vorze.EmbedWeb.Backend
import Vorze.EmbedWeb.Serving
import Vorze.Web.Answering
import Vorze.Web.Reload
import Vorze.Process.Backend
import Vorze.Process.Exit
