import InverterControl.Lib.Runs
import InverterControl.Lib.JsonString
import InverterControl.Lib.Json
import InverterControl.Lib.History
import InverterControl.Lib.Calls
import InverterControl.Lib.Threads
import InverterControl.Python
import InverterControl.Watchdog.Model
import InverterControl.Watchdog.Steps
import InverterControl.Watchdog.Hardware
import InverterControl.Watchdog.Override
import InverterControl.Watchdog.Pacing
import InverterControl.Watchdog.Scheduler
import InverterControl.Watchdog.MeterLoss
import InverterControl.Watchdog.Episode
import InverterControl.Trim.Model
import InverterControl.Trim.Steps
import InverterControl.Trim.Accounting
import InverterControl.Trim.Spacing
import InverterControl.Trim.Yielding
import InverterControl.Backup.Model
import InverterControl.Logic.Model
import InverterControl.Lib.Approach
import InverterControl.Logic.Pipeline
import InverterControl.Logic.Modes
import InverterControl.Logic.Deadband
import InverterControl.Logic.Exclusion
import InverterControl.Precharge.Model
import InverterControl.Precharge.AtMostOnce
import InverterControl.Precharge.Stable
import InverterControl.Controller.Model
import InverterControl.Trim.Budget
import InverterControl.Controller.Threads
import InverterControl.Controller.Steps
import InverterControl.Controller.Trims
import InverterControl.Controller.Baseline
import InverterControl.Controller.Limits
import InverterControl.Controller.Slew
import InverterControl.Controller.Samples
import InverterControl.Controller.TouWindow
import InverterControl.Controller.Actuator
import InverterControl.Controller.TouReader
import InverterControl.Controller.TrimWrites
import InverterControl.Controller.HardwareBaseline
import InverterControl.Controller.Intents
import InverterControl.Telemetry.Model
import InverterControl.Telemetry.Steps
import InverterControl.Telemetry.Pinning
import InverterControl.Telemetry.Identity
import InverterControl.Telemetry.Late
import InverterControl.Backup.Selection
import InverterControl.Backup.Log
import InverterControl.Energy.Model
import InverterControl.Energy.Steps
import InverterControl.Energy.Complete
import InverterControl.Energy.Saved
import InverterControl.Energy.Segments
import InverterControl.Lib.Lines
import InverterControl.Forwarder.Model
import InverterControl.Forwarder.Writer
import InverterControl.Forwarder.Coverage
import InverterControl.Forwarder.Scan
import InverterControl.Forwarder.AtLeastOnce
import InverterControl.Bridge.Model
import InverterControl.Bridge.Acknowledged
import InverterControl.Victron.Health
import InverterControl.PowerLimits.Model
import InverterControl.PowerLimits.Atomic
import InverterControl.Battery.Model
import InverterControl.Battery.Rounding
import InverterControl.Dvcc.Model
import InverterControl.Dvcc.Curves
import InverterControl.Dvcc.Temperature
import InverterControl.Dvcc.Limiter
import InverterControl.Lib.Checks
import InverterControl.Tariff.Model
import InverterControl.Tariff.Normal
import InverterControl.Tariff.Service
import InverterControl.Lib.Smoothing
import InverterControl.Lib.Changes
import InverterControl.Filter.Model
import InverterControl.Filter.Isolation
import InverterControl.Background.Model
import InverterControl.Background.Age
import InverterControl.Background.Pace
import InverterControl.DumpLoads.Model
import InverterControl.DumpLoads.Worker
import InverterControl.Tariff.Stored
import InverterControl.Tariff.Periods
import InverterControl.Senders.Model
import InverterControl.Senders.Routing
import InverterControl.Victron.Shunt
import InverterControl.Victron.Superseded
import InverterControl.Ess.Model
import InverterControl.Ess.Shared
import InverterControl.Ess.Steps
import InverterControl.Ess.Threads
import InverterControl.Ess.Coherent
import InverterControl.Ess.Serialized
import InverterControl.Ess.Settings
import InverterControl.Ess.Warning
import InverterControl.Writes.Model
import InverterControl.Writes.Order
import InverterControl.Cells.Model
import InverterControl.Cells.Counts
import InverterControl.Cells.Live
import InverterControl.Cells.Stops
import InverterControl.Lib.JsonCut
import InverterControl.Alerts.Model
import InverterControl.Alerts.Durable
import InverterControl.Subscriptions.Healthy
import InverterControl.Subscriptions.Cooldown
import InverterControl.Bridge.Payload
import InverterControl.Shutdown.Confirmed
