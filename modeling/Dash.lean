import Dash.Addons.Approved
import Dash.Alerts.Faithful
import Dash.Approvals.Admission
import Dash.Approvals.Redaction
import Dash.Approvals.Rollback
import Dash.Assurance.Once
import Dash.Audit.Recovery
import Dash.Audit.Writers
import Dash.Autoscaler.Adaptive
import Dash.Autoscaler.Once
import Dash.Backups.Advancing
import Dash.Backups.Imports
import Dash.Balancer.Baselines
import Dash.Blueprints.RoundTrip
import Dash.Calendar.Analysis
import Dash.Capacity.Bookkeeping
import Dash.CarePackages.Once
import Dash.Chat.Authority
import Dash.Chat.Redelivery
import Dash.Chat.Spam
import Dash.Community.Playtime
import Dash.Community.Progress
import Dash.Community.Replays
import Dash.Community.Sessions
import Dash.Community.Stock
import Dash.Community.Synchronized
import Dash.Contracts.Once
import Dash.Credentials.ChangeLog
import Dash.Deployment.Apart
import Dash.Docker.Framing
import Dash.Drift.Findings
import Dash.Drills.Admitted
import Dash.Drills.Extraction
import Dash.Events.Recurring
import Dash.Exchange.Caps
import Dash.Exchange.Cashout
import Dash.Exchange.Ceiling
import Dash.Federated.Once
import Dash.Intelligence.Exposure
import Dash.Intelligence.Imports
import Dash.Maintenance.Countdown
import Dash.Maintenance.Recorded
import Dash.Maintenance.Recovering
import Dash.Moderation.Policy
import Dash.Planner.Safe
import Dash.Presence.Exact
import Dash.Presence.Scans
import Dash.Presets.AllOrNothing
import Dash.Readiness.History
import Dash.Reminders.Serial
import Dash.Restore.Failing
import Dash.Slo.Accounting
