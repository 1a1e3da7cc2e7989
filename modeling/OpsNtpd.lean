import OpsNtpd.Framework.Transition
import OpsNtpd.Framework.Text
import OpsNtpd.Cli.Refinement
import OpsNtpd.Cli.Sanitize
import OpsNtpd.Cli.Invariant
import OpsNtpd.Cli.VrfLookup
import OpsNtpd.Cli.ReturnCodes
import OpsNtpd.Cli.Vtysh
import OpsNtpd.Cli.RunningConfig
import OpsNtpd.Cli.RoundTrip
import OpsNtpd.Cli.OptionBuffer
import OpsNtpd.Cli.Sessions
import OpsNtpd.Daemon.Ntpd
import OpsNtpd.Daemon.RowLoops
import OpsNtpd.Daemon.Pass
import OpsNtpd.Daemon.MainLoop
import OpsNtpd.Daemon.FailedSync
import OpsNtpd.Daemon.Associations
import OpsNtpd.Restore
import OpsNtpd.Daemon.KeysFile
import OpsNtpd.Daemon.CommandLine
import OpsNtpd.Daemon.Status
import OpsNtpd.Daemon.Decode
import OpsNtpd.Daemon.SyncManager
import OpsNtpd.Daemon.Processes
import OpsNtpd.Daemon.SyncRun
import OpsNtpd.Daemon.Wire
import OpsNtpd.Rest
import OpsNtpd.Intent
import OpsNtpd.Daemon.Poll
import OpsNtpd.Switch
import OpsNtpd.EventLog
import OpsNtpd.Daemon.StartFiles
import OpsNtpd.Control
import OpsNtpd.Restart
import OpsNtpd.Reboot
import OpsNtpd.Diagnostics
import OpsNtpd.Crowd
import OpsNtpd.Cli.Show
import OpsNtpd.Screen
