import EatPass.Properties.Scarcity
import EatPass.Properties.Housekeeping
import EatPass.Properties.FfiSessions
import EatPass.Properties.SignTasks
import EatPass.Properties.RedeemTasks
import EatPass.Properties.SdkThreads
import EatPass.Infra.Trace
import EatPass.Core.LogChecks
import EatPass.Core.Http
import EatPass.Cli.Issuer
import EatPass.Cli.Attester
import EatPass.Spec.Published
import EatPass.Core.Sample
import EatPass.Cli.Client
import EatPass.Properties.LogHistory
import EatPass.Properties.Served
import EatPass.Properties.Issuance
import EatPass.Properties.Rotation
import EatPass.Properties.Restart
import EatPass.Properties.RedisSpend
import EatPass.Properties.OriginKeys
import EatPass.Properties.SpendEpoch
import EatPass.Properties.SingleSpend
import EatPass.Properties.Backed
import EatPass.Properties.Quota
import EatPass.Properties.LogEdges
import EatPass.Properties.SdkTokens
import EatPass.Properties.RedisQuota
import EatPass.Properties.PolicyDiff
import EatPass.Properties.Replay
import EatPass.Properties.EndToEnd
import EatPass.Properties.ChallengeBytes
import EatPass.Properties.SdkBatches
import EatPass.Properties.PolicyGate
import EatPass.Properties.AllowList
import EatPass.Properties.DesktopTpm
import EatPass.Properties.TokenHeaders
import EatPass.Properties.Authorization
import EatPass.Properties.KtPin
import EatPass.Cli.Operator
import EatPass.Cli.ClientRun
import EatPass.Properties.ClientRuns
import EatPass.Properties.MintAgreement
import EatPass.Properties.PolicyFiles
import EatPass.Desktop.Windows
import EatPass.Properties.SharedHelper
import EatPass.Properties.SdkAgreement
import EatPass.Properties.HelperCalls
