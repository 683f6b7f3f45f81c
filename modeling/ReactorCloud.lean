import ReactorCloud.Storage.EvalLemmas
import ReactorCloud.Data.Dialect.Operations
import ReactorCloud.Data.Migrate.Complete
import ReactorCloud.Data.Policy.CheckRows
import ReactorCloud.Data.Realtime.Fanout
import ReactorCloud.Auth.Client
import ReactorCloud.Auth.Escalation
import ReactorCloud.Auth.SingleUse
import ReactorCloud.Ops.Enforcement
import ReactorCloud.Storage.Guarded
import ReactorCloud.Storage.Sign
import ReactorCloud.Jobs.Steps
import ReactorCloud.Jobs.Finished
import ReactorCloud.Connect.StateSurvives
import ReactorCloud.Jobs.Concurrency
import ReactorCloud.Functions.PoolKept
import ReactorCloud.Functions.Limits
import ReactorCloud.Jobs.Cron
import ReactorCloud.Jobs.DeadLetters
import ReactorCloud.Jobs.Events
import ReactorCloud.Deployments.Rollback
import ReactorCloud.Gateway.OwnProject
import ReactorCloud.Gateway.Debounce
import ReactorCloud.DeployBundle.Verified
import ReactorCloud.Cache.Delivered
import ReactorCloud.Studio.ConversationLog
import ReactorCloud.Studio.TaskOrder
import ReactorCloud.Cache.OneLeader
import ReactorCloud.Studio.AgentLoop
import ReactorCloud.Sites.Hosts
import ReactorCloud.Sites.Static
import ReactorCloud.Lessons.OneTier
import ReactorCloud.Data.Dialect.WholeClauses
import ReactorCloud.Data.Execute.AsWritten
import ReactorCloud.Server.Forwarded
import ReactorCloud.Server.Quota.Slots
import ReactorCloud.Server.Tenants.Bounded
import ReactorCloud.Connect.WebhookSafe
import ReactorCloud.Connect.SandboxSafe
import ReactorCloud.Analytics.Isolated
import ReactorCloud.Data.Query.Pagination
import ReactorCloud.Data.Query.SelectText
import ReactorCloud.Data.Execute.Joined
import ReactorCloud.Data.Execute.Scalars
import ReactorCloud.Data.Execute.Batch
import ReactorCloud.Policy.ReadBack
import ReactorCloud.Core.Coverage
import ReactorCloud.Auth.StepUp
import ReactorCloud.Cache.Kv
import ReactorCloud.Connect.SyncExecutor
import ReactorCloud.Server.Quota.Usage
import ReactorCloud.Sites.Expansion
import ReactorCloud.Server.Quota.Bucket
import ReactorCloud.Analytics.Retention
import ReactorCloud.Connect.ConflictPolicy
import ReactorCloud.Connect.PromoteToken
import ReactorCloud.Studio.LoopDriver
import ReactorCloud.Studio.Plan
import ReactorCloud.Connect.Drift
import ReactorCloud.Storage.Ranged
import ReactorCloud.Studio.OpenRouter
import ReactorCloud.Connect.Manifest
import ReactorCloud.Functions.Response
import ReactorCloud.Auth.OneTime
import ReactorCloud.Jobs.Records
