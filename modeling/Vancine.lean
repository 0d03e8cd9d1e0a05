import Vancine.Subscription.Idempotency
import Vancine.Billing.Settlement
import Vancine.Billing.RefundRetry
import Vancine.Billing.Admission
import Vancine.Wallet.Reserve
import Vancine.Payment.Ledger
import Vancine.Payment.Callbacks
import Vancine.Payment.Manual
import Vancine.Tasks.FailureRefund
import Vancine.SystemTasks.Leases
import Vancine.SystemTasks.Stuck
import Vancine.Purchase.Cap
import Vancine.Sessions.Rotation
import Vancine.UserCache.Snapshots
import Vancine.BatchUpdate.Conservation
import Vancine.Expression.FixedSound
import Vancine.Expression.TimePricing
import Vancine.Channels.Keys
import Vancine.Channels.Retry
import Vancine.Channels.Draws
import Vancine.Credits.Ceiling
import Vancine.ParamOverride.Attempts
import Vancine.Streams.ResponsesProtocol
import Vancine.Streams.ClaudeProtocol
import Vancine.Tokens.Consumption
import Vancine.Redemptions.Once
import Vancine.Snapshots.Overlay
import Vancine.Snapshots.Sidecar
import Vancine.Streams.ClaudeToChatAgreement
import Vancine.Streams.GeminiFaithful
import Vancine.Acquisition.Milestones
import Vancine.Tokens.CacheFence
import Vancine.AuthFlows.OneTime
import Vancine.AuthFlows.EmailBindingRuns
import Vancine.TwoFactor.Lockout
import Vancine.AlternativeLogin.ReleaseRuns
import Vancine.ModelPricing.Effective
import Vancine.ModelPricing.UpdateRuns
import Vancine.Requests.ChatHistory
import Vancine.TextQuota.ClaudeInput
import Vancine.TextQuota.ToolSurcharge
import Vancine.Subscription.Resets
import Vancine.ParamOverride.NegativeIndices
import Vancine.ChatRequests.Arrival
import Vancine.RuleFactors.Meaning
import Vancine.RateLimit.Window
import Vancine.JsPlugin.Routing
import Vancine.ParamOverride.PruneObjects
import Vancine.ParamOverride.MoveCopy
import Vancine.Reasoning.RoundTrip
import Vancine.JsPlugin.RequestURL
import Vancine.Authz.Routes
import Vancine.JsonState.Accounting
import Vancine.StreamScanner.Delivery
import Vancine.ModelMapping.AliasView
import Vancine.ChatRequests.CallMessages
import Vancine.ResponsesRequests.Items
import Vancine.ModelPricing.BillingNames
import Vancine.Streams.ArgumentPaths
