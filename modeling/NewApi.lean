import NewApi.Service.SessionExclusion
import NewApi.Service.SessionAtomicity
import NewApi.Model.BillingQuota
import NewApi.Model.Redemption
import NewApi.Model.SubscriptionUsage
import NewApi.Model.TaskRefundOnce
import NewApi.Model.LogOutbox
import NewApi.Model.TopUpSettlement
import NewApi.Model.DirectCryptoPairs
import NewApi.Model.DirectCryptoSteps
import NewApi.Model.DirectCryptoTransfers
import NewApi.Model.DirectCryptoDelivery
import NewApi.Middleware.TokenBucket
import NewApi.Middleware.SuccessLimit
import NewApi.Model.AffiliateTransfer
import NewApi.Model.ChannelDraw
import NewApi.Service.TaskPollingFinal
import NewApi.Service.TaskPollingPass
import NewApi.Lib.Corners
import NewApi.Pkg.BillingExpr
import NewApi.Pkg.SplitForm
import NewApi.Service.TieredSettle
import NewApi.Service.TieredWorstCase
import NewApi.Relay.ClaudeUsage
import NewApi.Relay.TaskPrice
import NewApi.Relay.ModelMappedAttempts
import NewApi.Controller.PricingSteps
import NewApi.Pkg.SplitSound
import NewApi.Service.RealtimeSettle
import NewApi.Lib.Fresh
import NewApi.Setting.Base58
import NewApi.Setting.PricingGroup
import NewApi.Setting.PricingGroupTable
import NewApi.Setting.StatusCodeRanges
import NewApi.Model.SubscriptionReset
import NewApi.Model.SubscriptionPeriod
import NewApi.Model.SubscriptionLimit
import NewApi.Lib.Grid
import NewApi.Model.DirectCryptoAllocation
import NewApi.Model.DirectCryptoExact
import NewApi.Service.TaskReprice
import NewApi.Lib.RowTable
import NewApi.Model.PricingSync
import NewApi.Controller.PricingSyncPatches
import NewApi.Controller.PricingSyncExact
import NewApi.Model.PricingSyncStatements
import NewApi.Controller.PricingSyncTask
import NewApi.Model.PricingSyncHolds
import NewApi.Model.PricingSyncCalls
import NewApi.Controller.PricingSyncGuard
import NewApi.Model.SystemTask
import NewApi.Model.SystemTaskLease
import NewApi.RelayConvert.RoundTrip
import NewApi.Lib.Roster
import NewApi.RelayConvert.ChatStreamIds
import NewApi.RelayConvert.StreamedCalls
import NewApi.RelayConvert.ChatStreamItems
import NewApi.RelayConvert.ChatStreamStory
import NewApi.RelayConvert.StreamedToChat
import NewApi.RelayConvert.StreamedToBuffer
import NewApi.RelayConvert.ResponsesAgree
import NewApi.RelayConvert.ResponsesDelivered
