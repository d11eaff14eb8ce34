import Comebackhere.Cli.Init
import Comebackhere.Compliance.Authority
import Comebackhere.Compliance.Statuses
import Comebackhere.DisputeLink
import Comebackhere.Frontend.Format
import Comebackhere.Frontend.QrCode
import Comebackhere.Frontend.WalletAccounts
import Comebackhere.Http.Analytics
import Comebackhere.Http.AuditChain
import Comebackhere.Http.Balances
import Comebackhere.Http.CallerLimits
import Comebackhere.Http.Challenges
import Comebackhere.Http.Disputes
import Comebackhere.Http.ExecutedHash
import Comebackhere.Http.ExportStream
import Comebackhere.Http.Holds
import Comebackhere.Http.IdempotencyClaims
import Comebackhere.Http.InvoiceActions
import Comebackhere.Http.KeyRotation
import Comebackhere.Http.Payments
import Comebackhere.Http.RateLimits
import Comebackhere.Http.Redaction
import Comebackhere.Http.RpcFailover
import Comebackhere.Http.SettlementPreview
import Comebackhere.Http.SingleExecution
import Comebackhere.Http.StatusSync
import Comebackhere.Http.TenantIsolation
import Comebackhere.Invoice.Authorisation
import Comebackhere.Invoice.Batches
import Comebackhere.Invoice.Escrow
import Comebackhere.Invoice.Expiry
import Comebackhere.Invoice.Gate
import Comebackhere.Invoice.Holdings
import Comebackhere.Invoice.Lifecycle
import Comebackhere.Invoice.Listings
import Comebackhere.Invoice.Release
import Comebackhere.Invoice.Story
import Comebackhere.Library.Ballot
import Comebackhere.Library.Registry
import Comebackhere.Offchain.ComplianceIndexer
import Comebackhere.Offchain.ComplianceLog
import Comebackhere.Offchain.InvoiceDecoders
import Comebackhere.Offchain.InvoiceEvents
import Comebackhere.Offchain.InvoiceRace
import Comebackhere.Offchain.RetentionGap
import Comebackhere.Offchain.TreasuryCalls
import Comebackhere.Offchain.TreasuryEvents
import Comebackhere.Offchain.TreasuryOverlap
import Comebackhere.Pause
import Comebackhere.Treasury.Admin
import Comebackhere.Treasury.Disputes
import Comebackhere.Treasury.Finality
import Comebackhere.Treasury.Funds
import Comebackhere.Treasury.Ids
import Comebackhere.Treasury.Pending
import Comebackhere.Treasury.Provenance
import Comebackhere.Treasury.Quorum
import Comebackhere.Treasury.Simulation
import Comebackhere.Treasury.Threshold
import Comebackhere.Treasury.Weights
import Comebackhere.Treasury.Withdrawals
import Comebackhere.Webhooks.AddressFilter
import Comebackhere.Webhooks.AttemptBound
import Comebackhere.Webhooks.PinnedRequest
import Comebackhere.Webhooks.Shutdown
import Comebackhere.Webhooks.Signing
