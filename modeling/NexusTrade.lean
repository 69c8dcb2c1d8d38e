import NexusTrade.Lib.Run
import NexusTrade.Lib.Keyed
import NexusTrade.MatchingEngine.Refinement
import NexusTrade.MatchingEngine.Recovery
import NexusTrade.MatchingEngine.Reported
import NexusTrade.MatchingEngine.Origins
import NexusTrade.MatchingEngine.Remainder
import NexusTrade.Wallet.Balances
import NexusTrade.Wallet.Totals
import NexusTrade.Wallet.Ledger
import NexusTrade.Wallet.Stored
import NexusTrade.Lib.Delivery
import NexusTrade.Deposit.Credits
import NexusTrade.Withdrawal.LifeCycle
import NexusTrade.Trading.Locks
import NexusTrade.Trading.Liveness
import NexusTrade.MatchingEngine.Labels
import NexusTrade.MatchingEngine.StopCascade
import NexusTrade.MatchingEngine.RoundTrip
import NexusTrade.MatchingEngine.Mirror
import NexusTrade.MatchingEngine.StatusLog
import NexusTrade.MatchingEngine.Replay
import NexusTrade.Lib.Logged
import NexusTrade.MatchingEngine.Concurrent
import NexusTrade.MatchingEngine.WalOrder
import NexusTrade.MatchingEngine.Durability
import NexusTrade.Shared.Places
import NexusTrade.Withdrawal.Charges
import NexusTrade.Lib.Retry
import NexusTrade.Trading.Retries
import NexusTrade.MatchingEngine.Acceptance
import NexusTrade.Trading.ExactlyOnce
import NexusTrade.Trading.Shadows
import NexusTrade.Lib.Interleaving
import NexusTrade.MatchingEngine.Histories
import NexusTrade.Trading.Interleaved
import NexusTrade.Trading.Threads
import NexusTrade.Trading.Leftovers
import NexusTrade.Trading.Effects
import NexusTrade.Trading.Tracking
import NexusTrade.Wallet.Exact
import NexusTrade.Shared.Halves
import NexusTrade.Trading.Objects
import NexusTrade.Trading.Settlement
import NexusTrade.Trading.Holdings
import NexusTrade.Trading.Fillable
import NexusTrade.Trading.Sequential
import NexusTrade.Trading.Orderly
import NexusTrade.Trading.Accounting
import NexusTrade.Trading.Restart
import NexusTrade.Trading.Counted
import NexusTrade.MatchingEngine.FillOrKill
import NexusTrade.MatchingEngine.Legality
import NexusTrade.MatchingEngine.StatusQuery
import NexusTrade.MatchingEngine.StatusHistory
import NexusTrade.Auth.Totp
import NexusTrade.Auth.Sessions
import NexusTrade.Auth.Rotation
import NexusTrade.Deposit.Duplicates
import NexusTrade.Shared.Kafka
import NexusTrade.Shared.Relaying
import NexusTrade.Lib.Nesting
import NexusTrade.Lib.Utf8
import NexusTrade.MatchingEngine.WalFile
import NexusTrade.Wallet.Available
import NexusTrade.Withdrawal.Funds
import NexusTrade.Wallet.Restored
import NexusTrade.Wallet.Atomic
import NexusTrade.Wallet.Directions
import NexusTrade.MatchingEngine.Cancellation
import NexusTrade.MatchingEngine.Refusals
import NexusTrade.MatchingEngine.QuietStops
import NexusTrade.MatchingEngine.Splitting
import NexusTrade.MatchingEngine.AuditTail
import NexusTrade.Auth.Lockout
import NexusTrade.Gateway.Circuit
import NexusTrade.Lib.Asserts
import NexusTrade.MatchingEngine.ExactLoop
import NexusTrade.MatchingEngine.ExactRuns
import NexusTrade.Lib.Unwinding
import NexusTrade.Lib.Waiting
import NexusTrade.Lib.Percent
import NexusTrade.Lib.FixedWindow
import NexusTrade.MatchingEngine.Symbols
import NexusTrade.MatchingEngine.Restarts
import NexusTrade.MatchingEngine.Priority
import NexusTrade.MatchingEngine.Server
import NexusTrade.Shared.MatchingClient
import NexusTrade.Trading.Exchanges
import NexusTrade.Trading.Wire
import NexusTrade.Gateway.Routes
import NexusTrade.Gateway.Upstreams
import NexusTrade.Gateway.Access
import NexusTrade.Gateway.Orders
import NexusTrade.Gateway.RateGuard
import NexusTrade.MarketData.Tickers
import NexusTrade.MarketData.Depth
import NexusTrade.Withdrawal.Requests
import NexusTrade.Withdrawal.Cooldown
import NexusTrade.Wallet.Agreement
import NexusTrade.Auth.Registration
import NexusTrade.Auth.Accounts
import NexusTrade.Lib.Relay
import NexusTrade.Shared.Texts
import NexusTrade.Compliance.Service
import NexusTrade.Compliance.Alerts
import NexusTrade.Auth.Access
import NexusTrade.Auth.Provenance
import NexusTrade.Gateway.Logins
