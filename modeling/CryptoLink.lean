import CryptoLink.Alone
import CryptoLink.Atomic
import CryptoLink.Calls
import CryptoLink.Contracts.Clones
import CryptoLink.Contracts.Collector
import CryptoLink.Contracts.Tokens
import CryptoLink.Errors
import CryptoLink.FiatPrices
import CryptoLink.Footprints
import CryptoLink.Guarantees.AddressFormats
import CryptoLink.Guarantees.AmountTexts
import CryptoLink.Guarantees.Attribution
import CryptoLink.Guarantees.AuditedBalances
import CryptoLink.Guarantees.BackedInvoices
import CryptoLink.Guarantees.BalanceReports
import CryptoLink.Guarantees.BestMatch
import CryptoLink.Guarantees.Cancellation
import CryptoLink.Guarantees.Checkouts
import CryptoLink.Guarantees.CloneCode
import CryptoLink.Guarantees.Confirmations
import CryptoLink.Guarantees.Consent
import CryptoLink.Guarantees.Conversions
import CryptoLink.Guarantees.Credits
import CryptoLink.Guarantees.Custody
import CryptoLink.Guarantees.Cycles
import CryptoLink.Guarantees.DailyCap
import CryptoLink.Guarantees.Deletions
import CryptoLink.Guarantees.Delivery
import CryptoLink.Guarantees.Deposits
import CryptoLink.Guarantees.DerivedIndices
import CryptoLink.Guarantees.DisplayedAmounts
import CryptoLink.Guarantees.Duplicates
import CryptoLink.Guarantees.EagerLoading
import CryptoLink.Guarantees.ExactMatch
import CryptoLink.Guarantees.ExactlyOnce
import CryptoLink.Guarantees.ExpiryCap
import CryptoLink.Guarantees.ExtendedKeys
import CryptoLink.Guarantees.Finality
import CryptoLink.Guarantees.Footers
import CryptoLink.Guarantees.Gains
import CryptoLink.Guarantees.GaplessScan
import CryptoLink.Guarantees.Idempotence
import CryptoLink.Guarantees.LastingBooks
import CryptoLink.Guarantees.LimitChecks
import CryptoLink.Guarantees.LockedPayments
import CryptoLink.Guarantees.OldTransfers
import CryptoLink.Guarantees.OnePass
import CryptoLink.Guarantees.OpenInvoices
import CryptoLink.Guarantees.OptOut
import CryptoLink.Guarantees.OtherCurrencies
import CryptoLink.Guarantees.Pagination
import CryptoLink.Guarantees.PaidPlans
import CryptoLink.Guarantees.ParsedAmounts
import CryptoLink.Guarantees.Prices
import CryptoLink.Guarantees.QuotedRates
import CryptoLink.Guarantees.ReceiptFailover
import CryptoLink.Guarantees.ReceiptTotality
import CryptoLink.Guarantees.Recheck
import CryptoLink.Guarantees.Relocks
import CryptoLink.Guarantees.Remainders
import CryptoLink.Guarantees.ReminedFills
import CryptoLink.Guarantees.Resolutions
import CryptoLink.Guarantees.Rounding
import CryptoLink.Guarantees.Selection
import CryptoLink.Guarantees.SettingsUpdates
import CryptoLink.Guarantees.SharedCollectors
import CryptoLink.Guarantees.SystemTotals
import CryptoLink.Guarantees.TenantIsolation
import CryptoLink.Guarantees.TokenContracts
import CryptoLink.Guarantees.TopupAccounts
import CryptoLink.Guarantees.TopupBooks
import CryptoLink.Guarantees.TopupCalls
import CryptoLink.Guarantees.TopupReserves
import CryptoLink.Guarantees.TopupStates
import CryptoLink.Guarantees.Topups
import CryptoLink.Guarantees.TronCodec
import CryptoLink.Guarantees.Upgrades
import CryptoLink.Guarantees.UsageAccounts
import CryptoLink.Guarantees.UsageVolume
import CryptoLink.Guarantees.WalletCalls
import CryptoLink.Guarantees.WithdrawalEvents
import CryptoLink.Library.Base58
import CryptoLink.Library.BinaryRounding
import CryptoLink.Library.ByteMachine
import CryptoLink.Library.CallStacks
import CryptoLink.Library.DecimalText
import CryptoLink.Library.DistinctRows
import CryptoLink.Library.Hexadecimal
import CryptoLink.Library.Histories
import CryptoLink.Library.Interleaving
import CryptoLink.Library.KeyedTables
import CryptoLink.Library.Landings
import CryptoLink.Library.LastingRows
import CryptoLink.Library.LeftmostMin
import CryptoLink.Library.LetterCase
import CryptoLink.Library.LockedRows
import CryptoLink.Library.Makers
import CryptoLink.Library.Multiples
import CryptoLink.Library.Numerals
import CryptoLink.Library.Outcomes
import CryptoLink.Library.OwnSteps
import CryptoLink.Library.Paging
import CryptoLink.Library.PoolCalls
import CryptoLink.Library.Protocols
import CryptoLink.Library.RankedListings
import CryptoLink.Library.ReadCommitted
import CryptoLink.Library.Reliance
import CryptoLink.Library.StatementPrograms
import CryptoLink.Library.Tallies
import CryptoLink.Library.TextSearch
import CryptoLink.Library.Tilings
import CryptoLink.Library.Triples
import CryptoLink.Marketing.Calls
import CryptoLink.Marketing.Contacts
import CryptoLink.Marketing.Footer
import CryptoLink.Marketing.Sequences
import CryptoLink.Marketing.Service
import CryptoLink.Marketing.Tables
import CryptoLink.Merchants.Deletion
import CryptoLink.Merchants.Discretion
import CryptoLink.Merchants.Handlers
import CryptoLink.Merchants.Isolation
import CryptoLink.Merchants.Ownership
import CryptoLink.Merchants.Services
import CryptoLink.Merchants.Settings
import CryptoLink.Merchants.Tables
import CryptoLink.Merchants.Xpub
import CryptoLink.Money
import CryptoLink.Processing.CrossCurrency
import CryptoLink.Processing.Incoming
import CryptoLink.Processing.Options
import CryptoLink.Processing.PaymentPage
import CryptoLink.Processing.PaymentRelations
import CryptoLink.Processing.Topup
import CryptoLink.Processing.Webhook
import CryptoLink.Registry
import CryptoLink.Repository.Frames
import CryptoLink.Repository.Listings
import CryptoLink.Repository.Replies
import CryptoLink.Repository.Rows
import CryptoLink.Repository.Statements
import CryptoLink.Services.Balances
import CryptoLink.Services.Collectors
import CryptoLink.Services.Convertor
import CryptoLink.Services.Payments
import CryptoLink.Services.PriceFeed
import CryptoLink.Services.RPC
import CryptoLink.Services.Receipts
import CryptoLink.Services.SystemBalances
import CryptoLink.Services.Transactions
import CryptoLink.Services.TronAddresses
import CryptoLink.Subscriptions.Administration
import CryptoLink.Subscriptions.Changes
import CryptoLink.Subscriptions.Months
import CryptoLink.Subscriptions.Promises
import CryptoLink.Subscriptions.Service
import CryptoLink.Subscriptions.Tables
import CryptoLink.Watcher.Btc
import CryptoLink.Watcher.ChunkLoops
import CryptoLink.Watcher.Detection
import CryptoLink.Watcher.Evm
import CryptoLink.Watcher.Matching
import CryptoLink.Watcher.Polling
import CryptoLink.Watcher.Readings
import CryptoLink.Watcher.Runs
import CryptoLink.Watcher.Scanning
import CryptoLink.Watcher.Sightings
import CryptoLink.Watcher.Tron
