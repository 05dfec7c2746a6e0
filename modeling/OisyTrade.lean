import OisyTrade.Lib.SortedMap
import OisyTrade.Lib.Outcome
import OisyTrade.Order.Types
import OisyTrade.Order.Book
import OisyTrade.Order.PriceTime
import OisyTrade.Order.Round
import OisyTrade.Balance.Batch
import OisyTrade.Script
import OisyTrade.MarketData
import OisyTrade.Guarantees.Ids
import OisyTrade.Guarantees.Codecs
import OisyTrade.Guarantees.Queue
import OisyTrade.Guarantees.Packing
import OisyTrade.Guarantees.Arithmetic
import OisyTrade.Guarantees.Rebuild
import OisyTrade.Guarantees.Records
import OisyTrade.Guarantees.Upgrade
import OisyTrade.Guarantees.Accounts
import OisyTrade.Guarantees.Whitelist
import OisyTrade.Guarantees.Reservations
import OisyTrade.Guarantees.Settlement
import OisyTrade.Guarantees.Trades
import OisyTrade.Guarantees.NetEffect
import OisyTrade.Guarantees.Cancel
import OisyTrade.Guarantees.FillOrKill
import OisyTrade.Guarantees.Isolation
import OisyTrade.Guarantees.Solvency
import OisyTrade.Guarantees.Traps
import OisyTrade.Guarantees.Replay
import OisyTrade.Guarantees.MarketData
import OisyTrade.Guarantees.Listings
import OisyTrade.Guarantees.Halts
import OisyTrade.Guarantees.Delegation
import OisyTrade.Guarantees.Exactness
import OisyTrade.Guarantees.Executor
import OisyTrade.Guarantees.Schedules
import OisyTrade.Guarantees.Dashboard
import OisyTrade.Guarantees.Timers
import OisyTrade.Guarantees.Pagination
import OisyTrade.Guarantees.Log
import OisyTrade.Guarantees.Feeds
import OisyTrade.Guarantees.Privacy
