import WalletDaemon.FuelTankRewriting
import WalletDaemon.Transition
import WalletDaemon.ScaleEncode
import WalletDaemon.TransactionRequest
import WalletDaemon.ChainInfo
import WalletDaemon.Era
import WalletDaemon.NonceSafety
import WalletDaemon.MortalityAnchor
import WalletDaemon.Retry
import WalletDaemon.ScanLoop
import WalletDaemon.TransactionPoller
import WalletDaemon.WalletPoller
import WalletDaemon.OwedWork
import WalletDaemon.IdleEviction
import WalletDaemon.LaterPages
import WalletDaemon.SignedOnce
import WalletDaemon.WorkTrigger
import WalletDaemon.Notifications
import WalletDaemon.Accounts
import WalletDaemon.FailureIsolation
import WalletDaemon.SignedContent
import WalletDaemon.ManagedWallet
import WalletDaemon.Draining
import WalletDaemon.FileTree
import WalletDaemon.Script
import WalletDaemon.Text
import WalletDaemon.Crypto
import WalletDaemon.WalletLoader
import WalletDaemon.SeedMigration
import WalletDaemon.SeedIdentity
import WalletDaemon.TornSeed
import WalletDaemon.HexFields
import WalletDaemon.Decryption
import WalletDaemon.PusherError
import WalletDaemon.CursorMoves
import WalletDaemon.Escalation
import WalletDaemon.FallbackPoll
import WalletDaemon.Debounce
import WalletDaemon.RetryPacing
import WalletDaemon.WaitQueue
import WalletDaemon.NewEventWait
import WalletDaemon.NestingBound
import WalletDaemon.Bookkeeping
import WalletDaemon.Utf16
import WalletDaemon.EnvLoader
import WalletDaemon.Keepalive
import WalletDaemon.Reconnecting
import WalletDaemon.Subscription
import WalletDaemon.LiveNotifications
import WalletDaemon.PusherUrl
import WalletDaemon.ScanBatches
import WalletDaemon.GaplessNonces
import WalletDaemon.SeedCustody
import WalletDaemon.TickProgress
import WalletDaemon.AskedOnce
import WalletDaemon.Resigning
import WalletDaemon.WalletProtocol
