import Astrea.KeyTable
import Astrea.LabelledRun
import Astrea.BoundedInt
import Astrea.Guard
import Astrea.EscrowTypes
import Astrea.EscrowAccess
import Astrea.EscrowWallet
import Astrea.EscrowLifecycle
import Astrea.EscrowRewards
import Astrea.EscrowGovernance
import Astrea.EscrowContract
import Astrea.EscrowRun
import Astrea.EscrowCustody
import Astrea.EscrowEvents
import Astrea.EscrowDisposition
import Astrea.EscrowOnce
import Astrea.EscrowAuthority
import Astrea.EscrowExit
import Astrea.EscrowOrganizer
import Astrea.EscrowRefund
import Astrea.EscrowIsolation
import Astrea.EscrowPause
import Astrea.EscrowBacked
import Astrea.EscrowFee
import Astrea.EscrowGovernor
import Astrea.EscrowQuote
import Astrea.ListBlocks
import Astrea.EscrowIndex
import Astrea.Lifetime
import Astrea.EscrowLifetime
import Astrea.EscrowLeases
import Astrea.EscrowLog
import Astrea.EscrowSigners
import Astrea.Interleave
import Astrea.Transaction
import Astrea.Amount
import Astrea.Allocate
import Astrea.WrappingSum
import Astrea.AllocateExact
import Astrea.FloorShares
import Astrea.AllocateRules
import Astrea.AllocateSplit
import Astrea.Envelope
import Astrea.StoreTypes
import Astrea.StoreRelease
import Astrea.AmountText
import Astrea.DraftPrizes
import Astrea.StoreOrganizer
import Astrea.StoreWrites
import Astrea.Network
import Astrea.Pipeline
import Astrea.Submission
import Astrea.HandlersOrganizer
import Astrea.HandlersStart
import Astrea.HandlersRelease
import Astrea.Router
import Astrea.ReleaseAllocation
import Astrea.RewardSum
import Astrea.DraftToPayout
import Astrea.Utf16
import Astrea.AmountMirror
import Astrea.TeamTables
import Astrea.TeamShares
import Astrea.ShareRule
import Astrea.Obligations
import Astrea.HandlersSafe
import Astrea.NetworkMoves
import Astrea.ServiceRun
import Astrea.StatusWriters
import Astrea.TeamFreeze
import Astrea.TeamMembership
import Astrea.RowLocks
import Astrea.StoreLocks
import Astrea.LockOrder
import Astrea.OpLogAbsorbing
import Astrea.MirrorChain
import Astrea.SingleEffect
import Astrea.SubmitBoundary
import Astrea.FailureRecord
import Astrea.SubmitTurns
import Astrea.ReleaseMirror
import Astrea.WalletSession
import Astrea.SessionWorld
import Astrea.SessionObligations
import Astrea.NonceSingleUse
import Astrea.SessionTrust
import Astrea.Tally
import Astrea.Trustline
import Astrea.TrustlineGuard
import Astrea.TrustlineMirror
import Astrea.KeyedReplace
import Astrea.AuthEntries
import Astrea.AttachAuth
import Astrea.SignedAuth
import Astrea.Base64url
import Astrea.JsonText
import Astrea.OAuthState
import Astrea.OAuthVerify
import Astrea.Backoff
import Astrea.RoundTrip
import Astrea.ContractArgs
import Astrea.I128Exact
import Astrea.ArgsFaithful
import Astrea.HostCalls
import Astrea.EntryPoints
import Astrea.CallsFaithful
import Astrea.RepoOwnership
import Astrea.EventPage
import Astrea.EventPageWorld
import Astrea.EventPageObligations
import Astrea.PageRuns
import Astrea.LinkedAccounts
import Astrea.Registration
import Astrea.JudgingStart
import Astrea.UriPath
import Astrea.Wire
import Astrea.CoreGoClient
import Astrea.CallsArrive
import Astrea.Answers
import Astrea.CallsAnswered
