import Intmax.Trees.Nullifiers
import Intmax.Trees.DecodedLists
import Intmax.Validity.SendHistory
import Intmax.Validity.Authorization
import Intmax.Validity.History
import Intmax.Channel.Accumulator
import Intmax.Channel.Panics
import Intmax.Channel.Budget
import Intmax.Channel.Conservation
import Intmax.Rollup.Erc20
import Intmax.Rollup.Fraud
import Intmax.Rollup.Registrations
import Intmax.Producer.Joins
import Intmax.Settlement.Accounting
import Intmax.Settlement.ChallengeWindow
import Intmax.Blob.Attestation
import Intmax.Channel.Messages
import Intmax.Regev.Sums
import Intmax.Wallet.ExitKit
import Intmax.Wallet.Burn
import Intmax.Payout.Confirmation
import Intmax.Settlement.Participants
import Intmax.Channel.StateHash
import Intmax.Regev.HashSignature
import Intmax.EthereumTypes.U256Target
import Intmax.Circuits.Comparisons
import Intmax.Publisher.Calldata
