import ShadowLend.Indices
import ShadowLend.Accounting
import ShadowLend.Collateralisation
import ShadowLend.Counting
import ShadowLend.Settlement
import ShadowLend.Solvency
import ShadowLend.CrossAsset
import ShadowLend.Admins
import ShadowLend.Devnet
import ShadowLend.Timeline
import ShadowLend.Provenance
import ShadowLend.Wealth
import ShadowLend.Relief
import ShadowLend.Agreement
import ShadowLend.Growth
import ShadowLend.Touching
import ShadowLend.Rounding
import ShadowLend.Shortfall
import ShadowLend.Liquidatable
import ShadowLend.Accrual
import ShadowLend.Circuits
import ShadowLend.Conversion
import ShadowLend.Seizure
import ShadowLend.Faucet
import ShadowLend.Splitting
import ShadowLend.Idl
import ShadowLend.Client.OpenPositions
import ShadowLend.Client.Base58
import ShadowLend.Client.Transactions
import ShadowLend.Client.Dashboard
import ShadowLend.Openings
import ShadowLend.Scheduling
import ShadowLend.Ownership
import ShadowLend.Charter
import ShadowLend.Preconditions
import ShadowLend.Exits
import ShadowLend.Departure
import ShadowLend.Statistics
import ShadowLend.Failures
import ShadowLend.Foreclosure
import ShadowLend.Interference
import ShadowLend.Client.HeroStats
import ShadowLend.Client.Safety
import ShadowLend.Client.Submissions
import ShadowLend.Client.Acceptance
