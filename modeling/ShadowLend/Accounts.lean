import ShadowLend.Foundation.Uint
import ShadowLend.Foundation.Outcome
import ShadowLend.Foundation.FiniteTable

/-! The accounts a ShadowLend ledger holds, under the source's field names. -/

namespace ShadowLend

abbrev U8 := Uint 8
abbrev U16 := Uint 16
abbrev U64 := Uint 64
abbrev U128 := Uint 128

theorem u16_le_u128 : 16 ≤ 128 := by decide

theorem u64_le_u128 : 64 ≤ 128 := by decide

abbrev FeedId := Vector U8 32

/-- Addresses are symbolic: a program-derived address is the constructor of its
seed prefix applied to its other seeds, so two derivations meet only when their
seeds are the same. `key` covers every address which is not derived that way. -/
inductive Pubkey
  | default
  | key (id : ℕ)
  | market (mint : Pubkey)
  | authority (mint : Pubkey)
  | vault (mint : Pubkey)
  | claim (user mint : Pubkey)
  | position (user mint : Pubkey)
  | stats (user : Pubkey)
  | associatedToken (owner mint : Pubkey)
  deriving DecidableEq

/-- An address which can sign an instruction. None of the derived addresses and
not the all-zero one can, so neither is a value of this type. -/
structure Signer where
  id : ℕ
  deriving DecidableEq

def Signer.pubkey (signer : Signer) : Pubkey := .key signer.id

theorem Signer.pubkey_ne_default (signer : Signer) : signer.pubkey ≠ Pubkey.default := by
  simp [Signer.pubkey]

inductive ProgramId
  | shadowLend
  | splToken
  | pythReceiver
  | system
  | other (id : ℕ)
  deriving DecidableEq

structure Clock where
  slot : U64
  unixTimestamp : Int64

structure Market where
  admin : Pubkey
  mint : Pubkey
  amountPerClaim : U64
  maxLtvBps : U16
  feedId : FeedId
  borrowRatePerSlotE18 : U64
  borrowIndexE18 : U128
  lastUpdateSlot : U64
  totalSupplied : U64
  totalBorrowed : U64
  claimCount : U64
  bump : U8
  authorityBump : U8

structure Position where
  user : Pubkey
  market : Pubkey
  supplied : U64
  borrowed : U64
  feedId : FeedId
  maxLtvBps : U16
  decimals : U8
  bump : U8
  borrowIndexSnapshotE18 : U128

def Position.zeroed : Position where
  user := .default
  market := .default
  supplied := 0
  borrowed := 0
  feedId := Vector.replicate 32 0
  maxLtvBps := 0
  decimals := 0
  bump := 0
  borrowIndexSnapshotE18 := 0

structure ClaimReceipt where
  user : Pubkey
  mint : Pubkey
  amount : U64
  claimedAt : Int64
  bump : U8

structure UserStats where
  user : Pubkey
  createdAt : Int64
  lastActionAt : Int64
  proofsSubmitted : U64
  supplies : U64
  borrows : U64
  repays : U64
  liquidations : U64
  lastHealthBps : U16
  bump : U8

inductive ActionKind
  | supply
  | borrow
  | repay
  | liquidation
  deriving DecidableEq

inductive MarketActionKind
  | supply
  | withdraw
  | borrow
  | repay
  deriving DecidableEq

inductive Event
  | faucetClaimed (user mint : Pubkey) (amount : U64) (claimedAt : Int64)
  | marketAction (user mint : Pubkey) (kind : MarketActionKind) (supplied borrowed : U64)
  | actionRecorded (user : Pubkey) (kind : ActionKind) (healthBps : U16) (at_ : Int64)
  | liquidation (liquidator borrower debtMint collateralMint : Pubkey) (repaid seized : U64)

inductive MarketError
  | notAdmin
  | mintMismatch
  | badLtv
  | zeroAmount
  | exceedsLtv
  | wouldBeUnhealthy
  | insufficientCollateral
  | insufficientLiquidity
  | nothingToRepay
  | overflow
  | badRemainingAccounts
  | badPositionAccount
  | badPriceFeed
  | stalePrice
  | sameMintBorrow
  | positionHealthy
  | nothingToLiquidate
  | selfLiquidation
  | unauthorized
  deriving DecidableEq

inductive StatsError
  | unauthorized
  | overflow
  deriving DecidableEq

inductive AnchorError
  | accountNotInitialized
  | accountAlreadyInUse
  | tryingToInitPayerAsProgramAccount
  | accountOwnedByWrongProgram
  | accountDiscriminatorMismatch
  | constraintSeeds
  | constraintTokenMint
  | constraintTokenOwner
  deriving DecidableEq

inductive TokenError
  | uninitialized
  | mintMismatch
  | ownerMismatch
  | insufficientFunds
  | overflow
  deriving DecidableEq

/-- Why an instruction aborts. `panicked` is an arithmetic panic, which the
release profile's overflow checks turn into an abort of the transaction. -/
inductive ProgramError
  | market (error : MarketError)
  | stats (error : StatsError)
  | anchor (error : AnchorError)
  | token (error : TokenError)
  | panicked
  | clockRewound
  deriving DecidableEq

structure Price where
  price : Int64
  conf : U64
  exponent : Int32
  publishTime : Int64
  deriving DecidableEq

inductive VerificationLevel
  | partially (numSignatures : U8)
  | full
  deriving DecidableEq

structure PriceUpdateV2 where
  verificationLevel : VerificationLevel
  feedId : FeedId
  price : Price

/-- The two pieces of code the program calls and does not contain: the bump
search of an address derivation and the price reader of the Pyth SDK. -/
structure Runtime where
  findBump : Pubkey → U8
  getPriceNoOlderThan : PriceUpdateV2 → Clock → U64 → FeedId → Option Price

structure Mint where
  supply : U64
  decimals : U8

structure TokenAccount where
  mint : Pubkey
  owner : Pubkey
  amount : U64

abbrev Tokens := Table Pubkey TokenAccount

inductive AccountData
  | position (position : Position)
  | priceUpdate (update : PriceUpdateV2)
  | other

def AccountData.asPosition : AccountData → Option Position
  | .position held => some held
  | _ => none

def AccountData.asPriceUpdate : AccountData → Option PriceUpdateV2
  | .priceUpdate held => some held
  | _ => none

/-- An account no instruction of the program created. Anyone may allocate one
under the program's id, but then its data is still zero. -/
structure ForeignAccount where
  owner : ProgramId
  data : AccountData
  unwritten : owner = .shadowLend → data = .other

structure AccountInfo where
  key : Pubkey
  owner : ProgramId
  data : AccountData

/-- The ledger. Each table is keyed by the seeds of its accounts' addresses:
markets by mint, positions and receipts by user and mint, stats by user. -/
structure State where
  clock : Clock
  markets : Table Pubkey Market
  positions : Table (Pubkey × Pubkey) Position
  receipts : Table (Pubkey × Pubkey) ClaimReceipt
  stats : Table Pubkey UserStats
  mints : Table Pubkey Mint
  tokens : Tokens
  foreign : ℕ → Option ForeignAccount
  events : List Event

def State.empty : State where
  clock := ⟨0, 0⟩
  markets := ∅
  positions := ∅
  receipts := ∅
  stats := ∅
  mints := ∅
  tokens := ∅
  foreign := fun _ => none
  events := []

def State.accountInfo (s : State) (key : Pubkey) : AccountInfo :=
  let held (present : Bool) (owner : ProgramId) : AccountInfo :=
    ⟨key, if present then owner else .system, .other⟩
  match key with
  | .position user mint =>
      match s.positions.lookup (user, mint) with
      | some position => ⟨key, .shadowLend, .position position⟩
      | none => ⟨key, .system, .other⟩
  | .market mint => held (s.markets.lookup mint).isSome .shadowLend
  | .claim user mint => held (s.receipts.lookup (user, mint)).isSome .shadowLend
  | .stats user => held (s.stats.lookup user).isSome .shadowLend
  | .vault _ | .associatedToken _ _ => held (s.tokens.lookup key).isSome .splToken
  | .key id =>
      if (s.mints.lookup key).isSome || (s.tokens.lookup key).isSome then
        ⟨key, .splToken, .other⟩
      else
        match s.foreign id with
        | some account => ⟨key, account.owner, account.data⟩
        | none => ⟨key, .system, .other⟩
  | .authority _ | .default => ⟨key, .system, .other⟩

@[simp] theorem accountInfo_key (s : State) (key : Pubkey) : (s.accountInfo key).key = key := by
  unfold State.accountInfo
  cases key <;> simp only [] <;> split <;> try rfl
  split <;> rfl

/-- Only the program writes the accounts it owns, so an account which passes the
owner check and reads as a position is the stored position of its address. -/
theorem accountInfo_position {s : State} {key : Pubkey} {position : Position}
    (owned : (s.accountInfo key).owner = .shadowLend)
    (data : (s.accountInfo key).data.asPosition = some position) :
    ∃ user mint, key = .position user mint ∧
      s.positions.lookup (user, mint) = some position := by
  cases key with
  | position user mint =>
      refine ⟨user, mint, rfl, ?_⟩
      cases found : s.positions.lookup (user, mint) with
      | none => simp [State.accountInfo, found, AccountData.asPosition] at data
      | some stored =>
          simp only [State.accountInfo, found, AccountData.asPosition] at data
          exact data
  | key id =>
      simp only [State.accountInfo] at owned data
      split at owned
      · cases owned
      · rename_i vacant
        rw [if_neg vacant] at data
        split at owned
        · rename_i account found
          rw [found] at data
          simp only [account.unwritten owned, AccountData.asPosition] at data
          cases data
        · cases owned
  | _ => simp [State.accountInfo, AccountData.asPosition] at data

end ShadowLend
