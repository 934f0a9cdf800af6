import ShadowLend.Devnet
import ShadowLend.Foundation.Wire

/-! How the program writes its accounts and events: the fields of each declaration in
their order, integers little-endian, an enum as the tag of its variant. An account has
the room its `init` constraint gave it. -/

namespace ShadowLend

open Wire Devnet

/-- An enum without payloads, whose tags fit one byte. -/
structure Enumeration where
  name : String
  variants : List String
  tagged : variants.length ≤ 256

/-- A declared field at its value. -/
inductive Field
  | u8 (value : U8)
  | u16 (value : U16)
  | u64 (value : U64)
  | u128 (value : U128)
  | i64 (value : Int64)
  | pubkey (key : Pubkey)
  | bytes32 (value : FeedId)
  | variant (kind : Enumeration) (index : Fin kind.variants.length)

def Field.size : Field → ℕ
  | .u8 _ | .variant _ _ => 1
  | .u16 _ => 2
  | .u64 _ | .i64 _ => 8
  | .u128 _ => 16
  | .pubkey _ | .bytes32 _ => 32

abbrev Declaration := List (String × Field)

def Market.declaration (market : Market) : Declaration :=
  [("admin", .pubkey market.admin),
    ("mint", .pubkey market.mint),
    ("amount_per_claim", .u64 market.amountPerClaim),
    ("max_ltv_bps", .u16 market.maxLtvBps),
    ("feed_id", .bytes32 market.feedId),
    ("borrow_rate_per_slot_e18", .u64 market.borrowRatePerSlotE18),
    ("borrow_index_e18", .u128 market.borrowIndexE18),
    ("last_update_slot", .u64 market.lastUpdateSlot),
    ("total_supplied", .u64 market.totalSupplied),
    ("total_borrowed", .u64 market.totalBorrowed),
    ("claim_count", .u64 market.claimCount),
    ("bump", .u8 market.bump),
    ("authority_bump", .u8 market.authorityBump)]

def Market.size : ℕ := 32 + 32 + 8 + 2 + 32 + 8 + 16 + 8 + 8 + 8 + 8 + 1 + 1

def Position.declaration (position : Position) : Declaration :=
  [("user", .pubkey position.user),
    ("market", .pubkey position.market),
    ("supplied", .u64 position.supplied),
    ("borrowed", .u64 position.borrowed),
    ("feed_id", .bytes32 position.feedId),
    ("max_ltv_bps", .u16 position.maxLtvBps),
    ("decimals", .u8 position.decimals),
    ("bump", .u8 position.bump),
    ("borrow_index_snapshot_e18", .u128 position.borrowIndexSnapshotE18)]

def Position.size : ℕ := 32 + 32 + 8 + 8 + 32 + 2 + 1 + 1 + 16

def ClaimReceipt.declaration (receipt : ClaimReceipt) : Declaration :=
  [("user", .pubkey receipt.user),
    ("mint", .pubkey receipt.mint),
    ("amount", .u64 receipt.amount),
    ("claimed_at", .i64 receipt.claimedAt),
    ("bump", .u8 receipt.bump)]

def ClaimReceipt.size : ℕ := 32 + 32 + 8 + 8 + 1

def UserStats.declaration (stats : UserStats) : Declaration :=
  [("user", .pubkey stats.user),
    ("created_at", .i64 stats.createdAt),
    ("last_action_at", .i64 stats.lastActionAt),
    ("proofs_submitted", .u64 stats.proofsSubmitted),
    ("supplies", .u64 stats.supplies),
    ("borrows", .u64 stats.borrows),
    ("repays", .u64 stats.repays),
    ("liquidations", .u64 stats.liquidations),
    ("last_health_bps", .u16 stats.lastHealthBps),
    ("bump", .u8 stats.bump)]

def UserStats.size : ℕ := 32 + 8 + 8 + 8 + 8 + 8 + 8 + 8 + 2 + 1

def ActionKind.enumeration : Enumeration :=
  ⟨"ActionKind", ["Supply", "Borrow", "Repay", "Liquidation"], by decide⟩

def ActionKind.field : ActionKind → Field
  | .supply => .variant ActionKind.enumeration ⟨0, by decide⟩
  | .borrow => .variant ActionKind.enumeration ⟨1, by decide⟩
  | .repay => .variant ActionKind.enumeration ⟨2, by decide⟩
  | .liquidation => .variant ActionKind.enumeration ⟨3, by decide⟩

def MarketActionKind.enumeration : Enumeration :=
  ⟨"MarketActionKind", ["Supply", "Withdraw", "Borrow", "Repay"], by decide⟩

def MarketActionKind.field : MarketActionKind → Field
  | .supply => .variant MarketActionKind.enumeration ⟨0, by decide⟩
  | .withdraw => .variant MarketActionKind.enumeration ⟨1, by decide⟩
  | .borrow => .variant MarketActionKind.enumeration ⟨2, by decide⟩
  | .repay => .variant MarketActionKind.enumeration ⟨3, by decide⟩

inductive ProgramAccount
  | market (market : Market)
  | position (position : Position)
  | claimReceipt (receipt : ClaimReceipt)
  | userStats (stats : UserStats)

namespace ProgramAccount

def name : ProgramAccount → String
  | .market _ => "Market"
  | .position _ => "Position"
  | .claimReceipt _ => "ClaimReceipt"
  | .userStats _ => "UserStats"

def declaration : ProgramAccount → Declaration
  | .market held => held.declaration
  | .position held => held.declaration
  | .claimReceipt held => held.declaration
  | .userStats held => held.declaration

def space : ProgramAccount → ℕ
  | .market _ => 8 + Market.size
  | .position _ => 8 + Position.size
  | .claimReceipt _ => 8 + ClaimReceipt.size
  | .userStats _ => 8 + UserStats.size

end ProgramAccount

def Event.name : Event → String
  | .faucetClaimed .. => "FaucetClaimed"
  | .marketAction .. => "MarketAction"
  | .actionRecorded .. => "ActionRecorded"
  | .liquidation .. => "Liquidation"

def Event.declaration : Event → Declaration
  | .faucetClaimed user mint amount claimedAt =>
      [("user", .pubkey user), ("mint", .pubkey mint), ("amount", .u64 amount),
        ("claimed_at", .i64 claimedAt)]
  | .marketAction user mint kind supplied borrowed =>
      [("user", .pubkey user), ("mint", .pubkey mint), ("kind", kind.field),
        ("supplied", .u64 supplied), ("borrowed", .u64 borrowed)]
  | .actionRecorded user kind healthBps at_ =>
      [("user", .pubkey user), ("kind", kind.field), ("health_bps", .u16 healthBps),
        ("at", .i64 at_)]
  | .liquidation liquidator borrower debtMint collateralMint repaid seized =>
      [("liquidator", .pubkey liquidator), ("borrower", .pubkey borrower),
        ("debt_mint", .pubkey debtMint), ("collateral_mint", .pubkey collateralMint),
        ("repaid", .u64 repaid), ("seized", .u64 seized)]

/-- The bytes which stand for addresses, and the tags before the data of accounts, are
hashes: any assignment of them will do. -/
structure Hashes where
  address : Pubkey → Vector Byte 32
  discriminator : String → Vector Byte 8

variable (hashes : Hashes)

def Field.serialize : Field → List Byte
  | .u8 value => bytesOf 1 value.val
  | .u16 value => bytesOf 2 value.val
  | .u64 value => bytesOf 8 value.val
  | .u128 value => bytesOf 16 value.val
  | .i64 value => bytesOfInt 8 value.toInt
  | .pubkey key => (hashes.address key).toList
  | .bytes32 value => value.toList
  | .variant _ index => bytesOf 1 index.val

def serialize (declaration : Declaration) : List Byte :=
  declaration.flatMap fun field => field.2.serialize hashes

def ProgramAccount.data (account : ProgramAccount) : List Byte :=
  (hashes.discriminator account.name).toList ++ serialize hashes account.declaration

theorem Field.length_serialize (field : Field) : (field.serialize hashes).length = field.size := by
  cases field with
  | pubkey key => exact Vector.length_toList
  | bytes32 value => exact Vector.length_toList
  | _ => exact length_bytesOf _ _

theorem length_serialize (declaration : Declaration) :
    (serialize hashes declaration).length = (declaration.map fun field => field.2.size).sum := by
  rw [serialize, List.length_flatMap]
  exact congrArg List.sum (List.map_congr_left fun field _ => field.2.length_serialize hashes)

/-- What is written back fills its account to the last byte. -/
theorem ProgramAccount.length_data (account : ProgramAccount) :
    (account.data hashes).length = account.space := by
  rw [ProgramAccount.data, List.length_append, Vector.length_toList, length_serialize]
  cases account with
  | _ held => rfl

end ShadowLend
