import ShadowLend.Foundation.Isolation
import ShadowLend.Ownership

/-! The accounts an instruction takes, as its context declares them: `mut` and `init`
ones to write, the others to read. The program keeps to them. -/

namespace ShadowLend

open Outcome Isolation Table

/-- A piece of the ledger. A log is what the instructions of one wallet have emitted. -/
inductive Cell
  | clock
  | market (mint : Pubkey)
  | position (user mint : Pubkey)
  | receipt (user mint : Pubkey)
  | stats (user : Pubkey)
  | mintAccount (address : Pubkey)
  | tokenAccount (address : Pubkey)
  | foreign (id : ℕ)
  | log (sender : Pubkey)

def Cell.Content : Cell → Type
  | .clock => Clock
  | .market _ => Option Market
  | .position _ _ => Option Position
  | .receipt _ _ => Option ClaimReceipt
  | .stats _ => Option UserStats
  | .mintAccount _ => Option Mint
  | .tokenAccount _ => Option TokenAccount
  | .foreign _ => Option ForeignAccount
  | .log _ => List Event

def Event.sender : Event → Pubkey
  | .faucetClaimed user _ _ _ => user
  | .marketAction user _ _ _ _ => user
  | .actionRecorded user _ _ _ => user
  | .liquidation liquidator _ _ _ _ _ => liquidator

def State.view (s : State) : (c : Cell) → c.Content
  | .clock => s.clock
  | .market mint => s.markets.lookup mint
  | .position user mint => s.positions.lookup (user, mint)
  | .receipt user mint => s.receipts.lookup (user, mint)
  | .stats user => s.stats.lookup user
  | .mintAccount address => s.mints.lookup address
  | .tokenAccount address => s.tokens.lookup address
  | .foreign id => s.foreign id
  | .log sender => s.events.filter fun event => event.sender = sender

/-- The account a cell is the content of. The clock is read without one, and what is
emitted goes to no account. -/
def Cell.account : Cell → Option Pubkey
  | .clock => none
  | .market mint => some (.market mint)
  | .position user mint => some (.position user mint)
  | .receipt user mint => some (.claim user mint)
  | .stats user => some (.stats user)
  | .mintAccount address => some address
  | .tokenAccount address => some address
  | .foreign id => some (.key id)
  | .log _ => none

/-- The account list of a transaction, less the programs it calls. -/
structure Locks where
  writable : List Pubkey
  readonly : List Pubkey

def Locks.accounts (locks : Locks) : List Pubkey := locks.writable ++ locks.readonly

def ModifyPosition.locks (user : Signer) (mint : Pubkey) : Locks where
  writable := [user.pubkey, .market mint, .position user.pubkey mint, .vault mint,
    .associatedToken user.pubkey mint]
  readonly := [mint, .authority mint]

def ModifyPositionWithPrice.locks (user : Signer) (mint priceUpdate : Pubkey)
    (remaining : List Pubkey) : Locks where
  writable := [user.pubkey, .market mint, .position user.pubkey mint, .vault mint,
    .associatedToken user.pubkey mint]
  readonly := [mint, .authority mint, priceUpdate] ++ remaining

def Liquidate.locks (accounts : LiquidateAccounts) (remaining : List Pubkey) : Locks where
  writable := [accounts.liquidator.pubkey, .market accounts.debtMint,
    .position accounts.borrower accounts.debtMint, .vault accounts.debtMint,
    accounts.liquidatorDebtAta, .market accounts.collateralMint,
    .position accounts.borrower accounts.collateralMint, .vault accounts.collateralMint,
    accounts.liquidatorCollateralAta]
  readonly := [accounts.borrower, accounts.debtPriceUpdate, .authority accounts.collateralMint,
    accounts.collateralPriceUpdate] ++ remaining

/-- Of the token program's instructions `burn` is left open: it also takes the mint,
which is named here through the account alone. -/
def HolderInstruction.locks (holder : Signer) : HolderInstruction → Option Locks
  | .transfer source destination _ => some ⟨[source, destination], [holder.pubkey]⟩
  | .burn _ _ => none
  | .setOwner account _ => some ⟨[account], [holder.pubkey]⟩
  | .createAccount address owner mint => some ⟨[holder.pubkey, address.pubkey], [owner, mint]⟩
  | .createAssociated owner mint =>
      some ⟨[holder.pubkey, .associatedToken owner mint], [owner, mint]⟩

/-- `none` for what may touch anything, such as time and the other programs. -/
def Action.locks : Action → Option Locks
  | .initializeMarket admin mint _ _ _ _ =>
      some ⟨[admin.pubkey, .market mint.pubkey, mint.pubkey, .vault mint.pubkey],
        [.authority mint.pubkey]⟩
  | .setClaimAmount admin mint _ => some ⟨[.market mint], [admin.pubkey]⟩
  | .claimFaucet user mint =>
      some ⟨[user.pubkey, .market mint, mint, .associatedToken user.pubkey mint,
        .claim user.pubkey mint], [.authority mint]⟩
  | .supply user mint _ => some (ModifyPosition.locks user mint)
  | .withdraw user mint priceUpdate remaining _ =>
      some (ModifyPositionWithPrice.locks user mint priceUpdate remaining)
  | .borrow user mint priceUpdate remaining _ =>
      some (ModifyPositionWithPrice.locks user mint priceUpdate remaining)
  | .repay user mint _ => some (ModifyPosition.locks user mint)
  | .liquidate accounts remaining _ => some (Liquidate.locks accounts remaining)
  | .initUserStats user => some ⟨[user.pubkey, .stats user.pubkey], []⟩
  | .recordAction user _ _ => some ⟨[.stats user.pubkey], [user.pubkey]⟩
  | .holder wallet instruction => instruction.locks wallet
  | .environment _ _ => none

def Action.sender : Action → Option Pubkey
  | .claimFaucet user _ => some user.pubkey
  | .supply user _ _ => some user.pubkey
  | .withdraw user _ _ _ _ => some user.pubkey
  | .borrow user _ _ _ _ => some user.pubkey
  | .repay user _ _ => some user.pubkey
  | .liquidate accounts _ _ => some accounts.liquidator.pubkey
  | .recordAction user _ _ => some user.pubkey
  | _ => none

def Action.reads (a : Action) (c : Cell) : Prop :=
  match a.locks with
  | some locks => c = .clock ∨ ∃ key ∈ locks.readonly, c.account = some key
  | none => True

def Action.writes (a : Action) (c : Cell) : Prop :=
  match a.locks with
  | some locks =>
      (∃ key ∈ locks.writable, c.account = some key) ∨ ∃ sender, a.sender = some sender ∧ c = .log sender
  | none => True

def lockFootprint : Footprint Action Cell := ⟨Action.reads, Action.writes⟩

/-- No account either list means to write is on the other one. -/
def Locks.Apart (locks other : Locks) : Prop :=
  (∀ key ∈ locks.writable, key ∉ other.accounts) ∧ ∀ key ∈ other.writable, key ∉ locks.accounts

instance (locks other : Locks) : Decidable (locks.Apart other) := by
  unfold Locks.Apart
  infer_instance

/-- Whether the runtime may carry out two transactions side by side. -/
def Action.Apart (a b : Action) : Prop :=
  match a.locks, b.locks with
  | some locks, some other => locks.Apart other
  | _, _ => False

instance (a b : Action) : Decidable (a.Apart b) := by
  unfold Action.Apart
  split <;> infer_instance

/-- A region of the ledger that holds all of some accounts. -/
def Encloses (region : Cell → Prop) (keys : List Pubkey) : Prop :=
  ∀ key ∈ keys, ∀ c : Cell, c.account = some key → region c

theorem Encloses.smaller {region : Cell → Prop} {keys fewer : List Pubkey}
    (encloses : Encloses region keys) (among : fewer ⊆ keys) : Encloses region fewer :=
  fun key member => encloses key (among member)

section Dependence

variable {rt : Runtime} {region : Cell → Prop} {s t : State} {tokens tokens' : Tokens}

def SameTokens (region : Cell → Prop) (tokens tokens' : Tokens) : Prop :=
  ∀ key, region (.tokenAccount key) → tokens.lookup key = tokens'.lookup key

theorem transferTokens_lockstep {source destination authority : Pubkey} {amount : U64}
    (same : SameTokens region tokens tokens') (from_ : region (.tokenAccount source))
    (to_ : region (.tokenAccount destination)) :
    Lockstep (SameTokens region) (transferTokens tokens source destination authority amount)
      (transferTokens tokens' source destination authority amount) := by
  unfold transferTokens
  rw [same source from_, same destination to_]
  refine .bind_same fun paying => .bind_same fun paid => ?_
  refine .bind_same fun _ => .bind_same fun _ => .bind_same fun _ => ?_
  split
  · exact .pure same
  · refine .bind_same fun debited => .bind_same fun credited => .pure fun key inside => ?_
    exact lookup_insert_congr (lookup_insert_congr (same key inside) _ _) _ _

theorem mintTokens_lockstep {mints mints' : Table Pubkey Mint} {mint destination : Pubkey}
    {amount : U64} (same : SameTokens region tokens tokens')
    (minted : ∀ key, region (.mintAccount key) → mints.lookup key = mints'.lookup key)
    (at_ : region (.mintAccount mint)) (to_ : region (.tokenAccount destination)) :
    Lockstep (fun made made' =>
        (∀ key, region (.mintAccount key) → made.1.lookup key = made'.1.lookup key) ∧
          SameTokens region made.2 made'.2)
      (mintTokens mints tokens mint destination amount)
      (mintTokens mints' tokens' mint destination amount) := by
  unfold mintTokens
  rw [minted mint at_, same destination to_]
  refine .bind_same fun issued => .bind_same fun paid => .bind_same fun _ => ?_
  refine .bind_same fun supply => .bind_same fun credited => .pure ⟨?_, ?_⟩
  · exact fun key inside => lookup_insert_congr (minted key inside) _ _
  · exact fun key inside => lookup_insert_congr (same key inside) _ _

theorem initAssociatedToken_lockstep {owner mint : Pubkey}
    (same : SameTokens region tokens tokens')
    (wallet : region (.tokenAccount (.associatedToken owner mint))) :
    Lockstep (SameTokens region) (initAssociatedToken tokens owner mint)
      (initAssociatedToken tokens' owner mint) := by
  unfold initAssociatedToken
  rw [same _ wallet]
  split
  · exact .ok fun key inside => lookup_insert_congr (same key inside) _ _
  · exact .bind_same fun _ => .bind_same fun _ => .pure same

theorem accountInfo_same {key : Pubkey}
    (same : ∀ c : Cell, c.account = some key → s.view c = t.view c) :
    s.accountInfo key = t.accountInfo key := by
  cases key with
  | default => rfl
  | authority mint => rfl
  | key id =>
      have minted : s.mints.lookup (.key id) = t.mints.lookup (.key id) := same (.mintAccount _) rfl
      have opened : s.tokens.lookup (.key id) = t.tokens.lookup (.key id) :=
        same (.tokenAccount _) rfl
      have foreign : s.foreign id = t.foreign id := same (.foreign id) rfl
      simp only [State.accountInfo, minted, opened, foreign]
  | market mint =>
      have stored : s.markets.lookup mint = t.markets.lookup mint := same (.market mint) rfl
      simp only [State.accountInfo, stored]
  | vault mint =>
      have stored : s.tokens.lookup (.vault mint) = t.tokens.lookup (.vault mint) :=
        same (.tokenAccount _) rfl
      simp only [State.accountInfo, stored]
  | claim user mint =>
      have stored : s.receipts.lookup (user, mint) = t.receipts.lookup (user, mint) :=
        same (.receipt user mint) rfl
      simp only [State.accountInfo, stored]
  | position user mint =>
      have stored : s.positions.lookup (user, mint) = t.positions.lookup (user, mint) :=
        same (.position user mint) rfl
      simp only [State.accountInfo, stored]
  | stats user =>
      have stored : s.stats.lookup user = t.stats.lookup user := same (.stats user) rfl
      simp only [State.accountInfo, stored]
  | associatedToken owner mint =>
      have stored : s.tokens.lookup (.associatedToken owner mint) =
          t.tokens.lookup (.associatedToken owner mint) := same (.tokenAccount _) rfl
      simp only [State.accountInfo, stored]

end Dependence

end ShadowLend
