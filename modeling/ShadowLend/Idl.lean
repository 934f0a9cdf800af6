import ShadowLend.Serialization

/-! The type tables of the hand-built IDL, and a client which reads accounts and events
by them. The program never sees these tables: they have to agree with its declarations
field by field. -/

namespace ShadowLend

open Wire

inductive IdlType
  | u8
  | u16
  | u64
  | u128
  | i64
  | pubkey
  | array (element : IdlType) (length : ℕ)
  | defined (name : String)

inductive IdlTypeDef
  | struct (fields : List (String × IdlType))
  | enum (variants : List String)

/-- `idl.types`. -/
def idlTypes : List (String × IdlTypeDef) :=
  [("Market", .struct
      [("admin", .pubkey),
        ("mint", .pubkey),
        ("amount_per_claim", .u64),
        ("max_ltv_bps", .u16),
        ("feed_id", .array .u8 32),
        ("borrow_rate_per_slot_e18", .u64),
        ("borrow_index_e18", .u128),
        ("last_update_slot", .u64),
        ("total_supplied", .u64),
        ("total_borrowed", .u64),
        ("claim_count", .u64),
        ("bump", .u8),
        ("authority_bump", .u8)]),
    ("Position", .struct
      [("user", .pubkey),
        ("market", .pubkey),
        ("supplied", .u64),
        ("borrowed", .u64),
        ("feed_id", .array .u8 32),
        ("max_ltv_bps", .u16),
        ("decimals", .u8),
        ("bump", .u8),
        ("borrow_index_snapshot_e18", .u128)]),
    ("ClaimReceipt", .struct
      [("user", .pubkey),
        ("mint", .pubkey),
        ("amount", .u64),
        ("claimed_at", .i64),
        ("bump", .u8)]),
    ("UserStats", .struct
      [("user", .pubkey),
        ("created_at", .i64),
        ("last_action_at", .i64),
        ("proofs_submitted", .u64),
        ("supplies", .u64),
        ("borrows", .u64),
        ("repays", .u64),
        ("liquidations", .u64),
        ("last_health_bps", .u16),
        ("bump", .u8)]),
    ("ActionKind", .enum ["Supply", "Borrow", "Repay", "Liquidation"]),
    ("MarketActionKind", .enum ["Supply", "Withdraw", "Borrow", "Repay"]),
    ("FaucetClaimed", .struct
      [("user", .pubkey),
        ("mint", .pubkey),
        ("amount", .u64),
        ("claimed_at", .i64)]),
    ("MarketAction", .struct
      [("user", .pubkey),
        ("mint", .pubkey),
        ("kind", .defined "MarketActionKind"),
        ("supplied", .u64),
        ("borrowed", .u64)]),
    ("ActionRecorded", .struct
      [("user", .pubkey),
        ("kind", .defined "ActionKind"),
        ("health_bps", .u16),
        ("at", .i64)]),
    ("Liquidation", .struct
      [("liquidator", .pubkey),
        ("borrower", .pubkey),
        ("debt_mint", .pubkey),
        ("collateral_mint", .pubkey),
        ("repaid", .u64),
        ("seized", .u64)])]

/-- What a client has after decoding. -/
inductive Value
  | number (value : ℤ)
  | pubkey (bytes : List Byte)
  | array (elements : List Value)
  | variant (name : String)
  | struct (fields : List (String × Value))

def Value.natural (value : ℕ) : Value := .number value

def IdlType.decode (named : String → Decoder Value) : IdlType → Decoder Value
  | .u8 => (unsigned 1).map .natural
  | .u16 => (unsigned 2).map .natural
  | .u64 => (unsigned 8).map .natural
  | .u128 => (unsigned 16).map .natural
  | .i64 => (signed 8).map .number
  | .pubkey => (raw 32).map .pubkey
  | .array element length => (each (List.replicate length (element.decode named))).map .array
  | .defined name => named name

def IdlTypeDef.decode (named : String → Decoder Value) : IdlTypeDef → Decoder Value
  | .struct fields =>
      (each (fields.map fun field => (field.2.decode named).map (field.1, ·))).map .struct
  | .enum variants =>
      (unsigned 1).bind fun tag bytes => variants[tag]?.map fun name => (.variant name, bytes)

def decodeNamed (types : List (String × IdlTypeDef)) : ℕ → String → Decoder Value
  | 0, _ => fun _ => none
  | depth + 1, name =>
      match types.lookup name with
      | some definition => definition.decode (decodeNamed types depth)
      | none => fun _ => none

/-- Bytes are read whole or not at all; a chain of names is no longer than the tables. -/
def decodeType (name : String) (bytes : List Byte) : Option Value :=
  match decodeNamed idlTypes idlTypes.length name bytes with
  | some (value, []) => some value
  | _ => none

section Fields

variable (hashes : Hashes)

def Field.idlType : Field → IdlType
  | .u8 _ => .u8
  | .u16 _ => .u16
  | .u64 _ => .u64
  | .u128 _ => .u128
  | .i64 _ => .i64
  | .pubkey _ => .pubkey
  | .bytes32 _ => .array .u8 32
  | .variant kind _ => .defined kind.name

def Field.value : Field → Value
  | .u8 value => .natural value.val
  | .u16 value => .natural value.val
  | .u64 value => .natural value.val
  | .u128 value => .natural value.val
  | .i64 value => .number value.toInt
  | .pubkey key => .pubkey (hashes.address key).toList
  | .bytes32 value => .array (value.toList.map fun byte => .natural byte.val)
  | .variant kind index => .variant kind.variants[index]

def Declaration.values (declaration : Declaration) : List (String × Value) :=
  declaration.map fun field => (field.1, field.2.value hashes)

/-- The row of the tables a declaration needs. -/
def Declaration.idlFields (declaration : Declaration) : List (String × IdlType) :=
  declaration.map fun field => (field.1, field.2.idlType)

theorem bytes_reads (named : String → Decoder Value) (bytes : List Byte) :
    Reads (each (List.replicate bytes.length (IdlType.u8.decode named))) bytes
      (bytes.map fun byte => .natural byte.val) := by
  have one (byte : Byte) : Reads (IdlType.u8.decode named) [byte] (.natural byte.val) := by
    have read := (unsigned_reads 1 (byte_lt byte)).map Value.natural
    have same : bytesOf 1 byte.val = [byte] :=
      congrArg (· :: []) (Fin.ext (Nat.mod_eq_of_lt (byte_lt byte)))
    rw [same] at read
    exact read
  have all := each_reads bytes fun byte _ => one byte
  rw [List.map_const', List.flatMap_singleton'] at all
  exact all

theorem Field.reads (named : String → Decoder Value) (field : Field)
    (tags : ∀ kind index, field = .variant kind index →
      Reads (named kind.name) (bytesOf 1 index.val) (.variant kind.variants[index])) :
    Reads (field.idlType.decode named) (field.serialize hashes) (field.value hashes) := by
  cases field with
  | u8 value => exact (unsigned_reads 1 value.isLt).map Value.natural
  | u16 value => exact (unsigned_reads 2 value.isLt).map Value.natural
  | u64 value => exact (unsigned_reads 8 value.isLt).map Value.natural
  | u128 value => exact (unsigned_reads 16 value.isLt).map Value.natural
  | i64 value =>
      have low := value.le_toInt
      have high := value.toInt_lt
      exact (signed_reads 8 (by omega) (by omega)).map Value.number
  | pubkey key => exact (raw_reads Vector.length_toList).map Value.pubkey
  | bytes32 value =>
      have read := (bytes_reads named value.toList).map Value.array
      rw [Vector.length_toList] at read
      exact read
  | variant kind index => exact tags kind index rfl

end Fields

/-- The tables have the row a declaration needs, and those of the enums in it. -/
structure Declaration.Tabled (declaration : Declaration) (name : String) : Prop where
  row : idlTypes.lookup name = some (.struct declaration.idlFields)
  enums : ∀ field ∈ declaration, ∀ kind index, field.2 = .variant kind index →
    idlTypes.lookup kind.name = some (.enum kind.variants)

theorem enum_reads {kind : Enumeration} (tabled : idlTypes.lookup kind.name =
    some (.enum kind.variants)) (depth : ℕ) (index : Fin kind.variants.length) :
    Reads (decodeNamed idlTypes (depth + 1) kind.name) (bytesOf 1 index.val)
      (.variant kind.variants[index]) := by
  have tag : index.val < 256 ^ 1 := index.isLt.trans_le kind.tagged
  intro rest
  rw [decodeNamed, tabled]
  simp only [IdlTypeDef.decode, Decoder.bind, unsigned_reads 1 tag rest, Option.bind_some,
    List.getElem?_eq_getElem index.isLt, Option.map_some]
  rfl

/-- Fields in the order of their declaration are decoded by the row of the tables. -/
theorem declaration_reads (hashes : Hashes) {declaration : Declaration} {name : String}
    (tabled : declaration.Tabled name) (depth : ℕ) :
    Reads (decodeNamed idlTypes (depth + 2) name) (serialize hashes declaration)
      (.struct (declaration.values hashes)) := by
  have fields : ∀ field ∈ declaration,
      Reads ((field.2.idlType.decode (decodeNamed idlTypes (depth + 1))).map (field.1, ·))
        (field.2.serialize hashes) (field.1, field.2.value hashes) := by
    intro field member
    have read := field.2.reads hashes (decodeNamed idlTypes (depth + 1))
      fun kind index same => enum_reads (tabled.enums field member kind index same) depth index
    exact read.map (field.1, ·)
  have all := (each_reads declaration fields).map Value.struct
  intro rest
  rw [decodeNamed, tabled.row]
  simp only [IdlTypeDef.decode, Declaration.idlFields, List.map_map, Function.comp_def]
  exact all rest

theorem decodeType_of_tabled (hashes : Hashes) {declaration : Declaration} {name : String}
    (tabled : declaration.Tabled name) :
    decodeType name (serialize hashes declaration) =
      some (.struct (declaration.values hashes)) := by
  have read := declaration_reads hashes tabled 8 []
  rw [List.append_nil] at read
  have depth : idlTypes.length = 8 + 2 := by decide
  rw [decodeType, depth, read]

theorem ActionKind.tabled (action : ActionKind) :
    ∀ kind index, action.field = .variant kind index →
      idlTypes.lookup kind.name = some (.enum kind.variants) := by
  intro kind index same
  cases action <;> cases same <;> rfl

theorem MarketActionKind.tabled (action : MarketActionKind) :
    ∀ kind index, action.field = .variant kind index →
      idlTypes.lookup kind.name = some (.enum kind.variants) := by
  intro kind index same
  cases action <;> cases same <;> rfl

theorem tabled_of_row {declaration : Declaration} {name : String}
    (row : idlTypes.lookup name = some (.struct declaration.idlFields))
    (plain : ∀ field ∈ declaration, ∀ kind index, field.2 ≠ .variant kind index) :
    declaration.Tabled name :=
  ⟨row, fun field member kind index same => absurd same (plain field member kind index)⟩

theorem ProgramAccount.tabled (account : ProgramAccount) :
    account.declaration.Tabled account.name := by
  cases account with
  | _ held => exact tabled_of_row rfl (by
      simp [ProgramAccount.declaration, Market.declaration, Position.declaration,
        ClaimReceipt.declaration, UserStats.declaration])

theorem Event.tabled (event : Event) : event.declaration.Tabled event.name := by
  cases event with
  | faucetClaimed user mint amount claimedAt =>
      exact tabled_of_row rfl (by simp [Event.declaration])
  | liquidation liquidator borrower debtMint collateralMint repaid seized =>
      exact tabled_of_row rfl (by simp [Event.declaration])
  | marketAction user mint kind supplied borrowed =>
      have row : idlTypes.lookup "MarketAction" = some (.struct
          (Event.marketAction user mint kind supplied borrowed).declaration.idlFields) := by
        cases kind <;> rfl
      refine ⟨row, ?_⟩
      have enums := kind.tabled
      simpa [Event.declaration] using enums
  | actionRecorded user kind healthBps at_ =>
      have row : idlTypes.lookup "ActionRecorded" = some (.struct
          (Event.actionRecorded user kind healthBps at_).declaration.idlFields) := by
        cases kind <;> rfl
      refine ⟨row, ?_⟩
      have enums := kind.tabled
      simpa [Event.declaration] using enums

section Records

def Value.uint (bits : ℕ) : Value → Option (Uint bits)
  | .number value =>
      if fits : 0 ≤ value ∧ value.toNat < 2 ^ bits then some ⟨value.toNat, fits.2⟩ else none
  | _ => none

def Value.int64 : Value → Option Int64
  | .number value => some (.ofInt value)
  | _ => none

def Value.bytes32 : Value → Option FeedId
  | .array elements => do
      let bytes ← elements.mapM (Value.uint 8)
      if length : bytes.length = 32 then some ⟨bytes.toArray, length⟩ else none
  | _ => none

/-- An address, as the client names the one of these bytes. -/
def Value.key (resolve : List Byte → Pubkey) : Value → Option Pubkey
  | .pubkey bytes => some (resolve bytes)
  | _ => none

def ActionKind.ofValue : Value → Option ActionKind
  | .variant "Supply" => some .supply
  | .variant "Borrow" => some .borrow
  | .variant "Repay" => some .repay
  | .variant "Liquidation" => some .liquidation
  | _ => none

def MarketActionKind.ofValue : Value → Option MarketActionKind
  | .variant "Supply" => some .supply
  | .variant "Withdraw" => some .withdraw
  | .variant "Borrow" => some .borrow
  | .variant "Repay" => some .repay
  | _ => none

abbrev Record := List (String × Value)

/-- What the client reads under a name. -/
def Record.get {α : Type} (record : Record) (name : String) (read : Value → Option α) : Option α :=
  (record.lookup name).bind read

theorem Record.get_cons {α : Type} (entry : String × Value) (rest : Record) (name : String)
    (read : Value → Option α) :
    Record.get (entry :: rest) name read =
      if name = entry.1 then read entry.2 else Record.get rest name read := by
  rw [Record.get, List.lookup_cons]
  by_cases named : name = entry.1
  · rw [if_pos named, beq_iff_eq.mpr named]
    rfl
  · rw [if_neg named, beq_eq_false_iff_ne.mpr named]
    rfl

section Readers

variable (resolve : List Byte → Pubkey) (record : Record)

def Market.ofRecord : Option Market := do
  let admin ← record.get "admin" (Value.key resolve)
  let mint ← record.get "mint" (Value.key resolve)
  let amountPerClaim ← record.get "amount_per_claim" (Value.uint 64)
  let maxLtvBps ← record.get "max_ltv_bps" (Value.uint 16)
  let feedId ← record.get "feed_id" Value.bytes32
  let borrowRatePerSlotE18 ← record.get "borrow_rate_per_slot_e18" (Value.uint 64)
  let borrowIndexE18 ← record.get "borrow_index_e18" (Value.uint 128)
  let lastUpdateSlot ← record.get "last_update_slot" (Value.uint 64)
  let totalSupplied ← record.get "total_supplied" (Value.uint 64)
  let totalBorrowed ← record.get "total_borrowed" (Value.uint 64)
  let claimCount ← record.get "claim_count" (Value.uint 64)
  let bump ← record.get "bump" (Value.uint 8)
  let authorityBump ← record.get "authority_bump" (Value.uint 8)
  pure { admin, mint, amountPerClaim, maxLtvBps, feedId, borrowRatePerSlotE18, borrowIndexE18,
         lastUpdateSlot, totalSupplied, totalBorrowed, claimCount, bump, authorityBump }

def Position.ofRecord : Option Position := do
  let user ← record.get "user" (Value.key resolve)
  let market ← record.get "market" (Value.key resolve)
  let supplied ← record.get "supplied" (Value.uint 64)
  let borrowed ← record.get "borrowed" (Value.uint 64)
  let feedId ← record.get "feed_id" Value.bytes32
  let maxLtvBps ← record.get "max_ltv_bps" (Value.uint 16)
  let decimals ← record.get "decimals" (Value.uint 8)
  let bump ← record.get "bump" (Value.uint 8)
  let borrowIndexSnapshotE18 ← record.get "borrow_index_snapshot_e18" (Value.uint 128)
  pure { user, market, supplied, borrowed, feedId, maxLtvBps, decimals, bump,
         borrowIndexSnapshotE18 }

def ClaimReceipt.ofRecord : Option ClaimReceipt := do
  let user ← record.get "user" (Value.key resolve)
  let mint ← record.get "mint" (Value.key resolve)
  let amount ← record.get "amount" (Value.uint 64)
  let claimedAt ← record.get "claimed_at" Value.int64
  let bump ← record.get "bump" (Value.uint 8)
  pure { user, mint, amount, claimedAt, bump }

def UserStats.ofRecord : Option UserStats := do
  let user ← record.get "user" (Value.key resolve)
  let createdAt ← record.get "created_at" Value.int64
  let lastActionAt ← record.get "last_action_at" Value.int64
  let proofsSubmitted ← record.get "proofs_submitted" (Value.uint 64)
  let supplies ← record.get "supplies" (Value.uint 64)
  let borrows ← record.get "borrows" (Value.uint 64)
  let repays ← record.get "repays" (Value.uint 64)
  let liquidations ← record.get "liquidations" (Value.uint 64)
  let lastHealthBps ← record.get "last_health_bps" (Value.uint 16)
  let bump ← record.get "bump" (Value.uint 8)
  pure { user, createdAt, lastActionAt, proofsSubmitted, supplies, borrows, repays, liquidations,
         lastHealthBps, bump }

def ProgramAccount.ofRecord (name : String) : Option ProgramAccount :=
  match name with
  | "Market" => (Market.ofRecord resolve record).map .market
  | "Position" => (Position.ofRecord resolve record).map .position
  | "ClaimReceipt" => (ClaimReceipt.ofRecord resolve record).map .claimReceipt
  | "UserStats" => (UserStats.ofRecord resolve record).map .userStats
  | _ => none

def Event.ofRecord (name : String) : Option Event :=
  match name with
  | "FaucetClaimed" => do
      let user ← record.get "user" (Value.key resolve)
      let mint ← record.get "mint" (Value.key resolve)
      let amount ← record.get "amount" (Value.uint 64)
      let claimedAt ← record.get "claimed_at" Value.int64
      pure (.faucetClaimed user mint amount claimedAt)
  | "MarketAction" => do
      let user ← record.get "user" (Value.key resolve)
      let mint ← record.get "mint" (Value.key resolve)
      let kind ← record.get "kind" MarketActionKind.ofValue
      let supplied ← record.get "supplied" (Value.uint 64)
      let borrowed ← record.get "borrowed" (Value.uint 64)
      pure (.marketAction user mint kind supplied borrowed)
  | "ActionRecorded" => do
      let user ← record.get "user" (Value.key resolve)
      let kind ← record.get "kind" ActionKind.ofValue
      let healthBps ← record.get "health_bps" (Value.uint 16)
      let at_ ← record.get "at" Value.int64
      pure (.actionRecorded user kind healthBps at_)
  | "Liquidation" => do
      let liquidator ← record.get "liquidator" (Value.key resolve)
      let borrower ← record.get "borrower" (Value.key resolve)
      let debtMint ← record.get "debt_mint" (Value.key resolve)
      let collateralMint ← record.get "collateral_mint" (Value.key resolve)
      let repaid ← record.get "repaid" (Value.uint 64)
      let seized ← record.get "seized" (Value.uint 64)
      pure (.liquidation liquidator borrower debtMint collateralMint repaid seized)
  | _ => none

end Readers

section Renaming

variable (named : Pubkey → Pubkey)

def ProgramAccount.rename : ProgramAccount → ProgramAccount
  | .market held => .market { held with admin := named held.admin, mint := named held.mint }
  | .position held => .position { held with user := named held.user, market := named held.market }
  | .claimReceipt held =>
      .claimReceipt { held with user := named held.user, mint := named held.mint }
  | .userStats held => .userStats { held with user := named held.user }

def Event.rename : Event → Event
  | .faucetClaimed user mint amount claimedAt =>
      .faucetClaimed (named user) (named mint) amount claimedAt
  | .marketAction user mint kind supplied borrowed =>
      .marketAction (named user) (named mint) kind supplied borrowed
  | .actionRecorded user kind healthBps at_ => .actionRecorded (named user) kind healthBps at_
  | .liquidation liquidator borrower debtMint collateralMint repaid seized =>
      .liquidation (named liquidator) (named borrower) (named debtMint) (named collateralMint)
        repaid seized

end Renaming

@[simp] theorem Value.uint_natural {bits : ℕ} (value : Uint bits) :
    Value.uint bits (.natural value.val) = some value := by
  simp [Value.uint, Value.natural]

@[simp] theorem Value.int64_number (value : Int64) :
    Value.int64 (.number value.toInt) = some value := by
  simp [Value.int64]

@[simp] theorem Value.bytes32_array (value : FeedId) :
    Value.bytes32 (.array (value.toList.map fun byte => .natural byte.val)) = some value := by
  have read (bytes : List Byte) :
      (bytes.map fun byte => Value.natural byte.val).mapM (Value.uint 8) = some bytes := by
    induction bytes with
    | nil => rfl
    | cons head tail ih =>
        rw [List.map_cons, List.mapM_cons, Value.uint_natural, ih]
        rfl
  simp only [Value.bytes32, read, Option.bind_eq_bind, Option.bind_some]
  exact dif_pos Vector.length_toList

section ReadBack

variable (hashes : Hashes) (resolve : List Byte → Pubkey)

/-- The name a client gives to an address it has read the bytes of. -/
def Hashes.shown (key : Pubkey) : Pubkey := resolve (hashes.address key).toList

@[simp] theorem Value.key_pubkey (key : Pubkey) :
    Value.key resolve (.pubkey (hashes.address key).toList) = some (hashes.shown resolve key) := rfl

/-- Under the names of its fields an account is found as it was. -/
theorem ProgramAccount.ofRecord_values (account : ProgramAccount) :
    ProgramAccount.ofRecord resolve (account.declaration.values hashes) account.name =
      some (account.rename (hashes.shown resolve)) := by
  cases account with
  | market held =>
      simp [ProgramAccount.ofRecord, ProgramAccount.name, Market.ofRecord,
        Declaration.values, ProgramAccount.declaration, Market.declaration, Record.get_cons,
        Field.value, ProgramAccount.rename]
  | position held =>
      simp [ProgramAccount.ofRecord, ProgramAccount.name, Position.ofRecord,
        Declaration.values, ProgramAccount.declaration, Position.declaration, Record.get_cons,
        Field.value, ProgramAccount.rename]
  | claimReceipt held =>
      simp [ProgramAccount.ofRecord, ProgramAccount.name, ClaimReceipt.ofRecord,
        Declaration.values, ProgramAccount.declaration, ClaimReceipt.declaration, Record.get_cons,
        Field.value, ProgramAccount.rename]
  | userStats held =>
      simp [ProgramAccount.ofRecord, ProgramAccount.name, UserStats.ofRecord,
        Declaration.values, ProgramAccount.declaration, UserStats.declaration, Record.get_cons,
        Field.value, ProgramAccount.rename]

theorem Event.ofRecord_values (event : Event) :
    Event.ofRecord resolve (event.declaration.values hashes) event.name =
      some (event.rename (hashes.shown resolve)) := by
  cases event with
  | marketAction user mint kind supplied borrowed =>
      cases kind <;>
        simp [Event.ofRecord, Event.name, Declaration.values, Event.declaration,
          Record.get_cons, Field.value, Event.rename, MarketActionKind.field,
          MarketActionKind.enumeration, MarketActionKind.ofValue]
  | actionRecorded user kind healthBps at_ =>
      cases kind <;>
        simp [Event.ofRecord, Event.name, Declaration.values, Event.declaration,
          Record.get_cons, Field.value, Event.rename, ActionKind.field, ActionKind.enumeration,
          ActionKind.ofValue]
  | faucetClaimed user mint amount claimedAt =>
      simp [Event.ofRecord, Event.name, Declaration.values, Event.declaration,
        Record.get_cons, Field.value, Event.rename]
  | liquidation liquidator borrower debtMint collateralMint repaid seized =>
      simp [Event.ofRecord, Event.name, Declaration.values, Event.declaration,
        Record.get_cons, Field.value, Event.rename]

end ReadBack

end Records

/-- Whatever the program writes, for any account or event, a client with the tables
reads to the last byte, and what it finds under the names is the account or the event
again, each address by its bytes. -/
theorem idl_decodes (hashes : Hashes) (resolve : List Byte → Pubkey) :
    (∀ account : ProgramAccount,
        decodeType account.name (serialize hashes account.declaration) =
          some (.struct (account.declaration.values hashes)) ∧
        ProgramAccount.ofRecord resolve (account.declaration.values hashes) account.name =
          some (account.rename (hashes.shown resolve))) ∧
      ∀ event : Event,
        decodeType event.name (serialize hashes event.declaration) =
          some (.struct (event.declaration.values hashes)) ∧
        Event.ofRecord resolve (event.declaration.values hashes) event.name =
          some (event.rename (hashes.shown resolve)) :=
  ⟨fun account => ⟨decodeType_of_tabled hashes account.tabled,
      account.ofRecord_values hashes resolve⟩,
    fun event => ⟨decodeType_of_tabled hashes event.tabled, event.ofRecord_values hashes resolve⟩⟩

end ShadowLend
