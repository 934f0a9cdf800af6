import ShadowLend.Foundation.Significand
import ShadowLend.Foundation.Wire
import ShadowLend.Devnet
import Mathlib.Data.Int.ConditionallyCompleteOrder
import Mathlib.Data.List.MinMax

/-! The client's reader of Pyth accounts. It looks for the fields at fixed offsets and
keeps the account it finds published last. -/

namespace ShadowLend

open Devnet

structure RpcAccount where
  pubkey : Pubkey
  data : List Byte

structure FreshPrice where
  pk : Pubkey
  price : ℤ
  expo : ℤ
  publishTime : ℤ
  deriving DecidableEq

structure CachedPrice where
  entry : FreshPrice
  ts : ℕ

def priceUpdatePublishOffset : ℕ := 93

def priceCacheMs : ℕ := 30000

/-- A signed little-endian number in a `DataView`, which throws past the end. -/
def getSigned (width offset : ℕ) (data : List Byte) : Option ℤ :=
  if offset + width ≤ data.length then some (Wire.intOf (Wire.slice offset width data)) else none

def getBigInt64 : ℕ → List Byte → Option ℤ := getSigned 8

def getInt32 : ℕ → List Byte → Option ℤ := getSigned 4

/-- `Number(value)`: the nearest double. -/
def toNumber (value : ℤ) : ℤ := value.sign * Significand.nearest 53 value.natAbs

/-- The body of the loop over the accounts found. -/
def fresher (best : Option FreshPrice) (a : RpcAccount) : Option (Option FreshPrice) := do
  let publishTime ← (getBigInt64 priceUpdatePublishOffset a.data).map toNumber
  if best.all fun held => publishTime > held.publishTime then do
    let price ← (getBigInt64 73 a.data).map toNumber
    let expo ← getInt32 85 a.data
    pure (some ⟨a.pubkey, price, expo, publishTime⟩)
  else pure best

/-- It throws where the node does not answer or knows no account of the feed. -/
def resolveFreshestPrice (cached : Option CachedPrice) (now : ℕ)
    (accts : Option (List RpcAccount)) : Option FreshPrice :=
  match cached.filter fun held => now - held.ts < priceCacheMs with
  | some held => some held.entry
  | none => do
      let found ← accts
      let best ← found.foldlM fresher none
      best

/-- A fully verified `PriceUpdateV2` at its address, with what the program never reads. -/
structure PriceAccount where
  pubkey : Pubkey
  discriminator : Vector Byte 8
  writeAuthority : Vector Byte 32
  update : PriceUpdateV2
  prevPublishTime : Int64
  emaPrice : Int64
  emaConf : U64
  postedSlot : U64
  /-- The tag of a partial verification takes one more byte. -/
  unused : Byte
  full : update.verificationLevel = .full

namespace PriceAccount

def held (account : PriceAccount) : Price := account.update.price

def header (account : PriceAccount) : List Byte :=
  account.discriminator.toList ++ (account.writeAuthority.toList ++
    (1 :: account.update.feedId.toList))

def trailer (account : PriceAccount) : List Byte :=
  Wire.bytesOfInt 8 account.prevPublishTime.toInt ++ (Wire.bytesOfInt 8 account.emaPrice.toInt ++
    (Wire.bytesOf 8 account.emaConf.val ++ (Wire.bytesOf 8 account.postedSlot.val ++
      [account.unused])))

def data (account : PriceAccount) : List Byte :=
  account.header ++ (Wire.bytesOfInt 8 account.held.price.toInt ++
    (Wire.bytesOf 8 account.held.conf.val ++ (Wire.bytesOfInt 4 account.held.exponent.toInt ++
      (Wire.bytesOfInt 8 account.held.publishTime.toInt ++ account.trailer))))

def rpc (account : PriceAccount) : RpcAccount := ⟨account.pubkey, account.data⟩

/-- What the client takes the exponent for: the upper half of the confidence. -/
def confHigh (account : PriceAccount) : ℤ := Int.bmod (account.held.conf.val / 2 ^ 32 : ℕ) (2 ^ 32)

def read (account : PriceAccount) : FreshPrice where
  pk := account.pubkey
  price := toNumber account.held.price.toInt
  expo := account.confHigh
  publishTime := toNumber account.held.publishTime.toInt

end PriceAccount

section Reading

variable (account : PriceAccount)

theorem length_header : account.header.length = 73 := by
  simp [PriceAccount.header]

theorem length_data_account : account.data.length = 134 := by
  simp [PriceAccount.data, PriceAccount.trailer, length_header]

theorem getSigned_slice {width offset : ℕ} {data middle : List Byte}
    (fits : offset + width ≤ data.length) (same : Wire.slice offset width data = middle) :
    getSigned width offset data = some (Wire.intOf middle) := by
  rw [getSigned, if_pos fits, same]

theorem intOf_int64 (value : Int64) : Wire.intOf (Wire.bytesOfInt 8 value.toInt) = value.toInt := by
  apply Wire.intOf_bytesOfInt
  · have low := value.le_toInt
    norm_num
    omega
  · have high := value.toInt_lt
    norm_num
    omega

theorem getBigInt64_price :
    getBigInt64 73 account.data = some account.held.price.toInt := by
  rw [← intOf_int64]
  apply getSigned_slice (by rw [length_data_account]; decide)
  exact Wire.slice_append _ (length_header account) (Wire.length_bytesOfInt _ _)

theorem getBigInt64_publishTime :
    getBigInt64 priceUpdatePublishOffset account.data = some account.held.publishTime.toInt := by
  rw [← intOf_int64]
  apply getSigned_slice (by rw [length_data_account]; decide)
  have front : account.data = (account.header ++ (Wire.bytesOfInt 8 account.held.price.toInt ++
      (Wire.bytesOf 8 account.held.conf.val ++ Wire.bytesOfInt 4 account.held.exponent.toInt))) ++
        (Wire.bytesOfInt 8 account.held.publishTime.toInt ++ account.trailer) := by
    simp only [PriceAccount.data, List.append_assoc]
  rw [front]
  exact Wire.slice_append _ (by simp [length_header, priceUpdatePublishOffset])
    (Wire.length_bytesOfInt _ _)

/-- Where the client looks for the exponent is the second half of the confidence. -/
theorem getInt32_expo : getInt32 85 account.data = some account.confHigh := by
  have high : Wire.intOf (Wire.bytesOf 4 (account.held.conf.val / 256 ^ 4)) = account.confHigh :=
    Wire.intOf_bytesOf _ _
  rw [← high]
  apply getSigned_slice (by rw [length_data_account]; decide)
  have halves := Wire.bytesOf_add 4 4 account.held.conf.val
  have front : account.data = (account.header ++ (Wire.bytesOfInt 8 account.held.price.toInt ++
      Wire.bytesOf 4 account.held.conf.val)) ++
        (Wire.bytesOf 4 (account.held.conf.val / 256 ^ 4) ++
          (Wire.bytesOfInt 4 account.held.exponent.toInt ++
            (Wire.bytesOfInt 8 account.held.publishTime.toInt ++ account.trailer))) := by
    rw [PriceAccount.data, halves]
    simp only [List.append_assoc]
  rw [front]
  exact Wire.slice_append _ (by simp [length_header]) (Wire.length_bytesOf _ _)

theorem fresher_rpc (best : Option FreshPrice) :
    fresher best account.rpc =
      some (if best.all fun held => account.read.publishTime > held.publishTime then
        some account.read else best) := by
  have data : account.rpc.data = account.data := rfl
  have publish : account.read.publishTime = toNumber account.held.publishTime.toInt := rfl
  rw [fresher, data, getBigInt64_publishTime, getBigInt64_price, getInt32_expo, publish]
  simp only [Option.map_some, Option.bind_eq_bind, Option.bind_some]
  split <;> rfl

/-- The loop keeps the first account of a latest publication, as it read it. -/
theorem resolveFreshestPrice_rpc (accounts : List PriceAccount) (now : ℕ) :
    resolveFreshestPrice none now (some (accounts.map PriceAccount.rpc)) =
      (accounts.argmax fun account => account.read.publishTime).map PriceAccount.read := by
  have loop : (accounts.map PriceAccount.rpc).foldlM fresher none =
      some ((accounts.argmax fun account => account.read.publishTime).map PriceAccount.read) := by
    induction accounts using List.reverseRecOn with
    | nil => rfl
    | append_singleton accounts last ih =>
        rw [List.map_append, List.foldlM_append, ih, Option.bind_eq_bind, Option.bind_some,
          List.map_singleton, List.foldlM_cons, fresher_rpc, List.argmax_concat]
        cases accounts.argmax fun account => account.read.publishTime with
        | none => rfl
        | some best =>
            simp only [Option.map_some, Option.all_some, decide_eq_true_eq]
            split <;> rfl
  rw [resolveFreshestPrice]
  simp only [Option.filter_none, Option.bind_eq_bind, Option.bind_some, loop]

theorem toNumber_eq_iff (value : ℤ) :
    toNumber value = value ↔ Significand.spacing 53 value.natAbs ∣ value.natAbs := by
  rw [← Significand.nearest_eq_iff, toNumber]
  constructor
  · intro same
    have sizes := congrArg Int.natAbs same
    rcases eq_or_ne value 0 with zero | nonzero
    · rw [zero]
      rfl
    · rwa [Int.natAbs_mul, Int.natAbs_sign_of_ne_zero nonzero, Nat.one_mul,
        Int.natAbs_natCast] at sizes
  · intro same
    rw [same]
    exact Int.sign_mul_natAbs value

end Reading

def FreshPrice.Decodes (entry : FreshPrice) (account : PriceAccount) : Prop :=
  entry = ⟨account.pubkey, account.held.price.toInt, account.held.exponent.toInt,
    account.held.publishTime.toInt⟩

/-- Each account alone is read as it is, and of all of them one published last. -/
def ReadsFeed (accounts : List PriceAccount) (now : ℕ) : Prop :=
  (∀ account ∈ accounts, ∃ entry,
    resolveFreshestPrice none now (some [account.rpc]) = some entry ∧ entry.Decodes account) ∧
  ∃ entry, resolveFreshestPrice none now (some (accounts.map PriceAccount.rpc)) = some entry ∧
    ∃ account ∈ accounts, entry.Decodes account ∧
      ∀ other ∈ accounts, other.held.publishTime.toInt ≤ account.held.publishTime.toInt

/-- Price and time are doubles, and the upper half of the confidence happens to be the
exponent. -/
def PriceAccount.Legible (account : PriceAccount) : Prop :=
  Significand.spacing 53 account.held.price.toInt.natAbs ∣ account.held.price.toInt.natAbs ∧
    Significand.spacing 53 account.held.publishTime.toInt.natAbs ∣
      account.held.publishTime.toInt.natAbs ∧
    account.confHigh = account.held.exponent.toInt

theorem read_decodes_iff (account : PriceAccount) :
    account.read.Decodes account ↔ account.Legible := by
  rw [FreshPrice.Decodes, PriceAccount.Legible, ← toNumber_eq_iff, ← toNumber_eq_iff,
    PriceAccount.read, FreshPrice.mk.injEq]
  constructor
  · intro same
    exact ⟨same.2.1, same.2.2.2, same.2.2.1⟩
  · intro legible
    exact ⟨rfl, legible.1, legible.2.2, legible.2.1⟩

theorem resolve_single (account : PriceAccount) (now : ℕ) :
    resolveFreshestPrice none now (some [account.rpc]) = some account.read := by
  have single := resolveFreshestPrice_rpc [account] now
  rwa [List.map_singleton, List.argmax_singleton] at single

/-- The offset of the exponent is four bytes short of the confidence's end. -/
theorem feed_read_iff (first : PriceAccount) (others : List PriceAccount) (now : ℕ) :
    ReadsFeed (first :: others) now ↔ ∀ account ∈ first :: others, account.Legible := by
  constructor
  · intro reads account member
    rcases reads.1 account member with ⟨entry, found, decodes⟩
    rw [resolve_single, Option.some.injEq] at found
    rw [← found] at decodes
    exact (read_decodes_iff account).mp decodes
  · intro legible
    have decodes : ∀ account ∈ first :: others, account.read.Decodes account :=
      fun account member => (read_decodes_iff account).mpr (legible account member)
    have time : ∀ account ∈ first :: others,
        account.read.publishTime = account.held.publishTime.toInt :=
      fun account member => congrArg FreshPrice.publishTime (decodes account member)
    refine ⟨fun account member => ⟨_, resolve_single account now, decodes account member⟩, ?_⟩
    cases latest : (first :: others).argmax fun account => account.read.publishTime with
    | none => cases List.argmax_eq_none.mp latest
    | some best =>
        have member := List.argmax_mem latest
        refine ⟨best.read, ?_, best, member, decodes best member, ?_⟩
        · rw [resolveFreshestPrice_rpc, latest]
          rfl
        · intro other inside
          have order := List.le_of_mem_argmax (f := fun account => account.read.publishTime)
            inside latest
          rwa [time other inside, time best member] at order

def feedUpdate (pubkey : Pubkey) (feedId : FeedId) (price : Int64) : PriceAccount where
  pubkey := pubkey
  discriminator := Vector.replicate 8 0
  writeAuthority := Vector.replicate 32 0
  update := ⟨.full, feedId, ⟨price, 5000000, -8, 1000⟩⟩
  prevPublishTime := 999
  emaPrice := price
  emaConf := 5000000
  postedSlot := 100
  unused := 0
  full := rfl

def solUpdate : PriceAccount := feedUpdate solPrice solFeed 10000000000

/-- The program reads the exponent, and the client a zero. -/
theorem feed_misread :
    resolveFreshestPrice none 0 (some [solUpdate.rpc]) = some ⟨solPrice, 10000000000, 0, 1000⟩ ∧
      devnet.getPriceNoOlderThan solUpdate.update ⟨100, 1000⟩ maxPriceAgeSec solFeed =
        some ⟨10000000000, 5000000, -8, 1000⟩ ∧
      ¬ ReadsFeed [solUpdate] 0 := by
  have read : solUpdate.read = ⟨solPrice, 10000000000, 0, 1000⟩ := by decide +kernel
  have found := resolve_single solUpdate 0
  rw [read] at found
  refine ⟨found, by decide +kernel, ?_⟩
  intro reads
  rcases reads.1 solUpdate List.mem_cons_self with ⟨entry, same, decodes⟩
  rw [found, Option.some.injEq] at same
  have expo : (0 : ℤ) = solUpdate.held.exponent.toInt :=
    congrArg FreshPrice.expo (same.trans decodes)
  exact absurd expo (by decide +kernel)

end ShadowLend
