import DefiComposer.Decimal.Writing
import DefiComposer.Move.Module
import DefiComposer.Wiring

/-!
# Generation: the Move module of a composition
-/

namespace DefiComposer.Move

/-!
## Emission: the items that a primitive becomes

Each primitive becomes constants for its numbers, one record, and a fixed list of functions. Which items there are depends
on the kind alone; a primitive contributes the values of its parameters, its label for the comment above the record, and the
suffix of its names.
-/

/-- What one unit of a number's literal stands for. -/
inductive Measure where
  /-- A hundredth of a percent. -/
  | basisPoints
  | days
  deriving DecidableEq

/-- How many units one of the number makes. -/
def Measure.scale : Measure → Float
  | basisPoints => 100
  | days => 1

/-- A number as its comment states it. -/
def Measure.describe (measure : Measure) (x : Float) : String :=
  match measure with
  | basisPoints => plainText x ++ "%"
  | days => plainText x ++ " days"

/-- The literal of a number: its nearest whole number of units, halves away from zero, cut off at zero and at the largest
integer of 64 bits. -/
def encode (x : Float) (measure : Measure) : UInt64 := (x * measure.scale).round.toUInt64

/-- The strategies of a vault in the order of their codes. -/
def strategies : List String := ["conservative", "moderate", "aggressive"]

/-- The items that one primitive becomes. -/
structure Emitted where
  constants : List Constant
  record : Record
  functions : List Function
  deriving DecidableEq

/-- A primitive with the suffix of its names. -/
structure Instance where
  primitive : Primitive
  suffix : String

namespace Instance

/-- A name of the instance. -/
def name (i : Instance) (base : String) : String := base ++ i.suffix

/-- The value of a parameter, if there is one that is not empty. -/
def value? (i : Instance) (parameter : String) : Option ParameterValue :=
  (i.primitive.parameter? parameter).filter fun v => !v.isEmpty

/-- The symbol of an asset. -/
def asset (i : Instance) (parameter : String) : String :=
  match (i.value? parameter).bind (·.text?) with
  | some symbol => symbol
  | none => unset

/-- The constant of a number. -/
def number (i : Instance) (parameter : String) (measure : Measure) : Constant :=
  match (i.value? parameter).bind (·.number?) with
  | some x => ⟨i.name (constantIdent parameter), "u64", (encode x measure).toNat.repr, some (measure.describe x)⟩
  | none => ⟨i.name (constantIdent parameter), "u64", unset, some "unset"⟩

/-- The constant of a vault's strategy, its code; the comment names the strategy. -/
def strategy (i : Instance) : Constant :=
  match (i.value? "strategy").bind (·.text?) with
  | some tag =>
    let code := match strategies.findIdx? (Text.sameIgnoringCase · tag) with
      | some n => n.repr
      | none => unset
    ⟨i.name "STRATEGY", "u8", code, some (Text.singleLine tag)⟩
  | none => ⟨i.name "STRATEGY", "u8", unset, some "unset"⟩

/-- A record that an account holds; the comment gives label and kind of the primitive. -/
def record (i : Instance) (base : String) (fields : List Field) : Record :=
  ⟨i.name base, some (Text.singleLine i.primitive.label ++ " (" ++ i.primitive.kind.tag ++ ")"), ["key"], fields⟩

/-- A function, the account first among its parameters. -/
def function (i : Instance) (base doc : String) (parameters : List (String × String)) (acquires : Option String)
    (body : List String) : Function :=
  ⟨i.name base, some doc, ("account", "&signer") :: parameters, acquires, body⟩

end Instance

/-- The field that holds the value of a constant. -/
def Constant.toField (c : Constant) (name : String) : Field := ⟨name, c.type, c.comment⟩

/-- The type of coins of an asset. -/
def coinType (asset : String) : String := "coin::Coin<" ++ asset ++ ">"

/-- The field that holds coins of an asset. -/
def coinField (name asset : String) : Field := ⟨name, coinType asset, none⟩

/-- The line of an initializer that sets a field. -/
def setting (field value : String) : String := "    " ++ field ++ ": " ++ value ++ ","

/-- The line of an initializer that starts a field without coins. -/
def noCoins (field asset : String) : String := setting field ("coin::zero<" ++ asset ++ ">()")

/-- The body that hands the account a new record. -/
def handOver (record : String) (settings : List String) : List String :=
  ("move_to(account, " ++ record ++ " \x7b") :: settings ++ ["\x7d);"]

/-- The line that takes coins of an asset from the account. -/
def withdrawal (variableName asset amount : String) : String :=
  "let " ++ variableName ++ " = coin::withdraw<" ++ asset ++ ">(account, " ++ amount ++ ");"

/-- The line that borrows the account's record. -/
def borrowing (variableName record : String) : String :=
  "let " ++ variableName ++ " = borrow_global_mut<" ++ record ++ ">(signer::address_of(account));"

/-- The line that adds coins to a field. -/
def merging (field coins : String) : String := "coin::merge(&mut " ++ field ++ ", " ++ coins ++ ");"

/-- The line that takes coins out of a field. -/
def extraction (variableName field amount : String) : String :=
  "let " ++ variableName ++ " = coin::extract(&mut " ++ field ++ ", " ++ amount ++ ");"

/-- The line that gives coins to the account. -/
def payout (coins : String) : String := "coin::deposit(signer::address_of(account), " ++ coins ++ ");"

/-- The items of a lending pool. -/
def lendingPool (i : Instance) : Emitted :=
  let asset := i.asset "assetType"
  let interest := i.number "interestRate" .basisPoints
  let collateral := i.number "collateralRatio" .basisPoints
  let liquidation := i.number "liquidationThreshold" .basisPoints
  let record := i.record "LendingPool"
    [ coinField "reserve" asset, interest.toField "interest_rate", collateral.toField "collateral_ratio",
      liquidation.toField "liquidation_threshold" ]
  { constants := [interest, collateral, liquidation]
    record
    functions :=
      [ i.function "initialize_lending_pool" "Initialize lending pool" [] none <|
          handOver record.name
            [ noCoins "reserve" asset, setting "interest_rate" interest.name,
              setting "collateral_ratio" collateral.name, setting "liquidation_threshold" liquidation.name ],
        i.function "deposit" "Deposit to lending pool" [("amount", "u64")] (some record.name)
          [ withdrawal "deposit_coins" asset "amount", borrowing "lending_pool" record.name,
            merging "lending_pool.reserve" "deposit_coins" ],
        i.function "borrow" "Borrow from lending pool" [("amount", "u64")] (some record.name)
          [ borrowing "lending_pool" record.name, extraction "coins" "lending_pool.reserve" "amount",
            payout "coins" ] ] }

/-- The items of a pool that swaps two assets. -/
def ammPool (i : Instance) : Emitted :=
  let assetA := i.asset "assetTypeA"
  let assetB := i.asset "assetTypeB"
  let fee := i.number "feePercent" .basisPoints
  let record := i.record "AmmPool"
    [coinField "reserve_a" assetA, coinField "reserve_b" assetB, fee.toField "fee_percent", ⟨"lp_supply", "u64", none⟩]
  { constants := [fee]
    record
    functions :=
      [ i.function "initialize_amm_pool" "Initialize AMM pool" [] none <|
          handOver record.name
            [ noCoins "reserve_a" assetA, noCoins "reserve_b" assetB, setting "fee_percent" fee.name,
              setting "lp_supply" "0" ],
        i.function "add_liquidity" "Add liquidity to AMM pool" [("amount_a", "u64"), ("amount_b", "u64")]
          (some record.name)
          [ withdrawal "coins_a" assetA "amount_a", withdrawal "coins_b" assetB "amount_b",
            borrowing "amm_pool" record.name, merging "amm_pool.reserve_a" "coins_a",
            merging "amm_pool.reserve_b" "coins_b",
            "amm_pool.lp_supply = amm_pool.lp_supply + amount_a * amount_b;" ],
        i.function "swap_a_to_b" "Swap in AMM pool" [("amount_in", "u64")] (some record.name)
          [ withdrawal "coins_in" assetA "amount_in", borrowing "amm_pool" record.name,
            merging "amm_pool.reserve_a" "coins_in",
            "let reserve_a = coin::value(&amm_pool.reserve_a);",
            "let reserve_b = coin::value(&amm_pool.reserve_b);",
            "let gross_out = (amount_in * reserve_b) / (reserve_a + amount_in);",
            "let fee = (gross_out * amm_pool.fee_percent) / 10000;",
            extraction "coins_out" "amm_pool.reserve_b" "gross_out - fee", payout "coins_out" ] ] }

/-- The items of a staking pool. -/
def stakingPool (i : Instance) : Emitted :=
  let asset := i.asset "assetType"
  let rewardAsset := i.asset "rewardAssetType"
  let rate := i.number "rewardRate" .basisPoints
  let lock := i.number "lockPeriod" .days
  let record := i.record "StakingPool"
    [ coinField "staked" asset, coinField "rewards" rewardAsset, rate.toField "reward_rate",
      lock.toField "lock_period" ]
  { constants := [rate, lock]
    record
    functions :=
      [ i.function "initialize_staking_pool" "Initialize staking pool" [] none <|
          handOver record.name
            [ noCoins "staked" asset, noCoins "rewards" rewardAsset, setting "reward_rate" rate.name,
              setting "lock_period" lock.name ],
        i.function "stake" "Stake tokens" [("amount", "u64")] (some record.name)
          [ withdrawal "stake_coins" asset "amount", borrowing "staking_pool" record.name,
            merging "staking_pool.staked" "stake_coins" ],
        i.function "claim_rewards" "Claim rewards" [] (some record.name)
          [ borrowing "staking_pool" record.name,
            "let staked_amount = coin::value(&staking_pool.staked);",
            "let rewards_amount = (staked_amount * staking_pool.reward_rate) / 10000 / 365;",
            extraction "reward_coins" "staking_pool.rewards" "rewards_amount", payout "reward_coins" ] ] }

/-- The items of a vault. -/
def vault (i : Instance) : Emitted :=
  let asset := i.asset "assetType"
  let strategy := i.strategy
  let performance := i.number "performanceFee" .basisPoints
  let exitFee := i.number "withdrawalFee" .basisPoints
  let record := i.record "Vault"
    [ coinField "assets" asset, strategy.toField "strategy", performance.toField "performance_fee",
      exitFee.toField "withdrawal_fee" ]
  { constants := [strategy, performance, exitFee]
    record
    functions :=
      [ i.function "initialize_vault" "Initialize vault" [] none <|
          handOver record.name
            [ noCoins "assets" asset, setting "strategy" strategy.name, setting "performance_fee" performance.name,
              setting "withdrawal_fee" exitFee.name ],
        i.function "deposit_to_vault" "Deposit to vault" [("amount", "u64")] (some record.name)
          [ withdrawal "deposit_coins" asset "amount", borrowing "vault" record.name,
            merging "vault.assets" "deposit_coins" ],
        i.function "withdraw_from_vault" "Withdraw from vault" [("amount", "u64")] (some record.name)
          [ borrowing "vault" record.name, "let fee = (amount * vault.withdrawal_fee) / 10000;",
            extraction "coins" "vault.assets" "amount - fee", payout "coins" ] ] }

/-- The items of a primitive whose names get a suffix. -/
def emit (p : Primitive) (suffix : String) : Emitted :=
  let i : Instance := ⟨p, suffix⟩
  match p.kind with
  | .lendingPool => lendingPool i
  | .ammPool => ammPool i
  | .staking => stakingPool i
  | .vault => vault i

end DefiComposer.Move

namespace DefiComposer

/-!
## The module of a composition

All constants come first, then the records, then the functions, each group in the order of the primitives. Generation asks
nothing of the composition: a value that is missing appears as a placeholder. It fails only where the wiring is to be listed
and the sweep over it fails.
-/

namespace Move

/-- The choices of a generation: the address that qualifies the module's name, and whether the wiring is listed. -/
structure Options where
  moduleAddress : Option String := none
  includeWiring : Bool := true
  deriving DecidableEq, Inhabited

/-- The modules that every generated module uses. -/
def usedModules : List String := ["std::signer", "aptos_framework::coin", "aptos_framework::account"]

/-- The items of several primitives in three groups. -/
def groupedItems (emitted : List Emitted) : List Item :=
  emitted.flatMap (·.constants.map .constant) ++ emitted.map (.record ·.record) ++
    emitted.flatMap (·.functions.map .function)

end Move

namespace Composition

/-- The items of each primitive, with the suffixes that set their names apart. -/
def emitted (c : Composition) : List Move.Emitted :=
  c.primitives.values.zipWith Move.emit (Move.suffixes (c.primitives.values.map (·.kind)))

/-- The module of a composition with given lines for its wiring. -/
def moduleWith (c : Composition) (address : Option String) (wiring : List String) : MoveModule :=
  { header := "Generated Move code for composition: " ++ c.name
    name := Move.moduleIdent c.name
    address
    uses := Move.usedModules
    wiring
    items := Move.groupedItems c.emitted }

/-- The module of a composition; its wiring is empty where it is not to be listed. -/
def toModule? (c : Composition) (options : Move.Options) : Option MoveModule :=
  (if options.includeWiring then c.wiringLines? else some []).map (c.moduleWith options.moduleAddress)

/-- The text of the module of a composition. -/
def generate? (c : Composition) (options : Move.Options) : Option String := (c.toModule? options).map (·.text)

end Composition

end DefiComposer
