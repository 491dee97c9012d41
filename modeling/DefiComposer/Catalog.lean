import DefiComposer.Parameter.Definition
import DefiComposer.Primitive
import DefiComposer.Text.Lowercase

/-!
# Catalog: the templates of the four kinds

A template holds what a kind declares: its name and description, a category for grouping, tags for search, its parameters
and its ports. `instantiate` makes a fresh primitive from it.
-/

namespace DefiComposer

/-- A port that a kind declares. -/
structure PortSpec where
  resourceType : String
  label : String
  deriving DecidableEq

/-- What a kind of primitive declares. -/
structure Template where
  kind : Kind
  name : String
  description : String
  category : String
  tags : List String
  parameters : List Parameter
  inputs : List PortSpec
  outputs : List PortSpec

namespace Template

/-- A parameter that is a number between two bounds. -/
def amount (id name description : String) (default minimum maximum : Float) : Parameter :=
  ⟨id, name, .number, description, .number default, .range minimum maximum⟩

/-- A parameter that is the symbol of an asset. -/
def symbol (id name description default : String) : Parameter :=
  ⟨id, name, .asset, description, .text default, .presence⟩

/-- The template of lending pools. -/
def lendingPool : Template where
  kind := .lendingPool
  name := "Lending Pool"
  description := "A lending pool that allows users to deposit assets and borrow against collateral"
  category := "Lending"
  tags := ["lending", "borrowing", "collateral"]
  parameters :=
    [ amount "interestRate" "Interest Rate" "Annual interest rate for borrowing (in percentage)" 5 0 100,
      amount "collateralRatio" "Collateral Ratio" "Required collateral to loan ratio (in percentage)" 150 100 500,
      amount "liquidationThreshold" "Liquidation Threshold"
        "Threshold at which loans become eligible for liquidation (in percentage)" 120 100 200,
      symbol "assetType" "Asset Type" "Type of asset for this lending pool" "USDC" ]
  inputs := [⟨"asset", "Deposit"⟩, ⟨"collateral", "Collateral"⟩]
  outputs := [⟨"asset", "Loan"⟩, ⟨"receipt", "Deposit Receipt"⟩]

/-- The template of pools that swap two assets. -/
def ammPool : Template where
  kind := .ammPool
  name := "AMM Pool"
  description := "An automated market maker pool for swapping between two assets"
  category := "Exchange"
  tags := ["swap", "liquidity", "amm"]
  parameters :=
    [ amount "feePercent" "Fee Percentage" "Fee percentage charged on swaps" 0.3 0 10,
      symbol "assetTypeA" "Asset Type A" "First asset in the pair" "USDC",
      symbol "assetTypeB" "Asset Type B" "Second asset in the pair" "ETH" ]
  inputs := [⟨"assetA", "Token A"⟩, ⟨"assetB", "Token B"⟩]
  outputs := [⟨"assetA", "Token A Out"⟩, ⟨"assetB", "Token B Out"⟩, ⟨"lpToken", "LP Token"⟩]

/-- The template of staking pools. A lock lasts five years at most. -/
def staking : Template where
  kind := .staking
  name := "Staking Pool"
  description := "A staking pool that rewards users for locking up assets"
  category := "Yield"
  tags := ["staking", "rewards", "yield"]
  parameters :=
    [ amount "rewardRate" "Reward Rate" "Annual reward rate (in percentage)" 10 0 1000,
      amount "lockPeriod" "Lock Period" "Required lock period in days" 30 0 1825,
      symbol "assetType" "Stake Asset" "Asset to stake" "APT",
      symbol "rewardAssetType" "Reward Asset" "Asset for rewards" "APT" ]
  inputs := [⟨"stakeAsset", "Stake"⟩]
  outputs := [⟨"rewardAsset", "Rewards"⟩, ⟨"stakeReceipt", "Stake Receipt"⟩]

/-- The template of vaults. -/
def vault : Template where
  kind := .vault
  name := "Yield Vault"
  description := "A yield-generating vault that automatically reinvests returns"
  category := "Yield"
  tags := ["vault", "yield", "auto-compound"]
  parameters :=
    [ ⟨"strategy", "Yield Strategy", .enumeration, "Strategy for generating yield", .text "conservative",
        .oneOf ["conservative", "moderate", "aggressive"]⟩,
      amount "performanceFee" "Performance Fee" "Fee charged on profits (in percentage)" 10 0 50,
      amount "withdrawalFee" "Withdrawal Fee" "Fee charged on withdrawals (in percentage)" 0.1 0 10,
      symbol "assetType" "Asset Type" "Asset managed by this vault" "USDC" ]
  inputs := [⟨"asset", "Deposit"⟩]
  outputs := [⟨"vaultShare", "Vault Shares"⟩, ⟨"asset", "Yield"⟩]

/-- The definition of a parameter. -/
def parameter? (t : Template) (id : String) : Option Parameter := t.parameters.find? (·.id = id)

/-- Whether a term occurs in the name, the description or a tag, case aside. -/
def isMatch (t : Template) (term : String) : Bool :=
  let needle := Text.lower term.toList
  (t.name :: t.description :: t.tags).any fun text => Text.occursIn needle (Text.lower text.toList)

end Template

/-- The template of a kind. -/
def Kind.template : Kind → Template
  | lendingPool => Template.lendingPool
  | ammPool => Template.ammPool
  | staking => Template.staking
  | vault => Template.vault

namespace Catalog

/-- The templates in the order of the catalog. -/
def templates : List Template := Kind.all.map Kind.template

/-- The template of the kind with a name. -/
def named (tag : String) : Except LookupError Template := (Kind.ofTag tag).map Kind.template

/-- The categories, each once, as they are first met. -/
def categories : List String := (templates.map (·.category)).eraseDups

/-- The templates that a term matches, in a category if one is given. An empty term matches all. -/
def search (term : String) (category : Option String) : List Template :=
  templates.filter fun t => (term.isEmpty || t.isMatch term) && category.all (t.category == ·)

/-- One fresh port for each of the declared ones, in order. -/
def makePorts (owner : PrimitiveId) (direction : Direction) : List PortSpec → IdSupply → List Port × IdSupply
  | [], ids => ([], ids)
  | spec :: specs, ids =>
    let (id, ids) := ids.port
    let (ports, ids) := makePorts owner direction specs ids
    (⟨id, owner, direction, spec.resourceType, spec.label⟩ :: ports, ids)

/-- A fresh primitive of a kind, with the defaults for its parameters and new names for itself and its ports. -/
def instantiate (kind : Kind) (position : Position) (ids : IdSupply) : Primitive × IdSupply :=
  let template := kind.template
  let (id, ids) := ids.primitive
  let (inputs, ids) := makePorts id .input template.inputs ids
  let (outputs, ids) := makePorts id .output template.outputs ids
  ({ id, kind, position
     label := template.name
     description := template.description
     parameters := .ofList (template.parameters.map fun p => (p.id, p.defaultValue))
     inputs, outputs }, ids)

end Catalog

end DefiComposer
