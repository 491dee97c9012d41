import DefiComposer.Composition
import DefiComposer.Proofs.ConstantNames
import DefiComposer.Proofs.Maps
import DefiComposer.Proofs.Names
import Mathlib

/-!
# Declarations: what the generated code names is declared

The items of a primitive refer to each other by name: the initializer names the fields of the record and the constants they
start from, and the other functions name the record. `Move.Instance.settings` pairs each field with the value it starts with;
the fields of the record and the lines of the initializer are the two halves of that list (`Move.emit_fields`,
`Move.emit_initializer`), so what holds of it is said once for the four kinds. The other functions take coins from the account,
borrow the record under a name, and then work on it alone (`Move.Function.WorksOn`).

In a whole module no two items have one name, of whatever sort they are (`Composition.item_names_nodup`): the bases of all
items are distinct, not only those of one group. So a name that the code of a primitive uses is declared once, by its own items.
-/

namespace DefiComposer

/-! ## Fields and their first values -/

namespace Kind

/-- The fields that hold coins, each with the parameter that gives the asset. -/
def coinFields : Kind → List (String × String)
  | lendingPool => [("reserve", "assetType")]
  | ammPool => [("reserve_a", "assetTypeA"), ("reserve_b", "assetTypeB")]
  | staking => [("staked", "assetType"), ("rewards", "rewardAssetType")]
  | vault => [("assets", "assetType")]

/-- The fields that count from zero on. -/
def counters : Kind → List String
  | ammPool => ["lp_supply"]
  | lendingPool | staking | vault => []

end Kind

namespace Move

/-- A character of a field's name: a capital becomes small, with an underscore before it. -/
def fieldChar (c : Char) : List Char := if c.isUpper then ['_', c.toLower] else [c]

/-- The name of the field for the constant of a parameter. -/
def fieldIdent (parameter : String) : String := String.ofList (parameter.toList.flatMap fieldChar)

/-- The value without coins of an asset. -/
def zeroCoins (asset : String) : String := "coin::zero<" ++ asset ++ ">()"

/-- A text in capitals. -/
def inCapitals (text : String) : String := String.ofList (text.toList.map Char.toUpper)

/-- A field mirrors a constant that is named as it is, in capitals. -/
def Field.Mirrors (f : Field) (suffix : String) (k : Constant) : Prop := inCapitals f.name ++ suffix = k.name

namespace Instance

/-- A field for coins, and its value. -/
def coinSetting (i : Instance) (e : String × String) : Field × String :=
  (coinField e.1 (i.asset e.2), zeroCoins (i.asset e.2))

/-- The field for a constant, and its value. -/
def constantSetting (i : Instance) (d : Parameter) : Field × String :=
  ((i.constant d).toField (fieldIdent d.id), (i.constant d).name)

/-- A field that counts, and its value. -/
def counterSetting (name : String) : Field × String := (⟨name, "u64", none⟩, "0")

/-- The fields of the record of a primitive, each with the value it starts with. -/
def settings (i : Instance) : List (Field × String) :=
  i.primitive.kind.coinFields.map i.coinSetting ++ i.primitive.kind.encoded.map i.constantSetting ++
    i.primitive.kind.counters.map counterSetting

variable {i : Instance}

/-- A setting is one of a coin, of a constant, or of a counter. -/
theorem mem_settings {s : Field × String} :
    s ∈ i.settings ↔
      (∃ e ∈ i.primitive.kind.coinFields, i.coinSetting e = s) ∨
        (∃ d ∈ i.primitive.kind.encoded, i.constantSetting d = s) ∨
          ∃ name ∈ i.primitive.kind.counters, counterSetting name = s := by
  simp only [settings, List.mem_append, List.mem_map, or_assoc]

/-- A constant is an integer of 64 bits or of eight. -/
theorem constant_type (i : Instance) (d : Parameter) : (i.constant d).type = "u64" ∨ (i.constant d).type = "u8" := by
  unfold constant
  split
  · right
    unfold strategy
    split <;> rfl
  · left
    unfold number
    split <;> rfl

end Instance

/-! ## The constants among the values -/

/-- A character is written for a field and for a constant in the same way, but for the case. -/
theorem map_toUpper_fieldChar (c : Char) : (fieldChar c).map Char.toUpper = constantChar c := by
  unfold fieldChar constantChar
  split
  · rename_i hc
    have hself : c.toUpper = c := Char.toUpper_eq_of_not_isLower (Char.not_isLower_of_isUpper hc)
    rw [List.map_cons, List.map_singleton, Char.toUpper_toLower_eq_toUpper, hself]
    rfl
  · rfl

/-- A parameter that begins with a small letter has a field and a constant of one name, but for the case. -/
theorem inCapitals_fieldIdent {parameter : String} (h : parameter.toList.head?.all (fun c => !c.isUpper) = true) :
    inCapitals (fieldIdent parameter) = constantIdent parameter := by
  rw [← String.toList_inj, toList_constantIdent h, inCapitals, fieldIdent, String.toList_ofList, String.toList_ofList,
    List.map_flatMap]
  simp only [map_toUpper_fieldChar]

theorem coinType_inj {a b : String} (h : coinType a = coinType b) : a = b := by
  rw [coinType, coinType, String.append_left_inj, String.append_right_inj] at h
  exact h

/-- Coins are no integers. -/
theorem coinType_ne_integer {asset type : String} (ht : type = "u64" ∨ type = "u8") : coinType asset ≠ type := by
  have hc : (coinType asset).toList.head? = some 'c' := by
    rw [coinType, String.append_assoc, String.toList_append]
    rfl
  rintro rfl
  rcases ht with ht | ht <;> (rw [ht] at hc; cases hc)

/-- Whether a text begins with a capital. -/
def isCapitalized (text : String) : Bool := text.toList.head?.any Char.isUpper

/-- A text that starts with a capital does so whatever follows. -/
theorem isCapitalized_append {base : String} (h : isCapitalized base = true) (rest : String) :
    isCapitalized (base ++ rest) = true := by
  unfold isCapitalized at h ⊢
  rw [String.toList_append, List.head?_append]
  cases hb : base.toList.head? with
  | none =>
    rw [hb] at h
    cases h
  | some c =>
    rw [hb] at h
    exact h

/-- The value that starts a field of coins does not start with a capital, so it is not the name of a constant. -/
theorem not_isCapitalized_zeroCoins (asset : String) : isCapitalized (zeroCoins asset) = false := by
  rw [isCapitalized, zeroCoins, String.append_assoc, String.toList_append]
  rfl

end Move

namespace Kind

variable (kind : Kind)

/-- The names of the constants of all kinds start with a capital. -/
theorem isCapitalized_constantIdent : ∀ d ∈ kind.encoded, Move.isCapitalized (Move.constantIdent d.id) = true := by
  cases kind <;> decide

/-- The field for a parameter is named as its constant is, in small letters. -/
theorem inCapitals_fieldIdent : ∀ d ∈ kind.encoded, Move.inCapitals (Move.fieldIdent d.id) = Move.constantIdent d.id := by
  have hsmall : ∀ d ∈ kind.encoded, d.id.toList.head?.all (fun c => !c.isUpper) = true := by
    cases kind <;> decide
  exact fun d hd => Move.inCapitals_fieldIdent (hsmall d hd)

/-- No other field is named as a constant is. -/
theorem inCapitals_not_mem_constantBases :
    ∀ name ∈ kind.coinFields.map Prod.fst ++ kind.counters, Move.inCapitals name ∉ kind.constantBases := by
  cases kind <;> decide

/-- No two fields have one name. -/
theorem fieldNames_nodup :
    (kind.coinFields.map Prod.fst ++ kind.encoded.map (Move.fieldIdent ·.id) ++ kind.counters).Nodup := by
  cases kind <;> decide

end Kind

namespace Move

namespace Instance

variable {i : Instance} {d : Parameter}

theorem isCapitalized_constant_name (hd : d ∈ i.primitive.kind.encoded) : isCapitalized (i.constant d).name = true := by
  rw [constant_name hd]
  exact isCapitalized_append (i.primitive.kind.isCapitalized_constantIdent d hd) i.suffix

/-- No two settings of a primitive are for one field. -/
theorem settings_names_nodup (i : Instance) : (i.settings.map (·.1.name)).Nodup := by
  have hn : i.settings.map (·.1.name) = i.primitive.kind.coinFields.map Prod.fst ++
      i.primitive.kind.encoded.map (fieldIdent ·.id) ++ i.primitive.kind.counters := by
    simp only [settings, List.map_append, List.map_map]
    congr 1
    exact (List.map_congr_left fun _ _ => rfl).trans (List.map_id _)
  rw [hn]
  exact i.primitive.kind.fieldNames_nodup

/-- The field that mirrors a constant is the one that is made for it. -/
theorem eq_of_mirrors (hd : d ∈ i.primitive.kind.encoded) {s : Field × String} (hs : s ∈ i.settings)
    (h : s.1.Mirrors i.suffix (i.constant d)) : s = i.constantSetting d := by
  rw [Field.Mirrors, constant_name hd, String.append_left_inj] at h
  have hbase : constantIdent d.id ∈ i.primitive.kind.constantBases := List.mem_map_of_mem hd
  rcases mem_settings.mp hs with ⟨e, he, rfl⟩ | ⟨d', hd', rfl⟩ | ⟨name, hname, rfl⟩
  · refine absurd (h ▸ hbase) (i.primitive.kind.inCapitals_not_mem_constantBases _ ?_)
    exact List.mem_append_left _ (List.mem_map_of_mem he)
  · have hid : constantIdent d'.id = constantIdent d.id := (i.primitive.kind.inCapitals_fieldIdent d' hd').symm.trans h
    rw [List.inj_on_of_nodup_map (Kind.constantBases_distinct.nodup i.primitive.kind) hd' hd hid]
  · refine absurd (h ▸ hbase) (i.primitive.kind.inCapitals_not_mem_constantBases _ ?_)
    exact List.mem_append_right _ hname

/-- The setting of a constant mirrors it: name, type and comment. -/
theorem constantSetting_mirrors (hd : d ∈ i.primitive.kind.encoded) :
    (i.constantSetting d).1.Mirrors i.suffix (i.constant d) := by
  have h := i.primitive.kind.inCapitals_fieldIdent d hd
  rw [Field.Mirrors, constant_name hd]
  exact congrArg (· ++ i.suffix) h

/-- One field alone starts with a constant. -/
theorem settings_filter (hd : d ∈ i.primitive.kind.encoded) :
    i.settings.filter (fun s => s.2 = (i.constant d).name) = [i.constantSetting d] := by
  have hcap := isCapitalized_constant_name hd
  have hcoins : (i.primitive.kind.coinFields.map i.coinSetting).filter (fun s => s.2 = (i.constant d).name) = [] := by
    refine List.filter_eq_nil_iff.mpr fun s hs h => ?_
    obtain ⟨e, -, rfl⟩ := List.mem_map.mp hs
    rw [← of_decide_eq_true h] at hcap
    exact Bool.false_ne_true ((not_isCapitalized_zeroCoins _).symm.trans hcap)
  have hcounters : (i.primitive.kind.counters.map counterSetting).filter (fun s => s.2 = (i.constant d).name) = [] := by
    refine List.filter_eq_nil_iff.mpr fun s hs h => ?_
    obtain ⟨name, -, rfl⟩ := List.mem_map.mp hs
    rw [← of_decide_eq_true h] at hcap
    have hzero : isCapitalized "0" = false := by decide
    exact Bool.false_ne_true (hzero.symm.trans hcap)
  have hnames : ((i.primitive.kind.encoded.map i.constantSetting).map Prod.snd).Nodup := by
    have hmap := emit_constant_names i.primitive i.suffix
    rw [emit_constants, List.map_map] at hmap
    rw [List.map_map]
    refine (congrArg List.Nodup hmap).mpr ?_
    exact (Kind.constantBases_distinct.nodup _).map fun a b h => (String.append_left_inj i.suffix).mp h
  have hencoded := filter_eq_singleton_of_nodup hnames (List.mem_map_of_mem hd)
  rw [settings, List.filter_append, List.filter_append, hcoins, hcounters, List.append_nil, List.nil_append]
  exact hencoded

/-- A field for coins starts without coins of its asset. -/
theorem value_of_coinType {s : Field × String} (hs : s ∈ i.settings) {asset : String} (h : s.1.type = coinType asset) :
    s.2 = zeroCoins asset := by
  rcases mem_settings.mp hs with ⟨e, -, rfl⟩ | ⟨d, -, rfl⟩ | ⟨name, -, rfl⟩
  · exact congrArg zeroCoins (coinType_inj h)
  · exact absurd h.symm (coinType_ne_integer (i.constant_type d))
  · exact absurd h.symm (coinType_ne_integer (Or.inl rfl))

end Instance

/-! ## The functions that borrow the record -/

/-- A line borrows a record when it binds a name to the record of the account. -/
def Borrows (line record : String) : Prop :=
  ∃ name : String, name.toList.all isNameChar = true ∧ line = borrowing name record

/-- A line takes coins from the account when it binds a name to them. -/
def Withdraws (line : String) : Prop :=
  ∃ name asset amount : String, name.toList.all isNameChar = true ∧ line = withdrawal name asset amount

/-- A line that takes coins from the account is recognised as one. -/
@[simp]
theorem withdraws_withdrawal {name : String} (hn : name.toList.all isNameChar = true) (asset amount : String) :
    Withdraws (withdrawal name asset amount) :=
  ⟨name, asset, amount, hn, rfl⟩

/-- What follows the name that a line binds. -/
def afterBinding (line : String) : List Char := (line.toList.drop "let ".length).dropWhile isNameChar

/-- Whether a line binds a name to something that it borrows. -/
def bindsBorrowed (line : String) : Bool := " = borrow_global_mut<".toList.isPrefixOf (afterBinding line)

/-- Where a line binds a name, the first character that may not stand in one ends it. -/
theorem afterBinding_of_toList {line name : String} (hn : name.toList.all isNameChar = true) {rest : List Char}
    (h : line.toList = "let ".toList ++ (name.toList ++ ' ' :: rest)) : afterBinding line = ' ' :: rest := by
  have hdrop : ("let ".toList ++ (name.toList ++ ' ' :: rest)).drop "let ".length = name.toList ++ ' ' :: rest := rfl
  rw [afterBinding, h, hdrop, List.dropWhile_append_of_pos (List.all_eq_true.mp hn)]
  rfl

/-- What stands behind the bound name in a line that borrows a record. -/
theorem afterBinding_borrowing {name : String} (hn : name.toList.all isNameChar = true) (record : String) :
    afterBinding (borrowing name record) =
      ' ' :: ("= borrow_global_mut<".toList ++ (record.toList ++ ">(signer::address_of(account));".toList)) :=
  afterBinding_of_toList hn (by simp [borrowing, String.toList_append])

/-- A line that borrows a record binds it. -/
theorem bindsBorrowed_borrowing {name : String} (hn : name.toList.all isNameChar = true) (record : String) :
    bindsBorrowed (borrowing name record) = true := by
  rw [bindsBorrowed, afterBinding_borrowing hn]
  rfl

/-- A line that takes coins from the account binds no borrowed record. -/
theorem bindsBorrowed_of_withdraws {line : String} (h : Withdraws line) : bindsBorrowed line = false := by
  obtain ⟨name, asset, amount, hn, rfl⟩ := h
  have ha : afterBinding (withdrawal name asset amount) =
      ' ' :: ("= coin::withdraw<".toList ++ (asset.toList ++ (">(account, ".toList ++ (amount.toList ++ ");".toList)))) :=
    afterBinding_of_toList hn (by simp [withdrawal, String.toList_append])
  rw [bindsBorrowed, ha]
  rfl

/-- A line that adds coins to a field binds nothing. -/
@[simp]
theorem bindsBorrowed_merging (field coins : String) : bindsBorrowed (merging field coins) = false := by
  have hl : (merging field coins).toList =
      "coin::merge(&mut ".toList ++ (field.toList ++ (", ".toList ++ (coins.toList ++ ");".toList))) := by
    unfold merging
    simp only [String.toList_append, List.append_assoc]
  rw [bindsBorrowed, afterBinding, hl]
  rfl

/-- A line that takes coins out of a field binds coins, not a record. -/
@[simp]
theorem bindsBorrowed_extraction {name : String} (hn : name.toList.all isNameChar = true) (field amount : String) :
    bindsBorrowed (extraction name field amount) = false := by
  have ha : afterBinding (extraction name field amount) =
      ' ' :: ("= coin::extract(&mut ".toList ++ (field.toList ++ (", ".toList ++ (amount.toList ++ ");".toList)))) :=
    afterBinding_of_toList hn (by simp [extraction, String.toList_append])
  rw [bindsBorrowed, ha]
  rfl

@[simp]
theorem bindsBorrowed_payout (coins : String) : bindsBorrowed (payout coins) = false := by
  have hl : (payout coins).toList =
      "coin::deposit(signer::address_of(account), ".toList ++ (coins.toList ++ ");".toList) := by
    unfold payout
    simp only [String.toList_append, List.append_assoc]
  rw [bindsBorrowed, afterBinding, hl]
  rfl

/-- A line that borrows a certain record binds a borrowed one. -/
theorem bindsBorrowed_of_borrows {line record : String} (h : Borrows line record) : bindsBorrowed line = true := by
  obtain ⟨name, hn, rfl⟩ := h
  exact bindsBorrowed_borrowing hn record

/-- A line that borrows a record borrows no other. -/
theorem borrows_borrowing {name record record' : String} (hn : name.toList.all isNameChar = true) :
    Borrows (borrowing name record) record' ↔ record' = record := by
  constructor
  · rintro ⟨name', hn', h⟩
    have ha := congrArg afterBinding h
    rw [afterBinding_borrowing hn, afterBinding_borrowing hn', List.cons_inj_right, List.append_right_inj,
      List.append_left_inj] at ha
    exact (String.toList_inj.mp ha).symm
  · rintro rfl
    exact ⟨name, hn, rfl⟩

/-- A function takes coins from the account, borrows a record, which it acquires, under a name, and then works on it. -/
inductive Function.WorksOn (f : Function) (record : String) : Prop where
  | intro (taking : List String) (name : String) (work : List String)
    (acquires : f.acquires = some record)
    (body : f.body = taking ++ borrowing name record :: work)
    (takes : ∀ line ∈ taking, Withdraws line)
    (isName : name.toList.all isNameChar = true)
    (works : ∀ line ∈ work, bindsBorrowed line = false)

/-- A function that works on a record acquires it. -/
theorem Function.WorksOn.acquires {f : Function} {record : String} (h : f.WorksOn record) : f.acquires = some record := by
  obtain ⟨-, -, -, ha, -, -, -, -⟩ := h
  exact ha

/-- The record that such a function borrows. -/
theorem Function.WorksOn.borrows_iff {f : Function} {record : String} (h : f.WorksOn record) (record' : String) :
    (∃ line ∈ f.body, Borrows line record') ↔ record' = record := by
  obtain ⟨taking, name, work, -, hbody, htakes, hname, hworks⟩ := h
  rw [hbody]
  constructor
  · rintro ⟨line, hl, hb⟩
    have hbinds := bindsBorrowed_of_borrows hb
    rcases List.mem_append.mp hl with hl | hl
    · rw [bindsBorrowed_of_withdraws (htakes line hl)] at hbinds
      cases hbinds
    · rcases List.mem_cons.mp hl with rfl | hl
      · exact (borrows_borrowing hname).mp hb
      · rw [hworks line hl] at hbinds
        cases hbinds
  · rintro rfl
    exact ⟨borrowing name record', by simp, (borrows_borrowing hname).mpr rfl⟩

/-! ## The items of one primitive -/

section Emission

variable (p : Primitive) (suffix : String)

/-- The fields of the record are those of the settings, in their order. -/
theorem emit_fields : (emit p suffix).record.fields = (Instance.settings ⟨p, suffix⟩).map Prod.fst := by
  obtain ⟨id, kind, position, label, description, parameters, inputs, outputs⟩ := p
  cases kind <;> rfl

/-- The first function hands over the record with its first values, and the others borrow it. -/
theorem emit_functions :
    ∃ init others, (emit p suffix).functions = init :: others ∧
      init.body = handOver (emit p suffix).record.name
        ((Instance.settings ⟨p, suffix⟩).map fun s => setting s.1.name s.2) ∧
      ∀ f ∈ others, f.WorksOn (emit p suffix).record.name := by
  obtain ⟨id, kind, position, label, description, parameters, inputs, outputs⟩ := p
  -- of the work, what is left to `decide` are the lines that are fixed texts
  cases kind with
  | lendingPool =>
    refine ⟨_, _, rfl, rfl, List.forall_mem_cons.mpr ⟨?_, List.forall_mem_singleton.mpr ?_⟩⟩
    · refine .intro [_] "lending_pool" _ rfl rfl ?_ rfl ?_ <;> simp (disch := decide)
    · refine .intro [] "lending_pool" _ rfl rfl ?_ rfl ?_ <;> simp (disch := decide)
  | ammPool =>
    refine ⟨_, _, rfl, rfl, List.forall_mem_cons.mpr ⟨?_, List.forall_mem_singleton.mpr ?_⟩⟩
    · refine .intro [_, _] "amm_pool" _ rfl rfl ?_ rfl ?_ <;> simp (disch := decide)
      decide
    · refine .intro [_] "amm_pool" _ rfl rfl ?_ rfl ?_ <;> simp (disch := decide)
      decide
  | staking =>
    refine ⟨_, _, rfl, rfl, List.forall_mem_cons.mpr ⟨?_, List.forall_mem_singleton.mpr ?_⟩⟩
    · refine .intro [_] "staking_pool" _ rfl rfl ?_ rfl ?_ <;> simp (disch := decide)
    · refine .intro [] "staking_pool" _ rfl rfl ?_ rfl ?_ <;> simp (disch := decide)
      decide
  | vault =>
    refine ⟨_, _, rfl, rfl, List.forall_mem_cons.mpr ⟨?_, List.forall_mem_singleton.mpr ?_⟩⟩
    · refine .intro [_] "vault" _ rfl rfl ?_ rfl ?_ <;> simp (disch := decide)
    · refine .intro [] "vault" _ rfl rfl ?_ rfl ?_ <;> simp (disch := decide)
      decide

/-- The names that the items of a primitive use among themselves. The first function, `init`, hands the account a record whose
fields start as `settings` says: each field once, in order, a field that mirrors a constant with the constant, a field for
coins without coins; and each constant is what one field starts with. Every other function acquires the record and borrows
it and no other. -/
structure Emitted.IsCoherent (e : Emitted) (suffix : String) (init : Function) (others : List Function)
    (settings : List (Field × String)) : Prop where
  functions : e.functions = init :: others
  fields : settings.map Prod.fst = e.record.fields
  fieldNames : (e.record.fields.map (·.name)).Nodup
  initializes : init.body = handOver e.record.name (settings.map fun s => setting s.1.name s.2)
  mirrors : ∀ s ∈ settings, ∀ k ∈ e.constants, s.1.Mirrors suffix k →
    s.1.type = k.type ∧ s.1.comment = k.comment ∧ s.2 = k.name
  uses : ∀ k ∈ e.constants, ∃ s, settings.filter (fun s => s.2 = k.name) = [s] ∧ s.1.Mirrors suffix k
  coins : ∀ s ∈ settings, ∀ asset, s.1.type = coinType asset → s.2 = zeroCoins asset
  borrows : ∀ f ∈ others, f.acquires = some e.record.name ∧
    ∀ record, (∃ line ∈ f.body, Borrows line record) ↔ record = e.record.name

/-- What a primitive emits is coherent, whatever its kind, its values and its suffix. -/
theorem emit_isCoherent : ∃ init others settings, (emit p suffix).IsCoherent suffix init others settings := by
  obtain ⟨init, others, hfunctions, hbody, hothers⟩ := emit_functions p suffix
  refine ⟨init, others, Instance.settings ⟨p, suffix⟩, hfunctions, (emit_fields p suffix).symm, ?_, hbody, ?_, ?_, ?_, ?_⟩
  · rw [emit_fields, List.map_map]
    exact Instance.settings_names_nodup ⟨p, suffix⟩
  · intro s hs k hk hm
    rw [emit_constants, List.mem_map] at hk
    obtain ⟨d, hd, rfl⟩ := hk
    rw [Instance.eq_of_mirrors hd hs hm]
    exact ⟨rfl, rfl, rfl⟩
  · intro k hk
    rw [emit_constants, List.mem_map] at hk
    obtain ⟨d, hd, rfl⟩ := hk
    exact ⟨_, Instance.settings_filter hd, Instance.constantSetting_mirrors hd⟩
  · exact fun s hs asset h => Instance.value_of_coinType hs h
  · intro f hf
    have hw := hothers f hf
    exact ⟨hw.acquires, hw.borrows_iff⟩

end Emission

/-! ## The items of a module -/

/-- The name of an item. -/
def Item.name : Item → String
  | constant c => c.name
  | record r => r.name
  | function f => f.name

end Move

namespace MoveModule

/-- The items that a name is declared by. -/
def declaring (m : MoveModule) (name : String) : List Move.Item := m.items.filter fun item => item.name = name

end MoveModule

namespace Kind

/-- The bases of the names of all items. -/
def itemBases (kind : Kind) : List String := kind.constantBases ++ [kind.recordBase] ++ kind.functionBases

/-- The names of the items of all kinds are distinct before any number is put behind them. -/
theorem itemBases_distinct : Move.DistinctBases itemBases where
  nodup kind := by cases kind <;> decide
  apart kind kind' := by cases kind <;> cases kind' <;> decide
  unmarked kind := by cases kind <;> decide

end Kind

namespace Composition

variable {c : Composition} {options : Move.Options} {module : MoveModule}

/-- No two items of a module have one name. -/
theorem item_names_nodup (hm : c.toModule? options = some module) : (module.items.map (·.name)).Nodup := by
  have hnames : module.items.map (·.name) =
      module.constants.map (·.name) ++ module.records.map (·.name) ++ module.functions.map (·.name) := by
    rw [toModule?_groups hm, List.map_append, List.map_append, List.map_map, List.map_map, List.map_map]
    rfl
  rw [hnames, constant_names hm, record_names hm, function_names hm]
  -- primitive by primitive, these are the names from the bases of all items
  have hperm : (Move.suffixed Kind.itemBases c.kinds).Perm
      (Move.suffixed Kind.constantBases c.kinds ++ Move.suffixed (fun kind => [kind.recordBase]) c.kinds ++
        Move.suffixed Kind.functionBases c.kinds) := by
    simp only [Move.suffixed, Kind.itemBases, List.map_append]
    refine (List.flatMap_append_perm _ _ _).symm.trans ?_
    exact (List.flatMap_append_perm _ _ _).symm.append_right _
  exact hperm.nodup_iff.mp (Move.suffixed_nodup Kind.itemBases_distinct c.kinds)

/-- The name of an item is declared by that item alone. -/
theorem declaring_eq_singleton (hm : c.toModule? options = some module) {item : Move.Item} (h : item ∈ module.items) :
    module.declaring item.name = [item] :=
  filter_eq_singleton_of_nodup (item_names_nodup hm) h

/-- What a primitive emits stands in the module. -/
theorem mem_items (hm : c.toModule? options = some module) {e : Move.Emitted} (he : e ∈ c.emitted) :
    Move.Item.record e.record ∈ module.items ∧
      (∀ k ∈ e.constants, Move.Item.constant k ∈ module.items) ∧
      ∀ f ∈ e.functions, Move.Item.function f ∈ module.items := by
  simp only [toModule?_items hm, Move.groupedItems, List.mem_append, List.mem_flatMap, List.mem_map]
  refine ⟨Or.inl (Or.inr ⟨e, he, rfl⟩), fun k hk => Or.inl (Or.inl ⟨e, he, k, hk, rfl⟩), fun f hf => ?_⟩
  exact Or.inr ⟨e, he, f, hf, rfl⟩

/-- Every name that the items of a primitive use is declared by these items. The initializer and the functions use the names
of the record and of the constants as `Emitted.IsCoherent` says; and in every module of a composition each of these names is
declared once, by what the primitive in question emits. There is a module where the wiring is not to be listed, and where no
two primitives share a name. -/
theorem emitted_names_resolve :
    (∀ p suffix, ∃ init others settings, (Move.emit p suffix).IsCoherent suffix init others settings) ∧
      ∀ (c : Composition) (options : Move.Options),
        (options.includeWiring = false ∨ c.insertionOrder.Nodup → ∃ module, c.toModule? options = some module) ∧
        ∀ module, c.toModule? options = some module →
          List.Forall₂
            (fun p e => (∃ suffix, e = Move.emit p suffix) ∧
              module.declaring e.record.name = [.record e.record] ∧
                ∀ k ∈ e.constants, module.declaring k.name = [.constant k])
            c.primitives.values c.emitted := by
  refine ⟨Move.emit_isCoherent, fun c options => ⟨exists_toModule? options, fun module hm => ?_⟩⟩
  rw [List.forall₂_iff_get]
  refine ⟨c.length_emitted.symm, fun n hp he => ⟨?_, ?_⟩⟩
  · exact ⟨_, List.getElem_zipWith⟩
  · obtain ⟨hr, hk, -⟩ := mem_items hm (List.get_mem c.emitted ⟨n, he⟩)
    exact ⟨declaring_eq_singleton hm hr, fun k hk' => declaring_eq_singleton hm (hk k hk')⟩

/-- A composition with two vaults. -/
def twoVaults : Composition :=
  let c := (Composition.new .zero .epoch "Vaults" "").addPrimitive .epoch .vault default
  (c.2.addPrimitive .epoch .vault default).2

/-- The second vault has a constant of its own for its strategy. -/
theorem secondStrategy_resolves :
    twoVaults.emitted.length = 2 ∧
      ∃ module, twoVaults.toModule? {} = some module ∧
        module.declaring "STRATEGY_2" = [.constant ⟨"STRATEGY_2", "u8", "0", some "conservative"⟩] := by
  have hp : 1 < twoVaults.primitives.values.length := by decide
  have he : 1 < twoVaults.emitted.length := by decide
  obtain ⟨hexists, hresolve⟩ := emitted_names_resolve.2 twoVaults {}
  obtain ⟨module, hm⟩ := hexists (Or.inr (by decide))
  obtain ⟨-, -, hk⟩ := (hresolve module hm).get hp he
  exact ⟨rfl, module, hm, hk ⟨"STRATEGY_2", "u8", "0", some "conservative"⟩ List.mem_cons_self⟩

end Composition

end DefiComposer
