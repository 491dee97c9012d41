import DefiComposer.Proofs.Findings
import DefiComposer.Proofs.Items
import DefiComposer.Proofs.Runs

/-!
# Placeholders: constants without a value

The validation goes through the records of a primitive, the generation through the parameters that its kind declares. The
two agree on every parameter that has a record: where nothing is found missing and no rule broken, the recorded values are
usable, and the constant of a usable value is never the placeholder. But a patch that brings parameters may leave a declared
one without a record. The validation has nothing to say of it, and its constant is the placeholder
(`unrecorded_goes_unreported`). Where nothing is found, the placeholders stand for the parameters without a record and for no
others; and no other edit than such a patch takes a record away, whatever value it writes, so that a run without such patches
leaves no placeholder where nothing is found (`placeholder_iff_unrecorded`).
-/

namespace DefiComposer

/-! ## Values of a type -/

namespace ParameterValue

/-- What is of the type of numbers is a number. -/
theorem eq_number_of_type? {v : ParameterValue} (h : v.type? = some .number) : ∃ x, v = .number x := by
  cases v <;> cases h
  exact ⟨_, rfl⟩

/-- What is of the type of tags is a tag. -/
theorem eq_enumTag_of_type? {v : ParameterValue} (h : v.type? = some .enumeration) : ∃ tag, v = .enumTag tag := by
  cases v <;> cases h
  exact ⟨_, rfl⟩

end ParameterValue

/-! ## The constant of a parameter -/

namespace Move

/-- No number is written like the placeholder. -/
theorem repr_ne_unset (n : Nat) : n.repr ≠ unset := by
  intro h
  have hu : 'U' ∈ n.repr.toList := by
    rw [h]
    decide
  rw [Nat.toList_repr] at hu
  have hd := Nat.isDigit_of_mem_toDigits (by decide) (by decide) hu
  exact absurd hd (by decide)

namespace Instance

variable {i : Instance} {parameter : String}

/-- A record that is not empty gives the value of a constant. -/
theorem value?_eq_some {v : ParameterValue} (h : i.primitive.parameter? parameter = some v) (hv : v.isEmpty = false) :
    i.value? parameter = some v := by
  simp [value?, h, hv]

/-- Without a record there is no value for a constant. -/
theorem value?_eq_none (h : i.primitive.parameter? parameter = none) : i.value? parameter = none := by
  simp [value?, h]

/-- The constant of a number is not the placeholder. -/
theorem number_ne_unset {x : Float} (h : i.value? parameter = some (.number x)) (measure : Measure) :
    (i.number parameter measure).value ≠ unset := by
  simp only [number, h, Option.bind_some, ParameterValue.number?]
  exact repr_ne_unset _

/-- A strategy with a code is not written like the placeholder. -/
theorem strategy_ne_unset {tag : String} (h : i.value? "strategy" = some (.enumTag tag)) (ht : tag ∈ strategies) :
    i.strategy.value ≠ unset := by
  have hcode : (strategies.findIdx? (Text.sameIgnoringCase · tag)).isSome = true := by
    rw [List.findIdx?_isSome, List.any_eq_true]
    exact ⟨tag, ht, by simp [Text.sameIgnoringCase]⟩
  obtain ⟨n, hn⟩ := Option.isSome_iff_exists.mp hcode
  simp only [strategy, h, Option.bind_some, ParameterValue.text?, hn]
  exact repr_ne_unset n

/-- The constant of a usable value is not the placeholder. -/
theorem constant_ne_unset {d : Parameter} (hd : d ∈ i.primitive.kind.encoded) {v : ParameterValue}
    (hv : i.primitive.parameter? d.id = some v) (hu : d.Usable v) : (i.constant d).value ≠ unset := by
  have hvalue := value?_eq_some hv hu.present
  rcases i.primitive.kind.encoded_type d hd with ht | ⟨ht, hid, hallowed⟩
  · obtain ⟨x, rfl⟩ := ParameterValue.eq_number_of_type? (hu.typed.trans (congrArg some ht))
    rw [constant, if_neg (by rw [ht]; decide)]
    exact number_ne_unset hvalue _
  · obtain ⟨tag, rfl⟩ := ParameterValue.eq_enumTag_of_type? (hu.typed.trans (congrArg some ht))
    rw [constant, if_pos ht]
    rw [hid] at hvalue
    refine strategy_ne_unset hvalue ?_
    rcases hu.permitted tag rfl with hnil | hmem
    · rw [hallowed] at hnil
      cases hnil
    · rwa [hallowed] at hmem

/-- The constant of a parameter without a record is the placeholder. -/
theorem constant_eq_unset {d : Parameter} (hd : d ∈ i.primitive.kind.encoded)
    (h : i.primitive.parameter? d.id = none) : (i.constant d).value = unset := by
  have hvalue := value?_eq_none h
  rcases i.primitive.kind.encoded_type d hd with ht | ⟨ht, hid, -⟩
  · rw [constant, if_neg (by rw [ht]; decide)]
    simp [number, hvalue]
  · rw [hid] at hvalue
    rw [constant, if_pos ht]
    simp [strategy, hvalue]

end Instance

end Move

/-! ## Placeholders and findings -/

namespace Composition

variable {c : Composition}

/-- Where nothing is found missing and no rule broken, what is recorded for a declared parameter is usable. -/
theorem usable_of_no_findings (hmissing : c.validate.ofKind .missingParameter = [])
    (hbroken : c.validate.ofKind .constraintViolated = []) {p : Primitive} (hp : p ∈ c.primitives.values) {d : Parameter}
    (hd : d ∈ p.kind.template.parameters) {v : ParameterValue} (hv : p.parameter? d.id = some v) :
    d.Usable v ∧ d.check v = .ok () := by
  have hr : (d.id, v) ∈ p.parameters.entries := OrderedMap.get?_eq_some_iff.mp hv
  have hne : v.isEmpty = false := no_missingParameter_iff.mp hmissing p hp _ hr
  have hcheck : d.check v = .ok () :=
    no_constraintViolated_iff.mp hbroken p hp _ hr hne d (Kind.parameter?_eq_some_iff.mpr ⟨hd, rfl⟩)
  exact ⟨Parameter.usable_of_isEmpty_eq_false hne hcheck, hcheck⟩

/-- Where every declared parameter of every primitive has a usable value, no constant is the placeholder. -/
theorem constants_ne_unset (h : ∀ p ∈ c.primitives.values, ∀ d ∈ p.kind.template.parameters,
      ∃ v, p.parameter? d.id = some v ∧ d.Usable v) {options : Move.Options} {module : MoveModule}
    (hm : c.toModule? options = some module) : ∀ k ∈ module.constants, k.value ≠ Move.unset := by
  intro k hk
  obtain ⟨p, hp, suffix, d, hd, rfl⟩ := exists_of_mem_constants hm hk
  obtain ⟨v, hv, hu⟩ := h p hp d (Kind.declared_of_encoded hd)
  exact Move.Instance.constant_ne_unset hd hv hu

/-- Where nothing is found missing and no rule broken, a constant is the placeholder exactly where a primitive has no record
of the parameter that it stands for. -/
theorem exists_placeholder_iff (hmissing : c.validate.ofKind .missingParameter = [])
    (hbroken : c.validate.ofKind .constraintViolated = []) {options : Move.Options} {module : MoveModule}
    (hm : c.toModule? options = some module) :
    (∃ k ∈ module.constants, k.value = Move.unset) ↔
      ∃ p ∈ c.primitives.values, ∃ d ∈ p.kind.encoded, p.parameter? d.id = none := by
  constructor
  · rintro ⟨k, hk, hunset⟩
    obtain ⟨p, hp, suffix, d, hd, rfl⟩ := exists_of_mem_constants hm hk
    refine ⟨p, hp, d, hd, ?_⟩
    cases hv : p.parameter? d.id with
    | none => rfl
    | some v =>
      have hu := usable_of_no_findings hmissing hbroken hp (Kind.declared_of_encoded hd) hv
      exact absurd hunset (Move.Instance.constant_ne_unset hd hv hu.1)
  · rintro ⟨p, hp, d, hd, hnone⟩
    obtain ⟨suffix, hk⟩ := exists_mem_constants hm hp hd
    exact ⟨_, hk, Move.Instance.constant_eq_unset hd hnone⟩

end Composition

/-! ## Records along a run -/

/-- Whether an edit takes no record away: all do so but a patch that brings parameters. -/
def Edit.keepsRecords : Edit → Bool
  | .updatePrimitive _ patch => patch.parameters.isNone
  | _ => true

/-- A primitive is recorded when it has a record of each parameter that its kind declares, of whatever value. -/
def Primitive.IsRecorded (p : Primitive) : Prop := ∀ d ∈ p.kind.template.parameters, d.id ∈ p.parameters.keys

namespace Primitive.IsRecorded

variable {p : Primitive}

/-- There is a value to look up for each declared parameter. -/
theorem exists_value (h : p.IsRecorded) {d : Parameter} (hd : d ∈ p.kind.template.parameters) :
    ∃ v, p.parameter? d.id = some v := by
  rw [← Option.ne_none_iff_exists']
  exact fun hnone => OrderedMap.get?_eq_none_iff.mp hnone (h d hd)

/-- A fresh primitive is recorded. -/
theorem instantiate (kind : Kind) (position : Position) (ids : IdSupply) :
    (Catalog.instantiate kind position ids).1.IsRecorded := by
  intro d hd
  rw [Catalog.instantiate_keys]
  exact List.mem_map_of_mem hd

/-- Writing a value, whichever it is, takes no record away. -/
theorem insert (h : p.IsRecorded) (parameter : String) (value : ParameterValue) :
    ({ p with parameters := p.parameters.insert parameter value } : Primitive).IsRecorded := by
  intro d hd
  rw [OrderedMap.keys_insert]
  split
  · exact h d hd
  · exact List.mem_append_left _ (h d hd)

/-- A patch without parameters takes no record away. -/
theorem apply (h : p.IsRecorded) {patch : PrimitivePatch} (hp : patch.parameters = none) : (p.apply patch).IsRecorded := by
  have hsame : (p.apply patch).parameters = p.parameters := by
    simp [Primitive.apply, hp]
  intro d hd
  rw [hsame]
  exact h d hd

end Primitive.IsRecorded

/-- What an edit makes that takes no record away is recorded if the primitives that stand there are. -/
theorem Edit.Makes.isRecorded {c : Composition} {edit : Edit} {q : Primitive} (h : edit.Makes c q)
    (he : edit.keepsRecords = true) (hc : ∀ p ∈ c.primitives.values, p.IsRecorded) : q.IsRecorded := by
  have hfound : ∀ {id : PrimitiveId} {p : Primitive}, c.primitive? id = some p → p.IsRecorded :=
    fun found => hc _ (OrderedMap.mem_values_of_get? found)
  cases h with
  | added kind position => exact .instantiate kind position c.ids
  | patched found patch => exact (hfound found).apply (by simpa [Edit.keepsRecords] using he)
  | moved found position => exact fun d hd => hfound found d hd
  | stored found parameter value => exact (hfound found).insert parameter value
  | read found accepted => exact (hfound found).insert _ _

namespace Store

/-- An edit that takes no record away keeps all primitives recorded. -/
theorem perform_isRecorded (s : Store) (now : Timestamp) (edit : Edit) (he : edit.keepsRecords = true)
    (hs : ∀ p ∈ s.composition.primitives.values, p.IsRecorded) :
    ∀ p ∈ (s.perform now edit).composition.primitives.values, p.IsRecorded := by
  intro p hp
  rcases mem_values_perform hp with hp | hp
  · exact hs p hp
  · exact hp.isRecorded he hs

/-- A run of edits that take no record away keeps all primitives recorded. -/
theorem run_isRecorded (s : Store) (edits : List (Timestamp × Edit)) (he : ∀ e ∈ edits, e.2.keepsRecords = true)
    (hs : ∀ p ∈ s.composition.primitives.values, p.IsRecorded) :
    ∀ p ∈ (s.run edits).composition.primitives.values, p.IsRecorded :=
  run_induction_of (fun edit => edit.keepsRecords = true) perform_isRecorded s edits he hs

/-- After a run from a store without primitives there is a module for all options. -/
theorem exists_toModule?_of_run (s : Store) (edits : List (Timestamp × Edit)) (hs : s.composition.primitives.values = [])
    (options : Move.Options) : ∃ module, (s.run edits).composition.toModule? options = some module := by
  have hnamed : s.composition.IsNamed := by
    intro e he
    have hm := OrderedMap.mem_values_of_mem he
    rw [hs] at hm
    cases hm
  exact Composition.exists_toModule? options (Or.inr (Composition.insertionOrder_nodup (s.run_isNamed edits hnamed)))

end Store

/-! ## Where placeholders come from -/

namespace Composition

/-- A vault of which a patch, meant to name its asset, dropped all other parameters. -/
def patchedVault : Composition :=
  let patch : PrimitivePatch := { parameters := some (.ofList [("assetType", .asset "APT")]) }
  ((Store.new .zero .epoch "Vaults" "").run
    [(.epoch, .addPrimitive .vault default), (.epoch, .updatePrimitive ⟨0⟩ patch)]).composition

theorem patchedVault_reachable : patchedVault.Reachable := ⟨_, _, _, _, _, rfl⟩

/-- The vault has a module for all options. -/
theorem patchedVault_exists (options : Move.Options) : ∃ module, patchedVault.toModule? options = some module :=
  Store.exists_toModule?_of_run _ _ rfl options

/-- The vault has no record of its strategy. -/
theorem patchedVault_unrecorded :
    ∃ p ∈ patchedVault.primitives.values, ∃ d ∈ p.kind.encoded, p.parameter? d.id = none := by decide

/-- Where nothing is found missing and no rule broken, a constant may still be the placeholder. -/
theorem unrecorded_goes_unreported :
    ¬ ∀ c : Composition, c.Reachable → ∀ (options : Move.Options) (module : MoveModule),
      c.toModule? options = some module → c.validate.ofKind .missingParameter = [] →
        c.validate.ofKind .constraintViolated = [] → ∀ k ∈ module.constants, k.value ≠ Move.unset := by
  intro h
  have hmissing : patchedVault.validate.ofKind .missingParameter = [] := by decide
  have hbroken : patchedVault.validate.ofKind .constraintViolated = [] := by decide
  obtain ⟨module, hm⟩ := patchedVault_exists {}
  obtain ⟨k, hk, hunset⟩ := (exists_placeholder_iff hmissing hbroken hm).mpr patchedVault_unrecorded
  exact h patchedVault patchedVault_reachable {} module hm hmissing hbroken k hk hunset

/-- Validation and generation on missing parameters, where nothing is found missing and no rule broken. In any composition each
declared parameter that has a record has a usable value, one that passes its check; and in any of its modules, of which there
is one where the wiring is not to be listed or no two primitives share a name, a constant is the placeholder exactly where a
primitive has no record of the parameter that it stands for. A run from a store without primitives, of edits among which no
patch brings parameters, leaves no declared parameter without a record; so there all of them have usable values, and no
constant is the placeholder. -/
theorem placeholder_iff_unrecorded :
    (∀ (c : Composition) (options : Move.Options), c.validate.ofKind .missingParameter = [] →
        c.validate.ofKind .constraintViolated = [] →
      (∀ p ∈ c.primitives.values, ∀ d ∈ p.kind.template.parameters, ∀ v, p.parameter? d.id = some v →
        d.Usable v ∧ d.check v = .ok ()) ∧
      (options.includeWiring = false ∨ c.insertionOrder.Nodup → ∃ module, c.toModule? options = some module) ∧
      ∀ module, c.toModule? options = some module →
        ((∃ k ∈ module.constants, k.value = Move.unset) ↔
          ∃ p ∈ c.primitives.values, ∃ d ∈ p.kind.encoded, p.parameter? d.id = none)) ∧
    ∀ (s : Store) (edits : List (Timestamp × Edit)), s.composition.primitives.values = [] →
        (∀ e ∈ edits, e.2.keepsRecords = true) →
      (∀ p ∈ (s.run edits).composition.primitives.values, ∀ d ∈ p.kind.template.parameters,
        ∃ v, p.parameter? d.id = some v) ∧
      ((s.run edits).composition.validate.ofKind .missingParameter = [] →
          (s.run edits).composition.validate.ofKind .constraintViolated = [] →
        (∀ p ∈ (s.run edits).composition.primitives.values, ∀ d ∈ p.kind.template.parameters,
          ∃ v, p.parameter? d.id = some v ∧ d.Usable v) ∧
        ∀ options : Move.Options, ∃ module, (s.run edits).composition.toModule? options = some module ∧
          ∀ k ∈ module.constants, k.value ≠ Move.unset) := by
  constructor
  · intro c options hmissing hbroken
    exact ⟨fun p hp d hd v hv => usable_of_no_findings hmissing hbroken hp hd hv, exists_toModule? options,
      fun _ hm => exists_placeholder_iff hmissing hbroken hm⟩
  · intro s edits hs he
    have hnone : ∀ p ∈ s.composition.primitives.values, p.IsRecorded := by
      rw [hs]
      exact nofun
    have hvalue : ∀ p ∈ (s.run edits).composition.primitives.values, ∀ d ∈ p.kind.template.parameters,
        ∃ v, p.parameter? d.id = some v := fun p hp _ hd => (s.run_isRecorded edits he hnone p hp).exists_value hd
    refine ⟨hvalue, fun hmissing hbroken => ?_⟩
    have husable : ∀ p ∈ (s.run edits).composition.primitives.values, ∀ d ∈ p.kind.template.parameters,
        ∃ v, p.parameter? d.id = some v ∧ d.Usable v := by
      intro p hp d hd
      obtain ⟨v, hv⟩ := hvalue p hp d hd
      exact ⟨v, hv, (usable_of_no_findings hmissing hbroken hp hd hv).1⟩
    refine ⟨husable, fun options => ?_⟩
    obtain ⟨module, hm⟩ := s.exists_toModule?_of_run edits hs options
    exact ⟨module, hm, constants_ne_unset husable hm⟩

/-- The run that makes a vault and writes two of its parameters without a check: one that it does not have, and its
strategy. -/
def bareWrites : List (Timestamp × Edit) :=
  [ (.epoch, .addPrimitive .vault default), (.epoch, .setParameter ⟨0⟩ "note" (.text "soon")),
    (.epoch, .setParameter ⟨0⟩ "strategy" (.enumTag "aggressive")) ]

/-- The patched vault has no record of its strategy, and a constant that is the placeholder; after the bare writes nothing is
found either, and no constant is the placeholder. -/
theorem patchedVault_placeholder :
    (patchedVault.validate.ofKind .missingParameter = [] ∧ patchedVault.validate.ofKind .constraintViolated = [] ∧
      ∃ module, patchedVault.toModule? {} = some module ∧ ∃ k ∈ module.constants, k.value = Move.unset) ∧
    (∀ e ∈ bareWrites, e.2.keepsRecords = true) ∧
    ∃ module, ((Store.new .zero .epoch "Vaults" "").run bareWrites).composition.toModule? {} = some module ∧
      ∀ k ∈ module.constants, k.value ≠ Move.unset := by
  have hmissing : patchedVault.validate.ofKind .missingParameter = [] := by decide
  have hbroken : patchedVault.validate.ofKind .constraintViolated = [] := by decide
  obtain ⟨hcompositions, hruns⟩ := placeholder_iff_unrecorded
  obtain ⟨-, -, hiff⟩ := hcompositions patchedVault {} hmissing hbroken
  obtain ⟨module, hm⟩ := patchedVault_exists {}
  have hkeeps : ∀ e ∈ bareWrites, e.2.keepsRecords = true := by decide
  obtain ⟨-, hclean⟩ := hruns (Store.new .zero .epoch "Vaults" "") bareWrites rfl hkeeps
  obtain ⟨-, hset⟩ := hclean (by decide) (by decide)
  exact ⟨⟨hmissing, hbroken, module, hm, (hiff module hm).mpr patchedVault_unrecorded⟩, hkeeps, hset {}⟩

end Composition

end DefiComposer
