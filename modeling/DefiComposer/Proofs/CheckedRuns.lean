import DefiComposer.Proofs.Placeholders

/-!
# Checked runs: edits that write no parameter unchecked

Two edits may put anything into the parameters of a primitive: a bare write, and a patch that brings parameters. All other
edits are checked. They keep every primitive configured: it has a record of each parameter that its kind declares, in the
order of the template, it has no other, and every recorded value passes its check. The defaults of a fresh primitive do
(`Kind.check_defaultValue`), and raw input is stored only in the place of a record and only after its check
(`Store.readParameter_ok`). So a run of checked edits leaves nothing to be found in the parameters, and no constant without
a value (`Store.checked_run_configured`).
-/

namespace DefiComposer

/-- Whether an edit writes no parameter without its check. -/
def Edit.isChecked : Edit → Bool
  | .setParameter _ _ _ => false
  | .updatePrimitive _ patch => patch.parameters.isNone
  | _ => true

/-- A primitive is configured when its records are those of the declared parameters in their order and each value passes its
check. -/
structure Primitive.IsConfigured (p : Primitive) : Prop where
  keys : p.parameters.keys = p.kind.parameterIds
  checked : ∀ e ∈ p.parameters.entries, ∃ d, p.kind.template.parameter? e.1 = some d ∧ d.check e.2 = .ok ()

namespace Primitive.IsConfigured

variable {p : Primitive}

/-! ## What makes and keeps a primitive configured -/

/-- A fresh primitive is configured: its records are the declared defaults. -/
theorem instantiate (kind : Kind) (position : Position) (ids : IdSupply) :
    (Catalog.instantiate kind position ids).1.IsConfigured := by
  refine ⟨Catalog.instantiate_keys kind position ids, ?_⟩
  intro e he
  rw [Catalog.instantiate_entries, List.mem_map] at he
  obtain ⟨d, hd, rfl⟩ := he
  exact ⟨d, Kind.parameter?_eq_some_iff.mpr ⟨hd, rfl⟩, kind.check_defaultValue d hd⟩

/-- A value that passes the check of a declared parameter takes the place of the one that is recorded for it. -/
theorem insert (hp : p.IsConfigured) {parameter : String} {value : ParameterValue} {d : Parameter}
    (hd : p.kind.template.parameter? parameter = some d) (hc : d.check value = .ok ()) :
    ({ p with parameters := p.parameters.insert parameter value } : Primitive).IsConfigured := by
  have hm : parameter ∈ p.parameters.keys := by
    obtain ⟨hdeclared, rfl⟩ := Kind.parameter?_eq_some_iff.mp hd
    rw [hp.keys]
    exact List.mem_map_of_mem hdeclared
  refine ⟨?_, ?_⟩
  · rw [OrderedMap.keys_insert, if_pos hm]
    exact hp.keys
  · intro e he
    rcases OrderedMap.mem_entries_insert he with rfl | he
    · exact ⟨d, hd, hc⟩
    · exact hp.checked e he

/-- A patch without parameters leaves the records as they are. -/
theorem apply (hp : p.IsConfigured) {patch : PrimitivePatch} (h : patch.parameters = none) :
    (p.apply patch).IsConfigured := by
  have hsame : (p.apply patch).parameters = p.parameters := by
    simp [Primitive.apply, h]
  exact ⟨hsame ▸ hp.keys, hsame ▸ hp.checked⟩

/-! ## What is known of a configured primitive -/

/-- Each declared parameter has a usable value. -/
theorem exists_usable (hp : p.IsConfigured) {d : Parameter} (hd : d ∈ p.kind.template.parameters) :
    ∃ v, p.parameter? d.id = some v ∧ d.Usable v := by
  have hm : d.id ∈ p.parameters.keys := by
    rw [hp.keys]
    exact List.mem_map_of_mem hd
  obtain ⟨⟨id, v⟩, he, hid⟩ := List.mem_map.mp hm
  obtain rfl : id = d.id := hid
  obtain ⟨e, hf, hc⟩ := hp.checked _ he
  rw [Kind.parameter?_eq_some_iff.mpr ⟨hd, rfl⟩] at hf
  obtain rfl := Option.some.inj hf
  exact ⟨v, OrderedMap.get?_eq_some_iff.mpr he, Parameter.usable_of_check (p.kind.required d hd) hc⟩

/-- There is nothing to find in a record. -/
theorem parameterIssue?_eq_none (hp : p.IsConfigured) {e : String × ParameterValue} (he : e ∈ p.parameters.entries) :
    p.parameterIssue? e.1 e.2 = none := by
  obtain ⟨d, hd, hc⟩ := hp.checked e he
  have hm := (Kind.parameter?_eq_some_iff.mp hd).1
  have hu := Parameter.usable_of_check (p.kind.required d hm) hc
  exact Primitive.parameterIssue?_eq_none hu.present hd hc

end Primitive.IsConfigured

/-! ## Runs -/

/-- What a checked edit makes is configured if the primitives that stand there are. -/
theorem Edit.Makes.isConfigured {c : Composition} {edit : Edit} {q : Primitive} (h : edit.Makes c q)
    (he : edit.isChecked = true) (hc : ∀ p ∈ c.primitives.values, p.IsConfigured) : q.IsConfigured := by
  have hfound : ∀ {id : PrimitiveId} {p : Primitive}, c.primitive? id = some p → p.IsConfigured :=
    fun found => hc _ (OrderedMap.mem_values_of_get? found)
  cases h with
  | added kind position => exact .instantiate kind position c.ids
  | patched found patch => exact (hfound found).apply (by simpa [Edit.isChecked] using he)
  | moved found position => exact ⟨(hfound found).keys, (hfound found).checked⟩
  | stored found parameter value => cases he
  | read found accepted =>
    obtain ⟨d, hd, -, hcheck⟩ := Store.readParameter_ok found accepted
    exact (hfound found).insert hd hcheck

namespace Store

/-- A checked edit keeps all primitives configured. -/
theorem perform_isConfigured (s : Store) (now : Timestamp) (edit : Edit) (he : edit.isChecked = true)
    (hs : ∀ p ∈ s.composition.primitives.values, p.IsConfigured) :
    ∀ p ∈ (s.perform now edit).composition.primitives.values, p.IsConfigured := by
  intro p hp
  rcases mem_values_perform hp with hp | hp
  · exact hs p hp
  · exact hp.isConfigured he hs

/-- A run of checked edits keeps all primitives configured. -/
theorem run_isConfigured (s : Store) (edits : List (Timestamp × Edit)) (he : ∀ e ∈ edits, e.2.isChecked = true)
    (hs : ∀ p ∈ s.composition.primitives.values, p.IsConfigured) :
    ∀ p ∈ (s.run edits).composition.primitives.values, p.IsConfigured :=
  run_induction_of (fun edit => edit.isChecked = true) perform_isConfigured s edits he hs

end Store

namespace Composition

variable {c : Composition}

/-- Nothing is found in the parameters of configured primitives. -/
theorem ofKind_parameters_eq_nil (h : ∀ p ∈ c.primitives.values, p.IsConfigured) {kind : IssueKind}
    (hk : kind ∈ IssueKind.onParameters) : c.validate.ofKind kind = [] := by
  rw [List.eq_nil_iff_forall_not_mem]
  intro i hi
  obtain ⟨p, hp, e, he, hi, -⟩ := (mem_ofKind_parameters hk).mp hi
  rw [(h p hp).parameterIssue?_eq_none he] at hi
  cases hi

end Composition

namespace Store

/-- After a run of checked edits from a store without primitives, succeed or fail as they may, each primitive has a record of
every parameter that its kind declares, in the order of the template and with a value that passes the check, and no other
record; the validation finds nothing in the parameters, and there is a module for all options, of which no constant is the
placeholder. -/
theorem checked_run_configured (s : Store) (edits : List (Timestamp × Edit))
    (hs : s.composition.primitives.values = []) (he : ∀ e ∈ edits, e.2.isChecked = true) :
    (∀ p ∈ (s.run edits).composition.primitives.values,
        p.parameters.keys = p.kind.template.parameters.map (·.id) ∧
          ∀ e ∈ p.parameters.entries, ∃ d, p.kind.template.parameter? e.1 = some d ∧ d.check e.2 = .ok ()) ∧
      (∀ kind ∈ [IssueKind.missingParameter, .constraintViolated, .unknownParameter],
        (s.run edits).composition.validate.ofKind kind = []) ∧
      ∀ options : Move.Options, ∃ module, (s.run edits).composition.toModule? options = some module ∧
        ∀ k ∈ module.constants, k.value ≠ Move.unset := by
  have hnone : ∀ p ∈ s.composition.primitives.values, p.IsConfigured := by
    rw [hs]
    exact nofun
  have hall := s.run_isConfigured edits he hnone
  refine ⟨fun p hp => ⟨(hall p hp).keys, (hall p hp).checked⟩, fun kind hk => ?_, fun options => ?_⟩
  · exact Composition.ofKind_parameters_eq_nil hall hk
  · obtain ⟨module, hm⟩ := s.exists_toModule?_of_run edits hs options
    exact ⟨module, hm, Composition.constants_ne_unset (fun p hp _ hd => (hall p hp).exists_usable hd) hm⟩

/-- A vault that gets another strategy. Its fee is refused, being too high, and so are a parameter that it does not have and
a strategy of `null`. -/
def tuning : List (Timestamp × Edit) :=
  [ (.epoch, .addPrimitive .vault default),
    (.epoch, .updatePrimitive ⟨0⟩ { label := some "Tuned" }),
    (.epoch, .setParameterFromJson ⟨0⟩ "strategy" (.string "aggressive")),
    (.epoch, .setParameterFromJson ⟨0⟩ "performanceFee" (.ofNat 70)),
    (.epoch, .setParameterFromJson ⟨0⟩ "riskLevel" (.string "low")),
    (.epoch, .setParameterFromJson ⟨0⟩ "strategy" .null) ]

/-- The run changes the strategy, and the constants of its module all have values. -/
theorem tuning_configured :
    let s := (Store.new .zero .epoch "Vaults" "").run tuning
    (∃ p ∈ s.composition.primitives.values, p.parameter? "strategy" = some (.enumTag "aggressive")) ∧
      (∀ kind ∈ [IssueKind.missingParameter, .constraintViolated, .unknownParameter],
        s.composition.validate.ofKind kind = []) ∧
      ∀ options : Move.Options, ∃ module, s.composition.toModule? options = some module ∧
        ∀ k ∈ module.constants, k.value ≠ Move.unset := by
  have hchecked : ∀ e ∈ tuning, e.2.isChecked = true := by decide
  have hall := checked_run_configured (Store.new .zero .epoch "Vaults" "") tuning rfl hchecked
  exact ⟨by decide, hall.2⟩

end Store

end DefiComposer
