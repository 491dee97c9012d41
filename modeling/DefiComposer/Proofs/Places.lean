import DefiComposer.Proofs.Findings

/-!
# Places: what is found where, and what it means for the verdict

A validation goes from place to place: the records of parameters, primitive after primitive, then the connections, then the
primitives. `Composition.Finding` says of a place, in terms of the parts alone, which kinds of findings there are to make; it
asks nothing of the composition, which may have been put together from any parts. The findings are made place by place and at
each place they are exactly these, each once (`Composition.validate_exact`). How serious a finding is depends on its kind, so
the verdict comes down to the four kinds that are errors: empty records, ends without a port, and tags that differ.
-/

namespace DefiComposer

/-- How serious the findings of a kind are. -/
def IssueKind.severity : IssueKind → Severity
  | missingParameter => .error
  | constraintViolated => .warning
  | unknownParameter => .info
  | danglingSource => .error
  | danglingTarget => .error
  | resourceTypeMismatch => .error
  | selfLoop => .warning
  | orphanedPrimitive => .warning

/-- A part of a composition that a validation looks at. -/
inductive Place where
  | record (p : Primitive) (parameter : String) (value : ParameterValue)
  | connection (k : Connection)
  | primitive (p : Primitive)

/-- The location that the findings at a place name. -/
def Place.location : Place → Location
  | record p parameter _ => { primitive := some p.id, parameter := some parameter }
  | connection k => { connection := some k.id }
  | primitive p => { primitive := some p.id }

namespace Composition

/-- All output ports, primitive after primitive. -/
def outputs (c : Composition) : List Port := c.primitives.values.flatMap (·.outputs)

/-- All input ports, primitive after primitive. -/
def inputs (c : Composition) : List Port := c.primitives.values.flatMap (·.inputs)

/-- The places of a composition in the order of a validation. -/
def places (c : Composition) : List Place :=
  (c.primitives.values.flatMap fun p => p.parameters.entries.map fun r => .record p r.1 r.2) ++
    c.connections.values.map .connection ++ c.primitives.values.map .primitive

/-- The findings at a place. -/
def issuesAt (c : Composition) : Place → List Issue
  | .record p parameter value => (p.parameterIssue? parameter value).toList
  | .connection k => c.connectionIssues k
  | .primitive p => (c.orphanIssue? p).toList

/-- What there is to find at a place. A record is empty; else it is not declared; else its value breaks a rule of the declared
parameter. A connection has no port at an end; or the first ports of the two names have different tags, or one owner. A
primitive has no connection at a port. -/
def Finding (c : Composition) : Place → IssueKind → Prop
  | .record _ _ value, .missingParameter => value.isEmpty = true
  | .record p parameter value, .unknownParameter =>
    value.isEmpty = false ∧ ∀ d ∈ p.kind.template.parameters, d.id ≠ parameter
  | .record p parameter value, .constraintViolated =>
    value.isEmpty = false ∧ ∃ d ∈ p.kind.template.parameters, d.id = parameter ∧ d.check value ≠ .ok ()
  | .connection k, .danglingSource => ∀ port ∈ c.outputs, port.id ≠ k.source
  | .connection k, .danglingTarget => ∀ port ∈ c.inputs, port.id ≠ k.target
  | .connection k, .resourceTypeMismatch =>
    ∃ source target, c.outputs.find? (·.id = k.source) = some source ∧ c.inputs.find? (·.id = k.target) = some target ∧
      source.resourceType ≠ target.resourceType
  | .connection k, .selfLoop =>
    ∃ source target, c.outputs.find? (·.id = k.source) = some source ∧ c.inputs.find? (·.id = k.target) = some target ∧
      source.owner = target.owner
  | .primitive p, .orphanedPrimitive => c.incident p.id = []
  | _, _ => False

variable {c : Composition}

/-! ## Look-ups -/

@[simp]
theorem find?_outputs (c : Composition) (id : PortId) : c.outputs.find? (·.id = id) = c.output? id := List.find?_flatMap

@[simp]
theorem find?_inputs (c : Composition) (id : PortId) : c.inputs.find? (·.id = id) = c.input? id := List.find?_flatMap

/-- No output of any primitive has a name exactly when none is found under it. -/
@[simp]
theorem forall_outputs_iff {id : PortId} : (∀ port ∈ c.outputs, ¬ port.id = id) ↔ c.output? id = none := by
  simp [← find?_outputs]

@[simp]
theorem forall_inputs_iff {id : PortId} : (∀ port ∈ c.inputs, ¬ port.id = id) ↔ c.input? id = none := by
  simp [← find?_inputs]

/-! ## The findings at one place -/

open Classical in
/-- At a record there is the finding that there is to make, if there is one. -/
theorem kinds_record (c : Composition) (p : Primitive) (parameter : String) (value : ParameterValue) :
    (c.issuesAt (.record p parameter value)).map (·.kind) =
      IssueKind.all.filter (c.Finding (.record p parameter value)) := by
  cases hv : value.isEmpty with
  | true => simp [issuesAt, Primitive.parameterIssue?, IssueKind.all, Finding, hv]
  | false =>
    cases hd : p.kind.template.parameter? parameter with
    | none =>
      have hno : ∀ d ∈ p.kind.template.parameters, ¬ d.id = parameter := by simpa [Template.parameter?] using hd
      have hnone : ¬ ∃ d ∈ p.kind.template.parameters, d.id = parameter ∧ ¬ d.check value = .ok () := by
        rintro ⟨d, hm, hid, -⟩
        exact hno d hm hid
      simp +contextual [issuesAt, Primitive.parameterIssue?, IssueKind.all, Finding, hv, hd, hno, hnone]
    | some d =>
      have hdeclared : ∀ e, e ∈ p.kind.template.parameters ∧ e.id = parameter ↔ e = d := by
        intro e
        rw [← Kind.parameter?_eq_some_iff, hd, Option.some.injEq, eq_comm]
      cases hc : d.check value <;>
        simp [issuesAt, Primitive.parameterIssue?, IssueKind.all, Finding, hv, hd, ← and_assoc, hdeclared, hc]

open Classical in
/-- At a connection there are the findings that there are to make. -/
theorem kinds_connection (c : Composition) (k : Connection) :
    (c.issuesAt (.connection k)).map (·.kind) = IssueKind.all.filter (c.Finding (.connection k)) := by
  cases hs : c.output? k.source with
  | none => cases ht : c.input? k.target <;> simp [issuesAt, connectionIssues, IssueKind.all, Finding, hs, ht]
  | some source =>
    cases ht : c.input? k.target with
    | none => simp [issuesAt, connectionIssues, IssueKind.all, Finding, hs, ht]
    | some target =>
      by_cases htags : source.resourceType = target.resourceType <;>
        by_cases howners : source.owner = target.owner <;>
          simp [issuesAt, connectionIssues, joinIssues, mismatchIssue, IssueKind.all, Finding, hs, ht, htags, howners]

open Classical in
/-- The kinds of the findings at a place are those that apply, each once. -/
theorem kinds_issuesAt (c : Composition) (place : Place) :
    (c.issuesAt place).map (·.kind) = IssueKind.all.filter (c.Finding place) := by
  cases place with
  | record p parameter value => exact c.kinds_record p parameter value
  | connection k => exact c.kinds_connection k
  | primitive p => by_cases h : c.incident p.id = [] <;> simp [issuesAt, orphanIssue?, IssueKind.all, Finding, h]

/-- A kind is found at a place exactly when its condition holds there. -/
theorem mem_kinds_issuesAt {place : Place} {kind : IssueKind} :
    kind ∈ (c.issuesAt place).map (·.kind) ↔ c.Finding place kind := by
  classical
  have hall : kind ∈ IssueKind.all := by cases kind <;> decide
  simp [kinds_issuesAt, hall]

/-- What is found on two joined ports is as severe as its kind. -/
theorem joinIssues_severity {location : Option Location} {source target : Port} {i : Issue}
    (h : i ∈ c.joinIssues location source target) : i.severity = i.kind.severity := by
  rw [joinIssues, List.mem_append] at h
  rcases h with h | h <;> split at h
  · cases h
  · rw [List.mem_singleton.mp h]
    rfl
  · rw [List.mem_singleton.mp h]
    rfl
  · cases h

/-- A finding is as serious as its kind says, and names its place. -/
theorem issuesAt_about {place : Place} {i : Issue} (h : i ∈ c.issuesAt place) :
    i.severity = i.kind.severity ∧ i.location = some place.location := by
  cases place with
  | record p parameter value =>
    rw [issuesAt, Option.mem_toList] at h
    unfold Primitive.parameterIssue? at h
    split at h
    · cases h
      exact ⟨rfl, rfl⟩
    · split at h
      · cases h
        exact ⟨rfl, rfl⟩
      · split at h
        · cases h
        · cases h
          exact ⟨rfl, rfl⟩
  | connection k =>
    refine ⟨?_, (connectionIssues_about h).2⟩
    unfold issuesAt connectionIssues at h
    dsimp only at h
    split at h
    · exact joinIssues_severity h
    · rw [List.mem_singleton.mp h]
      rfl
    · rw [List.mem_singleton.mp h]
      rfl
    · rcases List.mem_cons.mp h with rfl | h
      · rfl
      · rw [List.mem_singleton.mp h]
        rfl
  | primitive p =>
    rw [issuesAt, Option.mem_toList] at h
    unfold orphanIssue? at h
    split at h
    · cases h
      exact ⟨rfl, rfl⟩
    · cases h

/-! ## All findings -/

/-- The findings are made place by place. -/
theorem validate_issues (c : Composition) : c.validate.issues = c.places.flatMap c.issuesAt := by
  simp only [validate, places, Primitive.parameterIssues, List.filterMap_eq_flatMap_toList, List.flatMap_append,
    List.flatMap_map, List.flatMap_assoc, issuesAt]

/-! ## The verdict -/

/-- Nothing that there is to find at a place is an error. -/
def Passes (c : Composition) (place : Place) : Prop := ∀ kind, c.Finding place kind → kind.severity ≠ .error

/-- A composition is valid exactly when each of its places passes. -/
theorem isValid_iff_passes : c.validate.isValid = true ↔ ∀ place ∈ c.places, c.Passes place := by
  simp only [Report.isValid, Bool.not_eq_true', List.any_eq_false, decide_eq_true_eq, validate_issues, List.mem_flatMap,
    Passes, ← mem_kinds_issuesAt, List.mem_map]
  constructor
  · rintro h place hplace kind ⟨i, hi, rfl⟩
    rw [← (issuesAt_about hi).1]
    exact h i ⟨place, hplace, hi⟩
  · rintro h i ⟨place, hplace, hi⟩
    rw [(issuesAt_about hi).1]
    exact h place hplace i.kind ⟨i, hi, rfl⟩

/-- A record passes when it is not empty. -/
theorem passes_record_iff {p : Primitive} {parameter : String} {value : ParameterValue} :
    c.Passes (.record p parameter value) ↔ value.isEmpty = false := by
  constructor
  · intro h
    rw [← Bool.not_eq_true]
    exact fun hv => h .missingParameter hv rfl
  · intro h kind hf
    cases kind with
    | missingParameter => cases h.symm.trans hf
    | constraintViolated | unknownParameter => decide
    | _ => cases hf

/-- A connection passes when it has a port at each end and the first ports there have one tag. -/
theorem passes_connection_iff {k : Connection} :
    c.Passes (.connection k) ↔
      ((∃ port ∈ c.outputs, port.id = k.source) ∧ ∃ port ∈ c.inputs, port.id = k.target) ∧
        ∀ source target, c.outputs.find? (·.id = k.source) = some source →
          c.inputs.find? (·.id = k.target) = some target → source.resourceType = target.resourceType := by
  constructor
  · intro h
    refine ⟨⟨?_, ?_⟩, fun source target hs ht => ?_⟩
    · by_contra hno
      exact h .danglingSource (fun port hm hid => hno ⟨port, hm, hid⟩) rfl
    · by_contra hno
      exact h .danglingTarget (fun port hm hid => hno ⟨port, hm, hid⟩) rfl
    · by_contra hne
      exact h .resourceTypeMismatch ⟨source, target, hs, ht, hne⟩ rfl
  · rintro ⟨⟨⟨output, ho, hos⟩, input, hi, hit⟩, htags⟩ kind hf
    cases kind with
    | danglingSource => exact absurd hos (hf output ho)
    | danglingTarget => exact absurd hit (hf input hi)
    | resourceTypeMismatch =>
      obtain ⟨source, target, hs, ht, hne⟩ := hf
      exact absurd (htags source target hs ht) hne
    | selfLoop => decide
    | _ => cases hf

/-- A primitive passes by itself: without connections it is only warned of. -/
theorem passes_primitive (c : Composition) (p : Primitive) : c.Passes (.primitive p) := by
  intro kind hf
  cases kind with
  | orphanedPrimitive => decide
  | _ => cases hf

/-- A composition is valid exactly when no record is empty, each connection has a port at both ends, and the first ports there
have one tag. -/
theorem isValid_iff :
    c.validate.isValid = true ↔
      (∀ p ∈ c.primitives.values, ∀ r ∈ p.parameters.entries, r.2.isEmpty = false) ∧
        (∀ k ∈ c.connections.values, (∃ port ∈ c.outputs, port.id = k.source) ∧ ∃ port ∈ c.inputs, port.id = k.target) ∧
          ∀ k ∈ c.connections.values, ∀ source target, c.outputs.find? (·.id = k.source) = some source →
            c.inputs.find? (·.id = k.target) = some target → source.resourceType = target.resourceType := by
  simp only [isValid_iff_passes, places, List.forall_mem_append, List.forall_mem_flatMap, List.forall_mem_map,
    passes_record_iff, passes_connection_iff, passes_primitive, implies_true, and_true, and_assoc, forall_and]

/-- The findings are made place by place: records, connections, primitives. At a place there is one finding of each kind that
applies and no other, as serious as its kind says; at a record there is at most one in all. And the composition is valid
exactly when no record is empty, each connection has a port at both ends, and the first ports there have one tag. -/
theorem validate_exact (c : Composition) :
    c.validate.issues = c.places.flatMap c.issuesAt ∧
      (∀ place, ((c.issuesAt place).map (·.kind)).Sublist IssueKind.all ∧
        (∀ kind, kind ∈ (c.issuesAt place).map (·.kind) ↔ c.Finding place kind) ∧
          ∀ i ∈ c.issuesAt place, i.severity = i.kind.severity ∧ i.location = some place.location) ∧
      (∀ p parameter value, (c.issuesAt (.record p parameter value)).length ≤ 1) ∧
      (c.validate.isValid = true ↔
        (∀ p ∈ c.primitives.values, ∀ r ∈ p.parameters.entries, r.2.isEmpty = false) ∧
          (∀ k ∈ c.connections.values,
            (∃ port ∈ c.outputs, port.id = k.source) ∧ ∃ port ∈ c.inputs, port.id = k.target) ∧
          ∀ k ∈ c.connections.values, ∀ source target, c.outputs.find? (·.id = k.source) = some source →
            c.inputs.find? (·.id = k.target) = some target → source.resourceType = target.resourceType) := by
  classical
  refine ⟨c.validate_issues, fun place => ⟨?_, fun kind => mem_kinds_issuesAt, fun i => issuesAt_about⟩,
    fun p parameter value => Option.length_toList_le, isValid_iff⟩
  rw [kinds_issuesAt]
  exact List.filter_sublist

/-- A connection between ports that are not there. -/
def strayLink : Connection := ⟨⟨0⟩, ⟨1⟩, ⟨2⟩, "asset"⟩

/-- A vault under another number than its own, with an empty record and one of a parameter that vaults do not have, and a
connection between ports that are not there. -/
def strayVault : Composition :=
  let vault : Primitive :=
    ⟨⟨7⟩, .vault, default, "Vault", "", .ofList [("strategy", .unset), ("riskLevel", .text "low")], [], []⟩
  { Composition.new .zero .epoch "Parts" "" with
    primitives := .ofList [(⟨0⟩, vault)]
    connections := .ofList [(⟨0⟩, strayLink)] }

/-- Everything that there is to find in the vault and its connection is found, in order, and the composition is not valid. -/
theorem strayVault_findings :
    strayVault.validate.issues.map (·.kind) =
        [.missingParameter, .unknownParameter, .danglingSource, .danglingTarget, .orphanedPrimitive] ∧
      (∃ i ∈ strayVault.issuesAt (.connection strayLink), i.kind = .danglingSource ∧ i.severity = .error ∧
        i.location = some { connection := some ⟨0⟩ }) ∧
      strayVault.validate.isValid = false := by
  obtain ⟨hissues, hplaces, -, hvalid⟩ := validate_exact strayVault
  obtain ⟨-, hkinds, habout⟩ := hplaces (.connection strayLink)
  have hno : strayVault.Finding (.connection strayLink) .danglingSource := by
    rw [Finding, show strayVault.outputs = [] from rfl]
    exact fun port hport => nomatch hport
  obtain ⟨i, hi, hkind⟩ := List.mem_map.mp ((hkinds .danglingSource).mpr hno)
  obtain ⟨hseverity, hlocation⟩ := habout i hi
  refine ⟨?_, ⟨i, hi, hkind, by rw [hseverity, hkind]; rfl, hlocation⟩, ?_⟩
  · rw [hissues]
    decide
  · rw [Bool.eq_false_iff, ne_eq, hvalid]
    rintro ⟨-, hports, -⟩
    obtain ⟨⟨port, hport, -⟩, -⟩ := hports strayLink (List.mem_singleton_self _)
    rw [show strayVault.outputs = [] from rfl] at hport
    cases hport

end Composition

end DefiComposer
