import DefiComposer.Proofs.Parameters
import DefiComposer.Validation

/-!
# Findings: where each kind of finding comes from

A validation looks at the records of parameters, at the connections and at the primitives, and the kind of a finding tells
which of them it is about. So a question about the findings of one kind becomes a question about single records
(`Composition.mem_ofKind_parameters`), connections (`Composition.mem_ofKind_connections`) or primitives
(`Composition.mem_ofKind_orphaned`).
-/

namespace DefiComposer

/-- The kinds of findings on records of parameters. -/
def IssueKind.onParameters : List IssueKind := [.missingParameter, .constraintViolated, .unknownParameter]

/-- The kinds of findings on connections. -/
def IssueKind.onConnections : List IssueKind := [.danglingSource, .danglingTarget, .resourceTypeMismatch, .selfLoop]

theorem Report.mem_ofKind {r : Report} {kind : IssueKind} {i : Issue} :
    i ∈ r.ofKind kind ↔ i ∈ r.issues ∧ i.kind = kind := by
  simp [Report.ofKind]

/-! ## Findings on one part -/

namespace Primitive

variable {p : Primitive} {parameter : String} {v : ParameterValue}

/-- A finding on a record says what is wrong with it: an empty value, a parameter that the kind does not declare, or a
value that breaks a rule. -/
theorem parameterIssue?_cases {i : Issue} (h : p.parameterIssue? parameter v = some i) :
    i.kind = .missingParameter ∧ v.isEmpty = true ∨
      i.kind = .unknownParameter ∧ p.kind.template.parameter? parameter = none ∨
      i.kind = .constraintViolated ∧ v.isEmpty = false ∧ ∃ d violation,
        p.kind.template.parameter? parameter = some d ∧ d.check v = .error violation := by
  unfold parameterIssue? at h
  dsimp only at h
  split at h
  · rename_i hv
    cases h
    exact Or.inl ⟨rfl, hv⟩
  · rename_i hv
    split at h
    · rename_i hd
      cases h
      exact Or.inr (Or.inl ⟨rfl, hd⟩)
    · rename_i d hd
      split at h
      · cases h
      · rename_i violation hc
        cases h
        exact Or.inr (Or.inr ⟨rfl, by simpa using hv, d, violation, hd, hc⟩)

/-- What is found on a record is that it is missing, or that a rule is broken. -/
theorem parameterIssue?_kind {i : Issue} (h : p.parameterIssue? parameter v = some i) :
    i.kind ∈ IssueKind.onParameters := by
  rcases parameterIssue?_cases h with ⟨hk, -⟩ | ⟨hk, -⟩ | ⟨hk, -⟩ <;> rw [hk] <;> decide

/-- A record with an empty value is found missing. -/
theorem parameterIssue?_of_isEmpty (h : v.isEmpty = true) :
    ∃ i, p.parameterIssue? parameter v = some i ∧ i.kind = .missingParameter :=
  ⟨_, if_pos h, rfl⟩

/-- A value that breaks a rule of its parameter is found to do so. -/
theorem parameterIssue?_of_violation {d : Parameter} {violation : Violation} (hv : v.isEmpty = false)
    (hd : p.kind.template.parameter? parameter = some d) (hc : d.check v = .error violation) :
    ∃ i, p.parameterIssue? parameter v = some i ∧ i.kind = .constraintViolated := by
  simp only [parameterIssue?, hv, hd, hc]
  exact ⟨_, rfl, rfl⟩

/-- There is nothing to find in the record of a declared parameter with a value that passes its check. -/
theorem parameterIssue?_eq_none {d : Parameter} (hv : v.isEmpty = false)
    (hd : p.kind.template.parameter? parameter = some d) (hc : d.check v = .ok ()) :
    p.parameterIssue? parameter v = none := by
  simp [parameterIssue?, hv, hd, hc]

end Primitive

namespace Composition

variable {c : Composition}

/-- What is found on two joined ports is that tags differ or that the ports have one owner, and it is found in the given
place. -/
theorem joinIssues_about {location : Option Location} {source target : Port} {i : Issue}
    (h : i ∈ c.joinIssues location source target) :
    (i.kind = .resourceTypeMismatch ∨ i.kind = .selfLoop) ∧ i.location = location := by
  rw [joinIssues, List.mem_append] at h
  rcases h with h | h
  · split at h
    · cases h
    · rw [List.mem_singleton.mp h]
      exact ⟨Or.inl rfl, rfl⟩
  · split at h
    · rw [List.mem_singleton.mp h]
      exact ⟨Or.inr rfl, rfl⟩
    · cases h

/-- A finding on a connection is of a kind for connections, and names the connection. -/
theorem connectionIssues_about {k : Connection} {i : Issue} (h : i ∈ c.connectionIssues k) :
    i.kind ∈ IssueKind.onConnections ∧ i.location = some { connection := some k.id } := by
  unfold connectionIssues at h
  dsimp only at h
  simp only [IssueKind.onConnections, List.mem_cons, List.not_mem_nil, or_false]
  split at h
  · exact (joinIssues_about h).imp_left fun hk => Or.inr (Or.inr hk)
  · rw [List.mem_singleton.mp h]
    exact ⟨Or.inl rfl, rfl⟩
  · rw [List.mem_singleton.mp h]
    exact ⟨Or.inr (Or.inl rfl), rfl⟩
  · rcases List.mem_cons.mp h with rfl | h
    · exact ⟨Or.inl rfl, rfl⟩
    · rw [List.mem_singleton.mp h]
      exact ⟨Or.inr (Or.inl rfl), rfl⟩

/-- A primitive is found orphaned when no connection is at one of its ports. -/
theorem orphanIssue?_eq_some {p : Primitive} {i : Issue} (h : c.orphanIssue? p = some i) :
    i.kind = .orphanedPrimitive ∧ i.location = some { primitive := some p.id } ∧ c.incident p.id = [] := by
  unfold orphanIssue? at h
  split at h
  · rename_i hi
    cases h
    exact ⟨rfl, rfl, List.isEmpty_iff.mp hi⟩
  · cases h

theorem exists_orphanIssue? {p : Primitive} (h : c.incident p.id = []) : ∃ i, c.orphanIssue? p = some i :=
  ⟨_, if_pos (List.isEmpty_iff.mpr h)⟩

/-! ## Findings on a composition -/

/-- What the validation finds, it finds on a record, on a connection, or on a primitive. -/
theorem mem_validate {i : Issue} :
    i ∈ c.validate.issues ↔
      (∃ p ∈ c.primitives.values, ∃ r ∈ p.parameters.entries, p.parameterIssue? r.1 r.2 = some i) ∨
        (∃ k ∈ c.connections.values, i ∈ c.connectionIssues k) ∨ ∃ p ∈ c.primitives.values, c.orphanIssue? p = some i := by
  simp only [validate, Primitive.parameterIssues, List.mem_append, List.mem_flatMap, List.mem_filterMap, or_assoc]

/-- The findings of a kind that is about records are made on records. -/
theorem mem_ofKind_parameters {kind : IssueKind} (hk : kind ∈ IssueKind.onParameters) {i : Issue} :
    i ∈ c.validate.ofKind kind ↔
      ∃ p ∈ c.primitives.values, ∃ r ∈ p.parameters.entries, p.parameterIssue? r.1 r.2 = some i ∧ i.kind = kind := by
  rw [Report.mem_ofKind, mem_validate]
  constructor
  · rintro ⟨⟨p, hp, r, hr, hi⟩ | ⟨k, -, hi⟩ | ⟨p, -, hi⟩, rfl⟩
    · exact ⟨p, hp, r, hr, hi, rfl⟩
    · have hno : ∀ kind ∈ IssueKind.onConnections, kind ∉ IssueKind.onParameters := by decide
      exact absurd hk (hno _ (connectionIssues_about hi).1)
    · rw [(orphanIssue?_eq_some hi).1] at hk
      exact absurd hk (by decide)
  · rintro ⟨p, hp, r, hr, hi, rfl⟩
    exact ⟨Or.inl ⟨p, hp, r, hr, hi⟩, rfl⟩

/-- The findings of a kind that is about connections are made on connections. -/
theorem mem_ofKind_connections {kind : IssueKind} (hk : kind ∈ IssueKind.onConnections) {i : Issue} :
    i ∈ c.validate.ofKind kind ↔ ∃ k ∈ c.connections.values, i ∈ c.connectionIssues k ∧ i.kind = kind := by
  rw [Report.mem_ofKind, mem_validate]
  constructor
  · rintro ⟨⟨p, -, r, -, hi⟩ | ⟨k, hm, hi⟩ | ⟨p, -, hi⟩, rfl⟩
    · have hno : ∀ kind ∈ IssueKind.onParameters, kind ∉ IssueKind.onConnections := by decide
      exact absurd hk (hno _ (Primitive.parameterIssue?_kind hi))
    · exact ⟨k, hm, hi, rfl⟩
    · rw [(orphanIssue?_eq_some hi).1] at hk
      exact absurd hk (by decide)
  · rintro ⟨k, hm, hi, rfl⟩
    exact ⟨Or.inr (Or.inl ⟨k, hm, hi⟩), rfl⟩

/-- The lack of connections is found on a primitive. -/
theorem mem_ofKind_orphaned {i : Issue} :
    i ∈ c.validate.ofKind .orphanedPrimitive ↔ ∃ p ∈ c.primitives.values, c.orphanIssue? p = some i := by
  rw [Report.mem_ofKind, mem_validate]
  constructor
  · rintro ⟨⟨p, -, r, -, hi⟩ | ⟨k, -, hi⟩ | h, hkind⟩
    · have hp := Primitive.parameterIssue?_kind hi
      rw [hkind] at hp
      exact absurd hp (by decide)
    · have hc := (connectionIssues_about hi).1
      rw [hkind] at hc
      exact absurd hc (by decide)
    · exact h
  · rintro ⟨p, hp, hi⟩
    exact ⟨Or.inr (Or.inr ⟨p, hp, hi⟩), (orphanIssue?_eq_some hi).1⟩

/-! ## Findings on parameters -/

/-- Nothing is found missing exactly when no record is empty. -/
theorem no_missingParameter_iff :
    c.validate.ofKind .missingParameter = [] ↔
      ∀ p ∈ c.primitives.values, ∀ r ∈ p.parameters.entries, r.2.isEmpty = false := by
  rw [List.eq_nil_iff_forall_not_mem]
  constructor
  · intro h p hp r hr
    by_contra he
    rw [Bool.not_eq_false] at he
    obtain ⟨i, hi, hkind⟩ : ∃ i, p.parameterIssue? r.1 r.2 = some i ∧ i.kind = .missingParameter :=
      Primitive.parameterIssue?_of_isEmpty he
    exact h i ((mem_ofKind_parameters (by decide)).mpr ⟨p, hp, r, hr, hi, hkind⟩)
  · intro h i hi
    obtain ⟨p, hp, r, hr, hi, hkind⟩ := (mem_ofKind_parameters (by decide)).mp hi
    rcases Primitive.parameterIssue?_cases hi with ⟨-, he⟩ | ⟨hk, -⟩ | ⟨hk, -⟩
    · rw [h p hp r hr] at he
      cases he
    · rw [hkind] at hk
      cases hk
    · rw [hkind] at hk
      cases hk

/-- No rule is found broken exactly when the values that are not empty pass the checks of the declared parameters. -/
theorem no_constraintViolated_iff :
    c.validate.ofKind .constraintViolated = [] ↔
      ∀ p ∈ c.primitives.values, ∀ r ∈ p.parameters.entries, r.2.isEmpty = false →
        ∀ d, p.kind.template.parameter? r.1 = some d → d.check r.2 = .ok () := by
  rw [List.eq_nil_iff_forall_not_mem]
  constructor
  · intro h p hp r hr hv d hd
    cases hc : d.check r.2 with
    | ok => rfl
    | error violation =>
      obtain ⟨i, hi, hkind⟩ := Primitive.parameterIssue?_of_violation hv hd hc
      exact absurd ((mem_ofKind_parameters (by decide)).mpr ⟨p, hp, r, hr, hi, hkind⟩) (h i)
  · intro h i hi
    obtain ⟨p, hp, r, hr, hi, hkind⟩ := (mem_ofKind_parameters (by decide)).mp hi
    rcases Primitive.parameterIssue?_cases hi with ⟨hk, -⟩ | ⟨hk, -⟩ | ⟨-, hv, d, violation, hd, hc⟩
    · rw [hkind] at hk
      cases hk
    · rw [hkind] at hk
      cases hk
    · rw [h p hp r hr hv d hd] at hc
      cases hc

end Composition

end DefiComposer
