import DefiComposer.Catalog
import DefiComposer.Proofs.Maps

/-!
# Parameters: what the kinds declare, and what passes the check

A kind declares no two parameters of one name, it asks for a value of each, and each default passes the check of its own
definition (`Kind.check_defaultValue`). A value that passes the check of a required parameter is usable: it is there, it is
of the declared type, and a tag is one of the permitted ones (`Parameter.usable_of_check`).
-/

namespace DefiComposer

/-! ## The check of a value -/

namespace Parameter

/-- A value can be used for a parameter: it is not empty, it is of the declared type, and a tag is permitted. -/
structure Usable (d : Parameter) (v : ParameterValue) : Prop where
  present : v.isEmpty = false
  typed : v.type? = some d.type
  permitted : ∀ tag, v = .enumTag tag → d.constraints.allowed = [] ∨ tag ∈ d.constraints.allowed

/-- A tag passes the check exactly when it is permitted. -/
theorem checkTag_eq_ok_iff {d : Parameter} {tag : String} :
    d.checkTag tag = .ok () ↔ d.constraints.allowed = [] ∨ tag ∈ d.constraints.allowed := by
  unfold checkTag
  split
  · rename_i h
    simpa using h
  · rename_i h
    simpa using h

/-- What passes the check and is not empty is usable. -/
theorem usable_of_isEmpty_eq_false {d : Parameter} {v : ParameterValue} (hv : v.isEmpty = false)
    (h : d.check v = .ok ()) : d.Usable v := by
  unfold check at h
  rw [hv, if_neg Bool.false_ne_true] at h
  split at h
  · cases h
  · rename_i ht
    refine ⟨hv, not_not.mp ht, ?_⟩
    rintro tag rfl
    exact checkTag_eq_ok_iff.mp h

/-- What passes the check of a required parameter is usable. -/
theorem usable_of_check {d : Parameter} {v : ParameterValue} (hr : d.constraints.required = true)
    (h : d.check v = .ok ()) : d.Usable v := by
  have hv : v.isEmpty = false := by
    by_contra he
    rw [Bool.not_eq_false] at he
    unfold check at h
    rw [if_pos he, if_pos hr] at h
    cases h
  exact usable_of_isEmpty_eq_false hv h

end Parameter

/-! ## The declarations of the kinds -/

namespace Kind

/-- The names of the parameters that a kind declares, in order. -/
def parameterIds (kind : Kind) : List String := kind.template.parameters.map (·.id)

/-- No two parameters of a kind share a name. -/
theorem parameterIds_nodup (kind : Kind) : kind.parameterIds.Nodup := by cases kind <;> decide

/-- A kind asks for a value of each of its parameters. -/
theorem required (kind : Kind) : ∀ d ∈ kind.template.parameters, d.constraints.required = true := by
  cases kind <;> decide

/-- Every default passes the check of its own definition. -/
theorem check_defaultValue (kind : Kind) : ∀ d ∈ kind.template.parameters, d.check d.defaultValue = .ok () := by
  cases kind <;> decide

variable {kind : Kind}

/-- Under a name stands the parameter that has it. -/
theorem parameter?_eq_some_iff {id : String} {d : Parameter} :
    kind.template.parameter? id = some d ↔ d ∈ kind.template.parameters ∧ d.id = id :=
  find?_eq_some_iff_of_nodup kind.parameterIds_nodup

/-- A name that no parameter has leads to none. -/
theorem parameter?_eq_none_iff {id : String} :
    kind.template.parameter? id = none ↔ ∀ d ∈ kind.template.parameters, d.id ≠ id := by
  simp [Template.parameter?]

end Kind

/-- A fresh primitive has the default of each declared parameter, in order, and no other record. -/
theorem Catalog.instantiate_entries (kind : Kind) (position : Position) (ids : IdSupply) :
    (Catalog.instantiate kind position ids).1.parameters.entries =
      kind.template.parameters.map fun d => (d.id, d.defaultValue) := by
  have hkeys : ((kind.template.parameters.map fun d => (d.id, d.defaultValue)).map Prod.fst) = kind.parameterIds := by
    rw [List.map_map]
    rfl
  exact OrderedMap.entries_ofList (by rw [hkeys]; exact kind.parameterIds_nodup)

/-- The records of a fresh primitive are those of the declared parameters. -/
theorem Catalog.instantiate_keys (kind : Kind) (position : Position) (ids : IdSupply) :
    (Catalog.instantiate kind position ids).1.parameters.keys = kind.parameterIds := by
  rw [OrderedMap.keys, instantiate_entries, List.map_map]
  rfl

end DefiComposer
