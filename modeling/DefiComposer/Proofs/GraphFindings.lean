import DefiComposer.Proofs.Acceptance
import DefiComposer.Proofs.Findings
import DefiComposer.Proofs.Tiers

/-!
# Graph findings: what the validation says of connections

What the validation finds on connections and on primitives without them, it reads off the ports; the rule for connecting
ports and the wiring graph read the same ports in other ways. After any edits they agree (`run_findings`): the ends of a
connection are never found missing or on one primitive; its tags are found different exactly when the rule let them pass by
another tier than equality; and a primitive is found alone exactly when the wiring has no edge at it.

The rule compares folded tags and the validation compares them as they are. Tags that differ in case only would pass as
equal and still be found different, but the templates declare no such two tags (`Kind.eq_of_fold_eq`).
-/

namespace DefiComposer

/-! ## Tags -/

/-- A declared output tag and a declared input tag that fold to one are equal. -/
theorem Kind.eq_of_fold_eq (kind kind' : Kind) : ∀ source ∈ kind.template.outputs, ∀ target ∈ kind'.template.inputs,
    Compatibility.fold source.resourceType = Compatibility.fold target.resourceType →
      source.resourceType = target.resourceType := by
  cases kind <;> cases kind' <;> decide

namespace Composition

variable {c : Composition}

/-- On declared ports the exact tier is equality of the tags. -/
theorem WellFormed.exact_iff (h : c.WellFormed) {p q : Primitive} (hp : p ∈ c.primitives.values)
    (hq : q ∈ c.primitives.values) {source target : Port} (hs : source ∈ p.outputs) (ht : target ∈ q.inputs) :
    compatibility source.resourceType target.resourceType = some .exact ↔ source.resourceType = target.resourceType := by
  rw [compatibility_eq_exact_iff]
  constructor
  · exact p.kind.eq_of_fold_eq q.kind _ ((h.follow p hp).outputs.spec_mem hs) _ ((h.follow q hq).inputs.spec_mem ht)
  · exact congrArg Compatibility.fold

/-! ## Findings on a connection -/

/-- On a connection between ports of two primitives it can be found only that their tags differ. -/
theorem connectionIssues_of_ports {k : Connection} {source target : Port} (hs : c.output? k.source = some source)
    (ht : c.input? k.target = some target) (howners : source.owner ≠ target.owner) :
    c.connectionIssues k =
      if source.resourceType = target.resourceType then []
      else [mismatchIssue (some { connection := some k.id }) source target] := by
  simp only [connectionIssues, hs, ht, joinIssues, if_neg howners, List.append_nil]

/-- The findings on a connection: none where its tags are equal, else that they differ. -/
theorem WellFormed.connectionIssues_eq (h : c.WellFormed) {k : Connection} (hk : k ∈ c.connections.values) :
    ∃ source target tier, c.output? k.source = some source ∧ c.input? k.target = some target ∧
      compatibility source.resourceType target.resourceType = some tier ∧
        c.connectionIssues k =
          if tier = .exact then [] else [mismatchIssue (some { connection := some k.id }) source target] := by
  obtain ⟨p, hp, q, hq, source, hs, target, ht, hsource, htarget, hne, hc⟩ := h.exists_ports hk
  obtain ⟨tier, htier⟩ := Option.isSome_iff_exists.mp hc
  refine ⟨source, target, tier, hsource, htarget, htier, ?_⟩
  have howners : source.owner ≠ target.owner := by
    rw [h.owner_eq hp (p.outputs_subset hs), h.owner_eq hq (q.inputs_subset ht)]
    exact hne
  have hexact : tier = .exact ↔ source.resourceType = target.resourceType := by
    rw [← h.exact_iff hp hq hs ht, htier, Option.some.injEq]
  simp only [connectionIssues_of_ports hsource htarget howners, hexact]

/-- The only finding there can be on a connection is that its tags differ. -/
theorem WellFormed.ofKind_eq_nil (h : c.WellFormed) {kind : IssueKind} (hk : kind ∈ IssueKind.onConnections)
    (hne : kind ≠ .resourceTypeMismatch) : c.validate.ofKind kind = [] := by
  rw [List.eq_nil_iff_forall_not_mem]
  intro i hi
  obtain ⟨k, hm, hi, hkind⟩ := (mem_ofKind_connections hk).mp hi
  obtain ⟨source, target, tier, -, -, -, heq⟩ := h.connectionIssues_eq hm
  rw [heq] at hi
  split at hi
  · cases hi
  · rw [List.mem_singleton.mp hi] at hkind
    exact hne hkind.symm

/-- The tags of a connection are found different exactly when the tier that accepts them is not the exact one. -/
theorem WellFormed.mismatch_iff (h : c.WellFormed) {k : Connection} (hk : k ∈ c.connections.values) {source target : Port}
    {tier : Tier} (hsource : c.output? k.source = some source) (htarget : c.input? k.target = some target)
    (htier : compatibility source.resourceType target.resourceType = some tier) :
    (∃ i ∈ c.validate.ofKind .resourceTypeMismatch, i.location = some { connection := some k.id }) ↔ tier ≠ .exact := by
  obtain ⟨source', target', tier', hs, ht, hc, heq⟩ := h.connectionIssues_eq hk
  rw [hsource, Option.some.injEq] at hs
  rw [htarget, Option.some.injEq] at ht
  subst hs ht
  rw [htier, Option.some.injEq] at hc
  subst hc
  constructor
  · rintro ⟨i, hi, hloc⟩ hexact
    obtain ⟨k', hk', hi, -⟩ := (mem_ofKind_connections (by decide)).mp hi
    -- the location names the connection, so the finding is on this one, which has none
    have hid : k'.id = k.id := by simpa [(connectionIssues_about hi).2] using hloc
    obtain rfl := OrderedMap.eq_of_name_eq h.connectionsNamed hk' hk hid
    rw [heq, if_pos hexact] at hi
    cases hi
  · intro hne
    rw [if_neg hne] at heq
    have hi : mismatchIssue (some { connection := some k.id }) source target ∈ c.connectionIssues k := by
      rw [heq]
      exact List.mem_singleton_self _
    exact ⟨_, (mem_ofKind_connections (by decide)).mpr ⟨k, hk, hi, rfl⟩, rfl⟩

/-! ## Primitives without connections -/

/-- The connections at a primitive are those that touch it. -/
theorem WellFormed.incident_eq_filter (h : c.WellFormed) {p : Primitive} (hp : p ∈ c.primitives.values) :
    c.incident p.id = c.connections.values.filter p.touches := by
  have hself : c.primitive? p.id = some p := OrderedMap.get?_of_mem_values h.primitivesNamed hp
  simp [incident, hself]

/-- A primitive has no connections exactly when it has no edges in the wiring. -/
theorem WellFormed.incident_eq_nil_iff (h : c.WellFormed) {p : Primitive} (hp : p ∈ c.primitives.values) :
    c.incident p.id = [] ↔ ∀ q, ¬ c.wiring.Feeds q p.id ∧ ¬ c.wiring.Feeds p.id q := by
  simp only [h.incident_eq_filter hp, List.filter_eq_nil_iff, Primitive.touches, Bool.or_eq_true, h.addressed.ownsPort_iff hp,
    not_or, WiringGraph.Feeds, mem_wiring_edges, not_exists, not_and]
  constructor
  · intro hall q
    exact ⟨fun k hk _ => (hall k hk).2, fun k hk hs _ => (hall k hk).1 hs⟩
  · intro hall k hk
    obtain ⟨a, b, ha, hb⟩ := h.exists_owners hk
    exact ⟨fun hs => (hall b).2 k hk hs hb, (hall a).1 k hk ha⟩

/-- A primitive is found alone exactly when the wiring has no edge at it. -/
theorem WellFormed.orphaned_iff (h : c.WellFormed) {p : Primitive} (hp : p ∈ c.primitives.values) :
    (∃ i ∈ c.validate.ofKind .orphanedPrimitive, i.location = some { primitive := some p.id }) ↔
      ∀ q, ¬ c.wiring.Feeds q p.id ∧ ¬ c.wiring.Feeds p.id q := by
  rw [← h.incident_eq_nil_iff hp]
  constructor
  · rintro ⟨i, hi, hloc⟩
    obtain ⟨q, -, hi⟩ := mem_ofKind_orphaned.mp hi
    obtain ⟨-, hq, hnil⟩ := orphanIssue?_eq_some hi
    have hid : q.id = p.id := by simpa using hq.symm.trans hloc
    rwa [hid] at hnil
  · intro hnil
    obtain ⟨i, hi⟩ := exists_orphanIssue? hnil
    exact ⟨i, mem_ofKind_orphaned.mpr ⟨p, hp, hi⟩, (orphanIssue?_eq_some hi).2.1⟩

end Composition

/-! ## Findings after a run -/

/-- After any edits the validation finds no connection without its ports and none from a primitive to itself. Each connection
was accepted in the run, between the ports that are there at its end, and its tags are found different exactly when the tier
that accepted them was not the exact one. A primitive is found alone exactly when the wiring has no edge to it and none from
it. -/
theorem run_findings (id : Uuid) (now : Timestamp) (name description : String) (edits : List (Timestamp × Edit)) :
    let s := Store.new id now name description
    let c := (s.run edits).composition
    (∀ kind ∈ [IssueKind.danglingSource, .danglingTarget, .selfLoop], c.validate.ofKind kind = []) ∧
      (∀ k ∈ c.connections.values, ∃ r : Resolution, s.Accepted edits k r ∧
        c.output? k.source = some r.source ∧ c.input? k.target = some r.target ∧
          compatibility r.source.resourceType r.target.resourceType = some r.tier ∧
            ((∃ i ∈ c.validate.ofKind .resourceTypeMismatch, i.location = some { connection := some k.id }) ↔
              r.tier ≠ .exact)) ∧
      ∀ p ∈ c.primitives.values,
        (∃ i ∈ c.validate.ofKind .orphanedPrimitive, i.location = some { primitive := some p.id }) ↔
          ∀ q, ¬ c.wiring.Feeds q p.id ∧ ¬ c.wiring.Feeds p.id q := by
  intro s c
  have hnew : s.composition.WellFormed := Composition.new_wellFormed id now name description
  have hw : c.WellFormed := s.wellFormed_run edits hnew
  refine ⟨?_, ?_, fun p => hw.orphaned_iff⟩
  · have hkinds : ∀ kind ∈ [IssueKind.danglingSource, .danglingTarget, .selfLoop],
        kind ∈ IssueKind.onConnections ∧ kind ≠ .resourceTypeMismatch := by decide
    intro kind hk
    exact hw.ofKind_eq_nil (hkinds kind hk).1 (hkinds kind hk).2
  · intro k hk
    obtain ⟨r, haccepted, hs, ht⟩ := s.exists_accepted hnew rfl edits k hk
    have htier := haccepted.tier
    exact ⟨r, haccepted, hs, ht, htier, hw.mismatch_iff hk hs ht htier⟩

/-- The yield of a vault may be collateral of a lending pool, by a synonym, and the tags are found different. -/
example :
    let s := (Store.new .zero .epoch "Yield" "").run
      [(.epoch, .addPrimitive .vault default), (.epoch, .addPrimitive .lendingPool default), (.epoch, .connect ⟨2⟩ ⟨4⟩)]
    s.composition.validate.issues.map (·.kind) = [.resourceTypeMismatch] := by
  decide

end DefiComposer
