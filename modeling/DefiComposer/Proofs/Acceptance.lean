import DefiComposer.Proofs.Ports

/-!
# Acceptance: where the connections of a run come from

Every connection that is there after a run was made by an attempt that was accepted at some moment of the run
(`Store.exists_accepted`). The ports that the attempt found are those that are found at the end: a connection goes with its
ports, no edit changes a port, and the number of a port is not given again.
-/

namespace DefiComposer

/-! ## Ports last -/

/-- A port of a primitive that an edit makes was there before, or has a number that was not given yet. -/
theorem Edit.Makes.port_cases {c : Composition} {edit : Edit} {q : Primitive} (h : edit.Makes c q) {port : Port}
    (hp : port ∈ q.ports) : port ∈ c.ports ∨ c.ids.nextPort ≤ port.id.val := by
  have hfound : ∀ {id : PrimitiveId} {p : Primitive}, c.primitive? id = some p → port ∈ p.ports → port ∈ c.ports :=
    fun found hm => List.mem_flatMap.mpr ⟨_, OrderedMap.mem_values_of_get? found, hm⟩
  cases h with
  | added kind position => exact Or.inr ((Catalog.instantiate_fresh kind position c.ids).port_range hp).1
  | patched found patch => exact Or.inl (hfound found hp)
  | moved found position => exact Or.inl (hfound found hp)
  | stored found parameter value => exact Or.inl (hfound found hp)
  | read found accepted => exact Or.inl (hfound found hp)

namespace Store

variable {s : Store} {now : Timestamp} {edit : Edit} {id : PortId} {port port' : Port}

/-- A port that has the name of an earlier one is that one. -/
theorem port_lasts (hw : s.composition.WellFormed) (hp : port ∈ s.composition.ports)
    (hp' : port' ∈ (s.perform now edit).composition.ports) (hid : port'.id = port.id) : port' = port := by
  have hcases : port' ∈ s.composition.ports ∨ s.composition.ids.nextPort ≤ port'.id.val := by
    obtain ⟨q, hq, hm⟩ := List.mem_flatMap.mp hp'
    rcases mem_values_perform hq with hq | hq
    · exact Or.inl (List.mem_flatMap.mpr ⟨q, hq, hm⟩)
    · exact hq.port_cases hm
  rcases hcases with hm | hfresh
  · exact List.inj_on_of_nodup_map hw.portsDistinct hm hp hid
  · have hbelow := hw.portsBelow port hp
    rw [hid] at hfresh
    omega

/-- An output that is there before and after an edit is the same. -/
theorem output?_lasts (hw : s.composition.WellFormed) (h : s.composition.output? id = some port)
    (h' : (s.perform now edit).composition.output? id = some port') : port' = port := by
  obtain ⟨hm, hid⟩ := Composition.mem_ports_of_output? h
  obtain ⟨hm', hid'⟩ := Composition.mem_ports_of_output? h'
  exact port_lasts hw hm hm' (hid'.trans hid.symm)

theorem input?_lasts (hw : s.composition.WellFormed) (h : s.composition.input? id = some port)
    (h' : (s.perform now edit).composition.input? id = some port') : port' = port := by
  obtain ⟨hm, hid⟩ := Composition.mem_ports_of_input? h
  obtain ⟨hm', hid'⟩ := Composition.mem_ports_of_input? h'
  exact port_lasts hw hm hm' (hid'.trans hid.symm)

/-! ## Accepted attempts -/

/-- At some moment of a run an attempt to connect the ports of a connection was accepted, with a resolution, and answered
the connection. -/
def Accepted (s : Store) (edits : List (Timestamp × Edit)) (k : Connection) (r : Resolution) : Prop :=
  ∃ before now after, edits = before ++ (now, Edit.connect k.source k.target) :: after ∧
    (s.run before).composition.resolve k.source k.target = .ok r ∧
      ((s.run before).connect now k.source k.target).1 = .ok k

variable {edits : List (Timestamp × Edit)} {k : Connection}

theorem run_concat (s : Store) (edits : List (Timestamp × Edit)) (e : Timestamp × Edit) :
    s.run (edits ++ [e]) = (s.run edits).perform e.1 e.2 :=
  List.foldl_concat _ _ _ _

/-- A run goes on from where its first part ends. -/
theorem run_append (s : Store) (before after : List (Timestamp × Edit)) :
    s.run (before ++ after) = (s.run before).run after :=
  List.foldl_append

/-- What was accepted in a run was accepted in a longer one. -/
theorem Accepted.append {r : Resolution} (h : s.Accepted edits k r) (more : List (Timestamp × Edit)) :
    s.Accepted (edits ++ more) k r := by
  obtain ⟨before, now, after, rfl, hr, hk⟩ := h
  exact ⟨before, now, after ++ more, by rw [List.append_assoc, List.cons_append], hr, hk⟩

/-- What was accepted at some time was compatible, with the tier that it was accepted with. -/
theorem Accepted.tier {r : Resolution} (h : s.Accepted edits k r) :
    compatibility r.source.resourceType r.target.resourceType = some r.tier := by
  obtain ⟨before, now, after, -, hr, -⟩ := h
  exact (Composition.resolve_eq_ok_iff.mp hr).2.2.2.2

/-- An attempt that answers a connection found its ports and was accepted. -/
theorem exists_resolution {source target : PortId} (h : (s.connect now source target).1 = .ok k) :
    ∃ r, s.composition.resolve source target = .ok r := by
  cases hr : s.composition.resolve source target with
  | ok r => exact ⟨r, rfl⟩
  | error e =>
    simp only [connect, commit, Composition.connect_of_error hr] at h
    cases h

/-- A connection that is there after a run was accepted in it, between the ports that are found at its end. -/
theorem exists_accepted (s : Store) (hw : s.composition.WellFormed) (hn : s.composition.connections.values = [])
    (edits : List (Timestamp × Edit)) : ∀ k ∈ (s.run edits).composition.connections.values,
      ∃ r, s.Accepted edits k r ∧ (s.run edits).composition.output? k.source = some r.source ∧
        (s.run edits).composition.input? k.target = some r.target := by
  induction edits using List.reverseRecOn with
  | nil =>
    intro k hk
    rw [show s.run [] = s from rfl, hn] at hk
    cases hk
  | append_singleton edits e ih =>
    intro k hk
    obtain ⟨now, edit⟩ := e
    rw [run_concat] at hk ⊢
    have hrun := s.wellFormed_run edits hw
    -- before the last edit, which may be the attempt itself, the ports were those of the resolution
    have hbefore : ∃ r, s.Accepted (edits ++ [(now, edit)]) k r ∧
        (s.run edits).composition.output? k.source = some r.source ∧
          (s.run edits).composition.input? k.target = some r.target := by
      rcases mem_connections_perform hk with hk | ⟨rfl, hok⟩
      · obtain ⟨r, ha, hs, ht⟩ := ih k hk
        exact ⟨r, ha.append _, hs, ht⟩
      · obtain ⟨r, hr⟩ := exists_resolution hok
        obtain ⟨hs, ht, -⟩ := Composition.resolve_eq_ok_iff.mp hr
        exact ⟨r, ⟨edits, now, [], rfl, hr, hok⟩, hs, ht⟩
    obtain ⟨r, ha, hs, ht⟩ := hbefore
    obtain ⟨-, -, -, -, source, -, target, -, hs', ht', -⟩ := (perform_wellFormed _ now edit hrun).exists_ports hk
    rw [output?_lasts hrun hs hs'] at hs'
    rw [input?_lasts hrun ht ht'] at ht'
    exact ⟨r, ha, hs', ht'⟩

end Store

end DefiComposer
