import DefiComposer.Proofs.Acceptance
import DefiComposer.Proofs.Attempts
import DefiComposer.Proofs.Numbering

/-!
# Reconnecting: what becomes of two connected ports

A connection stays, and its ports are found as they were, as long as no edit removes the connection or one of the two
primitives (`Store.mem_connections_run_of_spared`, `Store.finds_run`). So another attempt at the two ports is refused and
names the connection (`Store.connect_of_mem`). After the connection is removed such an attempt is accepted: nothing else
joins the ports, since connections come from accepted attempts only (`Store.between?_run_of_removed`), and the ports have the
tags they had.
-/

namespace DefiComposer

namespace Composition

/-- What look-ups find for two ports: the one as an output port, the other as an input port. -/
structure Finds (c : Composition) (source target : PortId) (output input : Port) : Prop where
  output : c.output? source = some output
  input : c.input? target = some input

/-- What is found depends on the primitives only. -/
theorem Finds.of_primitives {c c' : Composition} {source target : PortId} {output input : Port}
    (h : c.Finds source target output input) (hp : c'.primitives = c.primitives) : c'.Finds source target output input := by
  obtain ⟨ho, hi⟩ := h
  constructor
  · rwa [output?, hp]
  · rwa [input?, hp]

namespace WellFormed

variable {c : Composition}

/-- A port that is found belongs to its owner. -/
theorem portOwner?_of_output? (h : c.WellFormed) {id : PortId} {port : Port} (hport : c.output? id = some port) :
    c.portOwner? id = some port.owner := by
  obtain ⟨p, hp, hm, rfl⟩ := output?_some hport
  have hside := p.outputs_subset hm
  rw [h.addressed.portOwner?_of_mem hp hside, h.owner_eq hp hside]

/-- The owner of an input is the one that it names. -/
theorem portOwner?_of_input? (h : c.WellFormed) {id : PortId} {port : Port} (hport : c.input? id = some port) :
    c.portOwner? id = some port.owner := by
  obtain ⟨p, hp, hm, rfl⟩ := input?_some hport
  have hside := p.inputs_subset hm
  rw [h.addressed.portOwner?_of_mem hp hside, h.owner_eq hp hside]

/-- Between the ports of a connection the look-up finds this connection, since no other joins them. -/
theorem between?_of_mem (h : c.WellFormed) {k : Connection} (hk : k ∈ c.connections.values) :
    c.between? k.source k.target = some k := by
  cases hb : c.between? k.source k.target with
  | none => exact absurd rfl (between?_eq_none_iff.mp hb k hk)
  | some k' =>
    have hpair : (k'.source, k'.target) = (k.source, k.target) := by simpa using List.find?_some hb
    rw [List.inj_on_of_nodup_map h.pairsDistinct (List.mem_of_find?_eq_some hb) hk hpair]

/-- After a connection is removed, no connection has its name. -/
theorem id_ne_of_removeConnection (h : c.WellFormed) {now : Timestamp} {id : ConnectionId} {k : Connection}
    (hk : k ∈ (c.removeConnection now id).2.connections.values) : k.id ≠ id := by
  rintro rfl
  unfold Composition.removeConnection at hk
  split at hk
  · rename_i hnone
    have hfound := OrderedMap.get?_of_mem_values h.connectionsNamed hk
    rw [connection?, hfound] at hnone
    cases hnone
  · obtain ⟨key, he⟩ := OrderedMap.exists_mem_entries hk
    obtain ⟨he, hne⟩ := OrderedMap.mem_entries_erase.mp he
    exact hne (h.connectionsNamed _ he).symm

end WellFormed

end Composition

namespace Store

variable {s : Store} {now : Timestamp} {edit : Edit} {edits : List (Timestamp × Edit)} {k : Connection}
  {source target : PortId} {output input : Port}

/-! ## What one edit spares -/

/-- A primitive that an edit does not remove is there afterwards, with its name, its kind and its ports. -/
theorem exists_frame_perform (hw : s.composition.WellFormed) {p : Primitive} (hp : p ∈ s.composition.primitives.values)
    (now : Timestamp) (hspared : edit ≠ .removePrimitive p.id) :
    ∃ q ∈ (s.perform now edit).composition.primitives.values, q.frame = p.frame := by
  have hupdate : ∀ {id : PrimitiveId} {change : Primitive → Primitive}, (∀ q, (change q).frame = q.frame) →
      ∃ q ∈ (s.commit (·.update now id change)).2.composition.primitives.values, q.frame = p.frame := by
    intro id change hc
    refine s.commit_keeps (motive := fun c => ∃ q ∈ c.primitives.values, q.frame = p.frame) ⟨p, hp, rfl⟩ ?_
    exact (s.composition.update_sameFrames now id hc).1.symm.exists_value hp
  cases edit with
  | addPrimitive kind position =>
    have hnew : (Catalog.instantiate kind position s.composition.ids).1.id ∉ s.composition.primitives.keys := by
      rw [(Catalog.instantiate_fresh kind position s.composition.ids).named]
      exact hw.fresh_primitive
    refine ⟨p, ?_, rfl⟩
    simp only [perform, addPrimitive, Composition.addPrimitive]
    rw [OrderedMap.values_insert_of_not_mem hnew]
    exact List.mem_append_left _ hp
  | updatePrimitive id patch => exact hupdate fun _ => rfl
  | removePrimitive id =>
    refine s.commitRemoval_keeps (motive := fun c => ∃ q ∈ c.primitives.values, q.frame = p.frame) ⟨p, hp, rfl⟩ ?_
    unfold Composition.removePrimitive
    split
    · exact ⟨p, hp, rfl⟩
    · obtain ⟨key, he⟩ := OrderedMap.exists_mem_entries hp
      refine ⟨p, OrderedMap.mem_values_of_mem (OrderedMap.mem_entries_erase.mpr ⟨he, ?_⟩), rfl⟩
      rintro rfl
      exact hspared (by rw [hw.primitivesNamed _ he])
  | movePrimitive id position => exact hupdate fun _ => rfl
  | setParameter id parameter value => exact hupdate fun _ => rfl
  | setParameterFromJson id parameter raw =>
    rcases s.setParameterFromJson_cases now id parameter raw with hs | ⟨value, -, hs⟩
    · rw [perform, hs]
      exact ⟨p, hp, rfl⟩
    · rw [perform, hs]
      exact hupdate fun _ => rfl
  | connect source target =>
    rw [perform, connect_primitives]
    exact ⟨p, hp, rfl⟩
  | removeConnection id =>
    have hprimitives : (s.perform now (.removeConnection id)).composition.primitives = s.composition.primitives :=
      s.commitRemoval_keeps (motive := fun c => c.primitives = s.composition.primitives) rfl
        (Composition.removeConnection_primitives _ _)
    rw [hprimitives]
    exact ⟨p, hp, rfl⟩

/-- The ports are found as they were after an edit that removes neither owner. -/
theorem finds_perform (hw : s.composition.WellFormed) (h : s.composition.Finds source target output input)
    (ho : edit ≠ .removePrimitive output.owner) (hi : edit ≠ .removePrimitive input.owner) :
    (s.perform now edit).composition.Finds source target output input := by
  have hnext := s.perform_wellFormed now edit hw
  obtain ⟨p, hp, hout, rfl⟩ := Composition.output?_some h.output
  obtain ⟨q, hq, hin, rfl⟩ := Composition.input?_some h.input
  rw [hw.owner_eq hp (p.outputs_subset hout)] at ho
  rw [hw.owner_eq hq (q.inputs_subset hin)] at hi
  obtain ⟨p', hp', hpf⟩ := exists_frame_perform hw hp now ho
  obtain ⟨q', hq', hqf⟩ := exists_frame_perform hw hq now hi
  obtain ⟨-, -, -, houts⟩ := Primitive.frame_eq_iff.mp hpf
  obtain ⟨-, -, hins, -⟩ := Primitive.frame_eq_iff.mp hqf
  exact ⟨hnext.addressed.output?_of_mem hp' (houts ▸ hout), hnext.addressed.input?_of_mem hq' (hins ▸ hin)⟩

/-- A connection stays in an edit that removes neither it nor an owner of its ports. -/
theorem mem_connections_perform_of_spared (hw : s.composition.WellFormed)
    (h : s.composition.Finds k.source k.target output input) (hk : k ∈ s.composition.connections.values)
    (ho : edit ≠ .removePrimitive output.owner) (hi : edit ≠ .removePrimitive input.owner)
    (hspared : edit ≠ .removeConnection k.id) : k ∈ (s.perform now edit).composition.connections.values := by
  have hupdate : ∀ {id : PrimitiveId} {change : Primitive → Primitive},
      k ∈ (s.commit (·.update now id change)).2.composition.connections.values := by
    intro id change
    refine s.commit_keeps (motive := fun c => k ∈ c.connections.values) hk ?_
    rw [Composition.update_connections]
    exact hk
  cases edit with
  | addPrimitive kind position => exact hk
  | updatePrimitive id patch => exact hupdate
  | removePrimitive id =>
    refine s.commitRemoval_keeps (motive := fun c => k ∈ c.connections.values) hk ?_
    unfold Composition.removePrimitive
    split
    · exact hk
    · rename_i p hp
      -- the primitive that goes has neither port of the connection, so the connection does not go with it
      have hid := hw.primitivesNamed _ (OrderedMap.get?_eq_some_iff.mp hp)
      have hmem := OrderedMap.mem_values_of_get? hp
      have hsource : p.ownsPort k.source = false := by
        rw [Bool.eq_false_iff, ne_eq, hw.addressed.ownsPort_iff hmem, hw.portOwner?_of_output? h.output, Option.some.injEq, hid]
        exact fun he => ho (by rw [he])
      have htarget : p.ownsPort k.target = false := by
        rw [Bool.eq_false_iff, ne_eq, hw.addressed.ownsPort_iff hmem, hw.portOwner?_of_input? h.input, Option.some.injEq, hid]
        exact fun he => hi (by rw [he])
      rw [OrderedMap.values_filter, List.mem_filter]
      exact ⟨hk, by simp [Primitive.touches, hsource, htarget]⟩
  | movePrimitive id position => exact hupdate
  | setParameter id parameter value => exact hupdate
  | setParameterFromJson id parameter raw =>
    rcases s.setParameterFromJson_cases now id parameter raw with hs | ⟨value, -, hs⟩
    · rw [perform, hs]
      exact hk
    · rw [perform, hs]
      exact hupdate
  | connect source target =>
    refine s.commit_keeps (motive := fun c => k ∈ c.connections.values) hk ?_
    cases hr : s.composition.resolve source target with
    | error e =>
      rw [Composition.connect_of_error hr]
      exact hk
    | ok r =>
      rw [Composition.connect_of_ok hr]
      simp only
      rw [OrderedMap.values_insert_of_not_mem hw.fresh_connection]
      exact List.mem_append_left _ hk
  | removeConnection id =>
    refine s.commitRemoval_keeps (motive := fun c => k ∈ c.connections.values) hk ?_
    unfold Composition.removeConnection
    split
    · exact hk
    · obtain ⟨key, he⟩ := OrderedMap.exists_mem_entries hk
      refine OrderedMap.mem_values_of_mem (OrderedMap.mem_entries_erase.mpr ⟨he, ?_⟩)
      rintro rfl
      exact hspared (by rw [hw.connectionsNamed _ he])

/-! ## What a run spares -/

/-- The edits of a run remove neither of two primitives. -/
def SparesOwners (edits : List (Timestamp × Edit)) (a b : PrimitiveId) : Prop :=
  ∀ e ∈ edits, e.2 ≠ .removePrimitive a ∧ e.2 ≠ .removePrimitive b

/-- The edits of a run do not remove a connection by its name. -/
def SparesConnection (edits : List (Timestamp × Edit)) (id : ConnectionId) : Prop :=
  ∀ e ∈ edits, e.2 ≠ .removeConnection id

/-- The ports are found as they were after a run that spares their owners. -/
theorem finds_run (hw : s.composition.WellFormed) (h : s.composition.Finds source target output input)
    (hspared : SparesOwners edits output.owner input.owner) :
    (s.run edits).composition.Finds source target output input := by
  have hrun := run_induction_of (fun e => e ≠ .removePrimitive output.owner ∧ e ≠ .removePrimitive input.owner)
    (motive := fun s => s.composition.WellFormed ∧ s.composition.Finds source target output input)
    (fun s now edit ha hs => ⟨s.perform_wellFormed now edit hs.1, finds_perform hs.1 hs.2 ha.1 ha.2⟩)
    s edits hspared ⟨hw, h⟩
  exact hrun.2

/-- A connection stays in a run that spares it and the owners of its ports. -/
theorem mem_connections_run_of_spared (hw : s.composition.WellFormed)
    (h : s.composition.Finds k.source k.target output input) (hk : k ∈ s.composition.connections.values)
    (howners : SparesOwners edits output.owner input.owner) (hspared : SparesConnection edits k.id) :
    k ∈ (s.run edits).composition.connections.values := by
  have hrun := run_induction_of
    (fun e => (e ≠ .removePrimitive output.owner ∧ e ≠ .removePrimitive input.owner) ∧ e ≠ .removeConnection k.id)
    (motive := fun s => s.composition.WellFormed ∧ s.composition.Finds k.source k.target output input ∧
      k ∈ s.composition.connections.values)
    (fun s now edit ha hs => ⟨s.perform_wellFormed now edit hs.1, finds_perform hs.1 hs.2.1 ha.1.1 ha.1.2,
      mem_connections_perform_of_spared hs.1 hs.2.1 hs.2.2 ha.1.1 ha.1.2 ha.2⟩)
    s edits (fun e he => ⟨howners e he, hspared e he⟩) ⟨hw, h, hk⟩
  exact hrun.2.2

/-! ## Where connections come from -/

/-- What was accepted in the last part of a run was accepted in the run. -/
theorem Accepted.prepend {r : Resolution} {first : List (Timestamp × Edit)} (h : (s.run first).Accepted edits k r) :
    s.Accepted (first ++ edits) k r := by
  obtain ⟨before, now, after, rfl, hr, hk⟩ := h
  rw [← run_append] at hr hk
  exact ⟨first ++ before, now, after, (List.append_assoc _ _ _).symm, hr, hk⟩

/-- A connection that is there after a run was there before it or was accepted in it. -/
theorem mem_connections_run (h : k ∈ (s.run edits).composition.connections.values) :
    k ∈ s.composition.connections.values ∨ ∃ r, s.Accepted edits k r := by
  induction edits using List.reverseRecOn with
  | nil => exact Or.inl h
  | append_singleton edits e ih =>
    rw [run_concat] at h
    rcases mem_connections_perform h with h | ⟨he, hok⟩
    · exact (ih h).imp_right fun ⟨r, hr⟩ => ⟨r, hr.append _⟩
    · obtain ⟨r, hr⟩ := exists_resolution hok
      exact Or.inr ⟨r, edits, e.1, [], by rw [← he], hr, hok⟩

theorem removeConnection_composition (s : Store) (now : Timestamp) (id : ConnectionId) :
    (s.removeConnection now id).2.composition = (s.composition.removeConnection now id).2 := by
  cases h : s.composition.connection? id <;> simp [removeConnection, commitRemoval, Composition.removeConnection, h]

/-- The pair of a connection is not joined after a run that removes the connection and accepts no attempt at the pair. -/
theorem between?_run_of_removed (hw : s.composition.WellFormed) (hk : k ∈ s.composition.connections.values)
    (hremoved : ¬ SparesConnection edits k.id)
    (hnone : ∀ k' r, s.Accepted edits k' r → (k'.source, k'.target) ≠ (k.source, k.target)) :
    (s.run edits).composition.between? k.source k.target = none := by
  unfold SparesConnection at hremoved
  push Not at hremoved
  obtain ⟨⟨now, edit⟩, he, rfl⟩ := hremoved
  obtain ⟨before, after, rfl⟩ := List.append_of_mem he
  rw [Composition.between?_eq_none_iff]
  intro k' hk' hpair
  rw [← List.concat_append, run_append] at hk'
  rcases mem_connections_run hk' with hk' | ⟨r, hr⟩
  · -- it was there right after the removal, and so before it, under another name
    rw [List.concat_eq_append, run_concat] at hk'
    simp only [perform, removeConnection_composition] at hk'
    have hid := (s.wellFormed_run before hw).id_ne_of_removeConnection hk'
    rcases mem_connections_run (Composition.mem_connections_removeConnection hk') with hk' | ⟨r, hr⟩
    · exact hid (congrArg _ (List.inj_on_of_nodup_map hw.pairsDistinct hk' hk hpair))
    · exact hnone k' r (hr.append _) hpair
  · have hprefix := hr.prepend
    rw [List.concat_append] at hprefix
    exact hnone k' r hprefix hpair

/-! ## Another attempt -/

/-- An attempt at the ports of a connection that is there names this connection and changes nothing. -/
theorem connect_of_mem (hw : s.composition.WellFormed) (h : s.composition.Finds k.source k.target output input)
    (hne : output.owner ≠ input.owner) (hk : k ∈ s.composition.connections.values) :
    s.connect now k.source k.target = (.error (.duplicateConnection k.id), s) := by
  have hr : s.composition.resolve k.source k.target = .error (.duplicateConnection k.id) := by
    simp [Composition.resolve, h.output, h.input, hne, hw.between?_of_mem hk]
  simp only [connect, commit, Composition.connect_of_error hr]

/-- What an accepted attempt answers and leaves. -/
theorem connect_of_resolve (now : Timestamp) {r : Resolution} (hr : s.composition.resolve source target = .ok r) :
    (s.connect now source target).1 =
        .ok ⟨⟨s.composition.ids.nextConnection⟩, source, target, r.source.resourceType⟩ ∧
      (s.connect now source target).2.composition.connections =
        s.composition.connections.insert ⟨s.composition.ids.nextConnection⟩
          ⟨⟨s.composition.ids.nextConnection⟩, source, target, r.source.resourceType⟩ := by
  simp only [connect, commit, Composition.connect_of_ok hr, true_and]

/-- The counters of a run do not go back. -/
theorem nextConnection_le_run (s : Store) (edits : List (Timestamp × Edit)) :
    s.composition.ids.nextConnection ≤ (s.run edits).composition.ids.nextConnection := by
  have hlast := (s.trace_between edits).connections.2
  omega

/-- Two ports of a reachable composition that were just connected, and any edits that remove neither of their owners. If the
edits do not remove the connection, another attempt at the two ports is refused, names the connection and changes nothing. If
they remove it and no attempt at the two ports is accepted among them, another attempt is accepted: it makes a connection of
another name with the same tag. -/
theorem connected_pair_protected (hs : s.composition.Reachable) (hk : (s.connect now source target).1 = .ok k) :
    let connected := (s.connect now source target).2
    ∃ a b, s.composition.portOwner? source = some a ∧ s.composition.portOwner? target = some b ∧
      ∀ edits, SparesOwners edits a b →
        let last := connected.run edits
        (SparesConnection edits k.id →
          ∀ now, last.connect now source target = (.error (.duplicateConnection k.id), last)) ∧
        (¬ SparesConnection edits k.id →
          (∀ k' r, connected.Accepted edits k' r → (k'.source, k'.target) ≠ (source, target)) →
            ∀ now, ∃ k', (last.connect now source target).1 = .ok k' ∧ k'.id ≠ k.id ∧ k'.source = source ∧
              k'.target = target ∧ k'.resourceType = k.resourceType) := by
  intro connected
  have hw := hs.wellFormed
  have hconnected : connected.composition.WellFormed := s.perform_wellFormed now (.connect source target) hw
  obtain ⟨r, hr⟩ := exists_resolution hk
  obtain ⟨hanswer, hconnections⟩ := connect_of_resolve now hr
  obtain ⟨ho, hi, hne, -, htier⟩ := Composition.resolve_eq_ok_iff.mp hr
  obtain rfl : k = ⟨⟨s.composition.ids.nextConnection⟩, source, target, r.source.resourceType⟩ :=
    Except.ok.inj (hk.symm.trans hanswer)
  have hfinds : connected.composition.Finds source target r.source r.target :=
    (⟨ho, hi⟩ : s.composition.Finds source target r.source r.target).of_primitives (s.connect_primitives now _ _)
  have hmem : (⟨⟨s.composition.ids.nextConnection⟩, source, target, r.source.resourceType⟩ : Connection) ∈
      connected.composition.connections.values := by
    rw [hconnections, OrderedMap.values_insert_of_not_mem hw.fresh_connection]
    exact List.mem_append_right _ List.mem_cons_self
  refine ⟨_, _, hw.portOwner?_of_output? ho, hw.portOwner?_of_input? hi, fun edits howners => ?_⟩
  have hlast := connected.wellFormed_run edits hconnected
  have hends := finds_run hconnected hfinds howners
  refine ⟨fun hspared now => ?_, fun hremoved hnone now => ?_⟩
  · have hstays := mem_connections_run_of_spared hconnected hfinds hmem howners hspared
    exact connect_of_mem hlast hends hne hstays
  · have hfree := between?_run_of_removed hconnected hmem hremoved hnone
    have hagain := Composition.resolve_eq_ok_iff.mpr ⟨hends.output, hends.input, hne, hfree, htier⟩
    refine ⟨_, (connect_of_resolve now hagain).1, ?_, rfl, rfl, rfl⟩
    have hbelow := hconnected.connectionsBelow _ hmem
    have hle := connected.nextConnection_le_run edits
    rw [ne_eq, ConnectionId.mk.injEq]
    exact Nat.ne_of_gt (Nat.lt_of_lt_of_le hbelow hle)

/-- A second vault comes, takes receipts too and goes again, while the pool is moved. -/
def otherVault : List (Timestamp × Edit) :=
  [(.epoch, .addPrimitive .vault default), (.epoch, .connect ⟨3⟩ ⟨7⟩), (.epoch, .movePrimitive ⟨0⟩ default),
    (.epoch, .removePrimitive ⟨2⟩)]

/-- While a second vault comes and goes, the pair cannot be connected again; once the connection is removed, it can, under a
new name. -/
theorem loans_pair_protected :
    let connected := (loansAndVault.connect .epoch ⟨3⟩ ⟨4⟩).2
    let last := connected.run otherVault
    let parted := connected.run (otherVault ++ [(.epoch, .removeConnection ⟨0⟩)])
    loansAndVault.composition.Reachable ∧
      (loansAndVault.connect .epoch ⟨3⟩ ⟨4⟩).1 = .ok ⟨⟨0⟩, ⟨3⟩, ⟨4⟩, "receipt"⟩ ∧
      last.connect .epoch ⟨3⟩ ⟨4⟩ = (.error (.duplicateConnection ⟨0⟩), last) ∧
      ∃ k, (parted.connect .epoch ⟨3⟩ ⟨4⟩).1 = .ok k ∧ k.id ≠ ⟨0⟩ ∧ k.resourceType = "receipt" := by
  have hs : loansAndVault.composition.Reachable := ⟨_, _, _, _, _, rfl⟩
  have hk : (loansAndVault.connect .epoch ⟨3⟩ ⟨4⟩).1 = .ok ⟨⟨0⟩, ⟨3⟩, ⟨4⟩, "receipt"⟩ := by decide
  obtain ⟨a, b, ha, hb, h⟩ := connected_pair_protected hs hk
  obtain rfl : (⟨0⟩ : PrimitiveId) = a := Option.some.inj (.trans (by decide) ha)
  obtain rfl : (⟨1⟩ : PrimitiveId) = b := Option.some.inj (.trans (by decide) hb)
  refine ⟨hs, hk, (h otherVault ?_).1 ?_ .epoch, ?_⟩
  · simp [SparesOwners, otherVault]
  · simp [SparesConnection, otherVault]
  · obtain ⟨-, hagain⟩ := h (otherVault ++ [(.epoch, .removeConnection ⟨0⟩)]) (by simp [SparesOwners, otherVault])
    obtain ⟨k, hok, hne, -, -, htag⟩ := hagain (by simp [SparesConnection]) (by
      rintro k r ⟨before, now, after, hedits, -⟩ hpair
      obtain ⟨hsource, htarget⟩ := Prod.mk.inj hpair
      have hm : (now, Edit.connect k.source k.target) ∈ otherVault ++ [(.epoch, .removeConnection ⟨0⟩)] := by
        rw [hedits]
        exact List.mem_append_right _ List.mem_cons_self
      simp [otherVault, hsource, htarget] at hm) .epoch
    exact ⟨k, hok, hne, htag⟩

end Store

end DefiComposer
