import DefiComposer.Proofs.Numbering

/-!
# Atomicity: an edit that fails changes nothing, and one that succeeds stamps

Every edit either fails and leaves all as it was, the counters and the stamp included, or succeeds and stamps what it leaves
with its moment. That holds of the edits of a composition in place (`Composition.perform_atomic`), and of those through a
store (`Store.perform_of_fails`, `Store.perform_stamped`), whatever the composition. An attempt to connect is refused with the
error of the decision: the connection is added behind the same look-ups, so a refusal to add it never shows
(`Composition.insertConnection_of_resolve`).
-/

namespace DefiComposer

/-- An edit at a moment leaves all as it was if it fails, and stamps what it leaves if it does not. -/
structure Atomic (now : Timestamp) (failed : Prop) (c next : Composition) : Prop where
  kept : failed → next = c
  stamped : ¬ failed → next.updatedAt = now

namespace Composition

/-! ## Edits in place -/

/-- The edits of a composition in place. -/
inductive Change where
  | rename (name : String)
  | describe (description : String)
  | addPrimitive (kind : Kind) (position : Position)
  | setPosition (id : PrimitiveId) (position : Position)
  | setParameter (id : PrimitiveId) (parameter : String) (value : ParameterValue)
  | patch (id : PrimitiveId) (patch : PrimitivePatch)
  | removePrimitive (id : PrimitiveId)
  | insertConnection (source target : PortId) (resourceType : String)
  | connect (source target : PortId)
  | removeConnection (id : ConnectionId)

/-- The composition that an edit in place leaves. -/
def perform (c : Composition) (now : Timestamp) : Change → Composition
  | .rename name => c.rename now name
  | .describe description => c.describe now description
  | .addPrimitive kind position => (c.addPrimitive now kind position).2
  | .setPosition id position => (c.setPosition now id position).2
  | .setParameter id parameter value => (c.setParameter now id parameter value).2
  | .patch id patch => (c.patch now id patch).2
  | .removePrimitive id => (c.removePrimitive now id).2
  | .insertConnection source target resourceType => (c.insertConnection now source target resourceType).2
  | .connect source target => (c.connect now source target).2
  | .removeConnection id => (c.removeConnection now id).2

/-- An edit in place fails: it answers an error, or that there is nothing to remove. -/
def Fails (c : Composition) (now : Timestamp) : Change → Prop
  | .rename _ | .describe _ | .addPrimitive _ _ => False
  | .setPosition id position => ∃ e, (c.setPosition now id position).1 = .error e
  | .setParameter id parameter value => ∃ e, (c.setParameter now id parameter value).1 = .error e
  | .patch id patch => ∃ e, (c.patch now id patch).1 = .error e
  | .removePrimitive id => (c.removePrimitive now id).1.isNone
  | .insertConnection source target resourceType => ∃ e, (c.insertConnection now source target resourceType).1 = .error e
  | .connect source target => ∃ e, (c.connect now source target).1 = .error e
  | .removeConnection id => (c.removeConnection now id).1.isNone

variable {c : Composition} {now : Timestamp} {source target : PortId}

/-- A change of a primitive is made as a whole, or not at all where there is none of the name. -/
theorem update_atomic (c : Composition) (now : Timestamp) (id : PrimitiveId) (change : Primitive → Primitive) :
    Atomic now (∃ e, (c.update now id change).1 = .error e) c (c.update now id change).2 := by
  unfold update
  split
  · exact ⟨fun _ => rfl, fun h => absurd ⟨_, rfl⟩ h⟩
  · exact ⟨nofun, fun _ => rfl⟩

/-- A removal of a primitive takes its connections with it, or changes nothing. -/
theorem removePrimitive_atomic (c : Composition) (now : Timestamp) (id : PrimitiveId) :
    Atomic now ((c.removePrimitive now id).1.isNone) c (c.removePrimitive now id).2 := by
  unfold removePrimitive
  split
  · exact ⟨fun _ => rfl, fun h => absurd rfl h⟩
  · exact ⟨nofun, fun _ => rfl⟩

/-- A connection is inserted as a whole, or not at all where an end is not there. -/
theorem insertConnection_atomic (c : Composition) (now : Timestamp) (source target : PortId) (resourceType : String) :
    Atomic now (∃ e, (c.insertConnection now source target resourceType).1 = .error e) c
      (c.insertConnection now source target resourceType).2 := by
  unfold insertConnection
  split
  · exact ⟨fun _ => rfl, fun h => absurd ⟨_, rfl⟩ h⟩
  · split
    · exact ⟨fun _ => rfl, fun h => absurd ⟨_, rfl⟩ h⟩
    · exact ⟨nofun, fun _ => rfl⟩

/-- Connecting makes one connection, or changes nothing. -/
theorem connect_atomic (c : Composition) (now : Timestamp) (source target : PortId) :
    Atomic now (∃ e, (c.connect now source target).1 = .error e) c (c.connect now source target).2 := by
  cases hr : c.resolve source target with
  | error e =>
    rw [connect_of_error hr]
    exact ⟨fun _ => rfl, fun h => absurd ⟨_, rfl⟩ h⟩
  | ok r =>
    rw [connect_of_ok hr]
    exact ⟨nofun, fun _ => rfl⟩

theorem removeConnection_atomic (c : Composition) (now : Timestamp) (id : ConnectionId) :
    Atomic now ((c.removeConnection now id).1.isNone) c (c.removeConnection now id).2 := by
  unfold removeConnection
  split
  · exact ⟨fun _ => rfl, fun h => absurd rfl h⟩
  · exact ⟨nofun, fun _ => rfl⟩

/-- Every edit in place is atomic. -/
theorem perform_atomic (c : Composition) (now : Timestamp) (change : Change) :
    Atomic now (c.Fails now change) c (c.perform now change) := by
  cases change with
  | rename name => exact ⟨False.elim, fun _ => rfl⟩
  | describe description => exact ⟨False.elim, fun _ => rfl⟩
  | addPrimitive kind position => exact ⟨False.elim, fun _ => rfl⟩
  | setPosition id position => exact c.update_atomic now id _
  | setParameter id parameter value => exact c.update_atomic now id _
  | patch id patch => exact c.update_atomic now id _
  | removePrimitive id => exact c.removePrimitive_atomic now id
  | insertConnection source target resourceType => exact c.insertConnection_atomic now source target resourceType
  | connect source target => exact c.connect_atomic now source target
  | removeConnection id => exact c.removeConnection_atomic now id

/-! ## Attempts to connect -/

/-- An attempt answers the error of the decision. -/
theorem connect_eq_error_iff {e : ConnectError} :
    (c.connect now source target).1 = .error e ↔ c.resolve source target = .error e := by
  cases hr : c.resolve source target with
  | error e' => rw [connect_of_error hr]; simp
  | ok r => rw [connect_of_ok hr]; simp

/-- After a positive decision the connection is added, and it is what the attempt answers. -/
theorem insertConnection_of_resolve {r : Resolution} (h : c.resolve source target = .ok r) (now : Timestamp) :
    ∃ k next, c.insertConnection now source target r.source.resourceType = (.ok k, next) ∧
      c.connect now source target = (.ok k, next) := by
  obtain ⟨hs, ht, -⟩ := resolve_eq_ok_iff.mp h
  have hinsert : ∃ k next, c.insertConnection now source target r.source.resourceType = (.ok k, next) := by
    simp [insertConnection, hs, ht]
  obtain ⟨k, next, hk⟩ := hinsert
  exact ⟨k, next, hk, by simp [connect, h, hk]⟩

end Composition

namespace Store

variable {s : Store} {now : Timestamp}

/-! ## Edits through a store -/

/-- A committed edit answers what the edit answers. -/
theorem commit_answer {ε α : Type} (s : Store) (edit : Composition → Except ε α × Composition) :
    (s.commit edit).1 = (edit s.composition).1 := by
  unfold commit
  split <;> rename_i h <;> rw [h]

/-- A committed removal answers what the removal answers. -/
theorem commitRemoval_answer {α : Type} (s : Store) (removal : Composition → Option α × Composition) :
    (s.commitRemoval removal).1 = (removal s.composition).1 := by
  unfold commitRemoval
  split <;> rename_i h <;> rw [h]

/-- A commit that succeeds is stamped with its time. -/
theorem commit_stamped {ε α : Type} {edit : Composition → Except ε α × Composition}
    (h : Atomic now (∃ e, (edit s.composition).1 = .error e) s.composition (edit s.composition).2)
    (hok : ¬ ∃ e, (s.commit edit).1 = .error e) : (s.commit edit).2.composition.updatedAt = now := by
  rw [commit_answer] at hok
  cases hr : (edit s.composition).1 with
  | error e => exact absurd ⟨e, hr⟩ hok
  | ok a =>
    rw [commit_of_ok edit hr]
    exact h.stamped hok

theorem commitRemoval_stamped {α : Type} {removal : Composition → Option α × Composition}
    (h : Atomic now ((removal s.composition).1.isNone) s.composition (removal s.composition).2)
    (hsome : ¬ (s.commitRemoval removal).1.isNone) : (s.commitRemoval removal).2.composition.updatedAt = now := by
  have hstamp := h.stamped (by rwa [← commitRemoval_answer])
  unfold commitRemoval at hsome ⊢
  split
  · rename_i a next hr
    rwa [hr] at hstamp
  · rename_i next hr
    rw [hr] at hsome
    exact absurd rfl hsome

/-- An edit through a store that succeeds stamps the composition. -/
theorem perform_stamped {edit : Edit} (h : ¬ s.Fails now edit) : (s.perform now edit).composition.updatedAt = now := by
  cases edit with
  | addPrimitive kind position => rfl
  | updatePrimitive id patch => exact commit_stamped (s.composition.update_atomic now id _) h
  | removePrimitive id => exact commitRemoval_stamped (s.composition.removePrimitive_atomic now id) h
  | movePrimitive id position => exact commit_stamped (s.composition.update_atomic now id _) h
  | setParameter id parameter value => exact commit_stamped (s.composition.update_atomic now id _) h
  | setParameterFromJson id parameter raw =>
    cases hr : (s.setParameterFromJson now id parameter raw).1 with
    | error e => exact absurd ⟨e, hr⟩ h
    | ok value =>
      obtain ⟨p, -, -, hnext⟩ := setParameterFromJson_of_ok hr
      rw [perform, hnext]
  | connect source target => exact commit_stamped (s.composition.connect_atomic now source target) h
  | removeConnection id => exact commitRemoval_stamped (s.composition.removeConnection_atomic now id) h

/-- An attempt through a store answers the error of the decision. -/
theorem connect_eq_error_iff {source target : PortId} {e : ConnectError} :
    (s.connect now source target).1 = .error e ↔ s.composition.resolve source target = .error e := by
  rw [connect, commit_answer, Composition.connect_eq_error_iff]

/-- Failures and successes, whatever the composition. Through a store an edit that fails leaves the whole store as it was, and
one that succeeds stamps the composition; the same holds of each edit of the composition in place. An attempt to connect, in
place or through a store, is refused exactly when the decision refuses it and with its error, and after a positive decision
the connection is added. Raw input is answered with the first failure among a missing primitive, an undeclared parameter, the
conversion and the check, or with the value that passes all. -/
theorem edits_atomic (s : Store) (now : Timestamp) :
    (∀ edit : Edit, (s.Fails now edit → s.perform now edit = s) ∧
      (¬ s.Fails now edit → (s.perform now edit).composition.updatedAt = now)) ∧
    (∀ change : Composition.Change, (s.composition.Fails now change → s.composition.perform now change = s.composition) ∧
      (¬ s.composition.Fails now change → (s.composition.perform now change).updatedAt = now)) ∧
    (∀ source target e,
      ((s.composition.connect now source target).1 = .error e ↔ s.composition.resolve source target = .error e) ∧
      ((s.connect now source target).1 = .error e ↔ s.composition.resolve source target = .error e)) ∧
    (∀ source target r, s.composition.resolve source target = .ok r →
      ∃ k next, s.composition.insertConnection now source target r.source.resourceType = (.ok k, next) ∧
        s.composition.connect now source target = (.ok k, next)) ∧
    ∀ id parameter raw answer,
      (s.setParameterFromJson now id parameter raw).1 = answer ↔ Reads s.composition id parameter raw answer := by
  refine ⟨fun edit => ⟨perform_of_fails, perform_stamped⟩, fun change => ?_, fun source target e => ?_,
    fun source target r h => Composition.insertConnection_of_resolve h now, fun id parameter raw answer => ?_⟩
  · exact ⟨(s.composition.perform_atomic now change).kept, (s.composition.perform_atomic now change).stamped⟩
  · exact ⟨Composition.connect_eq_error_iff, connect_eq_error_iff⟩
  · rw [setParameterFromJson_answer, readParameter_eq_iff]

/-- A vault takes the loans of a lending pool. -/
def loanedVault : Store :=
  (Store.new .zero .epoch "Loans" "").run
    [ (.epoch, .addPrimitive .lendingPool default), (.epoch, .addPrimitive .vault default),
      (.epoch, .connect ⟨2⟩ ⟨4⟩) ]

/-- A moment of the next day. -/
def nextMorning : Timestamp := { day := ⟨1970, 1, 2⟩, clock := ⟨8, 0, 0, 0⟩ }

/-- On the next day the same attempt is refused and the connection is removed; there is no third primitive to remove, and the
pool is moved; and the receipts of the pool may go into the vault. -/
theorem loanedVault_edits :
    (loanedVault.Fails nextMorning (.connect ⟨2⟩ ⟨4⟩) ∧
      loanedVault.perform nextMorning (.connect ⟨2⟩ ⟨4⟩) = loanedVault) ∧
    (¬ loanedVault.Fails nextMorning (.removeConnection ⟨0⟩) ∧
      (loanedVault.perform nextMorning (.removeConnection ⟨0⟩)).composition.updatedAt = nextMorning) ∧
    (loanedVault.composition.Fails nextMorning (.removePrimitive ⟨2⟩) ∧
      loanedVault.composition.perform nextMorning (.removePrimitive ⟨2⟩) = loanedVault.composition) ∧
    (¬ loanedVault.composition.Fails nextMorning (.setPosition ⟨0⟩ default) ∧
      (loanedVault.composition.perform nextMorning (.setPosition ⟨0⟩ default)).updatedAt = nextMorning) ∧
    ∃ r k next, loanedVault.composition.resolve ⟨3⟩ ⟨4⟩ = .ok r ∧
      loanedVault.composition.connect nextMorning ⟨3⟩ ⟨4⟩ = (.ok k, next) := by
  obtain ⟨hstore, hplace, -, hinsert, -⟩ := edits_atomic loanedVault nextMorning
  have hrefused : loanedVault.Fails nextMorning (.connect ⟨2⟩ ⟨4⟩) := ⟨.duplicateConnection ⟨0⟩, rfl⟩
  have hremoved : ¬ loanedVault.Fails nextMorning (.removeConnection ⟨0⟩) := nofun
  have hmissing : loanedVault.composition.Fails nextMorning (.removePrimitive ⟨2⟩) := rfl
  have hmoved : ¬ loanedVault.composition.Fails nextMorning (.setPosition ⟨0⟩ default) := nofun
  obtain ⟨r, hr⟩ : ∃ r, loanedVault.composition.resolve ⟨3⟩ ⟨4⟩ = .ok r := ⟨_, rfl⟩
  obtain ⟨k, next, -, hk⟩ := hinsert ⟨3⟩ ⟨4⟩ r hr
  exact ⟨⟨hrefused, (hstore _).1 hrefused⟩, ⟨hremoved, (hstore _).2 hremoved⟩, ⟨hmissing, (hplace _).1 hmissing⟩,
    ⟨hmoved, (hplace _).2 hmoved⟩, r, k, next, hr, hk⟩

end Store

end DefiComposer
