import DefiComposer.Proofs.Ports

/-!
# Attempts: connecting many pairs of ports, in any order

Whether an attempt to connect two ports is accepted depends on the two ports, which no attempt changes, and on whether this
very pair is connected already. So attempts at different pairs do not get in each other's way, and the links that are there
after many attempts are those that were there and the permitted ones among the listed pairs (`Store.mem_links_run`): the
order of the attempts does not matter, nor how often a pair is listed. A permitted pair that was not connected before is
accepted once, and no other attempt is accepted (`Store.acceptances_spec`).
-/

namespace DefiComposer

/-! ## Links and what permits them -/

/-- What a connection says, its name aside: the two ports, and the tag of what flows. -/
def Connection.link (k : Connection) : PortId × PortId × String := (k.source, k.target, k.resourceType)

namespace Composition

/-- The links of the connections, in their order. -/
def links (c : Composition) : List (PortId × PortId × String) := c.connections.values.map (·.link)

/-- The ports permit a link: it goes from an output port of one primitive to an input port of another, the tags of the two
go together, and the link carries the tag of the output port. -/
def Permits (c : Composition) (source target : PortId) (tag : String) : Prop :=
  ∃ p ∈ c.primitives.values, ∃ q ∈ c.primitives.values, ∃ output ∈ p.outputs, ∃ input ∈ q.inputs,
    output.id = source ∧ input.id = target ∧ p.id ≠ q.id ∧ output.resourceType = tag ∧
      (compatibility output.resourceType input.resourceType).isSome

variable {c c' : Composition} {source target : PortId} {tag : String}

/-- What is permitted depends on the primitives only. -/
theorem permits_congr (h : c'.primitives = c.primitives) : c'.Permits source target tag ↔ c.Permits source target tag := by
  unfold Permits
  rw [h]

/-- A connection joins two primitives exactly when the link it makes is permitted. -/
theorem joins_iff_permits {k : Connection} : c.Joins k ↔ c.Permits k.source k.target k.resourceType := by
  simp only [Joins, Permits, eq_comm]

/-- Two ports are connected exactly when some link goes from the one to the other. -/
theorem hasConnection_iff : c.hasConnection source target = true ↔ ∃ tag, (source, target, tag) ∈ c.links := by
  rw [hasConnection, Option.isSome_iff_ne_none, ne_eq, between?_eq_none_iff]
  push Not
  simp only [links, List.mem_map, Connection.link, Prod.mk.injEq]
  constructor
  · rintro ⟨k, hk, hs, ht⟩
    exact ⟨k.resourceType, k, hk, hs, ht, rfl⟩
  · rintro ⟨tag, k, hk, hs, ht, -⟩
    exact ⟨k, hk, hs, ht⟩

theorem between?_eq_none_of_hasConnection (h : c.hasConnection source target = false) :
    c.between? source target = none := by
  simpa [hasConnection] using h

namespace WellFormed

/-- Every link that is there is permitted. -/
theorem permits_of_mem_links (h : c.WellFormed) (hm : (source, target, tag) ∈ c.links) : c.Permits source target tag := by
  obtain ⟨k, hk, hlink⟩ := List.mem_map.mp hm
  obtain ⟨rfl, rfl, rfl⟩ : k.source = source ∧ k.target = target ∧ k.resourceType = tag := by
    simpa [Connection.link] using hlink
  exact joins_iff_permits.mp (h.joined k hk)

/-- Between two ports a link with one tag at most is permitted. -/
theorem tag_unique (h : c.WellFormed) {tag' : String} (hp : c.Permits source target tag)
    (hp' : c.Permits source target tag') : tag = tag' := by
  obtain ⟨p, hpm, -, -, output, ho, -, -, hid, -, -, rfl, -⟩ := hp
  obtain ⟨p', hpm', -, -, output', ho', -, -, hid', -, -, rfl, -⟩ := hp'
  have hfound := h.addressed.output?_of_mem hpm ho
  have hfound' := h.addressed.output?_of_mem hpm' ho'
  rw [hid] at hfound
  rw [hid', hfound] at hfound'
  rw [Option.some.inj hfound']

/-- No two connections make one link. -/
theorem links_nodup (h : c.WellFormed) : c.links.Nodup := by
  have hpairs : c.connections.values.map (fun k => (k.source, k.target)) = c.links.map fun l => (l.1, l.2.1) := by
    rw [links, List.map_map]
    rfl
  refine List.Nodup.of_map (fun l : PortId × PortId × String => (l.1, l.2.1)) ?_
  rw [← hpairs]
  exact h.pairsDistinct

/-- What is accepted is permitted. -/
theorem permits_of_resolve (h : c.WellFormed) {r : Resolution} (hr : c.resolve source target = .ok r) :
    c.Permits source target r.source.resourceType := by
  obtain ⟨hs, ht, howner, -, htier⟩ := resolve_eq_ok_iff.mp hr
  obtain ⟨p, hp, hps, hsid⟩ := output?_some hs
  obtain ⟨q, hq, hqt, htid⟩ := input?_some ht
  refine ⟨p, hp, q, hq, r.source, hps, r.target, hqt, hsid, htid, ?_, rfl, by rw [htier]; rfl⟩
  rw [← h.owner_eq hp (p.outputs_subset hps), ← h.owner_eq hq (q.inputs_subset hqt)]
  exact howner

/-- What is permitted and not there yet is accepted. -/
theorem exists_resolve (h : c.WellFormed) (hp : c.Permits source target tag)
    (hnew : c.hasConnection source target = false) : ∃ r, c.resolve source target = .ok r := by
  obtain ⟨p, hpm, q, hqm, output, ho, input, hi, rfl, rfl, hne, -, hc⟩ := hp
  obtain ⟨tier, htier⟩ := Option.isSome_iff_exists.mp hc
  refine ⟨⟨output, input, tier⟩, resolve_eq_ok_iff.mpr
    ⟨h.addressed.output?_of_mem hpm ho, h.addressed.input?_of_mem hqm hi, ?_, ?_, htier⟩⟩
  · rw [h.owner_eq hpm (p.outputs_subset ho), h.owner_eq hqm (q.inputs_subset hi)]
    exact hne
  · exact between?_eq_none_of_hasConnection hnew

end WellFormed

end Composition

/-! ## One attempt -/

namespace Store

variable {s : Store} {now : Timestamp} {source target : PortId}

/-- Connecting keeps the primitives of a store. -/
theorem connect_primitives (s : Store) (now : Timestamp) (source target : PortId) :
    (s.connect now source target).2.composition.primitives = s.composition.primitives :=
  s.commit_keeps (motive := fun c => c.primitives = s.composition.primitives) rfl
    (Composition.connect_primitives _ _ _ _)

/-- An attempt is accepted and adds its link, or it is refused and changes nothing. It is accepted exactly when the ports
permit the link and are not connected yet. -/
theorem connect_cases (hw : s.composition.WellFormed) (now : Timestamp) (source target : PortId) :
    (∃ k tag, (s.connect now source target).1 = .ok k ∧ s.composition.Permits source target tag ∧
        s.composition.hasConnection source target = false ∧
          (s.connect now source target).2.composition.links = s.composition.links ++ [(source, target, tag)]) ∨
      (∃ e, s.connect now source target = (.error e, s)) ∧
        ∀ tag, s.composition.Permits source target tag → s.composition.hasConnection source target = true := by
  cases hr : s.composition.resolve source target with
  | ok r =>
    have hnone := (Composition.resolve_eq_ok_iff.mp hr).2.2.2.1
    left
    simp only [connect, commit, Composition.connect_of_ok hr]
    refine ⟨_, r.source.resourceType, rfl, hw.permits_of_resolve hr, by simp [Composition.hasConnection, hnone], ?_⟩
    rw [Composition.links, OrderedMap.values_insert_of_not_mem hw.fresh_connection, List.map_append]
    rfl
  | error e =>
    right
    refine ⟨⟨e, by simp only [connect, commit, Composition.connect_of_error hr]⟩, fun tag hp => ?_⟩
    by_contra hnew
    obtain ⟨r, hok⟩ := hw.exists_resolve hp (by simpa using hnew)
    rw [hr] at hok
    cases hok

/-- The links after an attempt: those that were there, and the one asked for if it is permitted. -/
theorem mem_links_connect (hw : s.composition.WellFormed) {a b : PortId} {tag : String} :
    (a, b, tag) ∈ (s.connect now source target).2.composition.links ↔
      (a, b, tag) ∈ s.composition.links ∨ (a, b) = (source, target) ∧ s.composition.Permits a b tag := by
  rcases connect_cases hw now source target with ⟨k, made, -, hp, -, hlinks⟩ | ⟨⟨e, he⟩, hrefused⟩
  · rw [hlinks, List.mem_append, List.mem_singleton]
    refine or_congr_right ⟨?_, ?_⟩
    · rintro ⟨rfl, rfl, rfl⟩
      exact ⟨rfl, hp⟩
    · rintro ⟨hpair, hp'⟩
      obtain ⟨rfl, rfl⟩ := Prod.mk.inj hpair
      rw [hw.tag_unique hp' hp]
  · rw [he]
    refine ⟨Or.inl, ?_⟩
    rintro (hm | ⟨hpair, hp⟩)
    · exact hm
    · -- the pair is connected already, and no other tag is permitted for it
      obtain ⟨rfl, rfl⟩ := Prod.mk.inj hpair
      obtain ⟨tag', hm⟩ := Composition.hasConnection_iff.mp (hrefused tag hp)
      rwa [hw.tag_unique hp (hw.permits_of_mem_links hm)]

/-- An attempt is accepted exactly when some link between the two ports is permitted and none is there. -/
theorem connect_isOk_iff (hw : s.composition.WellFormed) :
    (s.connect now source target).1.isOk = true ↔
      (∃ tag, s.composition.Permits source target tag) ∧ s.composition.hasConnection source target = false := by
  rcases connect_cases hw now source target with ⟨k, made, hok, hp, hnew, -⟩ | ⟨⟨e, he⟩, hrefused⟩
  · rw [hok]
    exact ⟨fun _ => ⟨⟨made, hp⟩, hnew⟩, fun _ => rfl⟩
  · rw [he]
    refine ⟨nofun, ?_⟩
    rintro ⟨⟨tag, hp⟩, hnew⟩
    rw [hrefused tag hp] at hnew
    cases hnew

/-- After an attempt two ports are connected if they were, or if it was about them and they permit a link. -/
theorem hasConnection_connect (hw : s.composition.WellFormed) {a b : PortId} :
    (s.connect now source target).2.composition.hasConnection a b = true ↔
      s.composition.hasConnection a b = true ∨ (a, b) = (source, target) ∧ ∃ tag, s.composition.Permits a b tag := by
  simp only [Composition.hasConnection_iff, mem_links_connect hw, exists_or, exists_and_left]

end Store

/-! ## Many attempts -/

/-- An attempt to connect two ports, at its moment. -/
structure Attempt where
  now : Timestamp
  source : PortId
  target : PortId

namespace Attempt

/-- The ports that an attempt is about. -/
def pair (a : Attempt) : PortId × PortId := (a.source, a.target)

/-- An attempt as an edit. -/
def edit (a : Attempt) : Timestamp × Edit := (a.now, .connect a.source a.target)

end Attempt

namespace Store

/-- What a store answers to attempts, one after another. -/
def answers (s : Store) : List Attempt → List (Except ConnectError Connection)
  | [] => []
  | a :: attempts =>
    let (answer, next) := s.connect a.now a.source a.target
    answer :: next.answers attempts

/-- How many of the attempts at two ports are accepted. -/
def acceptances (s : Store) (attempts : List Attempt) (source target : PortId) : Nat :=
  (attempts.zip (s.answers attempts)).countP fun e => e.1.pair = (source, target) && e.2.isOk

variable {s : Store}

/-- The links after attempts: those that were there, and the permitted ones among those asked for. -/
theorem mem_links_run (hw : s.composition.WellFormed) (attempts : List Attempt) {source target : PortId} {tag : String} :
    (source, target, tag) ∈ (s.run (attempts.map (·.edit))).composition.links ↔
      (source, target, tag) ∈ s.composition.links ∨
        (source, target) ∈ attempts.map (·.pair) ∧ s.composition.Permits source target tag := by
  induction attempts generalizing s with
  | nil => simp [run]
  | cons a attempts ih =>
    have hnext := s.perform_wellFormed a.now (.connect a.source a.target) hw
    have hrest := ih (s := (s.connect a.now a.source a.target).2) hnext
    rw [Composition.permits_congr (s.connect_primitives _ _ _), mem_links_connect hw] at hrest
    refine hrest.trans ?_
    rw [List.map_cons, List.mem_cons, or_and_right, or_assoc]
    rfl

/-- The acceptances of a pair along some attempts: those after the first, and the first one if it was accepted. -/
theorem acceptances_cons (a : Attempt) (attempts : List Attempt) (source target : PortId) :
    s.acceptances (a :: attempts) source target =
      (s.connect a.now a.source a.target).2.acceptances attempts source target +
        if a.pair = (source, target) ∧ (s.connect a.now a.source a.target).1.isOk = true then 1 else 0 := by
  simp [acceptances, answers, List.countP_cons]

/-- Of the attempts at two ports one is accepted if the ports permit a link and are not connected yet; otherwise none is. -/
theorem acceptances_spec (hw : s.composition.WellFormed) (attempts : List Attempt) (source target : PortId) :
    s.acceptances attempts source target ≤ 1 ∧
      (s.acceptances attempts source target = 1 ↔
        (source, target) ∈ attempts.map (·.pair) ∧ (∃ tag, s.composition.Permits source target tag) ∧
          s.composition.hasConnection source target = false) := by
  induction attempts generalizing s with
  | nil => simp [acceptances]
  | cons a attempts ih =>
    have hnext := s.perform_wellFormed a.now (.connect a.source a.target) hw
    obtain ⟨hle, hrest⟩ := ih (s := (s.connect a.now a.source a.target).2) hnext
    simp only [Composition.permits_congr (s.connect_primitives _ _ _), ← Bool.not_eq_true, hasConnection_connect hw,
      not_or] at hrest
    rw [acceptances_cons, List.map_cons, List.mem_cons, ← Bool.not_eq_true]
    by_cases hpair : a.pair = (source, target)
    · obtain ⟨rfl, rfl⟩ := Prod.mk.inj hpair
      by_cases hok : (s.connect a.now a.source a.target).1.isOk = true
      · -- the pair is connected from now on, so that no later attempt at it is accepted
        obtain ⟨hp, hnew⟩ := (connect_isOk_iff hw).mp hok
        rw [if_pos ⟨hpair, hok⟩]
        have hnone : (s.connect a.now a.source a.target).2.acceptances attempts a.source a.target ≠ 1 :=
          fun h => (hrest.mp h).2.2.2 ⟨rfl, hp⟩
        exact ⟨by omega, fun _ => ⟨Or.inl rfl, hp, by simp [hnew]⟩, fun _ => by omega⟩
      · rw [if_neg fun h => hok h.2, Nat.add_zero]
        refine ⟨hle, hrest.trans ⟨?_, ?_⟩⟩
        · rintro ⟨hlisted, hp, hnew, -⟩
          exact ⟨Or.inr hlisted, hp, hnew⟩
        · rintro ⟨-, hp, hnew⟩
          exact absurd ((connect_isOk_iff hw).mpr ⟨hp, by simpa using hnew⟩) hok
    · -- an attempt at another pair leaves this one as it was
      rw [if_neg fun h => hpair h.1, Nat.add_zero]
      have hother : (source, target) ≠ (a.source, a.target) := fun h => hpair h.symm
      refine ⟨hle, hrest.trans ?_⟩
      simp [hother, Attempt.pair]

/-- Attempts to connect ports of a reachable composition, in any order and repeated at will: the links that are there in the
end are those that were there and the permitted ones among those asked for, so they do not depend on the order. Of the
attempts at a pair one is accepted if the ports permit a link and were not connected before; all others are refused. -/
theorem attempts_confluent (s : Store) (hs : s.composition.Reachable) (attempts : List Attempt) :
    let links := (s.run (attempts.map (·.edit))).composition.links
    (∀ source target tag, (source, target, tag) ∈ links ↔
      (source, target, tag) ∈ s.composition.links ∨
        (source, target) ∈ attempts.map (·.pair) ∧ s.composition.Permits source target tag) ∧
    (∀ attempts' : List Attempt, (attempts'.map (·.pair)).Perm (attempts.map (·.pair)) →
      (s.run (attempts'.map (·.edit))).composition.links.Perm links) ∧
    ∀ source target, s.acceptances attempts source target ≤ 1 ∧
      (s.acceptances attempts source target = 1 ↔
        (source, target) ∈ attempts.map (·.pair) ∧ (∃ tag, s.composition.Permits source target tag) ∧
          s.composition.hasConnection source target = false) := by
  have hw := hs.wellFormed
  have hnodup : ∀ attempts : List Attempt, (s.run (attempts.map (·.edit))).composition.links.Nodup :=
    fun attempts => (s.wellFormed_run _ hw).links_nodup
  refine ⟨fun source target tag => mem_links_run hw attempts, fun attempts' hperm => ?_, acceptances_spec hw attempts⟩
  rw [List.perm_ext_iff_of_nodup (hnodup attempts') (hnodup attempts)]
  rintro ⟨source, target, tag⟩
  rw [mem_links_run hw, mem_links_run hw, hperm.mem_iff]

/-- A lending pool and a vault, not connected. -/
def loansAndVault : Store :=
  (Store.new .zero .epoch "Loans" "").run
    [(.epoch, .addPrimitive .lendingPool default), (.epoch, .addPrimitive .vault default)]

/-- Loans and deposit receipts may go into the vault, which does not feed itself. The attempts are made twice over, and the
second time backwards. -/
def loanAttempts : List Attempt := [⟨.epoch, ⟨2⟩, ⟨4⟩⟩, ⟨.epoch, ⟨6⟩, ⟨4⟩⟩, ⟨.epoch, ⟨3⟩, ⟨4⟩⟩]

/-- Both orders leave the same links, and the loans are accepted once. -/
theorem loanAttempts_confluent :
    loansAndVault.composition.Reachable ∧
      (loansAndVault.run ((loanAttempts ++ loanAttempts.reverse).map (·.edit))).composition.links.Perm
        (loansAndVault.run ((loanAttempts.reverse ++ loanAttempts).map (·.edit))).composition.links ∧
      loansAndVault.acceptances (loanAttempts.reverse ++ loanAttempts) ⟨3⟩ ⟨4⟩ = 1 := by
  have hs : loansAndVault.composition.Reachable := ⟨_, _, _, _, _, rfl⟩
  obtain ⟨-, hperm, -⟩ := attempts_confluent loansAndVault hs (loanAttempts.reverse ++ loanAttempts)
  exact ⟨hs, hperm _ (List.perm_append_comm.map _), by decide⟩

end Store

end DefiComposer
