import DefiComposer.Proofs.Items
import DefiComposer.Proofs.Removals

/-!
# Suffixes: how edits change the items of the primitives

The suffix of a primitive counts the earlier primitives of its kind, so its items depend on the primitive and on its number
among these alone (`Composition.itemsOf`). A primitive that is added comes last: no number changes, and each group of the
module grows at its end. A removal lowers the numbers of the later primitives of the same kind by one and changes no other
(`Composition.ordinal_of_removal`).
-/

namespace DefiComposer

namespace Move

/-- The items of primitives that come after others of given kinds. -/
def emitAfter (before : List Kind) (ps : List Primitive) : List Emitted :=
  ps.zipWith emit (suffixesAfter before (ps.map (·.kind)))

theorem emitAfter_cons (before : List Kind) (p : Primitive) (ps : List Primitive) :
    emitAfter before (p :: ps) = emit p (suffix (before.count p.kind + 1)) :: emitAfter (before ++ [p.kind]) ps :=
  rfl

/-- What comes after some primitives is numbered on from them. -/
theorem emitAfter_append (before : List Kind) (ps qs : List Primitive) :
    emitAfter before (ps ++ qs) = emitAfter before ps ++ emitAfter (before ++ ps.map (·.kind)) qs := by
  induction ps generalizing before with
  | nil =>
    rw [List.map_nil, List.append_nil]
    rfl
  | cons p ps ih =>
    rw [List.cons_append, emitAfter_cons, emitAfter_cons, ih, List.map_cons, List.append_assoc, List.cons_append]
    rfl

end Move

/-- A module lists items group by group, in order. -/
structure MoveModule.Lists (m : MoveModule) (emitted : List Move.Emitted) : Prop where
  constants : m.constants = emitted.flatMap (·.constants)
  records : m.records = emitted.map (·.record)
  functions : m.functions = emitted.flatMap (·.functions)

namespace Composition

/-- The primitives that stand before one. -/
def earlier (c : Composition) (p : Primitive) : List Primitive := c.primitives.values.takeWhile fun q => q.id ≠ p.id

/-- The number of a primitive among those of its kind, from one on. -/
def ordinal (c : Composition) (p : Primitive) : Nat := (c.earlier p).countP (fun q => q.kind = p.kind) + 1

/-- The items of a primitive in the module of a composition. -/
def itemsOf (c : Composition) (p : Primitive) : Move.Emitted := Move.emit p (Move.suffix (c.ordinal p))

variable {c d : Composition} {p q : Primitive} {before after : List Primitive}

/-- What stands before a primitive, read off a list of the primitives. -/
theorem earlier_of_values (hn : (c.primitives.values.map (·.id)).Nodup)
    (hv : c.primitives.values = before ++ p :: after) : c.earlier p = before := by
  rw [hv, List.map_append, List.map_cons, List.nodup_append] at hn
  have hne : ∀ q ∈ before, decide (q.id ≠ p.id) = true := fun q hq =>
    decide_eq_true (hn.2.2 q.id (List.mem_map_of_mem hq) p.id List.mem_cons_self)
  rw [earlier, hv, List.takeWhile_append_of_pos hne, List.takeWhile_cons_of_neg (by simp), List.append_nil]

/-- The number of a primitive, from those that stand before it. -/
theorem ordinal_of_values (hn : (c.primitives.values.map (·.id)).Nodup)
    (hv : c.primitives.values = before ++ p :: after) : c.ordinal p = before.countP (fun q => q.kind = p.kind) + 1 := by
  rw [ordinal, earlier_of_values hn hv]

/-- Primitives of a kind are as many as its occurrences among the kinds. -/
theorem count_kinds (ps : List Primitive) (kind : Kind) :
    (ps.map (·.kind)).count kind = ps.countP fun q => q.kind = kind := by
  rw [List.count, List.countP_map]
  rfl

/-- What is emitted are the items of the primitives. -/
theorem emitted_eq_map (hn : (c.primitives.values.map (·.id)).Nodup) :
    c.emitted = c.primitives.values.map c.itemsOf := by
  -- for the primitives after any that come first
  have hrest : ∀ after before, c.primitives.values = before ++ after →
      Move.emitAfter (before.map (·.kind)) after = after.map c.itemsOf := by
    intro after
    induction after with
    | nil => exact fun before _ => rfl
    | cons p after ih =>
      intro before hv
      have hnext := ih (before ++ [p]) (by rw [hv, List.append_assoc, List.singleton_append])
      rw [List.map_append, List.map_singleton] at hnext
      rw [Move.emitAfter_cons, hnext, List.map_cons, itemsOf, ordinal_of_values hn hv, count_kinds]
  exact hrest c.primitives.values [] rfl

/-! ## A primitive that is added -/

/-- Where a primitive is added at the end, its items come last and the others stay as they are. -/
theorem emitted_of_addition (hv : d.primitives.values = c.primitives.values ++ [p]) :
    d.emitted =
      c.emitted ++ [Move.emit p (Move.suffix (c.primitives.values.countP (fun q => q.kind = p.kind) + 1))] := by
  have h := Move.emitAfter_append [] c.primitives.values [p]
  rw [← hv, List.nil_append, Move.emitAfter_cons, count_kinds] at h
  exact h

/-! ## A primitive that is removed -/

section Removal

variable (hc : (c.primitives.values.map (·.id)).Nodup) (hd : (d.primitives.values.map (·.id)).Nodup)
  (hcv : c.primitives.values = before ++ p :: after) (hdv : d.primitives.values = before ++ after)
include hc hd hcv hdv

/-- The numbers before a removed primitive stay. -/
theorem ordinal_of_removal_before (hq : q ∈ before) : d.ordinal q = c.ordinal q := by
  obtain ⟨first, rest, rfl⟩ := List.append_of_mem hq
  rw [List.append_assoc, List.cons_append] at hcv hdv
  rw [ordinal_of_values hc hcv, ordinal_of_values hd hdv]

/-- The numbers after a removed primitive go down by one for its kind, and stay for the others. -/
theorem ordinal_of_removal_after (hq : q ∈ after) :
    c.ordinal q = d.ordinal q + if p.kind = q.kind then 1 else 0 := by
  obtain ⟨first, rest, rfl⟩ := List.append_of_mem hq
  rw [← List.cons_append, ← List.append_assoc] at hcv
  rw [← List.append_assoc] at hdv
  rw [ordinal_of_values hc hcv, ordinal_of_values hd hdv, List.countP_append, List.countP_append, List.countP_cons]
  simp only [decide_eq_true_eq]
  omega

end Removal

/-! ## The items of a composition -/

/-- A primitive that is added is emitted behind the others, under the next number of its kind. -/
theorem emitted_addPrimitive (h : c.WellFormed) (now : Timestamp) (kind : Kind) (position : Position) :
    (c.addPrimitive now kind position).2.emitted = c.emitted ++
      [Move.emit (c.addPrimitive now kind position).1
        (Move.suffix (c.primitives.values.countP (fun q => q.kind = kind) + 1))] := by
  have hfresh := Catalog.instantiate_fresh kind position c.ids
  have hv : (c.addPrimitive now kind position).2.primitives.values =
      c.primitives.values ++ [(c.addPrimitive now kind position).1] :=
    OrderedMap.values_insert_of_not_mem (h.fresh_id hfresh)
  have hkind : (c.addPrimitive now kind position).1.kind = kind := hfresh.ofKind
  rw [emitted_of_addition hv, hkind]

/-- The modules of a well-formed composition list the items of each primitive under its number. -/
theorem toModule?_lists (h : c.WellFormed) {options : Move.Options} {module : MoveModule}
    (hm : c.toModule? options = some module) : module.Lists (c.primitives.values.map c.itemsOf) := by
  rw [← emitted_eq_map h.ids_nodup]
  exact ⟨toModule?_constants hm, toModule?_records hm, toModule?_functions hm⟩

/-- A primitive that is left after a removal has its number, or the one below if it stood after the removed one and is of its
kind. -/
theorem ordinal_removePrimitive (h : c.WellFormed) (now : Timestamp) {id : PrimitiveId} (hp : c.primitive? id = some p)
    (hq : q ∈ (c.removePrimitive now id).2.primitives.values) :
    (q ∈ c.earlier p ∨ q.kind ≠ p.kind → (c.removePrimitive now id).2.ordinal q = c.ordinal q) ∧
      (q ∉ c.earlier p → q.kind = p.kind → (c.removePrimitive now id).2.ordinal q + 1 = c.ordinal q) := by
  have hc := h.ids_nodup
  have hd := (h.removePrimitive now id).ids_nodup
  obtain ⟨before, after, hcv, hdv⟩ := OrderedMap.exists_values_erase hp
  rw [← removePrimitive_primitives c now id] at hdv
  rw [earlier_of_values hc hcv]
  by_cases hb : q ∈ before
  · exact ⟨fun _ => ordinal_of_removal_before hc hd hcv hdv hb, fun hno => absurd hb hno⟩
  · have ha : q ∈ after := by
      rw [hdv, List.mem_append] at hq
      exact hq.resolve_left hb
    rw [ordinal_of_removal_after hc hd hcv hdv ha]
    constructor
    · intro hkept
      rw [if_neg fun hk => hkept.elim hb fun hne => hne hk.symm, Nat.add_zero]
    · intro _ hk
      rw [if_pos hk.symm]

/-- What edits do to the items of primitives. A primitive that is added puts its items at the end of the three groups, and what
was there stays. A removal leaves the items of the primitives before the removed one and of those of other kinds as they are;
the later ones of its kind go down by one number, and the second becomes the first, without suffix. -/
theorem edits_shift_items (h : c.Reachable) (now : Timestamp) (options : Move.Options) :
    ∃ module, c.toModule? options = some module ∧
      (∀ kind position, ∃ p next items nextModule, c.addPrimitive now kind position = (p, next) ∧
        items = Move.emit p (Move.suffix (c.primitives.values.countP (fun q => q.kind = kind) + 1)) ∧
          next.toModule? options = some nextModule ∧
            nextModule.constants = module.constants ++ items.constants ∧
              nextModule.records = module.records ++ [items.record] ∧
                nextModule.functions = module.functions ++ items.functions) ∧
      ∀ id p, c.primitive? id = some p → ∃ next nextModule,
        c.removePrimitive now id = (some ⟨p, c.incident id⟩, next) ∧ next.toModule? options = some nextModule ∧
          module.Lists (c.primitives.values.map c.itemsOf) ∧
            nextModule.Lists (next.primitives.values.map next.itemsOf) ∧
              next.primitives.values = c.primitives.values.filter (fun q => q.id ≠ id) ∧
                ∀ q ∈ next.primitives.values,
                  (q ∈ c.earlier p ∨ q.kind ≠ p.kind → next.itemsOf q = c.itemsOf q) ∧
                    (q ∉ c.earlier p → q.kind = p.kind → 2 ≤ c.ordinal q ∧
                      c.itemsOf q = Move.emit q ("_" ++ (c.ordinal q).repr) ∧
                        next.itemsOf q =
                          Move.emit q (if c.ordinal q = 2 then "" else "_" ++ (c.ordinal q - 1).repr)) := by
  have hw := h.wellFormed
  obtain ⟨module, hm⟩ := hw.exists_toModule? options
  refine ⟨module, hm, fun kind position => ?_, fun id p hp => ?_⟩
  · have he := emitted_addPrimitive hw now kind position
    obtain ⟨nextModule, hnm⟩ := (hw.addPrimitive now kind position).exists_toModule? options
    refine ⟨(c.addPrimitive now kind position).1, (c.addPrimitive now kind position).2, _, nextModule, rfl, rfl, hnm,
      ?_, ?_, ?_⟩
    · rw [toModule?_constants hnm, toModule?_constants hm, he, List.flatMap_append, List.flatMap_singleton]
    · rw [toModule?_records hnm, toModule?_records hm, he, List.map_append, List.map_singleton]
    · rw [toModule?_functions hnm, toModule?_functions hm, he, List.flatMap_append, List.flatMap_singleton]
  · obtain ⟨next, hn, -⟩ := removePrimitive_of_found hp now now
    have hnext : (c.removePrimitive now id).2 = next := congrArg Prod.snd hn
    have hnw := hw.removePrimitive now id
    have hordinal := fun q hq => ordinal_removePrimitive (q := q) hw now hp hq
    have hvalues : (c.removePrimitive now id).2.primitives.values = c.primitives.values.filter fun q => q.id ≠ id := by
      rw [removePrimitive_primitives, OrderedMap.values_erase hw.primitivesNamed]
    rw [hnext] at hnw hordinal hvalues
    obtain ⟨nextModule, hnm⟩ := hnw.exists_toModule? options
    refine ⟨next, nextModule, hn, hnm, toModule?_lists hw hm, toModule?_lists hnw hnm, hvalues,
      fun q hq => ⟨fun hkept => ?_, ?_⟩⟩
    · rw [itemsOf, itemsOf, (hordinal q hq).1 hkept]
    · intro hlater hkind
      have hone : 1 ≤ next.ordinal q := Nat.le_add_left 1 _
      have hnumber : c.ordinal q = next.ordinal q + 1 := ((hordinal q hq).2 hlater hkind).symm
      have htwo : 2 ≤ c.ordinal q := by omega
      refine ⟨htwo, ?_, ?_⟩
      · rw [itemsOf, Move.suffix, if_neg (by omega)]
      · rw [itemsOf, Move.suffix, hnumber, Nat.add_sub_cancel]
        refine congrArg (Move.emit q) (if_congr ?_ rfl rfl)
        omega

/-- Three vaults, with a pool after the first. -/
def threeVaults : Composition :=
  ((Store.new .zero .epoch "Vaults" "").run
    [ (.epoch, .addPrimitive .vault default), (.epoch, .addPrimitive .ammPool default),
      (.epoch, .addPrimitive .vault default), (.epoch, .addPrimitive .vault default) ]).composition

/-- Without the first vault, the second has no suffix and the third has that of the second; the pool stays as it is. -/
theorem threeVaults_shift :
    threeVaults.Reachable ∧
      ∃ first pool second third, threeVaults.primitives.values = [first, pool, second, third] ∧
        threeVaults.primitive? ⟨0⟩ = some first ∧
          ∃ next, (threeVaults.removePrimitive .epoch ⟨0⟩).2 = next ∧ next.primitives.values = [pool, second, third] ∧
            next.itemsOf pool = threeVaults.itemsOf pool ∧
              next.itemsOf second = Move.emit second "" ∧ next.itemsOf third = Move.emit third "_2" := by
  have hr : threeVaults.Reachable := ⟨_, _, _, _, _, rfl⟩
  refine ⟨hr, _, _, _, _, rfl, rfl, _, rfl, rfl, ?_⟩
  obtain ⟨module, -, -, hremoved⟩ := edits_shift_items hr .epoch {}
  obtain ⟨next, nextModule, hn, -, -, -, -, hitems⟩ := hremoved ⟨0⟩ _ rfl
  have hnext : (threeVaults.removePrimitive .epoch ⟨0⟩).2 = next := congrArg Prod.snd hn
  subst hnext
  have hfirst : ∀ q, q ∉ threeVaults.earlier (threeVaults.primitives.values.head!) := fun q hq => by cases hq
  refine ⟨(hitems _ List.mem_cons_self).1 (Or.inr (by decide)), ?_, ?_⟩
  · exact ((hitems _ (List.mem_cons_of_mem _ List.mem_cons_self)).2 (hfirst _) rfl).2.2
  · exact ((hitems _ (List.mem_cons_of_mem _ (List.mem_cons_of_mem _ List.mem_cons_self))).2 (hfirst _) rfl).2.2

end Composition

end DefiComposer
