import DefiComposer.Proofs.Items
import DefiComposer.Proofs.LineBreaks
import DefiComposer.Proofs.Sweep
import DefiComposer.Proofs.WellFormed

/-!
# Comments: what may leave its comment line

A generated module has comments in five places: its header, the lines of its wiring, above its records and functions, and
behind its constants and fields. A text in one of them stays in its line as long as it holds no line break. Labels and
strategies are flattened on their way into a comment, numbers are printed, and the rest is fixed text; but the name of the
composition enters the header as it is, and the tag of a connection its line of the wiring. So the comments are free of a
line break exactly when that name and those tags are (`Composition.comments_free_iff`). The tags of a store's connections
are those of the templates, which leaves the name (`Composition.Reachable.name_decides`).
-/

namespace DefiComposer

namespace Move

/-! ## The comments of a module -/

/-- The comment behind a constant. -/
def Constant.comments (c : Constant) : List String := c.comment.toList

/-- The comment behind a field. -/
def Field.comments (f : Field) : List String := f.comment.toList

/-- The comment above a record, and those behind its fields. -/
def Record.comments (r : Record) : List String := r.doc.toList ++ r.fields.flatMap Field.comments

/-- The comment above a function. -/
def Function.comments (f : Function) : List String := f.doc.toList

/-- The comments of an item. -/
def Item.comments : Item → List String
  | constant c => c.comments
  | record r => r.comments
  | function f => f.comments

/-- The comments of the items that one primitive becomes. -/
def Emitted.comments (e : Emitted) : List String :=
  e.constants.flatMap Constant.comments ++ e.record.comments ++ e.functions.flatMap Function.comments

/-- Grouping the items changes the order of the comments alone. -/
theorem mem_groupedItems_comments {emitted : List Emitted} {text : String} :
    text ∈ (groupedItems emitted).flatMap Item.comments ↔ ∃ e ∈ emitted, text ∈ e.comments := by
  simp only [groupedItems, Emitted.comments, List.flatMap_append, List.mem_append, List.mem_flatMap, List.mem_map]
  constructor
  · rintro ((⟨item, ⟨e, he, k, hk, rfl⟩, ht⟩ | ⟨item, ⟨e, he, rfl⟩, ht⟩) | ⟨item, ⟨e, he, f, hf, rfl⟩, ht⟩)
    · exact ⟨e, he, Or.inl (Or.inl ⟨k, hk, ht⟩)⟩
    · exact ⟨e, he, Or.inl (Or.inr ht)⟩
    · exact ⟨e, he, Or.inr ⟨f, hf, ht⟩⟩
  · rintro ⟨e, he, (⟨k, hk, ht⟩ | ht) | ⟨f, hf, ht⟩⟩
    · exact Or.inl (Or.inl ⟨_, ⟨e, he, k, hk, rfl⟩, ht⟩)
    · exact Or.inl (Or.inr ⟨_, ⟨e, he, rfl⟩, ht⟩)
    · exact Or.inr ⟨_, ⟨e, he, f, hf, rfl⟩, ht⟩

end Move

/-- The texts of a module that stand in comments. -/
def MoveModule.comments (m : MoveModule) : List String := m.header :: m.wiring ++ m.items.flatMap Move.Item.comments

/-! ## The items of a primitive -/

namespace Move

variable {b : Char}

/-- The description of a number is printed, and holds no line break. -/
theorem not_mem_describe (hb : b ∈ Text.lineBreaks) (measure : Measure) (x : Float) :
    b ∉ (measure.describe x).toList := by
  refine Text.not_mem_of_isPrintable hb ?_
  cases measure <;> rw [Measure.describe, String.toList_append, List.all_append, all_isPrintable_plainText] <;> decide

theorem freeOf_unset (hb : b ∈ Text.lineBreaks) : Text.FreeOf b ["unset"] := by
  simpa using Text.not_mem_of_isPrintable hb (l := "unset".toList) (by decide)

/-- The comment on the constant of a number is fixed text, or describes the number. -/
theorem freeOf_number (hb : b ∈ Text.lineBreaks) (i : Instance) (parameter : String) (measure : Measure) :
    Text.FreeOf b (i.number parameter measure).comments := by
  unfold Instance.number
  split
  · rename_i x _
    simpa [Constant.comments] using not_mem_describe hb measure x
  · exact freeOf_unset hb

/-- The comment on the strategy is fixed text, or the tag put into one line. -/
theorem freeOf_strategy (hb : b ∈ Text.lineBreaks) (i : Instance) : Text.FreeOf b i.strategy.comments := by
  unfold Instance.strategy
  split
  · rename_i tag _
    simpa [Constant.comments] using Text.not_mem_singleLine hb tag
  · exact freeOf_unset hb

/-- The comment above the record of a primitive. -/
theorem not_mem_title (hb : b ∈ Text.lineBreaks) (p : Primitive) :
    b ∉ (Text.singleLine p.label ++ " (" ++ p.kind.tag ++ ")").toList := by
  have hk : (" (" ++ p.kind.tag ++ ")").toList.all Text.isPrintable = true := by cases p.kind <;> decide
  rw [String.append_assoc, String.append_assoc, String.toList_append, List.mem_append, not_or, ← String.append_assoc]
  exact ⟨Text.not_mem_singleLine hb p.label, Text.not_mem_of_isPrintable hb hk⟩

/-- The comments of a record: the label in one line with the kind, and those on its fields. -/
theorem record_comments (i : Instance) (base : String) (fields : List Field) :
    (i.record base fields).comments =
      (Text.singleLine i.primitive.label ++ " (" ++ i.primitive.kind.tag ++ ")") :: fields.flatMap Field.comments := rfl

/-- The one comment of a function is what it is documented with. -/
theorem function_comments (i : Instance) (base doc : String) (parameters : List (String × String))
    (acquires : Option String) (body : List String) :
    (i.function base doc parameters acquires body).comments = [doc] := rfl

theorem toField_comments (c : Constant) (name : String) : (c.toField name).comments = c.comments := rfl

theorem coinField_comments (name asset : String) : (coinField name asset).comments = [] := rfl

theorem bareField_comments (name type : String) : (Field.mk name type none).comments = [] := rfl

/-- No comment of the items of a primitive holds a line break, whatever its label and parameters. -/
theorem freeOf_emit (hb : b ∈ Text.lineBreaks) (p : Primitive) (suffix : String) :
    Text.FreeOf b (emit p suffix).comments := by
  have hnumber := freeOf_number hb ⟨p, suffix⟩
  have hstrategy := freeOf_strategy hb ⟨p, suffix⟩
  have htitle := not_mem_title hb p
  have hfixed : ∀ doc : String, doc.toList.all Text.isPrintable = true → b ∉ doc.toList :=
    fun _ => Text.not_mem_of_isPrintable hb
  unfold emit
  -- what is left of each kind are the fixed texts above its functions
  cases p.kind <;>
    simp only [lendingPool, ammPool, stakingPool, vault, Emitted.comments, record_comments, function_comments,
      toField_comments, coinField_comments, bareField_comments, List.flatMap_cons, List.flatMap_nil, List.append_nil,
      Text.freeOf_append, Text.freeOf_cons, Text.freeOf_nil, hnumber, hstrategy, htitle, not_false_eq_true, and_true,
      true_and]
  all_goals exact ⟨hfixed _ (by decide), hfixed _ (by decide), hfixed _ (by decide)⟩

end Move

namespace Composition

variable {b : Char} {c : Composition} {options : Move.Options} {module : MoveModule} {lines : List String}

/-- No comment of the items of a composition holds a line break. -/
theorem freeOf_items (hb : b ∈ Text.lineBreaks) (c : Composition) :
    Text.FreeOf b ((Move.groupedItems c.emitted).flatMap Move.Item.comments) := by
  intro text ht
  obtain ⟨e, he, ht⟩ := Move.mem_groupedItems_comments.mp ht
  obtain ⟨p, -, suffix, rfl⟩ := mem_emitted he
  exact Move.freeOf_emit hb p suffix text ht

/-! ## The lines of the wiring -/

/-- A connection is listed in the wiring when it leads from an output of a primitive that is there under its own name to
an input whose owner is there. -/
def IsListed (c : Composition) (k : Connection) : Prop :=
  k ∈ c.connections.values ∧ ∃ id ∈ c.insertionOrder, ∃ p output input target,
    c.primitive? id = some p ∧ p.output? k.source = some output ∧ c.input? k.target = some input ∧
      c.primitive? input.owner = some target

/-- When a connection has a line at a primitive, and which. -/
theorem wiringLine?_eq_some {p : Primitive} {k : Connection} {line : String} :
    c.wiringLine? p k = some line ↔ ∃ output input target, p.output? k.source = some output ∧
      c.input? k.target = some input ∧ c.primitive? input.owner = some target ∧
      wiringLine p output target input k.resourceType = line := by
  unfold wiringLine?
  cases p.output? k.source with
  | none => simp
  | some output =>
    cases hi : c.input? k.target with
    | none => simp
    | some input =>
      cases ht : c.primitive? input.owner with
      | none => simp [ht]
      | some target => simp [ht]

/-- Lines are those of an order, primitive by primitive. -/
theorem wiringLines?_eq_some_iff :
    c.wiringLines? = some lines ↔ ∃ order, c.primitiveOrder? = some order ∧ order.flatMap c.wiringLinesFrom = lines :=
  Option.map_eq_some_iff

/-- The lines are those of the listed connections: the order of the primitives leaves none of them out. -/
theorem mem_wiringLines (hl : c.wiringLines? = some lines) {line : String} :
    line ∈ lines ↔ ∃ k ∈ c.connections.values, ∃ id ∈ c.insertionOrder, ∃ p, c.primitive? id = some p ∧
      c.wiringLine? p k = some line := by
  obtain ⟨order, ho, rfl⟩ := wiringLines?_eq_some_iff.mp hl
  simp only [List.mem_flatMap, (primitiveOrder?_perm ho).mem_iff, wiringLinesFrom]
  constructor
  · rintro ⟨id, hid, h⟩
    split at h
    · cases h
    · rename_i p hp
      obtain ⟨k, hk, hl⟩ := List.mem_filterMap.mp h
      exact ⟨k, hk, id, hid, p, hp, hl⟩
  · rintro ⟨k, hk, id, hid, p, hp, hl⟩
    refine ⟨id, hid, ?_⟩
    rw [hp]
    exact List.mem_filterMap.mpr ⟨k, hk, hl⟩

/-- Of the texts in a line of the wiring, only the tag may bring a line break. -/
theorem mem_wiringLine (hb : b ∈ Text.lineBreaks) (source : Primitive) (output : Port) (target : Primitive)
    (input : Port) (resourceType : String) :
    b ∈ (wiringLine source output target input resourceType).toList ↔ b ∈ resourceType.toList := by
  have hfixed : ∀ text : String, text.toList.all Text.isPrintable = true → b ∉ text.toList :=
    fun _ => Text.not_mem_of_isPrintable hb
  have hdot := hfixed "." (by decide)
  have harrow := hfixed " -> " (by decide)
  have hopen := hfixed " (" (by decide)
  have hclose := hfixed ")" (by decide)
  simp only [wiringLine, String.toList_append, List.mem_append, Text.not_mem_singleLine hb, hdot, harrow, hopen, hclose,
    false_or, or_false]

/-- The lines of the wiring are free of a line break exactly when the tags of the listed connections are. -/
theorem freeOf_wiringLines_iff (hb : b ∈ Text.lineBreaks) (hl : c.wiringLines? = some lines) :
    Text.FreeOf b lines ↔ ∀ k, c.IsListed k → b ∉ k.resourceType.toList := by
  constructor
  · rintro h k ⟨hk, id, hid, p, output, input, target, hp, ho, hi, ht⟩ hm
    refine h (wiringLine p output target input k.resourceType) ?_ ((mem_wiringLine hb ..).mpr hm)
    have hline := wiringLine?_eq_some.mpr ⟨output, input, target, ho, hi, ht, rfl⟩
    exact (mem_wiringLines hl).mpr ⟨k, hk, id, hid, p, hp, hline⟩
  · intro h line hline hm
    obtain ⟨k, hk, id, hid, p, hp, hline⟩ := (mem_wiringLines hl).mp hline
    obtain ⟨output, input, target, ho, hi, ht, rfl⟩ := wiringLine?_eq_some.mp hline
    exact h k ⟨hk, id, hid, p, output, input, target, hp, ho, hi, ht⟩ ((mem_wiringLine hb ..).mp hm)

/-! ## All comments -/

/-- The header holds a line break exactly when the name does. -/
theorem mem_header (hb : b ∈ Text.lineBreaks) (h : c.toModule? options = some module) :
    b ∈ module.header.toList ↔ b ∈ c.name.toList := by
  obtain ⟨lines, -, rfl⟩ := toModule?_eq_some_iff.mp h
  have hfixed : b ∉ "Generated Move code for composition: ".toList := Text.not_mem_of_isPrintable hb (by decide)
  have hheader : (c.moduleWith options.moduleAddress lines).header =
      "Generated Move code for composition: " ++ c.name := rfl
  rw [hheader, String.toList_append, List.mem_append, or_iff_right hfixed]

/-- The wiring of a module is free of a line break exactly when it is not listed, or the tags in it are. -/
theorem freeOf_wiring_iff (hb : b ∈ Text.lineBreaks) (h : c.toModule? options = some module) :
    Text.FreeOf b module.wiring ↔
      (options.includeWiring = true → ∀ k, c.IsListed k → b ∉ k.resourceType.toList) := by
  obtain ⟨lines, hlines, rfl⟩ := toModule?_eq_some_iff.mp h
  by_cases hwiring : options.includeWiring = true
  · rw [if_pos hwiring] at hlines
    rw [forall_prop_of_true hwiring]
    exact freeOf_wiringLines_iff hb hlines
  · rw [if_neg hwiring] at hlines
    cases hlines
    exact iff_of_true (Text.freeOf_nil _) fun h => absurd h hwiring

/-- The comments of a module are free of a line break exactly when the name and the tags in its wiring are. -/
theorem freeOf_comments_iff (hb : b ∈ Text.lineBreaks) (h : c.toModule? options = some module) :
    Text.FreeOf b module.comments ↔
      b ∉ c.name.toList ∧ (options.includeWiring = true → ∀ k, c.IsListed k → b ∉ k.resourceType.toList) := by
  have hitems : Text.FreeOf b (module.items.flatMap Move.Item.comments) := by
    rw [toModule?_items h]
    exact freeOf_items hb c
  rw [MoveModule.comments, List.cons_append, Text.freeOf_cons, Text.freeOf_append, and_iff_left hitems, mem_header hb h,
    freeOf_wiring_iff hb h]

/-- The comments of a generated module are free of a line break exactly when the name of the composition is, and, where the
wiring is listed, the tag of each listed connection. This holds of every module that a composition has; there is one where
the wiring is not to be listed, and where no two primitives share a name. -/
theorem comments_free_iff {b : Char} (hb : b ∈ Text.lineBreaks) (c : Composition) (options : Move.Options) :
    (options.includeWiring = false ∨ c.insertionOrder.Nodup → ∃ module, c.toModule? options = some module) ∧
      ∀ module, c.toModule? options = some module →
        ((∀ text ∈ module.comments, b ∉ text.toList) ↔
          b ∉ c.name.toList ∧
            (options.includeWiring = true → ∀ k, c.IsListed k → b ∉ k.resourceType.toList)) :=
  ⟨exists_toModule? options, fun _ h => freeOf_comments_iff hb h⟩

/-- The loans of a pool go into a vault by a connection with a given tag. The label of the pool has two lines. -/
def loansTagged (tag : String) : Composition :=
  let c := Composition.new .zero .epoch "Loans" ""
  let c := (c.addPrimitive .epoch .lendingPool default).2
  let c := (c.addPrimitive .epoch .vault default).2
  let c := (c.patch .epoch ⟨0⟩ { label := some "Main\npool" }).2
  (c.insertConnection .epoch ⟨2⟩ ⟨4⟩ tag).2

/-- The connection has a line. -/
theorem loansTagged_isListed (tag : String) : (loansTagged tag).IsListed ⟨⟨0⟩, ⟨2⟩, ⟨4⟩, tag⟩ :=
  ⟨List.mem_singleton_self _, ⟨0⟩, List.mem_cons_self, _, _, _, _, rfl, rfl, rfl, rfl⟩

/-- The names of its primitives differ. -/
theorem loansTagged_nodup (tag : String) : (loansTagged tag).insertionOrder.Nodup := by
  have horder : (loansTagged tag).insertionOrder = [⟨0⟩, ⟨1⟩] := rfl
  rw [horder]
  decide

/-- The label is flattened, and where name and tag have one line every comment stays in its line. -/
theorem loans_comments_free :
    '\n' ∈ Text.lineBreaks ∧ (loansTagged "asset").IsListed ⟨⟨0⟩, ⟨2⟩, ⟨4⟩, "asset"⟩ ∧
      ((loansTagged "asset").primitive? ⟨0⟩).map (·.label) = some "Main\npool" ∧
        ∃ module, (loansTagged "asset").toModule? {} = some module ∧ ∀ text ∈ module.comments, '\n' ∉ text.toList := by
  obtain ⟨hexists, hfree⟩ := comments_free_iff (b := '\n') (by decide) (loansTagged "asset") {}
  obtain ⟨module, hm⟩ := hexists (Or.inr (loansTagged_nodup "asset"))
  refine ⟨by decide, loansTagged_isListed "asset", rfl, module, hm, (hfree module hm).mpr ⟨by decide, ?_⟩⟩
  rintro - k ⟨hk, -⟩
  have htag : k.resourceType = "asset" := by
    rw [List.mem_singleton.mp hk]
  rw [htag]
  decide

/-- A composition whose name has two lines, which the header takes over. -/
def twoLineName : Composition := Composition.new .zero .epoch "Alpha\nBeta" ""

/-- The one composition breaks a comment by its name alone, the other by a tag alone. -/
theorem comments_may_break :
    (∃ module, twoLineName.toModule? {} = some module ∧ ∃ text ∈ module.comments, '\n' ∈ text.toList) ∧
      '\n' ∉ (loansTagged "asset\nreceipt").name.toList ∧
        ∃ module, (loansTagged "asset\nreceipt").toModule? {} = some module ∧
          ∃ text ∈ module.comments, '\n' ∈ text.toList := by
  have hbreak : '\n' ∈ Text.lineBreaks := by decide
  obtain ⟨named, hn⟩ : ∃ module, twoLineName.toModule? {} = some module := exists_toModule? _ (Or.inr List.nodup_nil)
  obtain ⟨tagged, ht⟩ := exists_toModule? {} (Or.inr (loansTagged_nodup "asset\nreceipt"))
  refine ⟨⟨named, hn, ?_⟩, by decide, tagged, ht, ?_⟩
  · exact ⟨named.header, List.mem_cons_self, (mem_header hbreak hn).mpr (by decide)⟩
  · by_contra hfree
    have hall : Text.FreeOf '\n' tagged.comments := fun text htext hm => hfree ⟨text, htext, hm⟩
    exact ((freeOf_comments_iff hbreak ht).mp hall).2 rfl _ (loansTagged_isListed _) (by decide)

/-! ## Compositions of a store -/

/-- The tags of the outputs that the templates declare are printable. -/
theorem all_isPrintable_declared (kind : Kind) :
    kind.template.outputs.all (fun spec => spec.resourceType.toList.all Text.isPrintable) = true := by
  cases kind <;> decide

/-- The tags of the connections of a well-formed composition are declared by templates. -/
theorem WellFormed.not_mem_resourceType (h : c.WellFormed) (hb : b ∈ Text.lineBreaks) {k : Connection}
    (hk : k ∈ c.connections.values) : b ∉ k.resourceType.toList := by
  obtain ⟨p, hp, -, -, source, hs, -, -, -, -, -, htag, -⟩ := h.joined k hk
  have hspec : source.spec ∈ p.kind.template.outputs := (h.follow p hp).outputs.spec_mem hs
  rw [htag]
  exact Text.not_mem_of_isPrintable hb (List.all_eq_true.mp (all_isPrintable_declared p.kind) source.spec hspec)

/-- In a store the name of the composition alone decides whether the comments stay in their lines. -/
theorem Reachable.name_decides (h : c.Reachable) (hb : b ∈ Text.lineBreaks) (options : Move.Options) :
    ∃ module, c.toModule? options = some module ∧ (Text.FreeOf b module.comments ↔ b ∉ c.name.toList) := by
  obtain ⟨module, hm⟩ := h.wellFormed.exists_toModule? options
  refine ⟨module, hm, ?_⟩
  rw [freeOf_comments_iff hb hm, and_iff_left]
  exact fun _ k hk => h.wellFormed.not_mem_resourceType hb hk.1

end Composition

end DefiComposer
