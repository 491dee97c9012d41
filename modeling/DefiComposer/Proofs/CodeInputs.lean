import DefiComposer.Proofs.Comments
import DefiComposer.Proofs.Parameters

/-!
# Code inputs: what the generated code depends on

A module is code and comments. Its code depends on the kinds of the primitives in their order and on what they hold for the
parameters that their kinds declare (`Composition.codeInputs`), on the name of the composition and on the address. Numbers,
labels, descriptions, positions, records of parameters that are not declared, the order of the records and all connections
show in comments alone: in the line above each record, and in the block on the wiring. So two compositions that agree on the
inputs have the same items but for those lines, and the same lines of code (`Composition.code_of_inputs`).
-/

namespace DefiComposer

/-! ## Lines of code -/

namespace Text

/-- Whether a line holds code: it is not empty, and it does not start, blanks aside, with the sign of a comment. -/
def isCode (line : List Char) : Bool := !line.isEmpty && !List.isPrefixOf ['/', '/'] (trimStart line)

/-- The lines of a text that hold code. -/
def codeLines (text : String) : List (List Char) := (text.toList.splitOn '\n').filter isCode

theorem codeLines_empty : codeLines "" = [] := rfl

/-- Each of several lines that are ended and joined gives its own lines of code. -/
theorem codeLines_join (lines : List String) :
    codeLines (String.join (lines.map (· ++ "\n"))) = lines.flatMap codeLines := by
  induction lines with
  | nil => rfl
  | cons line lines ih =>
    have hline : (line ++ "\n" ++ String.join (lines.map (· ++ "\n"))).toList =
        line.toList ++ '\n' :: (String.join (lines.map (· ++ "\n"))).toList := by
      simp
    rw [List.map_cons, String.join_cons, codeLines, hline, List.splitOn_append_cons_self, List.filter_append,
      List.flatMap_cons, ← ih]
    rfl

/-- A comment of one line is no code. -/
theorem codeLines_comment {text : String} (h : '\n' ∉ text.toList) : codeLines (Move.indent ("//" ++ text)) = [] := by
  have hlist : (Move.indent ("//" ++ text)).toList = ' ' :: ' ' :: ' ' :: ' ' :: '/' :: '/' :: text.toList := by
    simp [Move.indent]
  have hbreak : '\n' ∉ (Move.indent ("//" ++ text)).toList := by
    simpa [hlist] using h
  have hcode : isCode (' ' :: ' ' :: ' ' :: ' ' :: '/' :: '/' :: text.toList) = false := by
    simp [isCode, trimStart, isBlank, List.dropWhile]
  rw [codeLines, List.splitOn_eq_singleton hbreak, hlist, List.filter_cons_of_neg (by simp [hcode]), List.filter_nil]

end Text

/-! ## Items without the comments above records -/

namespace Move

/-- A record without the comment above it. -/
def Record.withoutDoc (r : Record) : Record := { r with doc := none }

/-- An item without the comment above it, if it is a record. -/
def Item.withoutDoc : Item → Item
  | record r => record r.withoutDoc
  | i => i

/-- The items of a primitive without the comment above its record. -/
def Emitted.withoutDoc (e : Emitted) : Emitted := { e with record := e.record.withoutDoc }

/-- Dropping the comments of items goes past their grouping. -/
theorem groupedItems_withoutDoc (emitted : List Emitted) :
    (groupedItems emitted).map Item.withoutDoc = groupedItems (emitted.map Emitted.withoutDoc) := by
  simp only [groupedItems, List.map_append, List.map_flatMap, List.flatMap_map, List.map_map]
  rfl

/-- The lines of code of an item. -/
def Item.code : Item → List (List Char)
  | constant c => Text.codeLines c.line
  | record r => r.lines.flatMap Text.codeLines
  | function f => f.lines.flatMap Text.codeLines

/-- The empty lines between the items hold no code. -/
theorem itemLines_code (afterConstant : Bool) (items : List Item) :
    (itemLines afterConstant items).flatMap Text.codeLines = items.flatMap Item.code := by
  have hend : ∀ b, (runEnd b).flatMap Text.codeLines = [] := by decide
  induction items generalizing afterConstant with
  | nil => exact hend afterConstant
  | cons item items ih =>
    cases item <;> simp [itemLines, hend, ih, Item.code]

/-- A comment of one line above a record is no code. -/
theorem Item.code_withoutDoc {item : Item} (h : Text.FreeOf '\n' item.comments) : item.withoutDoc.code = item.code := by
  cases item with
  | constant c => rfl
  | function f => rfl
  | record r =>
    obtain ⟨name, doc, abilities, fields⟩ := r
    cases doc with
    | none => rfl
    | some doc =>
      have hdoc : '\n' ∉ (" " ++ doc).toList := by
        have := h doc (by simp [Item.comments, Record.comments])
        simpa using this
      have hline : Text.codeLines (indent ("// " ++ doc)) = [] := by
        have heq : "// " ++ doc = "//" ++ (" " ++ doc) := by rw [← String.append_assoc]; rfl
        rw [heq]
        exact Text.codeLines_comment hdoc
      simp [Item.code, Item.withoutDoc, Record.withoutDoc, Record.lines, docLines, hline]

/-- A wiring block of one-line texts is no code. -/
theorem wiringBlock_code {wiring : List String} (h : Text.FreeOf '\n' wiring) :
    (wiringBlock wiring).flatMap Text.codeLines = [] := by
  have hlines : ∀ line ∈ wiring, Text.codeLines (indent ("//   " ++ line)) = [] := by
    intro line hl
    have heq : "//   " ++ line = "//" ++ ("   " ++ line) := by rw [← String.append_assoc]; rfl
    rw [heq]
    exact Text.codeLines_comment (by simpa using h line hl)
  unfold wiringBlock
  split
  · rfl
  · have hhead : Text.codeLines (indent "// Wiring") = [] := by decide
    simp only [List.flatMap_append, List.flatMap_cons, List.flatMap_map, hhead, List.nil_append, Text.codeLines_empty,
      List.flatMap_nil, List.append_nil, List.flatMap_eq_nil_iff]
    exact hlines

end Move

/-! ## The inputs of the code -/

/-- What a primitive holds for the parameters that its kind declares, in the order of the template: the stored value, or
none where there is no record. -/
def Primitive.declared (p : Primitive) : List (Option ParameterValue) :=
  p.kind.template.parameters.map fun d => p.parameter? d.id

/-- The inputs of the code: kind and declared parameters of each primitive, in order. -/
def Composition.codeInputs (c : Composition) : List (Kind × List (Option ParameterValue)) :=
  c.primitives.values.map fun p => (p.kind, p.declared)

namespace Move

/-- Two primitives that hold the same for the parameters of their kind have the same items but for the comment above the
record. -/
theorem emit_withoutDoc_congr {p q : Primitive} (hkind : p.kind = q.kind) (h : p.declared = q.declared)
    (suffix : String) : (emit p suffix).withoutDoc = (emit q suffix).withoutDoc := by
  have hvalue : ∀ id ∈ p.kind.parameterIds, Instance.value? ⟨p, suffix⟩ id = Instance.value? ⟨q, suffix⟩ id := by
    intro id hid
    obtain ⟨d, hd, rfl⟩ := List.mem_map.mp hid
    unfold Primitive.declared at h
    rw [← hkind] at h
    have hsame : p.parameter? d.id = q.parameter? d.id := List.map_inj_left.mp h d hd
    rw [Instance.value?, Instance.value?, hsame]
  have hasset : ∀ id ∈ p.kind.parameterIds, Instance.asset ⟨p, suffix⟩ id = Instance.asset ⟨q, suffix⟩ id := by
    intro id hid
    rw [Instance.asset, Instance.asset, hvalue id hid]
  have hnumber : ∀ id ∈ p.kind.parameterIds, ∀ measure,
      Instance.number ⟨p, suffix⟩ id measure = Instance.number ⟨q, suffix⟩ id measure := by
    intro id hid measure
    simp only [Instance.number, hvalue id hid, Instance.name]
  have hstrategy : "strategy" ∈ p.kind.parameterIds →
      Instance.strategy ⟨p, suffix⟩ = Instance.strategy ⟨q, suffix⟩ := by
    intro hid
    simp only [Instance.strategy, hvalue _ hid, Instance.name]
  unfold emit
  rw [← hkind]
  -- every read of a template's items is of a declared parameter
  cases hk : p.kind <;> rw [hk] at hasset hnumber hstrategy
  · simp (disch := decide) only [lendingPool, Emitted.withoutDoc, Record.withoutDoc, Instance.record, Instance.name,
      Instance.function, hasset, hnumber]
  · simp (disch := decide) only [ammPool, Emitted.withoutDoc, Record.withoutDoc, Instance.record, Instance.name,
      Instance.function, hasset, hnumber]
  · simp (disch := decide) only [stakingPool, Emitted.withoutDoc, Record.withoutDoc, Instance.record, Instance.name,
      Instance.function, hasset, hnumber]
  · simp (disch := decide) only [vault, Emitted.withoutDoc, Record.withoutDoc, Instance.record, Instance.name,
      Instance.function, hasset, hnumber, hstrategy]

/-- Primitives that hold the same, one by one, have the same items under the same suffixes. -/
theorem zipWith_emit_withoutDoc {ps qs : List Primitive}
    (h : ps.map (fun p => (p.kind, p.declared)) = qs.map fun q => (q.kind, q.declared)) (suffixes : List String) :
    (ps.zipWith emit suffixes).map Emitted.withoutDoc = (qs.zipWith emit suffixes).map Emitted.withoutDoc := by
  induction ps generalizing qs suffixes with
  | nil =>
    obtain rfl := List.map_eq_nil_iff.mp h.symm
    rfl
  | cons p ps ih =>
    cases qs with
    | nil => cases h
    | cons q qs =>
      cases suffixes with
      | nil => rfl
      | cons suffix suffixes =>
        obtain ⟨hhead, htail⟩ := List.cons.inj h
        obtain ⟨hkind, hdeclared⟩ := Prod.mk.inj hhead
        simp only [List.zipWith_cons_cons, List.map_cons, emit_withoutDoc_congr hkind hdeclared, ih htail]

end Move

namespace Composition

variable {c c' : Composition} {options : Move.Options} {module : MoveModule}

/-- The kinds, in order, are part of the inputs. -/
theorem kinds_of_codeInputs (h : c.codeInputs = c'.codeInputs) :
    c.primitives.values.map (·.kind) = c'.primitives.values.map (·.kind) := by
  have hkinds : ∀ d : Composition, d.codeInputs.map Prod.fst = d.primitives.values.map (·.kind) := fun _ => List.map_map
  rw [← hkinds, ← hkinds, h]

/-- The items of a module, but for the comments above its records, depend on the inputs alone. -/
theorem items_of_codeInputs (h : c.codeInputs = c'.codeInputs) :
    (Move.groupedItems c.emitted).map Move.Item.withoutDoc = (Move.groupedItems c'.emitted).map Move.Item.withoutDoc := by
  rw [Move.groupedItems_withoutDoc, Move.groupedItems_withoutDoc, emitted, emitted, kinds_of_codeInputs h,
    Move.zipWith_emit_withoutDoc h]

/-! ## The lines of code of a module -/

/-- The heading of a module takes the name and the address; the rest is fixed. -/
theorem toModule?_headLines (hm : c.toModule? options = some module) :
    module.headLines = (c.moduleWith options.moduleAddress []).headLines := by
  obtain ⟨lines, -, rfl⟩ := toModule?_eq_some_iff.mp hm
  rfl

/-- Headings of one name and one address are the same. -/
theorem headLines_congr (hname : c.name = c'.name) (address : Option String) :
    (c.moduleWith address []).headLines = (c'.moduleWith address []).headLines := by
  -- the heading reads neither the wiring nor the items
  show MoveModule.headLines ⟨_ ++ c.name, Move.moduleIdent c.name, address, Move.usedModules, [], []⟩ = _
  rw [hname]
  rfl

/-- The lines of the wiring are no code. -/
theorem wiring_code (h : c.WellFormed) (hm : c.toModule? options = some module) :
    (Move.wiringBlock module.wiring).flatMap Text.codeLines = [] := by
  refine Move.wiringBlock_code ((freeOf_wiring_iff (by decide) hm).mpr fun _ k hk => ?_)
  exact h.not_mem_resourceType (by decide) hk.1

/-- The lines of code of the items, comments above records aside. -/
theorem items_code (hm : c.toModule? options = some module) :
    (Move.itemLines false module.items).flatMap Text.codeLines =
      ((Move.groupedItems c.emitted).map Move.Item.withoutDoc).flatMap Move.Item.code := by
  rw [Move.itemLines_code, List.flatMap_map, toModule?_items hm]
  refine List.flatMap_congr fun item hitem => (Move.Item.code_withoutDoc fun text ht => ?_).symm
  exact freeOf_items (by decide) c text (List.mem_flatMap.mpr ⟨item, hitem, ht⟩)

/-- The code of a generated module: heading, items, closing brace. -/
theorem text_code (h : c.WellFormed) (hm : c.toModule? options = some module) :
    Text.codeLines module.text =
      module.headLines.flatMap Text.codeLines ++
        ((Move.groupedItems c.emitted).map Move.Item.withoutDoc).flatMap Move.Item.code ++ Text.codeLines "\x7d" := by
  rw [MoveModule.text, Text.codeLines_join, MoveModule.lines, List.flatMap_append, List.flatMap_append,
    List.flatMap_append, wiring_code h hm, items_code hm, List.append_nil, List.flatMap_singleton]

/-- Labels, wiring and layout never change the generated code. Two compositions of stores that have one name and agree,
primitive by primitive, on the kind and on what is held for the declared parameters, have, for the same address, modules
with the same heading and the same items, the comments above the records aside; and dropping empty lines and comment
lines, the texts are the same, whether the wiring is listed or not. -/
theorem code_of_inputs {c c' : Composition} (hc : c.Reachable) (hc' : c'.Reachable) (hname : c.name = c'.name)
    (hinputs : c.codeInputs = c'.codeInputs) {options options' : Move.Options}
    (haddress : options.moduleAddress = options'.moduleAddress) :
    ∃ module module', c.toModule? options = some module ∧ c'.toModule? options' = some module' ∧
      (module.header = module'.header ∧ module.name = module'.name ∧ module.address = module'.address ∧
        module.uses = module'.uses ∧
        module.items.map Move.Item.withoutDoc = module'.items.map Move.Item.withoutDoc) ∧
      ∃ text text', c.generate? options = some text ∧ c'.generate? options' = some text' ∧
        Text.codeLines text = Text.codeLines text' := by
  obtain ⟨module, hm⟩ := hc.wellFormed.exists_toModule? options
  obtain ⟨module', hm'⟩ := hc'.wellFormed.exists_toModule? options'
  have hitems : module.items.map Move.Item.withoutDoc = module'.items.map Move.Item.withoutDoc := by
    rw [toModule?_items hm, toModule?_items hm', items_of_codeInputs hinputs]
  have hcode : Text.codeLines module.text = Text.codeLines module'.text := by
    rw [text_code hc.wellFormed hm, text_code hc'.wellFormed hm', toModule?_headLines hm, toModule?_headLines hm', haddress,
      headLines_congr hname, items_of_codeInputs hinputs]
  refine ⟨module, module', hm, hm', ⟨?_, ?_, ?_, ?_, hitems⟩, module.text, module'.text, ?_, ?_, hcode⟩
  -- the heading is read off what the two modules are made of
  all_goals
    obtain ⟨lines, -, rfl⟩ := toModule?_eq_some_iff.mp hm
    obtain ⟨lines', -, rfl⟩ := toModule?_eq_some_iff.mp hm'
  · exact congrArg ("Generated Move code for composition: " ++ ·) hname
  · exact congrArg Move.moduleIdent hname
  · exact haddress
  · rfl
  · rw [generate?, hm, Option.map_some]
  · rw [generate?, hm', Option.map_some]

/-- A pool and a vault. -/
def plain : Store :=
  (Store.new .zero .epoch "Loans" "").run
    [(.epoch, .addPrimitive .lendingPool default), (.epoch, .addPrimitive .vault default)]

/-- The pool and the vault again, under other names, somewhere else, with another label, a record that the kind does not
declare, and connected. -/
def decorated : Store :=
  (Store.new .zero .epoch "Loans" "Deposits earn twice").run
    [ (.epoch, .addPrimitive .staking default), (.epoch, .addPrimitive .lendingPool ⟨20, 40⟩),
      (.epoch, .removePrimitive ⟨0⟩), (.epoch, .addPrimitive .vault ⟨300, 40⟩),
      (.epoch, .updatePrimitive ⟨1⟩ { label := some "Main\npool" }),
      (.epoch, .setParameter ⟨2⟩ "note" (.text "soon")), (.epoch, .connect ⟨5⟩ ⟨7⟩) ]

/-- The one is listed without its wiring and the other with it, and both are the same code. -/
theorem decorated_code :
    (plain.composition.Reachable ∧ decorated.composition.Reachable ∧
        plain.composition.name = decorated.composition.name ∧
        plain.composition.codeInputs = decorated.composition.codeInputs) ∧
      plain.composition.connections.size = 0 ∧ decorated.composition.connections.size = 1 ∧
      ∃ text text', plain.composition.generate? ⟨some "0x1", false⟩ = some text ∧
        decorated.composition.generate? ⟨some "0x1", true⟩ = some text' ∧ Text.codeLines text = Text.codeLines text' := by
  have hplain : plain.composition.Reachable := ⟨_, _, _, _, _, rfl⟩
  have hdecorated : decorated.composition.Reachable := ⟨_, _, _, _, _, rfl⟩
  have hname : plain.composition.name = decorated.composition.name := by decide
  have hinputs : plain.composition.codeInputs = decorated.composition.codeInputs := by decide +kernel
  have haddress : (Move.Options.mk (some "0x1") false).moduleAddress = (Move.Options.mk (some "0x1") true).moduleAddress :=
    rfl
  obtain ⟨module, module', -, -, -, hcode⟩ := code_of_inputs hplain hdecorated hname hinputs haddress
  exact ⟨⟨hplain, hdecorated, hname, hinputs⟩, by decide, by decide, hcode⟩

end Composition

end DefiComposer
