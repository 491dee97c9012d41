import DefiComposer.Persistence.Composition
import DefiComposer.Proofs.JsonBounds
import DefiComposer.Proofs.JsonText
import DefiComposer.Proofs.Maps
import DefiComposer.Proofs.Runs
import DefiComposer.Proofs.WrittenForms

/-!
# Persistence: a composition is read back from its text

What a JSON text is read as is the value that was written, with each number as its own text reads
(`Json.parse?_compact`, `Json.reread`). So every decoder is met on such reread values: one law for each kind of part, each
from the laws of what it holds, up to `Composition.decode?_reread`. Natural numbers, texts, names, time stamps and the order
of maps are read back without exception, as long as names and counters have 32 bits; a double is read back if its own text is
(`Json.ReadsBack`), since the reader of doubles rounds at every step and may miss by a neighbour.

Conversely, whatever a decoder gives has names and counters of 32 bits and finite numbers (`Composition.of_decode?`), so a
composition that was read can be written and read again.
-/

namespace DefiComposer

namespace Json

/-! ## Scalars -/

/-- The text of a double is read as the double. -/
def ReadsBack (x : Float) : Prop := (parse? (ofFloat x).compact).bind float? = some x

instance (x : Float) : Decidable (ReadsBack x) := inferInstanceAs (Decidable (_ = some x))

/-- Not every double is read back: here the coefficient is rounded to a double, and the quotient again. -/
example : ¬ ReadsBack 0.09090909090909091 := by decide +kernel

/-- A number that is read back after printing is had back from its JSON form. -/
theorem ReadsBack.float?_reread {x : Float} (h : ReadsBack x) : float? (ofFloat x).reread = some x := by
  rwa [ReadsBack, parse?_compact] at h

/-- A natural number of 32 bits is read as itself. -/
theorem word?_reread {n : Nat} (h : n < 2 ^ 32) : word? (ofNat n).reread = some n := by
  have hfits : fits64 n = true := by
    simp only [fits64, Bool.and_eq_true, decide_eq_true_eq, Nat.pow_eq]
    omega
  have hread : (ofNat n).reread = ofNat n := by
    simp only [ofNat, ofInt, reread, Number.reread_integer hfits]
  rw [hread]
  simp only [ofNat, ofInt, word?]
  rw [if_pos ⟨by omega, by simp; omega⟩, Int.toNat_natCast]

/-- A digit is written as it is. -/
theorem escapedChar_of_isDigit {c : Char} (h : Decimal.isDigit c = true) : escapedChar c = [c] := by
  have hcode : 48 ≤ c.toNat := by
    simp only [Decimal.isDigit, Bool.and_eq_true, decide_eq_true_eq, Char.le_def, UInt32.le_iff_toNat_le] at h
    exact h.1
  have hshort : c ∉ shortEscapes := by
    intro hc
    have hnone : shortEscapes.any Decimal.isDigit = false := rfl
    exact absurd (List.any_eq_true.mpr ⟨c, hc, h⟩) (by simp [hnone])
  rw [escapedChar_of_not_mem hshort, if_neg (by omega)]

/-- A number of 32 bits is read from the name that it writes. -/
theorem wordName?_repr {n : Nat} (h : n < 2 ^ 32) : wordName? (Name.ofString n.repr) = some n := by
  have hdigits : n.repr.toList = Decimal.digits n := Nat.toList_repr
  have hplain : (Name.ofString n.repr).plain = true := by
    simp only [Name.ofString, isPlainText, hdigits, List.all_eq_true, beq_iff_eq]
    exact fun c hc => escapedChar_of_isDigit (Decimal.isDigit_of_mem_digits hc)
  have hzero : ¬ ((Decimal.digits n).length > 1 ∧ (Decimal.digits n).head? = some '0') := by
    rintro ⟨hlength, hhead⟩
    rcases Nat.eq_zero_or_pos n with rfl | hn
    · exact absurd hlength (by decide)
    · exact Decimal.head?_digits hn hhead
  have hread : readNat? (Decimal.digits n) = some n := Decimal.readNat?_eq_some_iff.mpr (Decimal.spells_digits n)
  have htext : (Name.ofString n.repr).text.toList = Decimal.digits n := hdigits
  simp only [wordName?, hplain, htext, hzero, hread, Bool.not_true, Bool.false_eq_true, or_self, if_false]
  exact Option.filter_eq_some_iff.mpr ⟨rfl, decide_eq_true h⟩

/-! ## Records, lists and maps -/

/-- An object of the named fields in their order is a record in which each is found. -/
theorem exists_record {j : Json} (names : List String) (hnames : names.Nodup) (fields : List (String × Json))
    (hf : fields.map Prod.fst = names) (hj : j = .object (fields.map fun f => (Name.ofString f.1, f.2))) :
    ∃ r, j.record? names = some r ∧ r.listed = false ∧ ∀ f ∈ fields, r.fields.lookup f.1 = some f.2 := by
  subst hf hj
  refine ⟨⟨fields, false⟩, ?_, rfl, fun f hm => ?_⟩
  · have hknown : ((fields.map fun f => (Name.ofString f.1, f.2)).map fun member => (member.1.text, member.2)) =
        fields := by
      rw [List.map_map]
      exact List.map_id _
    have hfilter : (fields.filter fun member => (fields.map Prod.fst).contains member.1) = fields := by
      rw [List.filter_eq_self]
      intro f hf
      simpa using ⟨f.2, hf⟩
    simp only [record?, hknown, hfilter]
    exact if_pos hnames
  · exact (OrderedMap.mk fields hnames).get?_eq_some_iff.mpr hm

/-- An array is read back item by item. -/
theorem rereadItems_eq (items : List Json) : rereadItems items = items.map reread := by
  induction items with
  | nil => rfl
  | cons item items ih => rw [rereadItems, ih, List.map_cons]

/-- An object is read back member by member. -/
theorem rereadMembers_eq (members : List (Name × Json)) :
    rereadMembers members = members.map fun member => (Name.ofString member.1.text, member.2.reread) := by
  induction members with
  | nil => rfl
  | cons member members ih => rw [rereadMembers, ih, List.map_cons]

/-- A list is read back if its items are. -/
theorem list?_reread {α : Type} {decode : Json → Option α} {encode : α → Json} {l : List α}
    (h : ∀ a ∈ l, decode (encode a).reread = some a) : list? decode (Json.array (l.map encode)).reread = some l := by
  rw [reread, rereadItems_eq, List.map_map]
  exact mapM_of_forall h

end Json

/-- A map is read back, with the order of its entries, if its keys and values are. -/
theorem OrderedMap.decode?_reread {κ ν : Type} [DecidableEq κ] {key : κ → String} {value : ν → Json}
    {key? : Json.Name → Option κ} {value? : Json → Option ν} {m : OrderedMap κ ν}
    (h : ∀ e ∈ m.entries, key? (Json.Name.ofString (key e.1)) = some e.1 ∧ value? (value e.2).reread = some e.2) :
    OrderedMap.decode? key? value? (m.toJson key value).reread = some m := by
  have hmembers : ((m.entries.map fun e => (Json.Name.ofString (key e.1), (value e.2).reread)).mapM
      (decodeMember? key? value?)) = some m.entries := by
    refine mapM_of_forall fun e he => ?_
    obtain ⟨hk, hv⟩ := h e he
    simp [decodeMember?, hk, hv]
  have hmap : ofList m.entries = m := ext_entries (entries_ofList m.distinct)
  rw [toJson, Json.reread, Json.rereadMembers_eq, List.map_map]
  refine (congrArg (Option.map ofList) hmembers).trans ?_
  rw [Option.map_some, hmap]

/-! ## The parts of a composition -/

namespace Position

/-- Both coordinates are read as they are. -/
theorem decode?_reread {p : Position} (hx : Json.ReadsBack p.x) (hy : Json.ReadsBack p.y) :
    decode? p.toJson.reread = some p := by
  obtain ⟨r, hr, -, hfields⟩ := Json.exists_record (j := p.toJson.reread) ["x", "y"] (by decide)
    [("x", (Json.ofFloat p.x).reread), ("y", (Json.ofFloat p.y).reread)] rfl rfl
  simp only [List.forall_mem_cons] at hfields
  simp only [decode?, hr, Json.Record.required?, hfields, Option.bind_eq_bind, Option.bind_some, Option.pure_def,
    hx.float?_reread, hy.float?_reread]

end Position

namespace ParameterValue

/-- The value of a form with some content is read, if the content is. -/
theorem decode?_object {form : String} {content : Json} :
    decode? (Json.object [("type", .string form), ("value", content)]) = ofContent? form content := by
  obtain ⟨r, hr, hlisted, hfields⟩ := Json.exists_record
    (j := Json.object [("type", .string form), ("value", content)]) ["type", "value"] (by decide)
    [("type", .string form), ("value", content)] rfl rfl
  simp only [List.forall_mem_cons] at hfields
  simp only [decode?, hr, hlisted, Json.Record.required?, hfields, Option.bind_eq_bind, Option.bind_some,
    Bool.false_eq_true, if_false, Json.tag?]

/-- A value is had back from its printed form, if its number is. -/
theorem decode?_reread {v : ParameterValue} (hv : ∀ x ∈ v.number?, Json.ReadsBack x) :
    decode? v.toJson.reread = some v := by
  cases v with
  | number x =>
    have hcontent : ofContent? "number" (Json.ofFloat x).reread = some (number x) := by
      simp only [ofContent?, (hv x rfl).float?_reread, Option.map_some]
    exact decode?_object.trans hcontent
  | text s => exact decode?_object
  | boolean b => exact decode?_object
  | enumTag s => exact decode?_object
  | asset s => exact decode?_object
  | address s => exact decode?_object
  | unset => rfl

end ParameterValue

namespace Port

/-- A port is had back from its printed form, if its numbers are words of 32 bits. -/
theorem decode?_reread {p : Port} (hid : p.id.val < 2 ^ 32) (howner : p.owner.val < 2 ^ 32) :
    decode? p.toJson.reread = some p := by
  obtain ⟨r, hr, -, hfields⟩ := Json.exists_record (j := p.toJson.reread)
    ["id", "primitive", "direction", "resource_type", "label"] (by decide)
    [ ("id", (Json.ofNat p.id.val).reread), ("primitive", (Json.ofNat p.owner.val).reread),
      ("direction", .string p.direction.tag), ("resource_type", .string p.resourceType),
      ("label", .string p.label) ] rfl rfl
  simp only [List.forall_mem_cons] at hfields
  have hdirection : Direction.ofTag? p.direction.tag = some p.direction := by cases p.direction <;> decide
  simp only [decode?, hr, Json.Record.required?, hfields, Option.bind_eq_bind, Option.bind_some, Option.pure_def,
    Json.word?_reread hid, Json.word?_reread howner, Json.tag?, hdirection, Json.string?]

end Port

namespace Connection

/-- The names of a connection and its ports have 32 bits. -/
structure FitsWords (k : Connection) : Prop where
  id : k.id.val < 2 ^ 32
  source : k.source.val < 2 ^ 32
  target : k.target.val < 2 ^ 32

instance (k : Connection) : Decidable k.FitsWords :=
  decidable_of_iff (k.id.val < 2 ^ 32 ∧ k.source.val < 2 ^ 32 ∧ k.target.val < 2 ^ 32)
    ⟨fun ⟨id, source, target⟩ => ⟨id, source, target⟩, fun ⟨id, source, target⟩ => ⟨id, source, target⟩⟩

/-- A connection is had back from its printed form. -/
theorem decode?_reread {k : Connection} (h : k.FitsWords) : decode? k.toJson.reread = some k := by
  obtain ⟨r, hr, -, hfields⟩ := Json.exists_record (j := k.toJson.reread)
    ["id", "source", "target", "resource_type"] (by decide)
    [ ("id", (Json.ofNat k.id.val).reread), ("source", (Json.ofNat k.source.val).reread),
      ("target", (Json.ofNat k.target.val).reread), ("resource_type", .string k.resourceType) ] rfl rfl
  simp only [List.forall_mem_cons] at hfields
  simp only [decode?, hr, Json.Record.required?, hfields, Option.bind_eq_bind, Option.bind_some, Option.pure_def,
    Json.word?_reread h.id, Json.word?_reread h.source, Json.word?_reread h.target, Json.string?]

end Connection

namespace IdSupply

/-- The counters have 32 bits. -/
structure FitsWords (ids : IdSupply) : Prop where
  primitive : ids.nextPrimitive < 2 ^ 32
  port : ids.nextPort < 2 ^ 32
  connection : ids.nextConnection < 2 ^ 32

instance (ids : IdSupply) : Decidable ids.FitsWords :=
  decidable_of_iff (ids.nextPrimitive < 2 ^ 32 ∧ ids.nextPort < 2 ^ 32 ∧ ids.nextConnection < 2 ^ 32)
    ⟨fun ⟨primitive, port, connection⟩ => ⟨primitive, port, connection⟩,
      fun ⟨primitive, port, connection⟩ => ⟨primitive, port, connection⟩⟩

/-- The counters are had back from their printed form. -/
theorem decode?_reread {ids : IdSupply} (h : ids.FitsWords) : decode? ids.toJson.reread = some ids := by
  obtain ⟨r, hr, -, hfields⟩ := Json.exists_record (j := ids.toJson.reread)
    ["next_primitive", "next_port", "next_connection"] (by decide)
    [ ("next_primitive", (Json.ofNat ids.nextPrimitive).reread), ("next_port", (Json.ofNat ids.nextPort).reread),
      ("next_connection", (Json.ofNat ids.nextConnection).reread) ] rfl rfl
  simp only [List.forall_mem_cons] at hfields
  simp only [decode?, hr, Json.Record.required?, hfields, Option.bind_eq_bind, Option.bind_some, Option.pure_def,
    Json.word?_reread h.primitive, Json.word?_reread h.port, Json.word?_reread h.connection]

end IdSupply

namespace Primitive

/-- The numbers of a primitive: its coordinates, and the values of its parameters that are numbers. -/
def numbers (p : Primitive) : List Float := p.position.x :: p.position.y :: p.parameters.values.filterMap (·.number?)

/-- The names of a primitive and its ports have 32 bits. -/
structure FitsWords (p : Primitive) : Prop where
  id : p.id.val < 2 ^ 32
  ports : ∀ port ∈ p.ports, port.id.val < 2 ^ 32 ∧ port.owner.val < 2 ^ 32

instance (p : Primitive) : Decidable p.FitsWords :=
  decidable_of_iff (p.id.val < 2 ^ 32 ∧ ∀ port ∈ p.ports, port.id.val < 2 ^ 32 ∧ port.owner.val < 2 ^ 32)
    ⟨fun ⟨id, ports⟩ => ⟨id, ports⟩, fun ⟨id, ports⟩ => ⟨id, ports⟩⟩

/-- A primitive is had back from its printed form, map of parameters and order of ports included. -/
theorem decode?_reread {p : Primitive} (hw : p.FitsWords) (hn : ∀ x ∈ p.numbers, Json.ReadsBack x) :
    decode? p.toJson.reread = some p := by
  obtain ⟨r, hr, -, hfields⟩ := Json.exists_record (j := p.toJson.reread)
    ["id", "kind", "position", "label", "description", "parameters", "inputs", "outputs"] (by decide)
    [ ("id", (Json.ofNat p.id.val).reread), ("kind", .string p.kind.tag), ("position", p.position.toJson.reread),
      ("label", .string p.label), ("description", .string p.description),
      ("parameters", (p.parameters.toJson (fun name => name) ParameterValue.toJson).reread),
      ("inputs", (Json.array (p.inputs.map Port.toJson)).reread),
      ("outputs", (Json.array (p.outputs.map Port.toJson)).reread) ] rfl rfl
  simp only [List.forall_mem_cons] at hfields
  have hkind : Kind.ofTag? p.kind.tag = some p.kind := by cases p.kind <;> decide
  have hposition : Position.decode? p.position.toJson.reread = some p.position :=
    Position.decode?_reread (hn _ (by simp [numbers])) (hn _ (by simp [numbers]))
  have hparameters : OrderedMap.decode? (fun name => some name.text) ParameterValue.decode?
      (p.parameters.toJson (fun name => name) ParameterValue.toJson).reread = some p.parameters := by
    refine OrderedMap.decode?_reread fun e he => ⟨rfl, ParameterValue.decode?_reread fun x hx => hn x ?_⟩
    have hm : x ∈ p.parameters.values.filterMap (·.number?) :=
      List.mem_filterMap.mpr ⟨e.2, OrderedMap.mem_values_of_mem he, hx⟩
    exact List.mem_cons_of_mem _ (List.mem_cons_of_mem _ hm)
  have hinputs : Json.list? Port.decode? (Json.array (p.inputs.map Port.toJson)).reread = some p.inputs :=
    Json.list?_reread fun port hm =>
      Port.decode?_reread (hw.ports port (List.mem_append_left _ hm)).1 (hw.ports port (List.mem_append_left _ hm)).2
  have houtputs : Json.list? Port.decode? (Json.array (p.outputs.map Port.toJson)).reread = some p.outputs :=
    Json.list?_reread fun port hm =>
      Port.decode?_reread (hw.ports port (List.mem_append_right _ hm)).1 (hw.ports port (List.mem_append_right _ hm)).2
  simp only [decode?, hr, Json.Record.required?, hfields, Option.bind_eq_bind, Option.bind_some, Option.pure_def,
    Json.word?_reread hw.id, Json.tag?, hkind, hposition, Json.string?, hparameters, hinputs, houtputs]

end Primitive

namespace Composition

/-- All numbers of a composition. -/
def numbers (c : Composition) : List Float := c.primitives.values.flatMap (·.numbers)

/-- All names and counters of a composition have 32 bits, the keys of its maps included. -/
structure FitsWords (c : Composition) : Prop where
  primitives : ∀ e ∈ c.primitives.entries, e.1.val < 2 ^ 32 ∧ e.2.FitsWords
  connections : ∀ e ∈ c.connections.entries, e.1.val < 2 ^ 32 ∧ e.2.FitsWords
  ids : c.ids.FitsWords

instance (c : Composition) : Decidable c.FitsWords :=
  decidable_of_iff ((∀ e ∈ c.primitives.entries, e.1.val < 2 ^ 32 ∧ e.2.FitsWords) ∧
      (∀ e ∈ c.connections.entries, e.1.val < 2 ^ 32 ∧ e.2.FitsWords) ∧ c.ids.FitsWords)
    ⟨fun ⟨primitives, connections, ids⟩ => ⟨primitives, connections, ids⟩,
      fun ⟨primitives, connections, ids⟩ => ⟨primitives, connections, ids⟩⟩

/-- A composition is had back from its printed form, the order of its maps included. -/
theorem decode?_reread {c : Composition} (hw : c.FitsWords) (hn : ∀ x ∈ c.numbers, Json.ReadsBack x) :
    decode? c.toJson.reread = some c := by
  obtain ⟨r, hr, -, hfields⟩ := Json.exists_record (j := c.toJson.reread)
    ["id", "name", "description", "primitives", "connections", "created_at", "updated_at", "ids"] (by decide)
    [ ("id", .string c.id.text), ("name", .string c.name), ("description", .string c.description),
      ("primitives", (c.primitives.toJson (fun id : PrimitiveId => id.val.repr) Primitive.toJson).reread),
      ("connections", (c.connections.toJson (fun id : ConnectionId => id.val.repr) Connection.toJson).reread),
      ("created_at", .string c.createdAt.text), ("updated_at", .string c.updatedAt.text),
      ("ids", c.ids.toJson.reread) ] rfl rfl
  simp only [List.forall_mem_cons] at hfields
  have hprimitives : OrderedMap.decode? (fun name => (Json.wordName? name).map .mk) Primitive.decode?
      (c.primitives.toJson (·.val.repr) Primitive.toJson).reread = some c.primitives := by
    refine OrderedMap.decode?_reread fun e he => ⟨?_, ?_⟩
    · simp only [Json.wordName?_repr (hw.primitives e he).1, Option.map_some]
    · refine Primitive.decode?_reread (hw.primitives e he).2 fun x hx => hn x ?_
      exact List.mem_flatMap.mpr ⟨e.2, OrderedMap.mem_values_of_mem he, hx⟩
  have hconnections : OrderedMap.decode? (fun name => (Json.wordName? name).map .mk) Connection.decode?
      (c.connections.toJson (·.val.repr) Connection.toJson).reread = some c.connections := by
    refine OrderedMap.decode?_reread fun e he => ⟨?_, Connection.decode?_reread (hw.connections e he).2⟩
    simp only [Json.wordName?_repr (hw.connections e he).1, Option.map_some]
  simp only [decode?, hr, Json.Record.required?, hfields, Option.bind_eq_bind, Option.bind_some, Option.pure_def,
    Json.string?, hprimitives, hconnections, IdSupply.decode?_reread hw.ids, Uuid.parse?_text, Timestamp.parse?_text]

end Composition

/-! ## What a reader gives -/

namespace Json

/-- What is read as a word of 32 bits is one. -/
theorem word?_lt {j : Json} {n : Nat} (h : word? j = some n) : n < 2 ^ 32 := by
  unfold word? at h
  split at h
  · split at h
    · rename_i hn
      cases h
      have hlt : _ < (4294967296 : Int) := hn.2
      omega
    · cases h
  · cases h

theorem wordName?_lt {name : Name} {n : Nat} (h : wordName? name = some n) : n < 2 ^ 32 := by
  unfold wordName? at h
  dsimp only at h
  split at h
  · cases h
  · have hlt := (Option.filter_eq_some_iff.mp h).2
    exact of_decide_eq_true hlt

end Json

/-- Every entry of a map that is read comes from a member. -/
theorem OrderedMap.exists_of_decode? {κ ν : Type} [DecidableEq κ] {key? : Json.Name → Option κ}
    {value? : Json → Option ν} {j : Json} (hj : j.IsBounded) {m : OrderedMap κ ν}
    (h : OrderedMap.decode? key? value? j = some m) {e : κ × ν} (he : e ∈ m.entries) :
    ∃ name value, value.IsBounded ∧ key? name = some e.1 ∧ value? value = some e.2 := by
  unfold decode? at h
  split at h
  · obtain ⟨l, hl, rfl⟩ := Option.map_eq_some_iff.mp h
    obtain ⟨member, hm, he⟩ := exists_of_mem_mapM hl e (mem_of_mem_ofList he)
    simp only [decodeMember?, Option.bind_eq_bind, Option.bind_eq_some_iff, Option.pure_def, Option.some.injEq] at he
    obtain ⟨k, hk, v, hv, rfl⟩ := he
    exact ⟨member.1, member.2, Json.isBounded_object.mp hj member hm, hk, hv⟩
  · cases h

/-- The numbers of a port that was read are words of 32 bits. -/
theorem Port.fitsWords_of_decode? {j : Json} {p : Port} (h : decode? j = some p) :
    p.id.val < 2 ^ 32 ∧ p.owner.val < 2 ^ 32 := by
  simp only [decode?, Json.Record.required?, Option.bind_eq_bind, Option.bind_eq_some_iff, Option.pure_def,
    Option.some.injEq] at h
  obtain ⟨r, -, id, ⟨_, -, hid⟩, owner, ⟨_, -, howner⟩, direction, -, resourceType, -, label, -, rfl⟩ := h
  exact ⟨Json.word?_lt hid, Json.word?_lt howner⟩

theorem Connection.fitsWords_of_decode? {j : Json} {k : Connection} (h : decode? j = some k) : k.FitsWords := by
  simp only [decode?, Json.Record.required?, Option.bind_eq_bind, Option.bind_eq_some_iff, Option.pure_def,
    Option.some.injEq] at h
  obtain ⟨r, -, id, ⟨_, -, hid⟩, source, ⟨_, -, hsource⟩, target, ⟨_, -, htarget⟩, resourceType, -, rfl⟩ := h
  exact ⟨Json.word?_lt hid, Json.word?_lt hsource, Json.word?_lt htarget⟩

theorem IdSupply.fitsWords_of_decode? {j : Json} {ids : IdSupply} (h : decode? j = some ids) : ids.FitsWords := by
  simp only [decode?, Json.Record.required?, Option.bind_eq_bind, Option.bind_eq_some_iff, Option.pure_def,
    Option.some.injEq] at h
  obtain ⟨r, -, p, ⟨_, -, hp⟩, port, ⟨_, -, hport⟩, k, ⟨_, -, hk⟩, rfl⟩ := h
  exact ⟨Json.word?_lt hp, Json.word?_lt hport, Json.word?_lt hk⟩

/-- The coordinates of a position that was read are finite: no JSON number gives an infinity or NaN. -/
theorem Position.isFinite_of_decode? {j : Json} (hj : j.IsBounded) {p : Position} (h : decode? j = some p) :
    p.x.isFinite = true ∧ p.y.isFinite = true := by
  simp only [decode?, Json.Record.required?, Option.bind_eq_bind, Option.bind_eq_some_iff, Option.pure_def,
    Option.some.injEq] at h
  obtain ⟨r, hr, x, ⟨jx, hjx, hx⟩, y, ⟨jy, hjy, hy⟩, rfl⟩ := h
  have hr := hj.record? hr
  exact ⟨Json.isFinite_of_float? (hr.lookup hjx) hx, Json.isFinite_of_float? (hr.lookup hjy) hy⟩

namespace ParameterValue

/-- The number of a value that was read from its content is finite. -/
theorem isFinite_of_ofContent? {form : String} {content : Json} (hcontent : content.IsBounded) {v : ParameterValue}
    (h : ofContent? form content = some v) : ∀ x ∈ v.number?, x.isFinite = true := by
  unfold ofContent? at h
  split at h
  case h_1 =>
    obtain ⟨y, hy, rfl⟩ := Option.map_eq_some_iff.mp h
    rintro _ ⟨⟩
    exact Json.isFinite_of_float? hcontent hy
  case h_7 =>
    split at h
    · cases h
      exact nofun
    · cases h
  case h_8 => cases h
  all_goals
    -- no other form holds a number
    obtain ⟨y, -, rfl⟩ := Option.map_eq_some_iff.mp h
    exact nofun

/-- The number of a value that was read is finite. -/
theorem isFinite_of_decode? {j : Json} (hj : j.IsBounded) {v : ParameterValue} (h : decode? j = some v) :
    ∀ x ∈ v.number?, x.isFinite = true := by
  simp only [decode?, Option.bind_eq_bind, Option.bind_eq_some_iff] at h
  obtain ⟨r, hr, form, -, h⟩ := h
  split at h
  · rename_i content hcontent
    exact isFinite_of_ofContent? ((hj.record? hr).lookup hcontent) h
  · split at h
    · cases h
      exact nofun
    · cases h

end ParameterValue

/-- A primitive that was read has words of 32 bits and finite numbers throughout. -/
theorem Primitive.of_decode? {j : Json} (hj : j.IsBounded) {p : Primitive} (h : decode? j = some p) :
    p.FitsWords ∧ ∀ x ∈ p.numbers, x.isFinite = true := by
  simp only [decode?, Json.Record.required?, Option.bind_eq_bind, Option.bind_eq_some_iff, Option.pure_def,
    Option.some.injEq] at h
  obtain ⟨r, hr, id, ⟨_, -, hid⟩, kind, -, position, ⟨_, hjposition, hposition⟩, label, -, description, -,
    parameters, ⟨_, hjparameters, hparameters⟩, inputs, ⟨_, hjinputs, hinputs⟩, outputs, ⟨_, hjoutputs, houtputs⟩,
    rfl⟩ := h
  have hr := hj.record? hr
  refine ⟨⟨Json.word?_lt hid, fun port hm => ?_⟩, fun x hx => ?_⟩
  · rcases List.mem_append.mp hm with hm | hm
    · obtain ⟨item, -, hitem⟩ := (hr.lookup hjinputs).exists_of_list? hinputs port hm
      exact Port.fitsWords_of_decode? hitem
    · obtain ⟨item, -, hitem⟩ := (hr.lookup hjoutputs).exists_of_list? houtputs port hm
      exact Port.fitsWords_of_decode? hitem
  · obtain ⟨hpx, hpy⟩ := Position.isFinite_of_decode? (hr.lookup hjposition) hposition
    simp only [numbers, List.mem_cons, List.mem_filterMap] at hx
    rcases hx with rfl | rfl | ⟨v, hv, hx⟩
    · exact hpx
    · exact hpy
    · obtain ⟨key, he⟩ := OrderedMap.exists_mem_entries hv
      obtain ⟨-, value, hj, -, hvalue⟩ := OrderedMap.exists_of_decode? (hr.lookup hjparameters) hparameters he
      exact ParameterValue.isFinite_of_decode? hj hvalue x hx

namespace Composition

/-- What a reader gives has names and counters of 32 bits and finite numbers. -/
theorem of_decode? {j : Json} (hj : j.IsBounded) {c : Composition} (h : decode? j = some c) :
    c.FitsWords ∧ ∀ x ∈ c.numbers, x.isFinite = true := by
  simp only [decode?, Json.Record.required?, Option.bind_eq_bind, Option.bind_eq_some_iff, Option.pure_def,
    Option.some.injEq] at h
  obtain ⟨r, hr, id, -, name, -, description, -, primitives, ⟨_, hjprimitives, hprimitives⟩, connections,
    ⟨_, hjconnections, hconnections⟩, createdAt, -, updatedAt, -, ids, ⟨_, -, hids⟩, rfl⟩ := h
  have hr := hj.record? hr
  refine ⟨⟨fun e he => ?_, fun e he => ?_, IdSupply.fitsWords_of_decode? hids⟩, fun x hx => ?_⟩
  · obtain ⟨name, value, hj, hkey, hvalue⟩ := OrderedMap.exists_of_decode? (hr.lookup hjprimitives) hprimitives he
    obtain ⟨n, hn, hid⟩ := Option.map_eq_some_iff.mp hkey
    rw [← hid]
    exact ⟨Json.wordName?_lt hn, (Primitive.of_decode? hj hvalue).1⟩
  · obtain ⟨name, value, -, hkey, hvalue⟩ := OrderedMap.exists_of_decode? (hr.lookup hjconnections) hconnections he
    obtain ⟨n, hn, hid⟩ := Option.map_eq_some_iff.mp hkey
    rw [← hid]
    exact ⟨Json.wordName?_lt hn, Connection.fitsWords_of_decode? hvalue⟩
  · obtain ⟨p, hp, hx⟩ := List.mem_flatMap.mp hx
    obtain ⟨key, he⟩ := OrderedMap.exists_mem_entries hp
    obtain ⟨-, value, hj, -, hvalue⟩ := OrderedMap.exists_of_decode? (hr.lookup hjprimitives) hprimitives he
    exact (Primitive.of_decode? hj hvalue).2 x hx

/-! ## Writing and reading -/

/-- A composition is had back from its text. -/
theorem deserialize?_serialize {c : Composition} (hw : c.FitsWords) (hn : ∀ x ∈ c.numbers, Json.ReadsBack x) :
    deserialize? c.serialize = some c := by
  rw [deserialize?, serialize, Json.parse?_compact, Option.bind_some, decode?_reread hw hn]

/-- A composition with finite numbers is read back from its text, and so is every composition that was read from some text:
all fields, the entries of the maps in their order, the port lists and the counters. What is assumed is that the reader of
doubles gives back the finite numbers at hand. -/
theorem persistence_lossless (c : Composition) (hread : ∀ x ∈ c.numbers, x.isFinite = true → Json.ReadsBack x) :
    (c.FitsWords → (∀ x ∈ c.numbers, x.isFinite = true) → deserialize? c.serialize = some c) ∧
      ∀ text, deserialize? text = some c → deserialize? c.serialize = some c := by
  have hsaved (hw : c.FitsWords) (hfinite : ∀ x ∈ c.numbers, x.isFinite = true) : deserialize? c.serialize = some c :=
    deserialize?_serialize hw fun x hx => hread x hx (hfinite x hx)
  refine ⟨hsaved, fun text h => ?_⟩
  obtain ⟨j, hj, hc⟩ := Option.bind_eq_some_iff.mp h
  obtain ⟨hw, hfinite⟩ := of_decode? (Json.isBounded_of_parse? hj) hc
  exact hsaved hw hfinite

/-- A pool and a vault, connected, after a primitive was removed and a parameter set. -/
def savedLoans : Composition :=
  ((Store.new .zero .epoch "Loans \"v2\" → vault" "").run
    [ (.epoch, .addPrimitive .staking default), (.epoch, .addPrimitive .lendingPool ⟨1, -2.5⟩),
      (.epoch, .removePrimitive ⟨0⟩), (.epoch, .addPrimitive .vault default), (.epoch, .connect ⟨5⟩ ⟨7⟩),
      (.epoch, .setParameter ⟨2⟩ "strategy" (.enumTag "moderate")) ]).composition

/-- It is read back, with its connection and its counters. -/
theorem savedLoans_read_back :
    ((∀ x ∈ savedLoans.numbers, x.isFinite = true → Json.ReadsBack x) ∧ savedLoans.FitsWords ∧
        ∀ x ∈ savedLoans.numbers, x.isFinite = true) ∧
      savedLoans.connections.size = 1 ∧ savedLoans.ids.nextPrimitive = 3 ∧
      deserialize? savedLoans.serialize = some savedLoans := by
  have hread : ∀ x ∈ savedLoans.numbers, x.isFinite = true → Json.ReadsBack x := by decide +kernel
  have hw : savedLoans.FitsWords := by decide +kernel
  have hfinite : ∀ x ∈ savedLoans.numbers, x.isFinite = true := by decide +kernel
  obtain ⟨hsaved, hagain⟩ := persistence_lossless savedLoans hread
  exact ⟨⟨hread, hw, hfinite⟩, by decide, by decide, hagain _ (hsaved hw hfinite)⟩

end Composition

end DefiComposer
