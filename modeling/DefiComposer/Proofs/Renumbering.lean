import DefiComposer.Proofs.Releases
import DefiComposer.Validation
import Mathlib.Data.List.Nodup
import Mathlib.Data.Prod.Basic

/-!
# Renumbering: the numbers of the parts say which is which and nothing more

A `Renumbering` gives other numbers to primitives, ports and connections, different ones to different parts. It acts on
everything that holds such a number: ports, primitives, connections, the keys of the two maps, the edges of the wiring,
the state of a sweep, and the places of findings.

Each look-up in the renumbered composition answers the renumbered part. So the sweep over the renumbered wiring goes
through the renumbered states, step by step, and fails where it failed before (`Sweep.run?_renumber`); the order is the
renumbered order, and nothing that is printed holds a number of a part: the generated text stays as it is, and the findings
are those of before at renumbered places (`Composition.numbers_do_not_matter`).
-/

namespace DefiComposer

/-! ## Lists under an injective map -/

namespace RenumberingAux

variable {α β ν μ : Type} [BEq α] [LawfulBEq α] [BEq β] [LawfulBEq β] {f : α → β}

/-- Looking up a renumbered key finds the mapped value that stood under the key. -/
theorem lookup_map (hf : Function.Injective f) (g : ν → μ) (l : List (α × ν)) (k : α) :
    (l.map (Prod.map f g)).lookup (f k) = (l.lookup k).map g := by
  induction l with
  | nil => rfl
  | cons e l ih =>
    obtain ⟨key, v⟩ := e
    by_cases h : k = key
    · simp [h]
    · have h₁ : (k == key) = false := by simpa using h
      have h₂ : (f k == f key) = false := by simpa using fun e => h (hf e)
      simp [List.lookup_cons, h₁, h₂, ih]

theorem contains_map (hf : Function.Injective f) (l : List α) (a : α) : (l.map f).contains (f a) = l.contains a := by
  rw [Bool.eq_iff_iff, List.contains_iff_mem, List.contains_iff_mem, List.mem_map_of_injective hf]

/-- An injective map takes no two elements together, so it goes past the removal of repetitions. -/
theorem eraseDups_map (hf : Function.Injective f) (l : List α) : (l.map f).eraseDups = l.eraseDups.map f := by
  cases l with
  | nil => rfl
  | cons a l =>
    have hc : ((fun b => !b == f a) ∘ f) = fun b => !b == a := by
      funext b
      rw [Bool.eq_iff_iff]
      simp [hf.eq_iff]
    rw [List.map_cons, List.eraseDups_cons, List.eraseDups_cons, List.filter_map, hc, eraseDups_map hf, List.map_cons]
termination_by l.length
decreasing_by
  exact Nat.lt_succ_of_le (List.length_filter_le _ _)

end RenumberingAux

/-- Keys and values of a map, each under a function; the order of the entries stays. -/
def OrderedMap.renumber {κ κ' ν ν' : Type} (f : κ → κ') (hf : Function.Injective f) (g : ν → ν') (m : OrderedMap κ ν) :
    OrderedMap κ' ν' where
  entries := m.entries.map (Prod.map f g)
  distinct := by
    rw [List.map_map, Prod.map_fst', ← List.map_map]
    exact List.Nodup.map hf m.distinct

namespace OrderedMap

variable {κ κ' ν ν' : Type} {f : κ → κ'} (hf : Function.Injective f) (g : ν → ν') (m : OrderedMap κ ν)

@[simp]
theorem keys_renumber : (m.renumber f hf g).keys = m.keys.map f := by
  simp [keys, renumber]

@[simp]
theorem values_renumber : (m.renumber f hf g).values = m.values.map g := by
  simp [values, renumber]

/-- Under a renumbered key stands the mapped value. -/
theorem get?_renumber [DecidableEq κ] [DecidableEq κ'] (k : κ) :
    (m.renumber f hf g).get? (f k) = (m.get? k).map g :=
  RenumberingAux.lookup_map hf g m.entries k

end OrderedMap

/-! ## What a renumbering acts on -/

/-- Other numbers for primitives, ports and connections; different parts get different ones. The counters may stand
anywhere afterwards. -/
structure Renumbering where
  primitive : PrimitiveId → PrimitiveId
  port : PortId → PortId
  connection : ConnectionId → ConnectionId
  supply : IdSupply → IdSupply
  primitive_injective : Function.Injective primitive
  port_injective : Function.Injective port
  connection_injective : Function.Injective connection

namespace Renumbering

variable (r : Renumbering)

@[simp]
theorem primitive_eq_iff {a b : PrimitiveId} : r.primitive a = r.primitive b ↔ a = b := r.primitive_injective.eq_iff

@[simp]
theorem port_eq_iff {a b : PortId} : r.port a = r.port b ↔ a = b := r.port_injective.eq_iff

/-- Edges under a renumbering. -/
def edge : PrimitiveId × PrimitiveId → PrimitiveId × PrimitiveId := Prod.map r.primitive r.primitive

/-- Renumbered edges are equal only where the edges are. -/
theorem edge_injective : Function.Injective r.edge := r.primitive_injective.prodMap r.primitive_injective

end Renumbering

/-- The port with its number and that of its owner replaced. -/
def Port.renumber (r : Renumbering) (port : Port) : Port :=
  { port with id := r.port port.id, owner := r.primitive port.owner }

/-- The primitive with its number and those of its ports replaced. -/
def Primitive.renumber (r : Renumbering) (p : Primitive) : Primitive :=
  { p with id := r.primitive p.id, inputs := p.inputs.map (Port.renumber r), outputs := p.outputs.map (Port.renumber r) }

/-- The connection with its number and those of its ends replaced. -/
def Connection.renumber (r : Renumbering) (k : Connection) : Connection :=
  { k with id := r.connection k.id, source := r.port k.source, target := r.port k.target }

/-- The composition with all numbers replaced, in the keys of its maps as in its parts. -/
def Composition.renumber (r : Renumbering) (c : Composition) : Composition :=
  { c with
    primitives := c.primitives.renumber r.primitive r.primitive_injective (Primitive.renumber r)
    connections := c.connections.renumber r.connection r.connection_injective (Connection.renumber r)
    ids := r.supply c.ids }

/-- The graph with its primitives renumbered. -/
def WiringGraph.renumber (r : Renumbering) (g : WiringGraph) : WiringGraph := ⟨g.nodes.map r.primitive, g.edges.map r.edge⟩

/-- The state of a sweep with its primitives renumbered. -/
def Sweep.renumber (r : Renumbering) (s : Sweep) : Sweep :=
  ⟨s.counts.map (Prod.map r.primitive id), s.queue.map r.primitive, s.listed.map r.primitive⟩

/-- The place of a finding with its primitive and connection renumbered. -/
def Location.renumber (r : Renumbering) (l : Location) : Location :=
  { l with primitive := l.primitive.map r.primitive, connection := l.connection.map r.connection }

/-- The finding at its renumbered place. -/
def Issue.renumber (r : Renumbering) (i : Issue) : Issue := { i with location := i.location.map (Location.renumber r) }

/-- The findings at their renumbered places, in their order. -/
def Report.renumber (r : Renumbering) (report : Report) : Report := ⟨report.issues.map (Issue.renumber r)⟩

/-! ## Look-ups -/

namespace Primitive

variable (r : Renumbering) (p : Primitive)

/-- The ports of a renumbered primitive are its renumbered ports, inputs first. -/
theorem ports_renumber : (p.renumber r).ports = p.ports.map (Port.renumber r) := by
  simp [ports, renumber]

/-- Looking for a renumbered port among renumbered ports finds the port that was found before. -/
theorem find?_renumber (ports : List Port) (id : PortId) :
    (ports.map (Port.renumber r)).find? (·.id = r.port id) = (ports.find? (·.id = id)).map (Port.renumber r) := by
  rw [List.find?_map]
  congr 2
  funext port
  simp [Port.renumber]

theorem input?_renumber (id : PortId) : (p.renumber r).input? (r.port id) = (p.input? id).map (Port.renumber r) :=
  find?_renumber r p.inputs id

theorem output?_renumber (id : PortId) : (p.renumber r).output? (r.port id) = (p.output? id).map (Port.renumber r) :=
  find?_renumber r p.outputs id

/-- A primitive has a port exactly when the renumbered one has the renumbered port. -/
theorem ownsPort_renumber (id : PortId) : (p.renumber r).ownsPort (r.port id) = p.ownsPort id := by
  rw [ownsPort, ownsPort, ports_renumber, List.any_map]
  congr 1
  funext port
  simp [Port.renumber]

/-- A connection touches a primitive exactly when it does so after the renumbering. -/
theorem touches_renumber (k : Connection) : (p.renumber r).touches (k.renumber r) = p.touches k := by
  simp only [touches, Connection.renumber, ownsPort_renumber]

end Primitive

namespace Composition

variable (r : Renumbering) (c : Composition)

@[simp]
theorem primitives_values_renumber : (c.renumber r).primitives.values = c.primitives.values.map (Primitive.renumber r) :=
  OrderedMap.values_renumber r.primitive_injective _ _

@[simp]
theorem connections_values_renumber :
    (c.renumber r).connections.values = c.connections.values.map (Connection.renumber r) :=
  OrderedMap.values_renumber r.connection_injective _ _

/-- The look-up of a primitive goes past the renumbering. -/
theorem primitive?_renumber (id : PrimitiveId) :
    (c.renumber r).primitive? (r.primitive id) = (c.primitive? id).map (Primitive.renumber r) :=
  OrderedMap.get?_renumber r.primitive_injective _ _ id

/-- A search through all primitives finds the renumbered part if the search in each one does. -/
theorem findSome?_renumber {α β : Type} (g : α → β) {search : Primitive → Option α} {search' : Primitive → Option β}
    (h : ∀ p, search' (p.renumber r) = (search p).map g) :
    (c.renumber r).primitives.values.findSome? search' = (c.primitives.values.findSome? search).map g := by
  rw [primitives_values_renumber, List.findSome?_map, List.map_findSome?]
  congr 1
  funext p
  exact h p

/-- The look-up of an input port in the whole composition goes past the renumbering. -/
theorem input?_renumber (id : PortId) : (c.renumber r).input? (r.port id) = (c.input? id).map (Port.renumber r) :=
  findSome?_renumber r c _ fun p => p.input?_renumber r id

theorem output?_renumber (id : PortId) : (c.renumber r).output? (r.port id) = (c.output? id).map (Port.renumber r) :=
  findSome?_renumber r c _ fun p => p.output?_renumber r id

theorem port?_renumber (id : PortId) : (c.renumber r).port? (r.port id) = (c.port? id).map (Port.renumber r) := by
  refine findSome?_renumber r c _ fun p => ?_
  rw [Primitive.ports_renumber, Primitive.find?_renumber]

/-- The owner that a port names is renumbered with the port. -/
theorem portOwner?_renumber (id : PortId) : (c.renumber r).portOwner? (r.port id) = (c.portOwner? id).map r.primitive := by
  simp only [portOwner?, port?_renumber, Option.map_map]
  rfl

/-! ## The wiring and its order -/

/-- A renumbered connection joins the renumbered owners of its ports. -/
theorem joinedOwners?_renumber (k : Connection) :
    (c.renumber r).joinedOwners? (k.renumber r) = (c.joinedOwners? k).map r.edge := by
  simp only [joinedOwners?, Connection.renumber, portOwner?_renumber]
  cases c.portOwner? k.source <;> cases c.portOwner? k.target <;> rfl

/-- The edges of the wiring come out renumbered and in their order: they are collected along the connections, and a repeated
edge stays a repeated one. -/
theorem wiring_edges_renumber : (c.renumber r).wiring.edges = c.wiring.edges.map r.edge := by
  have h : (c.renumber r).joinedOwners? ∘ Connection.renumber r = fun k => (c.joinedOwners? k).map r.edge :=
    funext fun k => c.joinedOwners?_renumber r k
  simp only [wiring, connections_values_renumber, List.filterMap_map]
  rw [← RenumberingAux.eraseDups_map r.edge_injective, List.map_filterMap, h]

theorem wiring_renumber : (c.renumber r).wiring = c.wiring.renumber r := by
  have hn : (c.renumber r).wiring.nodes = c.wiring.nodes.map r.primitive := by
    have hk : (c.renumber r).primitives.keys = c.primitives.keys.map r.primitive :=
      OrderedMap.keys_renumber r.primitive_injective _ _
    have he := wiring_edges_renumber r c
    simp only [wiring] at he ⊢
    rw [he, hk, ← RenumberingAux.eraseDups_map r.primitive_injective]
    simp [List.flatMap_map, List.map_flatMap, Renumbering.edge]
  rw [WiringGraph.renumber, ← hn, ← wiring_edges_renumber]

end Composition

namespace WiringGraph

variable (r : Renumbering) (g : WiringGraph)

/-- An edge is in a graph exactly when the renumbered edge is in the renumbered graph. -/
theorem hasEdge_renumber (a b : PrimitiveId) : (g.renumber r).hasEdge (r.primitive a) (r.primitive b) = g.hasEdge a b :=
  RenumberingAux.contains_map r.edge_injective g.edges (a, b)

theorem inDegree_renumber (b : PrimitiveId) : (g.renumber r).inDegree (r.primitive b) = g.inDegree b := by
  rw [inDegree, renumber, List.countP_map]
  congr 1
  funext e
  simp [Renumbering.edge]

end WiringGraph

namespace Sweep

variable (r : Renumbering)

/-- Lowering a count in a renumbered list of counts. -/
theorem lower_renumber (a : PrimitiveId) (counts : List (PrimitiveId × Nat)) :
    lower (r.primitive a) (counts.map (Prod.map r.primitive id)) = (lower a counts).map (Prod.map r.primitive id) := by
  induction counts with
  | nil => rfl
  | cons entry rest ih =>
    obtain ⟨other, n⟩ := entry
    by_cases h : other = a
    · simp [lower, h]
    · simp [lower, h, ih]

/-- The count of a primitive in a renumbered state. -/
theorem lookup_renumber (s : Sweep) (a : PrimitiveId) :
    (s.renumber r).counts.lookup (r.primitive a) = s.counts.lookup a := by
  have h := RenumberingAux.lookup_map r.primitive_injective (id : Nat → Nat) s.counts a
  rwa [Option.map_id_fun, id] at h

/-- Releasing a primitive and renumbering the state may change places. -/
theorem release_renumber (s : Sweep) (a : PrimitiveId) :
    (s.renumber r).release (r.primitive a) = (s.release a).renumber r := by
  unfold release
  rw [lookup_renumber]
  simp only [renumber, lower_renumber]
  split <;> simp

/-- A release fails in the renumbered state exactly where it fails in the state. -/
theorem release?_renumber (s : Sweep) (a : PrimitiveId) :
    (s.renumber r).release? (r.primitive a) = (s.release? a).map (renumber r) := by
  unfold release?
  rw [lookup_renumber, release_renumber]
  split <;> rfl

/-- Several releases in the renumbered state, one after another. -/
theorem releaseAll?_renumber (s : Sweep) (l : List PrimitiveId) :
    (s.renumber r).releaseAll? (l.map r.primitive) = (s.releaseAll? l).map (renumber r) := by
  induction l generalizing s with
  | nil => rfl
  | cons a l ih =>
    have hs : (s.renumber r).releaseAll? ((a :: l).map r.primitive) =
        ((s.renumber r).release? (r.primitive a)).bind (·.releaseAll? (l.map r.primitive)) := rfl
    have hs' : s.releaseAll? (a :: l) = (s.release? a).bind (·.releaseAll? l) := rfl
    rw [hs, hs', release?_renumber]
    cases s.release? a with
    | none => rfl
    | some next => exact ih next

/-- Taking a primitive from the queue and renumbering the state may change places. -/
theorem next?_renumber (g : WiringGraph) (insertion : List PrimitiveId) (s : Sweep) (a : PrimitiveId)
    (queue : List PrimitiveId) :
    next? (g.renumber r) (insertion.map r.primitive) (s.renumber r) (r.primitive a) (queue.map r.primitive) =
      (next? g insertion s a queue).map (renumber r) := by
  have hf : (insertion.map r.primitive).filter ((g.renumber r).hasEdge (r.primitive a)) =
      (insertion.filter (g.hasEdge a)).map r.primitive := by
    rw [List.filter_map]
    congr 2
    funext b
    exact g.hasEdge_renumber r a b
  rw [next?, next?, hf, ← releaseAll?_renumber]
  simp [renumber]

/-- A run over the renumbered graph goes through the renumbered states, and fails where the run over the graph fails. -/
theorem run?_renumber (g : WiringGraph) (insertion : List PrimitiveId) (s : Sweep) :
    run? (g.renumber r) (insertion.map r.primitive) (s.renumber r) = (run? g insertion s).map (renumber r) := by
  induction s using run_induction g insertion with
  | nil s h =>
    have h' : (s.renumber r).queue = [] := by simp [renumber, h]
    rw [run?_of_nil h, run?_of_nil h']
    rfl
  | cons s a queue h ih =>
    have h' : (s.renumber r).queue = r.primitive a :: queue.map r.primitive := by simp [renumber, h]
    rw [run?_of_cons h, run?_of_cons h', next?_renumber]
    cases hnext : next? g insertion s a queue with
    | none => rfl
    | some next => exact ih next hnext

/-- The start of the sweep over the renumbered graph. -/
theorem start_renumber (g : WiringGraph) (insertion : List PrimitiveId) :
    start (g.renumber r) (insertion.map r.primitive) = (start g insertion).renumber r := by
  have hq : (insertion.map r.primitive).filter (fun a => (g.renumber r).inDegree a = 0) =
      (insertion.filter fun a => g.inDegree a = 0).map r.primitive := by
    rw [List.filter_map]
    congr 2
    funext a
    simp [WiringGraph.inDegree_renumber]
  rw [start, start, renumber, hq, RenumberingAux.eraseDups_map r.primitive_injective]
  simp [WiringGraph.inDegree_renumber]

end Sweep

/-- What a primitive becomes in the module depends on its kind, label and parameters alone. -/
theorem Move.emit_renumber (r : Renumbering) (p : Primitive) (suffix : String) :
    emit (p.renumber r) suffix = emit p suffix := by
  obtain ⟨id, kind, position, label, description, parameters, inputs, outputs⟩ := p
  cases kind <;> rfl

namespace Composition

variable (r : Renumbering) (c : Composition)

/-- The renumbered insertion order. -/
theorem insertionOrder_renumber : (c.renumber r).insertionOrder = c.insertionOrder.map r.primitive := by
  simp [insertionOrder, Primitive.renumber]

/-- The sweep over the renumbered wiring ends in the renumbered state, if it ends in one. -/
theorem sweep?_renumber : (c.renumber r).sweep? = c.sweep?.map (Sweep.renumber r) := by
  rw [sweep?, sweep?, wiring_renumber, insertionOrder_renumber, RenumberingAux.eraseDups_map r.primitive_injective,
    Sweep.start_renumber, Sweep.run?_renumber]

/-- The order of the renumbered composition is the renumbered order, if there is one. -/
theorem primitiveOrder?_renumber : (c.renumber r).primitiveOrder? = c.primitiveOrder?.map (·.map r.primitive) := by
  rw [primitiveOrder?, primitiveOrder?, sweep?_renumber, insertionOrder_renumber, Option.map_map, Option.map_map]
  congr 1
  funext s
  simp only [Function.comp_apply, Sweep.renumber, List.length_map]
  split <;> rfl

/-! ## The generated module -/

/-- A connection keeps its line. -/
theorem wiringLine?_renumber (p : Primitive) (k : Connection) :
    (c.renumber r).wiringLine? (p.renumber r) (k.renumber r) = c.wiringLine? p k := by
  simp only [wiringLine?, Connection.renumber, Primitive.output?_renumber, input?_renumber]
  cases p.output? k.source with
  | none => rfl
  | some output =>
    cases c.input? k.target with
    | none => rfl
    | some input =>
      simp only [Option.map_some, Port.renumber, primitive?_renumber]
      cases c.primitive? input.owner <;> rfl

/-- A primitive keeps the lines of the connections that start at it. -/
theorem wiringLinesFrom_renumber (a : PrimitiveId) :
    (c.renumber r).wiringLinesFrom (r.primitive a) = c.wiringLinesFrom a := by
  simp only [wiringLinesFrom, primitive?_renumber]
  cases c.primitive? a with
  | none => rfl
  | some p =>
    simp only [Option.map_some, connections_values_renumber, List.filterMap_map]
    congr 1
    funext k
    exact c.wiringLine?_renumber r p k

/-- The lines of the wiring stay as they are. -/
theorem wiringLines?_renumber : (c.renumber r).wiringLines? = c.wiringLines? := by
  rw [wiringLines?, wiringLines?, primitiveOrder?_renumber, Option.map_map]
  congr 1
  funext order
  simp only [Function.comp_apply, List.flatMap_map, wiringLinesFrom_renumber]

/-- What the primitives become stays as it is. -/
theorem emitted_renumber : (c.renumber r).emitted = c.emitted := by
  have hk : (c.renumber r).primitives.values.map (·.kind) = c.primitives.values.map (·.kind) := by
    simp [Primitive.renumber]
  rw [emitted, emitted, hk, primitives_values_renumber, List.zipWith_map_left]
  simp only [Move.emit_renumber]

/-- The module stays as it is, if there is one. -/
theorem toModule?_renumber (options : Move.Options) : (c.renumber r).toModule? options = c.toModule? options := by
  have hwith : (c.renumber r).moduleWith options.moduleAddress = c.moduleWith options.moduleAddress := by
    have hn : (c.renumber r).name = c.name := rfl
    funext lines
    unfold moduleWith
    rw [hn, emitted_renumber]
  rw [toModule?, toModule?, wiringLines?_renumber, hwith]

/-! ## Findings -/

/-- The findings on the parameters of a primitive, but for its number the same: parameters and labels are not renumbered. -/
theorem parameterIssues_renumber (p : Primitive) :
    (p.renumber r).parameterIssues = p.parameterIssues.map (Issue.renumber r) := by
  rw [Primitive.parameterIssues, Primitive.parameterIssues, List.map_filterMap]
  congr 1
  funext ⟨parameter, value⟩
  have hk : (p.renumber r).kind = p.kind := rfl
  have hl : (p.renumber r).label = p.label := rfl
  simp only [Primitive.parameterIssue?, hk, hl]
  split
  · rfl
  · split
    · rfl
    · split <;> rfl

theorem labelOf_renumber (a : PrimitiveId) : (c.renumber r).labelOf (r.primitive a) = c.labelOf a := by
  simp only [labelOf, primitive?_renumber]
  cases c.primitive? a <;> rfl

/-- The findings on two joined ports are told by their tags and labels. -/
theorem joinIssues_renumber (location : Option Location) (source target : Port) :
    (c.renumber r).joinIssues (location.map (Location.renumber r)) (source.renumber r) (target.renumber r) =
      (c.joinIssues location source target).map (Issue.renumber r) := by
  have ht : (source.renumber r).resourceType = (target.renumber r).resourceType ↔
      source.resourceType = target.resourceType := Iff.rfl
  have ho : (source.renumber r).owner = (target.renumber r).owner ↔ source.owner = target.owner := r.primitive_eq_iff
  have hl : (c.renumber r).labelOf (source.renumber r).owner = c.labelOf source.owner := c.labelOf_renumber r source.owner
  simp only [joinIssues, ht, ho, hl, List.map_append]
  congr 1
  · split <;> rfl
  · split <;> rfl

/-- The findings on a connection, but for the numbers in their places the same. -/
theorem connectionIssues_renumber (k : Connection) :
    (c.renumber r).connectionIssues (k.renumber r) = (c.connectionIssues k).map (Issue.renumber r) := by
  simp only [connectionIssues, Connection.renumber, output?_renumber, input?_renumber]
  cases c.output? k.source with
  | none => cases c.input? k.target <;> rfl
  | some source =>
    cases c.input? k.target with
    | none => rfl
    | some target => exact c.joinIssues_renumber r (some { connection := some k.id }) source target

/-- The connections at a primitive are renumbered with it, in their order. -/
theorem incident_renumber (a : PrimitiveId) :
    (c.renumber r).incident (r.primitive a) = (c.incident a).map (Connection.renumber r) := by
  simp only [incident, primitive?_renumber]
  cases c.primitive? a with
  | none => rfl
  | some p =>
    simp only [Option.map_some, connections_values_renumber, List.filter_map]
    congr 2
    funext k
    exact p.touches_renumber r k

/-- A primitive without connections has none after the renumbering either. -/
theorem orphanIssue?_renumber (p : Primitive) :
    (c.renumber r).orphanIssue? (p.renumber r) = (c.orphanIssue? p).map (Issue.renumber r) := by
  have hi : (p.renumber r).id = r.primitive p.id := rfl
  simp only [orphanIssue?, hi, incident_renumber, List.isEmpty_map]
  split <;> rfl

/-- The findings on the renumbered composition are those of before, in their order, at renumbered places. -/
theorem validate_renumber : (c.renumber r).validate = c.validate.renumber r := by
  simp only [validate, Report.renumber, primitives_values_renumber, connections_values_renumber, List.flatMap_map,
    List.filterMap_map, List.map_append, List.map_flatMap, List.map_filterMap, parameterIssues_renumber,
    connectionIssues_renumber]
  congr 3
  funext p
  exact c.orphanIssue?_renumber r p

/-- The verdict looks at severities only. -/
theorem isValid_renumber (report : Report) : (report.renumber r).isValid = report.isValid := by
  simp only [Report.isValid, Report.renumber, List.any_map]
  rfl

/-- The numbers of the parts do not matter. Under any renumbering the generation for any options gives the same text or fails
as before, the verdict of the validation stays, and the findings stay, in their order, but for the numbers in their places.
Where the primitives stand under their own names there is such a text. -/
theorem numbers_do_not_matter (options : Move.Options) :
    (c.renumber r).generate? options = c.generate? options ∧
      (c.renumber r).validate.isValid = c.validate.isValid ∧ (c.renumber r).validate = c.validate.renumber r ∧
        ((∀ e ∈ c.primitives.entries, e.2.id = e.1) →
          ∃ text, c.generate? options = some text ∧ (c.renumber r).generate? options = some text) := by
  have hsame : (c.renumber r).generate? options = c.generate? options := by
    rw [generate?, generate?, toModule?_renumber]
  refine ⟨hsame, ?_, c.validate_renumber r, fun hnamed => ?_⟩
  · rw [validate_renumber, isValid_renumber]
  · obtain ⟨text, ht⟩ := exists_generate?_iff.mpr fun _ => releasesHeld_of_nodup (insertionOrder_nodup hnamed)
    exact ⟨text, ht, hsame.trans ht⟩

end Composition

end DefiComposer
