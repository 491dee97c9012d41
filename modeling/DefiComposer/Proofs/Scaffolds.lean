import DefiComposer.CommandLine.Commands
import DefiComposer.Proofs.CheckedRuns
import DefiComposer.Proofs.GraphFindings
import DefiComposer.Proofs.Releases

/-!
# Scaffolds: what the flags build, and how the command ends

A scaffold goes through three phases, and each keeps what `Scaffolded` says: the parts fit together, every primitive is
configured, and the primitives are those of the flags. The first phase adds one primitive for each flag, the second keeps
the frames of the primitives, the third adds one connection for each flag, between the ports that the flag names. So only
two kinds of findings are left: tags that go together without being equal, and primitives that no flag connects. The exit
code tells the three ends apart (`scaffold_outcome`).
-/

namespace DefiComposer

namespace CommandLine

/-! ## The ports that a flag names -/

/-- The port that an endpoint names in a composition, on the side that `labeled?` looks at. -/
def endpointPort? (c : Composition) (labeled? : Primitive → String → Option Port) (e : Endpoint) : Option Port :=
  c.primitives.values[e.index]?.bind (labeled? · e.label)

/-- The output port and the input port that a connection flag names in a composition. -/
def joinedPorts? (c : Composition) (raw : String) : Option (Port × Port) :=
  match readConnection raw with
  | .error _ => none
  | .ok (a, b) =>
    match endpointPort? c Primitive.outputLabeled? a, endpointPort? c Primitive.inputLabeled? b with
    | some source, some target => some (source, target)
    | _, _ => none

/-- A connection joins the ports that a flag names. -/
def JoinsFlag (c : Composition) (raw : String) (k : Connection) : Prop :=
  ∃ source target, joinedPorts? c raw = some (source, target) ∧ k.source = source.id ∧ k.target = target.id

/-- Some flag joins an output and an input whose tags are not equal. -/
def HasMismatch (c : Composition) (raws : List String) : Prop :=
  ∃ raw ∈ raws, ∃ source target, joinedPorts? c raw = some (source, target) ∧ source.resourceType ≠ target.resourceType

theorem endpointPort?_eq_some {c : Composition} {labeled? : Primitive → String → Option Port} {e : Endpoint} {port : Port} :
    endpointPort? c labeled? e = some port ↔
      ∃ p, c.primitives.values[e.index]? = some p ∧ labeled? p e.label = some port :=
  Option.bind_eq_some_iff

/-- The ports that a flag names are those of the two endpoints that are read from it. -/
theorem joinedPorts?_eq_some {c : Composition} {raw : String} {source target : Port} :
    joinedPorts? c raw = some (source, target) ↔
      ∃ a b, readConnection raw = .ok (a, b) ∧ endpointPort? c Primitive.outputLabeled? a = some source ∧
        endpointPort? c Primitive.inputLabeled? b = some target := by
  unfold joinedPorts?
  split
  · rename_i e he
    simp [he]
  · rename_i a b hab
    split
    · rename_i s t hs ht
      simp [hab, hs, ht]
    · rename_i hno
      simp only [hab, reduceCtorEq, Except.ok.injEq, Prod.mk.injEq, false_iff, not_exists, not_and]
      rintro a' b' ⟨rfl, rfl⟩ hs ht
      exact hno _ _ hs ht

/-- The ports that a flag names are an output and an input of primitives of the composition. -/
theorem exists_of_joinedPorts? {c : Composition} {raw : String} {source target : Port}
    (h : joinedPorts? c raw = some (source, target)) :
    (∃ p ∈ c.primitives.values, source ∈ p.outputs) ∧ ∃ q ∈ c.primitives.values, target ∈ q.inputs := by
  obtain ⟨a, b, -, hs, ht⟩ := joinedPorts?_eq_some.mp h
  obtain ⟨p, hp, hsource⟩ := endpointPort?_eq_some.mp hs
  obtain ⟨q, hq, htarget⟩ := endpointPort?_eq_some.mp ht
  exact ⟨⟨p, List.mem_of_getElem? hp, List.mem_of_find?_eq_some hsource⟩,
    ⟨q, List.mem_of_getElem? hq, List.mem_of_find?_eq_some htarget⟩⟩

/-- Only the primitives say which ports a flag names. -/
theorem JoinsFlag.of_primitives {c c' : Composition} (h : c'.primitives = c.primitives) {raw : String} {k : Connection}
    (hk : JoinsFlag c raw k) : JoinsFlag c' raw k := by
  obtain ⟨source, target, hports, hends⟩ := hk
  refine ⟨source, target, ?_, hends⟩
  rw [← hports]
  simp only [joinedPorts?, endpointPort?, h]

/-! ## What the phases keep -/

/-- A composition whose primitives were added under the names `ids` by flags with the given tags. -/
structure Scaffolded (ids : List PrimitiveId) (tags : List String) (c : Composition) : Prop where
  wellFormed : c.WellFormed
  configured : ∀ p ∈ c.primitives.values, p.IsConfigured
  names : c.insertionOrder = ids
  kinds : c.primitives.values.map (·.kind.tag) = tags

variable {now : Timestamp} {ids : List PrimitiveId} {tags : List String} {s s' : Store}

/-- The tag of a kind is the flag that names it. -/
theorem tag_of_ofTag {tag : String} {kind : Kind} (h : Kind.ofTag tag = .ok kind) : kind.tag = tag := by
  unfold Kind.ofTag Kind.ofTag? at h
  split at h
  · rename_i k hk
    cases h
    simpa using List.find?_some hk
  · cases h

/-- Another primitive is the last one, under a name of its own. -/
theorem Scaffolded.addPrimitive (h : Scaffolded ids tags s.composition) (now : Timestamp) (kind : Kind)
    (position : Position) :
    Scaffolded (ids ++ [(s.addPrimitive now kind position).1.id]) (tags ++ [kind.tag])
      (s.addPrimitive now kind position).2.composition := by
  have hfresh := Catalog.instantiate_fresh kind position s.composition.ids
  have hnew : (Catalog.instantiate kind position s.composition.ids).1.id ∉ s.composition.primitives.keys := by
    rw [hfresh.named]
    exact h.wellFormed.fresh_primitive
  have hvalues : (s.addPrimitive now kind position).2.composition.primitives.values =
      s.composition.primitives.values ++ [(Catalog.instantiate kind position s.composition.ids).1] :=
    OrderedMap.values_insert_of_not_mem hnew
  refine ⟨h.wellFormed.addPrimitive now kind position,
    s.perform_isConfigured now (.addPrimitive kind position) rfl h.configured, ?_, ?_⟩
  · rw [Composition.insertionOrder, hvalues, List.map_append, ← h.names]
    rfl
  · rw [hvalues, List.map_append, h.kinds, List.map_singleton, hfresh.ofKind]

/-- The first phase adds a primitive for each flag. -/
theorem addKinds_scaffolded {tags' : List String} {ids' : List PrimitiveId} (h : Scaffolded ids tags s.composition)
    (hok : addKinds now tags' ids s = .ok (ids', s')) :
    Scaffolded ids' (tags ++ tags') s'.composition ∧ s'.composition.connections = s.composition.connections := by
  induction tags' generalizing ids tags s with
  | nil =>
    cases hok
    rw [List.append_nil]
    exact ⟨h, rfl⟩
  | cons tag tags' ih =>
    unfold addKinds at hok
    split at hok
    · cases hok
    · rename_i kind hkind
      obtain ⟨hs, hk⟩ := ih (h.addPrimitive now kind _) hok
      rw [tag_of_ofTag hkind, List.append_assoc] at hs
      exact ⟨hs, hk⟩

/-- Setting a parameter keeps the frames of the primitives. -/
theorem setParameterFromJson_sameFrames (s : Store) (now : Timestamp) (id : PrimitiveId) (parameter : String) (raw : Json) :
    Composition.SameFrames s.composition (s.setParameterFromJson now id parameter raw).2.composition ∧
      (s.setParameterFromJson now id parameter raw).2.composition.connections = s.composition.connections := by
  rcases s.setParameterFromJson_cases now id parameter raw with hs | ⟨value, -, hs⟩
  · rw [hs]
    exact ⟨rfl, rfl⟩
  · rw [hs]
    have hframe : ∀ p : Primitive, ({ p with parameters := p.parameters.insert parameter value } : Primitive).frame =
        p.frame := fun _ => rfl
    obtain ⟨hframes, hconnections, -⟩ := s.composition.update_sameFrames now id hframe
    exact s.commit_keeps ⟨rfl, rfl⟩ ⟨hframes, hconnections⟩
      (motive := fun c => Composition.SameFrames s.composition c ∧ c.connections = s.composition.connections)

/-- Compositions with the same frames have them in the same order. -/
theorem frames_eq {c c' : Composition} (h : Composition.SameFrames c c') :
    c'.primitives.values.map Primitive.frame = c.primitives.values.map Primitive.frame := by
  have hvalues : ∀ d : Composition, d.primitives.values.map Primitive.frame =
      (d.primitives.entries.map fun e => (e.1, e.2.frame)).map Prod.snd := by
    intro d
    simp only [OrderedMap.values, List.map_map]
    rfl
  rw [hvalues, hvalues, h]

/-- Names and kinds are in the frames. -/
theorem Scaffolded.of_sameFrames {c c' : Composition} (h : Scaffolded ids tags c) (hs : Composition.SameFrames c c')
    (hw : c'.WellFormed) (hc : ∀ p ∈ c'.primitives.values, p.IsConfigured) : Scaffolded ids tags c' := by
  have hframes := frames_eq hs
  have hnames : ∀ d : Composition, d.insertionOrder = (d.primitives.values.map Primitive.frame).map (·.1) :=
    fun d => by rw [List.map_map]; rfl
  have hkinds : ∀ d : Composition,
      d.primitives.values.map (·.kind.tag) = (d.primitives.values.map Primitive.frame).map (·.2.1.tag) :=
    fun d => by rw [List.map_map]; rfl
  refine ⟨hw, hc, ?_, ?_⟩
  · rw [← h.names, hnames, hnames, hframes]
  · rw [← h.kinds, hkinds, hkinds, hframes]

/-- Setting a parameter keeps names and kinds. -/
theorem applyAssignment_scaffolded {raw : String} (h : Scaffolded ids tags s.composition)
    (hok : applyAssignment now ids s raw = .ok s') :
    Scaffolded ids tags s'.composition ∧ s'.composition.connections = s.composition.connections := by
  unfold applyAssignment at hok
  split at hok
  · cases hok
  rename_i a ha
  split at hok
  · cases hok
  rename_i id hid
  split at hok
  · rename_i v t hset
    cases hok
    obtain ⟨hframes, hconnections⟩ := setParameterFromJson_sameFrames s now id a.parameter (.string a.value)
    have hw := s.perform_wellFormed now (.setParameterFromJson id a.parameter (.string a.value)) h.wellFormed
    have hc := s.perform_isConfigured now (.setParameterFromJson id a.parameter (.string a.value)) rfl h.configured
    simp only [Store.perform, hset] at hframes hconnections hw hc
    exact ⟨h.of_sameFrames hframes hw hc, hconnections⟩
  · cases hok

/-- The second phase keeps names, kinds and connections. -/
theorem assignments_scaffolded {raws : List String} (h : Scaffolded ids tags s.composition)
    (hok : raws.foldlM (applyAssignment now ids) s = .ok s') :
    Scaffolded ids tags s'.composition ∧ s'.composition.connections = s.composition.connections := by
  induction raws generalizing s with
  | nil =>
    cases hok
    exact ⟨h, rfl⟩
  | cons raw raws ih =>
    rw [List.foldlM_cons] at hok
    cases hraw : applyAssignment now ids s raw with
    | error e =>
      rw [hraw] at hok
      cases hok
    | ok t =>
      rw [hraw] at hok
      obtain ⟨ht, hconnections⟩ := applyAssignment_scaffolded h hraw
      obtain ⟨hs, hrest⟩ := ih ht hok
      exact ⟨hs, hrest.trans hconnections⟩

/-! ## The third phase -/

/-- The name that a flag finds is that of the port it names. -/
theorem portAt_eq_ok {c : Composition} (h : Scaffolded ids tags c) {labeled? : Primitive → String → Option Port}
    {missing : String → BuildError} {e : Endpoint} {id : PortId} (hok : portAt ids c labeled? missing e = .ok id) :
    ∃ port, endpointPort? c labeled? e = some port ∧ port.id = id := by
  unfold portAt primitiveAt at hok
  split at hok
  · cases hok
  rename_i owner howner
  split at howner
  · rename_i hname
    cases howner
    rw [← h.names, Composition.insertionOrder, List.getElem?_map, Option.map_eq_some_iff] at hname
    obtain ⟨p, hp, rfl⟩ := hname
    have hfound : c.primitive? p.id = some p :=
      OrderedMap.get?_of_mem_values h.wellFormed.primitivesNamed (List.mem_of_getElem? hp)
    rw [hfound] at hok
    split at hok
    · rename_i port hport
      cases hok
      exact ⟨port, endpointPort?_eq_some.mpr ⟨p, hp, hport⟩, rfl⟩
    · cases hok
  · cases howner

/-- A flag that succeeds adds one connection, between the ports that it names, and keeps the primitives. -/
theorem applyConnection_scaffolded {raw : String} (h : Scaffolded ids tags s.composition)
    (hok : applyConnection now ids s raw = .ok s') :
    Scaffolded ids tags s'.composition ∧ s'.composition.primitives = s.composition.primitives ∧
      ∃ k, JoinsFlag s.composition raw k ∧
        s'.composition.connections.values = s.composition.connections.values ++ [k] := by
  unfold applyConnection at hok
  split at hok
  · cases hok
  rename_i a b hab
  split at hok
  · cases hok
  rename_i source hsource
  split at hok
  · cases hok
  rename_i target htarget
  obtain ⟨output, ho, rfl⟩ := portAt_eq_ok h hsource
  obtain ⟨input, hi, rfl⟩ := portAt_eq_ok h htarget
  have hflag : joinedPorts? s.composition raw = some (output, input) := joinedPorts?_eq_some.mpr ⟨a, b, hab, ho, hi⟩
  have hw := s.perform_wellFormed now (.connect output.id input.id) h.wellFormed
  have hc := s.perform_isConfigured now (.connect output.id input.id) rfl h.configured
  cases hr : s.composition.resolve output.id input.id with
  | error e =>
    simp only [Store.connect, Store.commit, Composition.connect_of_error hr] at hok
    cases hok
  | ok r =>
    simp only [Store.perform, Store.connect, Store.commit, Composition.connect_of_ok hr] at hok hw hc
    cases hok
    have hvalues := OrderedMap.values_insert_of_not_mem
      (v := (⟨⟨s.composition.ids.nextConnection⟩, output.id, input.id, r.source.resourceType⟩ : Connection))
      h.wellFormed.fresh_connection
    exact ⟨⟨hw, hc, h.names, h.kinds⟩, rfl, _, ⟨output, input, hflag, rfl, rfl⟩, hvalues⟩

/-- The third phase adds a connection for each flag, and keeps the primitives. -/
theorem connections_scaffolded {raws : List String} (h : Scaffolded ids tags s.composition)
    (hok : raws.foldlM (applyConnection now ids) s = .ok s') :
    Scaffolded ids tags s'.composition ∧ s'.composition.primitives = s.composition.primitives ∧
      ∃ made, List.Forall₂ (JoinsFlag s'.composition) raws made ∧
        s'.composition.connections.values = s.composition.connections.values ++ made := by
  induction raws generalizing s with
  | nil =>
    cases hok
    exact ⟨h, rfl, [], .nil, (List.append_nil _).symm⟩
  | cons raw raws ih =>
    rw [List.foldlM_cons] at hok
    cases hraw : applyConnection now ids s raw with
    | error e =>
      rw [hraw] at hok
      cases hok
    | ok t =>
      rw [hraw] at hok
      obtain ⟨ht, hprimitives, k, hk, hvalues⟩ := applyConnection_scaffolded h hraw
      obtain ⟨hs, hsame, made, hmade, hrest⟩ := ih ht hok
      have hlast := hsame.trans hprimitives
      refine ⟨hs, hlast, k :: made, .cons (hk.of_primitives hlast) hmade, ?_⟩
      rw [hrest, hvalues, List.append_assoc, List.singleton_append]

/-- What the flags build: a primitive for each kind and a connection for each connection flag, in order. -/
theorem build_scaffolded {request : Request} {options : Move.Options} (hok : build now request options = .ok s) :
    (∃ ids, Scaffolded ids request.kinds s.composition) ∧
      List.Forall₂ (JoinsFlag s.composition) request.connections s.composition.connections.values := by
  have hnew : Scaffolded [] [] (Composition.new .zero now request.name request.description) :=
    ⟨Composition.new_wellFormed .zero now request.name request.description, nofun, rfl, rfl⟩
  unfold build at hok
  dsimp only at hok
  cases hkinds : addKinds now request.kinds []
      { Store.new .zero now request.name request.description with options } with
  | error e =>
    rw [hkinds] at hok
    cases hok
  | ok r =>
    obtain ⟨ids, t⟩ := r
    rw [hkinds] at hok
    obtain ⟨ht, hnone⟩ := addKinds_scaffolded hnew hkinds
    cases hset : request.assignments.foldlM (applyAssignment now ids) t with
    | error e =>
      simp only [bind, Except.bind, hset] at hok
      cases hok
    | ok u =>
      simp only [bind, Except.bind, hset] at hok
      obtain ⟨hu, hkeep⟩ := assignments_scaffolded ht hset
      obtain ⟨hs, -, made, hmade, hvalues⟩ := connections_scaffolded hu hok
      rw [hkeep, hnone] at hvalues
      rw [hvalues]
      exact ⟨⟨ids, hs⟩, hmade⟩

/-! ## The findings on a scaffold -/

/-- Where two lists correspond, each element of the first has its counterpart in the second. -/
theorem exists_mem_of_forall₂ {α β : Type} {R : α → β → Prop} {l : List α} {l' : List β} (h : List.Forall₂ R l l') :
    ∀ a ∈ l, ∃ b ∈ l', R a b := by
  induction h with
  | nil => exact nofun
  | cons hab _ ih =>
    rw [List.forall_mem_cons]
    exact ⟨⟨_, List.mem_cons_self, hab⟩, fun a ha => (ih a ha).imp fun b hb => ⟨List.mem_cons_of_mem _ hb.1, hb.2⟩⟩

variable {c : Composition} {raws : List String}

/-- What is found on a connection is told by the tags of the ports that its flag names. -/
theorem connectionIssues_of_joinsFlag (h : c.WellFormed) {k : Connection} (hk : k ∈ c.connections.values) {raw : String}
    {source target : Port} (hports : joinedPorts? c raw = some (source, target)) (hsource : k.source = source.id)
    (htarget : k.target = target.id) :
    c.connectionIssues k = if source.resourceType = target.resourceType then []
      else [Composition.mismatchIssue (some { connection := some k.id }) source target] := by
  obtain ⟨⟨p, hp, hs⟩, q, hq, ht⟩ := exists_of_joinedPorts? hports
  obtain ⟨source', target', tier, hs', ht', htier, heq⟩ := h.connectionIssues_eq hk
  rw [hsource, h.addressed.output?_of_mem hp hs, Option.some.injEq] at hs'
  rw [htarget, h.addressed.input?_of_mem hq ht, Option.some.injEq] at ht'
  subst hs' ht'
  have hexact : tier = .exact ↔ source.resourceType = target.resourceType := by
    rw [← h.exact_iff hp hq hs ht, htier, Option.some.injEq]
  simp only [heq, hexact]

/-- There is nothing to find but tags that differ, and primitives without connections. -/
theorem Scaffolded.findings (h : Scaffolded ids tags c) {i : Issue} (hi : i ∈ c.validate.issues) :
    i.kind = .resourceTypeMismatch ∧ i.severity = .error ∨ i.kind = .orphanedPrimitive ∧ i.severity = .warning := by
  rcases Composition.mem_validate.mp hi with ⟨p, hp, r, hr, hi⟩ | ⟨k, hk, hi⟩ | ⟨p, hp, hi⟩
  · rw [(h.configured p hp).parameterIssue?_eq_none hr] at hi
    cases hi
  · obtain ⟨source, target, tier, -, -, -, heq⟩ := h.wellFormed.connectionIssues_eq hk
    rw [heq] at hi
    split at hi
    · cases hi
    · rw [List.mem_singleton.mp hi]
      exact Or.inl ⟨rfl, rfl⟩
  · unfold Composition.orphanIssue? at hi
    split at hi
    · cases hi
      exact Or.inr ⟨rfl, rfl⟩
    · cases hi

/-- The report has an error exactly when some flag names ports whose tags differ. -/
theorem Scaffolded.not_isValid_iff (h : Scaffolded ids tags c)
    (hflags : List.Forall₂ (JoinsFlag c) raws c.connections.values) :
    c.validate.isValid = false ↔ HasMismatch c raws := by
  simp only [Report.isValid, Bool.not_eq_false', List.any_eq_true, decide_eq_true_eq]
  constructor
  · rintro ⟨i, hi, hseverity⟩
    have hkind : i.kind = .resourceTypeMismatch := by
      rcases h.findings hi with ⟨hkind, -⟩ | ⟨-, hwarning⟩
      · exact hkind
      · rw [hseverity] at hwarning
        cases hwarning
    obtain ⟨k, hk, hi, -⟩ := (Composition.mem_ofKind_connections (by decide)).mp (Report.mem_ofKind.mpr ⟨hi, hkind⟩)
    obtain ⟨raw, hraw, source, target, hports, hs, ht⟩ := exists_mem_of_forall₂ hflags.flip k hk
    refine ⟨raw, hraw, source, target, hports, fun htags => ?_⟩
    rw [connectionIssues_of_joinsFlag h.wellFormed hk hports hs ht, if_pos htags] at hi
    cases hi
  · rintro ⟨raw, hraw, source, target, hports, htags⟩
    obtain ⟨k, hk, source', target', hports', hs, ht⟩ := exists_mem_of_forall₂ hflags raw hraw
    rw [hports, Option.some.injEq, Prod.mk.injEq] at hports'
    obtain ⟨rfl, rfl⟩ := hports'
    have hi : Composition.mismatchIssue (some { connection := some k.id }) source target ∈ c.connectionIssues k := by
      rw [connectionIssues_of_joinsFlag h.wellFormed hk hports hs ht, if_neg htags]
      exact List.mem_singleton_self _
    exact ⟨_, Composition.mem_validate.mpr (Or.inr (Or.inl ⟨k, hk, hi⟩)), rfl⟩

/-! ## The end of a scaffold -/

/-- A store of which no two primitives share a name has a module. -/
theorem exists_exportText? (h : s.composition.insertionOrder.Nodup) : ∃ code, s.exportText? = some code :=
  Composition.exists_generate?_iff.mpr fun _ => Composition.releasesHeld_of_nodup h

/-- A scaffold that is built ends, with two if it has a mismatch, else with zero. -/
theorem exitCode_of_build {request : Request} {options : Move.Options} (hok : build now request options = .ok s)
    (json : Bool) :
    ∃ outcome, scaffold? now request options json = some outcome ∧
      (outcome.exitCode = 0 ∧ ¬ HasMismatch s.composition request.connections ∨
        outcome.exitCode = 2 ∧ HasMismatch s.composition request.connections) := by
  obtain ⟨⟨ids, h⟩, hflags⟩ := build_scaffolded hok
  have hiff : s.validate.isValid = false ↔ HasMismatch s.composition request.connections := h.not_isValid_iff hflags
  unfold scaffold?
  rw [hok]
  dsimp only
  cases hvalid : s.validate.isValid with
  | true =>
    obtain ⟨code, hcode⟩ := exists_exportText? h.wellFormed.ids_nodup
    refine ⟨_, by rw [if_pos rfl, hcode, Option.map_some], Or.inl ⟨by simp [reportOutcome, hvalid], fun hm => ?_⟩⟩
    rw [hiff.mpr hm] at hvalid
    cases hvalid
  | false => exact ⟨_, if_neg Bool.false_ne_true, Or.inr ⟨by simp [reportOutcome, hvalid], hiff.mp hvalid⟩⟩

/-- If the flags build a store, its composition has one primitive for each kind flag, in order, and one connection for each
connection flag, in order and between the ports that the flag names; and the validation finds nothing but tags that differ
(errors) and primitives without connections (warnings). The command always has an outcome. It ends with one exactly when the
flags build no store, with two exactly when they do and some flag joins an output and an input whose tags are not equal, and
with zero exactly when they do and none does. -/
theorem scaffold_outcome (now : Timestamp) (request : Request) (options : Move.Options) (json : Bool) :
    (∀ s, build now request options = .ok s →
        s.composition.primitives.values.map (·.kind.tag) = request.kinds ∧
          List.Forall₂ (JoinsFlag s.composition) request.connections s.composition.connections.values ∧
          ∀ i ∈ s.validate.issues, i.kind = .resourceTypeMismatch ∧ i.severity = .error ∨
            i.kind = .orphanedPrimitive ∧ i.severity = .warning) ∧
      ∃ outcome, scaffold? now request options json = some outcome ∧
        (outcome.exitCode = 1 ↔ ∃ e, build now request options = .error e) ∧
        (outcome.exitCode = 2 ↔
          ∃ s, build now request options = .ok s ∧ HasMismatch s.composition request.connections) ∧
        (outcome.exitCode = 0 ↔
          ∃ s, build now request options = .ok s ∧ ¬ HasMismatch s.composition request.connections) := by
  constructor
  · intro s hok
    obtain ⟨⟨ids, h⟩, hflags⟩ := build_scaffolded hok
    exact ⟨h.kinds, hflags, fun _ hi => h.findings hi⟩
  cases hbuild : build now request options with
  | error e => exact ⟨_, by rw [scaffold?, hbuild], by simp⟩
  | ok s =>
    obtain ⟨outcome, houtcome, hcode⟩ := exitCode_of_build hbuild json
    refine ⟨outcome, houtcome, ?_⟩
    rcases hcode with ⟨hcode, hm⟩ | ⟨hcode, hm⟩
    · simp [hcode, hm]
    · simp [hcode, hm]

/-- The yield of a vault may be collateral, by a synonym; the flag is accepted and the validation refuses it. -/
example :
    let request : Request := ⟨"Yield", "", ["vault", "lendingPool"], [], ["0: yield =1:COLLATERAL"]⟩
    (scaffold? .epoch request {} false).map (·.exitCode) = some 2 ∧
      (scaffold? .epoch { request with connections := ["0:Yield=2:Collateral"] } {} false).map (·.exitCode) = some 1 ∧
      (scaffold? .epoch { request with connections := ["1:Loan=0:Deposit"] } {} false).map (·.exitCode) = some 0 := by
  decide +kernel

end CommandLine

end DefiComposer
