import DefiComposer.Proofs.Resolvable

/-!
# Wiring lines: one for each connection, in the order of the flow

The lines are a nested walk: over the primitives in their order, and for each over all connections, leaving out those that do
not start there or whose end is not found. What comes out is stated by the connections that the lines show, `listing`: the
connections that can be resolved, grouped by the primitive at which they start, in their own order inside a group. Where the
numbers lead to the parts, the lines show the listing one by one (`Addressed.forall₂_shows`), it has each of these connections
once (`Addressed.listing_perm`), and without a cycle no connection into a primitive stands behind one out of it
(`Addressed.listing_sorted`). In a reachable composition every connection can be resolved.
-/

namespace DefiComposer

/-- What a filter keeps goes along with what the corresponding partial map answers. -/
theorem forall₂_filter_filterMap {α β : Type} {R : α → β → Prop} {keep : α → Bool} {f : α → Option β} {l : List α}
    (hkept : ∀ a ∈ l, keep a = true → ∃ b, f a = some b ∧ R a b) (hdropped : ∀ a ∈ l, keep a = false → f a = none) :
    List.Forall₂ R (l.filter keep) (l.filterMap f) := by
  induction l with
  | nil => exact .nil
  | cons a l ih =>
    have hrest := ih (fun x hx => hkept x (List.mem_cons_of_mem a hx)) fun x hx => hdropped x (List.mem_cons_of_mem a hx)
    cases hk : keep a with
    | false => simpa [List.filter_cons, hk, hdropped a List.mem_cons_self hk] using hrest
    | true =>
      obtain ⟨b, hb, hr⟩ := hkept a List.mem_cons_self hk
      simpa [List.filter_cons, hk, hb] using And.intro hr hrest

/-- In a list without repetitions, each element has a lower place than those behind it. -/
theorem pairwise_idxOf {α : Type} [DecidableEq α] {l : List α} (h : l.Nodup) :
    l.Pairwise fun a b => l.idxOf a < l.idxOf b := by
  rw [List.pairwise_iff_getElem]
  intro i j hi hj hij
  rwa [h.idxOf_getElem i hi, h.idxOf_getElem j hj]

namespace Composition

/-- The connections that start at an output of the primitive under a name. -/
def outgoing (c : Composition) (id : PrimitiveId) : List Connection :=
  match c.primitive? id with
  | some p => c.connections.values.filter p.sends
  | none => []

/-- The connections that can be resolved, by the primitive at which they start, in an order of the primitives. -/
def listing (c : Composition) (order : List PrimitiveId) : List Connection :=
  (order.flatMap c.outgoing).filter (c.Resolvable ·)

/-- A line shows a connection: the labels of the primitive and the port at each end, in one line each, and the tag. -/
def Shows (c : Composition) (k : Connection) (line : String) : Prop :=
  ∃ p ∈ c.primitives.values, ∃ q ∈ c.primitives.values, ∃ output ∈ p.outputs, ∃ input ∈ q.inputs,
    output.id = k.source ∧ input.id = k.target ∧
      line = Text.singleLine p.label ++ "." ++ Text.singleLine output.label ++ " -> " ++ Text.singleLine q.label ++ "." ++
        Text.singleLine input.label ++ " (" ++ k.resourceType ++ ")"

variable {c : Composition} {k : Connection} {p q : Primitive} {id : PrimitiveId} {order : List PrimitiveId}

/-- When a connection starts at an output of the primitive under a name. -/
theorem mem_outgoing : k ∈ c.outgoing id ↔ k ∈ c.connections.values ∧ ∃ p, c.primitive? id = some p ∧ p.sends k = true := by
  unfold outgoing
  cases hp : c.primitive? id <;> simp

/-- An order has the names of the primitives. -/
theorem mem_primitiveOrder? (ho : c.primitiveOrder? = some order) :
    id ∈ order ↔ ∃ p ∈ c.primitives.values, p.id = id := by
  rw [(primitiveOrder?_perm ho).mem_iff, insertionOrder, List.mem_map]

namespace Addressed

/-! ## The lines of one primitive -/

/-- What is listed under a name starts at the primitive that has it. -/
theorem exists_sender (h : c.Addressed) (hk : k ∈ c.outgoing id) :
    ∃ p ∈ c.primitives.values, p.sends k = true ∧ p.id = id := by
  obtain ⟨-, p, hname, hs⟩ := mem_outgoing.mp hk
  obtain ⟨hp, rfl⟩ := h.primitive?_eq_some_iff.mp hname
  exact ⟨p, hp, hs, rfl⟩

/-- A connection starts at one primitive only. -/
theorem eq_of_sends (h : c.Addressed) (hp : p ∈ c.primitives.values) (hq : q ∈ c.primitives.values)
    (hs : p.sends k = true) (hs' : q.sends k = true) : p = q :=
  h.eq_of_ownsPort hp hq (Primitive.ownsPort_of_sends hs) (Primitive.ownsPort_of_sends hs')

/-- When a connection starts at an output of a primitive. -/
theorem mem_outgoing_iff (h : c.Addressed) (hp : p ∈ c.primitives.values) :
    k ∈ c.outgoing p.id ↔ k ∈ c.connections.values ∧ p.sends k = true := by
  have hname : c.primitive? p.id = some p := h.primitive?_eq_some_iff.mpr ⟨hp, rfl⟩
  simp [mem_outgoing, hname]

/-- The line of a connection that leads from an output of one primitive to an input of another one. -/
theorem exists_wiringLine? (h : c.Addressed) (hp : p ∈ c.primitives.values) (hq : q ∈ c.primitives.values)
    (hs : p.sends k = true) (hr : q.receives k = true) : ∃ line, c.wiringLine? p k = some line ∧ c.Shows k line := by
  obtain ⟨output, houtput, input, hinput, ⟨hsource, ho⟩, ⟨htarget, hi⟩, hq'⟩ := h.exists_ends hq hs hr
  refine ⟨_, wiringLine?_eq_some.mpr ⟨output, input, q, ho, hi, hq', rfl⟩, ?_⟩
  exact ⟨p, hp, q, hq, output, houtput, input, hinput, hsource, htarget, rfl⟩

/-- A connection has no line at a primitive at which it does not start, and none at all if it cannot be resolved. -/
theorem wiringLine?_eq_none (h : c.Addressed) (hp : p ∈ c.primitives.values)
    (hk : ¬ (p.sends k = true ∧ c.Resolvable k)) : c.wiringLine? p k = none := by
  rw [Option.eq_none_iff_forall_ne_some]
  intro line hline
  obtain ⟨output, input, -, ho, hi, -, -⟩ := wiringLine?_eq_some.mp hline
  exact hk (h.resolvable_of_found hp ho hi)

/-- The lines at a primitive show the connections that start there and can be resolved. -/
theorem forall₂_shows_from (h : c.Addressed) (id : PrimitiveId) :
    List.Forall₂ c.Shows ((c.outgoing id).filter (c.Resolvable ·)) (c.wiringLinesFrom id) := by
  unfold outgoing wiringLinesFrom
  cases hid : c.primitive? id with
  | none => exact .nil
  | some p =>
    have hp : p ∈ c.primitives.values := OrderedMap.mem_values_of_get? hid
    simp only [List.filter_filter]
    refine forall₂_filter_filterMap (fun k _ hk => ?_) fun k _ hk => ?_
    · obtain ⟨hresolvable, hs⟩ := Bool.and_eq_true_iff.mp hk
      obtain ⟨-, -, q, hq, -, hr⟩ := of_decide_eq_true hresolvable
      exact h.exists_wiringLine? hp hq hs hr
    · refine h.wiringLine?_eq_none hp ?_
      rintro ⟨hs, hresolvable⟩
      simp [hs, hresolvable] at hk

/-! ## All lines -/

/-- The lines show the listing, one by one. -/
theorem forall₂_shows (h : c.Addressed) (order : List PrimitiveId) :
    List.Forall₂ c.Shows (c.listing order) (order.flatMap c.wiringLinesFrom) := by
  have hsame : List.Forall₂ Eq order order := List.forall₂_refl _
  rw [listing, List.filter_flatMap]
  refine List.rel_flatMap hsame ?_
  rintro id _ rfl
  exact h.forall₂_shows_from id

/-- An order has no name twice. -/
theorem order_nodup (h : c.Addressed) (ho : c.primitiveOrder? = some order) : order.Nodup :=
  (primitiveOrder?_perm ho).nodup_iff.mpr h.fits.primitives

/-- The listing has the connections that can be resolved. -/
theorem mem_listing_iff (h : c.Addressed) (ho : c.primitiveOrder? = some order) :
    k ∈ c.listing order ↔ k ∈ c.connections.values ∧ c.Resolvable k := by
  simp only [listing, List.mem_filter, List.mem_flatMap, decide_eq_true_eq]
  refine and_congr_left fun hresolvable => ?_
  constructor
  · rintro ⟨id, -, hk⟩
    exact (mem_outgoing.mp hk).1
  · intro hk
    obtain ⟨p, hp, -, -, hs, -⟩ := hresolvable
    exact ⟨p.id, (mem_primitiveOrder? ho).mpr ⟨p, hp, rfl⟩, (h.mem_outgoing_iff hp).mpr ⟨hk, hs⟩⟩

/-- The connections out of one primitive are not those out of another. -/
theorem disjoint_outgoing (h : c.Addressed) {a b : PrimitiveId} (hne : a ≠ b) : (c.outgoing a).Disjoint (c.outgoing b) := by
  intro k ha hb
  obtain ⟨p, hp, hs, rfl⟩ := h.exists_sender ha
  obtain ⟨q, hq, hs', rfl⟩ := h.exists_sender hb
  obtain rfl := h.eq_of_sends hp hq hs hs'
  exact hne rfl

/-- The listing has each connection that can be resolved, once. -/
theorem listing_perm (h : c.Addressed) (hnodup : c.connections.values.Nodup) (ho : c.primitiveOrder? = some order) :
    (c.listing order).Perm (c.connections.values.filter (c.Resolvable ·)) := by
  have hgroups : (order.flatMap c.outgoing).Nodup := by
    refine List.nodup_flatMap.mpr ⟨fun id _ => ?_, (h.order_nodup ho).imp fun hne => h.disjoint_outgoing hne⟩
    unfold outgoing
    cases c.primitive? id with
    | none => exact .nil
    | some p => exact hnodup.filter _
  refine (List.perm_ext_iff_of_nodup (hgroups.filter _) (hnodup.filter _)).mpr fun k => ?_
  rw [← listing, h.mem_listing_iff ho, List.mem_filter, decide_eq_true_eq]

/-! ## The order of the lines -/

/-- Where one connection leads out of a primitive and another one into it, the second is listed under a primitive that feeds
the one under which the first is listed. -/
theorem feeds_of_outgoing (h : c.Addressed) {a b : PrimitiveId} {out into : Connection} (hout : out ∈ c.outgoing a)
    (hinto : into ∈ c.outgoing b) (hp : p ∈ c.primitives.values) (hs : p.sends out = true) (hr : p.receives into = true) :
    c.wiring.Feeds b a := by
  obtain ⟨p', hp', hs', rfl⟩ := h.exists_sender hout
  obtain ⟨q, hq, hq', rfl⟩ := h.exists_sender hinto
  obtain rfl := h.eq_of_sends hp hp' hs hs'
  exact (h.feeds_iff hq hp).mpr
    ⟨into, (mem_outgoing.mp hinto).1, Primitive.ownsPort_of_sends hq', Primitive.ownsPort_of_receives hr⟩

/-- Without a cycle no connection into a primitive stands behind one out of it. -/
theorem listing_pairwise (h : c.Addressed) (hacyclic : ¬ c.wiring.Cyclic) (ho : c.primitiveOrder? = some order) :
    (c.listing order).Pairwise fun out into =>
      ∀ p ∈ c.primitives.values, p.sends out = true → ¬ p.receives into = true := by
  have hplaces := pairwise_idxOf (h.order_nodup ho)
  refine (List.pairwise_flatMap.mpr ⟨fun a _ => ?_, hplaces.imp fun {a b} hab => ?_⟩).filter _
  · refine List.pairwise_of_forall_mem_list fun out hout into hinto p hp hs hr => ?_
    exact hacyclic ⟨a, .single (h.feeds_of_outgoing hout hinto hp hs hr)⟩
  · intro out hout into hinto p hp hs hr
    have hba := order_sorted h.fits hacyclic ho (h.feeds_of_outgoing hout hinto hp hs hr)
    omega

/-- Without a cycle every connection into a primitive is listed before every connection out of it. -/
theorem listing_sorted (h : c.Addressed) (hacyclic : ¬ c.wiring.Cyclic) (ho : c.primitiveOrder? = some order)
    (hp : p ∈ c.primitives.values) {i j : Nat} {into out : Connection} (hi : (c.listing order)[i]? = some into)
    (hj : (c.listing order)[j]? = some out) (hr : p.receives into = true) (hs : p.sends out = true) : i < j := by
  obtain ⟨hi', rfl⟩ := List.getElem?_eq_some_iff.mp hi
  obtain ⟨hj', rfl⟩ := List.getElem?_eq_some_iff.mp hj
  rcases Nat.lt_trichotomy i j with hlt | rfl | hgt
  · exact hlt
  · have hk := ((h.mem_listing_iff ho).mp (List.getElem_mem hi')).1
    exact absurd ⟨p.id, .single ((h.feeds_iff hp hp).mpr
      ⟨_, hk, Primitive.ownsPort_of_sends hs, Primitive.ownsPort_of_receives hr⟩)⟩ hacyclic
  · exact absurd hr (List.pairwise_iff_getElem.mp (h.listing_pairwise hacyclic ho) j i hj' hi' hgt p hp hs)

end Addressed

/-! ## Reachable compositions -/

/-- In a well-formed composition nothing is left out. -/
theorem WellFormed.listing_eq (h : c.WellFormed) (order : List PrimitiveId) :
    c.listing order = order.flatMap c.outgoing := by
  refine List.filter_eq_self.mpr fun k hk => ?_
  obtain ⟨id, -, hk⟩ := List.mem_flatMap.mp hk
  exact decide_eq_true (h.resolvable (mem_outgoing.mp hk).1)

/-- In a well-formed composition the listing has all connections. -/
theorem WellFormed.listing_perm (h : c.WellFormed) (ho : c.primitiveOrder? = some order) :
    (c.listing order).Perm c.connections.values := by
  have hall : c.connections.values.filter (c.Resolvable ·) = c.connections.values :=
    List.filter_eq_self.mpr fun k hk => decide_eq_true (h.resolvable hk)
  rw [← hall]
  exact h.addressed.listing_perm (OrderedMap.nodup_values h.connectionsNamed) ho

/-- The lines of a reachable composition. There is an order of the primitives, and there are lines. They show the connections
one by one, grouped by the primitive at which they start in the order of the primitives, and in the order of the connections
inside a group; so there is one line for each connection. Where the wiring has no cycle, each line of a connection into a
primitive comes before each line of one out of it. -/
theorem wiringLines_exact (h : c.Reachable) :
    ∃ order lines, c.primitiveOrder? = some order ∧ c.wiringLines? = some lines ∧
      List.Forall₂ c.Shows (order.flatMap c.outgoing) lines ∧
      (order.flatMap c.outgoing).Perm c.connections.values ∧
      lines.length = c.connections.size ∧
      (¬ c.wiring.Cyclic → ∀ p ∈ c.primitives.values, ∀ (i j : Nat) (into out : Connection),
        (order.flatMap c.outgoing)[i]? = some into → (order.flatMap c.outgoing)[j]? = some out →
          p.receives into = true → p.sends out = true → i < j) := by
  have hw := h.wellFormed
  obtain ⟨order, ho⟩ := exists_primitiveOrder? hw.addressed.fits
  have hshows := hw.addressed.forall₂_shows order
  have hperm := hw.listing_perm ho
  have hlength : (order.flatMap c.wiringLinesFrom).length = c.connections.size := by
    rw [← hshows.length_eq, hperm.length_eq, OrderedMap.values, List.length_map, OrderedMap.size]
  refine ⟨order, _, ho, wiringLines?_eq_some_iff.mpr ⟨order, ho, rfl⟩, ?_⟩
  rw [← hw.listing_eq]
  exact ⟨hshows, hperm, hlength,
    fun hacyclic p hp i j into out hi hj hr hs => hw.addressed.listing_sorted hacyclic ho hp hi hj hr hs⟩

/-- The yields of a vault are staked, and then the loans of a pool go into the vault. -/
def stakedYields : Composition :=
  ((Store.new .zero .epoch "Stakes" "").run
    [ (.epoch, .addPrimitive .vault default), (.epoch, .addPrimitive .lendingPool default),
      (.epoch, .addPrimitive .staking default), (.epoch, .connect ⟨2⟩ ⟨7⟩), (.epoch, .connect ⟨5⟩ ⟨0⟩) ]).composition

/-- The connection into the vault was made after the one out of it, and has its line before it. -/
theorem stakedYields_lines :
    stakedYields.Reachable ∧ ¬ stakedYields.wiring.Cyclic ∧
    ∃ order lines vault into out, stakedYields.primitiveOrder? = some order ∧ stakedYields.wiringLines? = some lines ∧
      lines.length = 2 ∧ stakedYields.primitive? ⟨0⟩ = some vault ∧ stakedYields.connection? ⟨1⟩ = some into ∧
      stakedYields.connection? ⟨0⟩ = some out ∧ vault.receives into = true ∧ vault.sends out = true ∧
        ∀ i j : Nat, (order.flatMap stakedYields.outgoing)[i]? = some into →
          (order.flatMap stakedYields.outgoing)[j]? = some out → i < j := by
  have hreachable : stakedYields.Reachable := ⟨_, _, _, _, _, rfl⟩
  have hacyclic : ¬ stakedYields.wiring.Cyclic :=
    WiringGraph.not_cyclic_of_rank (fun id => if id = ⟨1⟩ then 0 else if id = ⟨0⟩ then 1 else 2) (by decide)
  obtain ⟨order, lines, ho, hlines, -, -, hlength, hsorted⟩ := wiringLines_exact hreachable
  obtain ⟨vault, hvault⟩ : ∃ p, stakedYields.primitive? ⟨0⟩ = some p := ⟨_, rfl⟩
  have hends : vault.receives ⟨⟨1⟩, ⟨5⟩, ⟨0⟩, "asset"⟩ = true ∧ vault.sends ⟨⟨0⟩, ⟨2⟩, ⟨7⟩, "asset"⟩ = true := by
    cases hvault
    decide
  refine ⟨hreachable, hacyclic, order, lines, vault, _, _, ho, hlines, hlength, hvault, rfl, rfl, hends.1, hends.2,
    fun i j hi hj => ?_⟩
  exact hsorted hacyclic vault (OrderedMap.mem_values_of_get? hvault) i j _ _ hi hj hends.1 hends.2

end Composition

end DefiComposer
