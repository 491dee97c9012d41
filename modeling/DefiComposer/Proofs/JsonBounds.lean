import DefiComposer.Json.Parser
import DefiComposer.Json.Basic
import DefiComposer.Proofs.Doubles
import DefiComposer.Proofs.Maps

/-!
# JSON bounds: the numbers that a text can write

A JSON text writes integers of 64 bits and decimals of one word (`Json.isBounded_of_parse?`), wherever in it they stand. The
double of such a number is finite, if it has one (`Json.isFinite_of_float?`): the reader refuses a number that is too large
and never gives an infinite one. The bound goes down to the fields of a record, the items of a list and the members of an
object, so a decoder has it wherever it looks for a number.
-/

namespace DefiComposer

namespace Json

/-- An integer of 64 bits, or a decimal of one word. -/
def Number.IsBounded : Number → Prop
  | .integer n => fits64 n = true
  | .decimal d => d.coefficient < 2 ^ 64

/-- A number stands somewhere in a value. -/
inductive HasNumber (n : Number) : Json → Prop
  | number : HasNumber n (.number n)
  | item {item : Json} {items : List Json} (hm : item ∈ items) (h : HasNumber n item) : HasNumber n (.array items)
  | member {member : Name × Json} {members : List (Name × Json)} (hm : member ∈ members)
    (h : HasNumber n member.2) : HasNumber n (.object members)

/-- All numbers that stand in a value are bounded. -/
def IsBounded (j : Json) : Prop := ∀ n, HasNumber n j → n.IsBounded

theorem isBounded_array {items : List Json} : (Json.array items).IsBounded ↔ ∀ item ∈ items, item.IsBounded := by
  constructor
  · exact fun h item hm n hn => h n (.item hm hn)
  · rintro h n (_ | ⟨hm, hn⟩)
    exact h _ hm n hn

theorem isBounded_object {members : List (Name × Json)} :
    (Json.object members).IsBounded ↔ ∀ member ∈ members, member.2.IsBounded := by
  constructor
  · exact fun h member hm n hn => h n (.member hm hn)
  · rintro h n (_ | _ | ⟨hm, hn⟩)
    exact h _ hm n hn

/-! ## Reading a text -/

/-- What is put together from bounded members is bounded: it is the object of these members, or holds nothing. -/
theorem isBounded_ofMembers {members : List (Option Name × Json)} (h : ∀ member ∈ members, member.2.IsBounded) :
    (ofMembers members).IsBounded := by
  unfold ofMembers
  split
  · rename_i named hnamed
    refine isBounded_object.mpr fun member hm => ?_
    obtain ⟨original, ho, hname⟩ := exists_of_mem_mapM hnamed member hm
    obtain ⟨name, -, rfl⟩ := Option.map_eq_some_iff.mp hname
    exact h original ho
  · nofun

/-- The value of a string holds no number. -/
theorem isBounded_ofPieces (pieces : List Piece) : (ofPieces pieces).IsBounded := by
  unfold ofPieces
  split <;> nofun

/-- A number that was scanned fits in 64 bits, or it is the decimal of as many digits as fit in a word. -/
theorem Number.isBounded_ofScan (negative : Bool) (scan : Decimal.Scan) :
    (Number.ofScan negative scan).IsBounded := by
  unfold Number.ofScan
  dsimp only
  generalize (if negative = true then -(Decimal.ofDigits scan.whole : Int) else Decimal.ofDigits scan.whole) = n
  split
  · rename_i h
    simp only [Bool.and_eq_true] at h
    exact h.1.2
  · exact scan.coefficient_leading_lt negative

/-- A number that was read is bounded. -/
theorem isBounded_of_number? {s rest : List Char} {n : Number} (h : number? s = some (n, rest)) :
    (Json.number n).IsBounded := by
  unfold number? at h
  dsimp only at h
  split at h
  all_goals
    split at h
    · cases h
      rintro _ ⟨⟩
      exact Number.isBounded_ofScan _ _
    · cases h

/-- Whatever the readers find with some bound on the depth is bounded. -/
structure FindsBounded (fuel : Nat) : Prop where
  value : ∀ s j rest, value? fuel s = some (j, rest) → j.IsBounded
  items : ∀ s items rest, items? fuel s = some (items, rest) → ∀ item ∈ items, item.IsBounded
  members : ∀ s members rest, members? fuel s = some (members, rest) → ∀ member ∈ members, member.2.IsBounded

/-- With fuel for one more step a value is bounded, if items and members are with less. -/
theorem FindsBounded.value_succ {fuel : Nat} (ih : FindsBounded fuel) {s : List Char} {j : Json} {rest : List Char}
    (h : value? (fuel + 1) s = some (j, rest)) : j.IsBounded := by
  rw [value?] at h
  split at h
  case h_4 =>
    obtain ⟨⟨pieces, _⟩, -, hj⟩ := Option.map_eq_some_iff.mp h
    cases hj
    exact isBounded_ofPieces pieces
  case h_5 =>
    split at h
    · cases h
      exact isBounded_array.mpr nofun
    · obtain ⟨⟨items, _⟩, hitems, hj⟩ := Option.map_eq_some_iff.mp h
      cases hj
      exact isBounded_array.mpr (ih.items _ _ _ hitems)
  case h_6 =>
    split at h
    · cases h
      exact isBounded_object.mpr nofun
    · obtain ⟨⟨members, _⟩, hmembers, hj⟩ := Option.map_eq_some_iff.mp h
      cases hj
      exact isBounded_ofMembers (ih.members _ _ _ hmembers)
  case h_7 =>
    obtain ⟨⟨n, _⟩, hn, hj⟩ := Option.map_eq_some_iff.mp h
    cases hj
    exact isBounded_of_number? hn
  all_goals
    -- a word holds no number
    obtain ⟨_, -, hj⟩ := Option.map_eq_some_iff.mp h
    cases hj
    nofun

theorem FindsBounded.items_succ {fuel : Nat} (ih : FindsBounded fuel) {s : List Char} {items : List Json}
    {rest : List Char} (h : items? (fuel + 1) s = some (items, rest)) : ∀ item ∈ items, item.IsBounded := by
  rw [items?] at h
  split at h
  · cases h
  · rename_i item _ hitem
    have hbounded := ih.value _ _ _ hitem
    split at h
    · cases h
      simpa using hbounded
    · obtain ⟨⟨items, _⟩, hitems, hj⟩ := Option.map_eq_some_iff.mp h
      cases hj
      exact List.forall_mem_cons.mpr ⟨hbounded, ih.items _ _ _ hitems⟩
    · cases h

theorem FindsBounded.members_succ {fuel : Nat} (ih : FindsBounded fuel) {s : List Char}
    {members : List (Option Name × Json)} {rest : List Char} (h : members? (fuel + 1) s = some (members, rest)) :
    ∀ member ∈ members, member.2.IsBounded := by
  rw [members?] at h
  split at h
  case h_2 => cases h
  split at h
  case h_1 => cases h
  split at h
  case h_2 => cases h
  split at h
  · cases h
  · rename_i value _ hvalue
    have hbounded := ih.value _ _ _ hvalue
    split at h
    · cases h
      simpa using hbounded
    · obtain ⟨⟨members, _⟩, hmembers, hj⟩ := Option.map_eq_some_iff.mp h
      cases hj
      exact List.forall_mem_cons.mpr ⟨hbounded, ih.members _ _ _ hmembers⟩
    · cases h

/-- Whatever the fuel, what is read is bounded. -/
theorem findsBounded (fuel : Nat) : FindsBounded fuel := by
  induction fuel with
  | zero => exact ⟨nofun, nofun, nofun⟩
  | succ fuel ih => exact ⟨fun _ _ _ => ih.value_succ, fun _ _ _ => ih.items_succ, fun _ _ _ => ih.members_succ⟩

/-- A text writes bounded numbers only. -/
theorem isBounded_of_parse? {text : String} {j : Json} (h : parse? text = some j) : j.IsBounded := by
  unfold parse? at h
  dsimp only at h
  split at h
  · rename_i hvalue
    split at h
    · cases h
      exact (findsBounded _).value _ _ _ hvalue
    · cases h
  · cases h

/-! ## Parts of a bounded value -/

/-- The double of a bounded number is finite. -/
theorem isFinite_of_float? {j : Json} (hj : j.IsBounded) {x : Float} (h : float? j = some x) : x.isFinite = true := by
  unfold float? at h
  split at h
  · rename_i n
    have hn := hj n .number
    cases n with
    | integer n =>
      cases h
      simp only [Number.IsBounded, fits64, Bool.and_eq_true, decide_eq_true_eq, Nat.pow_eq] at hn
      exact Decimal.isFinite_toFloat (by omega) _
    | decimal d => exact Decimal.isFinite_of_scaled? hn h
  · cases h

/-- All fields of a record are bounded. -/
def Record.IsBounded (r : Record) : Prop := ∀ field ∈ r.fields, field.2.IsBounded

/-- The members that a record takes from a bounded value are bounded. -/
theorem IsBounded.record? {j : Json} (hj : j.IsBounded) {names : List String} {r : Record}
    (h : j.record? names = some r) : r.IsBounded := by
  unfold Json.record? at h
  split at h
  · dsimp only at h
    split at h
    · cases h
      intro field hf
      obtain ⟨member, hm, rfl⟩ := List.mem_map.mp (List.mem_filter.mp hf).1
      exact isBounded_object.mp hj member hm
    · cases h
  · split at h
    · cases h
      exact fun field hf => isBounded_array.mp hj field.2 (List.of_mem_zip hf).2
    · cases h
  · cases h

/-- What is found under a name of a record is bounded. -/
theorem Record.IsBounded.lookup {r : Record} (hr : r.IsBounded) {name : String} {j : Json}
    (h : r.fields.lookup name = some j) : j.IsBounded := by
  obtain ⟨before, after, hfields, -⟩ := List.lookup_eq_some_iff.mp h
  refine hr (name, j) ?_
  rw [hfields]
  exact List.mem_append_right _ List.mem_cons_self

/-- What is decoded from a bounded list was decoded from bounded items. -/
theorem IsBounded.exists_of_list? {j : Json} (hj : j.IsBounded) {α : Type} {decode : Json → Option α} {l : List α}
    (h : list? decode j = some l) : ∀ a ∈ l, ∃ item, item.IsBounded ∧ decode item = some a := by
  unfold list? at h
  split at h
  · intro a ha
    obtain ⟨item, hm, hd⟩ := exists_of_mem_mapM h a ha
    exact ⟨item, isBounded_array.mp hj item hm, hd⟩
  · cases h

end Json

end DefiComposer
