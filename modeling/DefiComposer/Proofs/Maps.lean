import DefiComposer.OrderedMap
import Mathlib.Data.List.Nodup

/-!
# Maps: what an edit does to the entries

Putting a value under a new key adds one entry at the end; changing the value under a key that is there changes that
entry and no other; erasing and filtering only drop entries. Look-up is membership, since no key occurs twice. These are
the facts through which statements about a composition reach its maps.

A map is read from a text entry by entry, and so is a list: the first section says what that gives. The second is about lists
in which things are looked up by a name that no two of them have.
-/

namespace DefiComposer

/-! ## Reading one by one -/

/-- A list of encoded elements is decoded, if each element is. -/
theorem mapM_of_forall {α β : Type} {decode : β → Option α} {encode : α → β} {l : List α}
    (h : ∀ a ∈ l, decode (encode a) = some a) : (l.map encode).mapM decode = some l := by
  induction l with
  | nil => rfl
  | cons a l ih =>
    rw [List.forall_mem_cons] at h
    rw [List.map_cons, List.mapM_cons, h.1, ih h.2]
    rfl

/-- What comes out of decoding a list was decoded from one of its elements. -/
theorem exists_of_mem_mapM {α β : Type} {decode : α → Option β} {l : List α} {l' : List β}
    (h : l.mapM decode = some l') : ∀ b ∈ l', ∃ a ∈ l, decode a = some b := by
  induction l generalizing l' with
  | nil =>
    cases h
    exact nofun
  | cons a l ih =>
    simp only [List.mapM_cons, Option.bind_eq_bind, Option.bind_eq_some_iff, Option.pure_def, Option.some.injEq] at h
    obtain ⟨b, hb, rest, hrest, rfl⟩ := h
    rw [List.forall_mem_cons]
    refine ⟨⟨a, List.mem_cons_self, hb⟩, fun b' hb' => ?_⟩
    obtain ⟨a', ha', hd⟩ := ih hrest b' hb'
    exact ⟨a', List.mem_cons_of_mem _ ha', hd⟩

/-! ## Looking up by a name -/

/-- Where no two have one name, what is found under a name is the one that has it. -/
theorem find?_eq_some_iff_of_nodup {α κ : Type} [DecidableEq κ] {name : α → κ} {l : List α} (h : (l.map name).Nodup)
    {k : κ} {a : α} : l.find? (fun b => name b = k) = some a ↔ a ∈ l ∧ name a = k := by
  constructor
  · intro hfound
    exact ⟨List.mem_of_find?_eq_some hfound, by simpa using List.find?_some hfound⟩
  · rintro ⟨ha, rfl⟩
    cases hf : l.find? fun b => name b = name a with
    | none =>
      have hno := List.find?_eq_none.mp hf a ha
      simp at hno
    | some b =>
      have hname : name b = name a := by simpa using List.find?_some hf
      rw [List.inj_on_of_nodup_map h (List.mem_of_find?_eq_some hf) ha hname]

/-- Where no two have one name, one alone has the name of a member. -/
theorem filter_eq_singleton_of_nodup {α κ : Type} [DecidableEq κ] {name : α → κ} {l : List α} (h : (l.map name).Nodup)
    {a : α} (ha : a ∈ l) : l.filter (fun b => name b = name a) = [a] := by
  induction l with
  | nil => cases ha
  | cons b l ih =>
    rw [List.map_cons, List.nodup_cons] at h
    rcases List.mem_cons.mp ha with rfl | ha
    · have hrest : l.filter (fun b => name b = name a) = [] := by
        refine List.filter_eq_nil_iff.mpr fun b hb hname => h.1 ?_
        rw [← of_decide_eq_true hname]
        exact List.mem_map_of_mem hb
      rw [List.filter_cons_of_pos (by simp), hrest]
    · have hne : name b ≠ name a := fun hb => h.1 (hb ▸ List.mem_map_of_mem ha)
      rw [List.filter_cons_of_neg (by simpa using hne), ih h.2 ha]

namespace OrderedMap

/-! ## Entries -/

variable {κ ν : Type}

theorem mem_values_of_mem {m : OrderedMap κ ν} {e : κ × ν} (h : e ∈ m.entries) : e.2 ∈ m.values :=
  List.mem_map_of_mem h

/-- A value stands under some key. -/
theorem exists_mem_entries {m : OrderedMap κ ν} {v : ν} (h : v ∈ m.values) : ∃ k, (k, v) ∈ m.entries := by
  obtain ⟨⟨k, v'⟩, he, rfl⟩ := List.mem_map.mp h
  exact ⟨k, he⟩

/-- Two entries with one key are one entry. -/
theorem eq_of_mem_entries {m : OrderedMap κ ν} {k : κ} {v w : ν} (hv : (k, v) ∈ m.entries) (hw : (k, w) ∈ m.entries) :
    v = w := by
  have h := List.inj_on_of_nodup_map m.distinct hv hw rfl
  exact congrArg Prod.snd h

/-- Where each value stands under its own name, the names of the values are the keys. -/
theorem map_name_values {m : OrderedMap κ ν} {name : ν → κ} (hn : ∀ e ∈ m.entries, name e.2 = e.1) :
    m.values.map name = m.keys := by
  simp only [values, keys, List.map_map]
  exact List.map_congr_left hn

/-- Where each value stands under its own name, no value occurs twice. -/
theorem nodup_values {m : OrderedMap κ ν} {name : ν → κ} (hn : ∀ e ∈ m.entries, name e.2 = e.1) : m.values.Nodup :=
  List.Nodup.of_map name (map_name_values hn ▸ m.distinct)

/-- Filtering the values. -/
theorem values_filter (keep : ν → Bool) (m : OrderedMap κ ν) : (m.filter keep).values = m.values.filter keep := by
  simp only [values, filter, List.filter_map]
  rfl

theorem filter_entries_sublist (keep : ν → Bool) (m : OrderedMap κ ν) :
    (m.filter keep).entries.Sublist m.entries :=
  List.filter_sublist

variable [DecidableEq κ]

/-! ## Look-up -/

/-- A key is looked up exactly to the value that stands in its entry. -/
theorem get?_eq_some_iff {m : OrderedMap κ ν} {k : κ} {v : ν} : m.get? k = some v ↔ (k, v) ∈ m.entries := by
  rw [get?, List.lookup_eq_some_iff]
  constructor
  · rintro ⟨before, after, h, -⟩
    rw [h]
    simp
  · intro h
    obtain ⟨before, after, he⟩ := List.append_of_mem h
    refine ⟨before, after, he, ?_⟩
    have hd := m.distinct
    rw [he, List.map_append, List.map_cons, List.nodup_append] at hd
    intro e hm
    rw [bne_iff_ne]
    exact fun hk => hd.2.2 e.1 (List.mem_map_of_mem hm) k (by simp) hk.symm

theorem mem_values_of_get? {m : OrderedMap κ ν} {k : κ} {v : ν} (h : m.get? k = some v) : v ∈ m.values :=
  mem_values_of_mem (get?_eq_some_iff.mp h)

/-- A key under which something is found is among the keys. -/
theorem mem_keys_of_get? {m : OrderedMap κ ν} {k : κ} {v : ν} (h : m.get? k = some v) : k ∈ m.keys :=
  List.mem_map_of_mem (get?_eq_some_iff.mp h)

/-- Where each value stands under its own name, its name is looked up to it. -/
theorem get?_of_mem_values {m : OrderedMap κ ν} {name : ν → κ} (hn : ∀ e ∈ m.entries, name e.2 = e.1) {v : ν}
    (h : v ∈ m.values) : m.get? (name v) = some v := by
  obtain ⟨k, he⟩ := exists_mem_entries h
  rw [hn _ he]
  exact get?_eq_some_iff.mpr he

/-- Where each value stands under its own name, two values of one name are one value. -/
theorem eq_of_name_eq {m : OrderedMap κ ν} {name : ν → κ} (hn : ∀ e ∈ m.entries, name e.2 = e.1) {v w : ν}
    (hv : v ∈ m.values) (hw : w ∈ m.values) (h : name v = name w) : v = w := by
  have hf := get?_of_mem_values hn hv
  rw [h, get?_of_mem_values hn hw] at hf
  exact (Option.some.inj hf).symm

/-- Where each value stands under its own name, the value under a name is the one that has it. -/
theorem get?_eq_some_iff_name {m : OrderedMap κ ν} {name : ν → κ} (hn : ∀ e ∈ m.entries, name e.2 = e.1) {k : κ} {v : ν} :
    m.get? k = some v ↔ v ∈ m.values ∧ name v = k := by
  constructor
  · intro h
    exact ⟨mem_values_of_get? h, hn (k, v) (get?_eq_some_iff.mp h)⟩
  · rintro ⟨h, rfl⟩
    exact get?_of_mem_values hn h

/-! ## Putting a value -/

/-- Putting a new key appends it. -/
theorem put_of_not_mem {k : κ} {v : ν} {l : List (κ × ν)} (h : k ∉ l.map Prod.fst) : put k v l = l ++ [(k, v)] := by
  induction l with
  | nil => rfl
  | cons e rest ih =>
    simp only [List.map_cons, List.mem_cons, not_or] at h
    simp [put, Ne.symm h.1, ih h.2]

/-- A value under a new key goes to the end. -/
theorem entries_insert_of_not_mem {m : OrderedMap κ ν} {k : κ} {v : ν} (h : k ∉ m.keys) :
    (m.insert k v).entries = m.entries ++ [(k, v)] :=
  put_of_not_mem h

/-- Inserting under a new key appends the value. -/
theorem values_insert_of_not_mem {m : OrderedMap κ ν} {k : κ} {v : ν} (h : k ∉ m.keys) :
    (m.insert k v).values = m.values ++ [v] := by
  rw [values, entries_insert_of_not_mem h]
  simp [values]

/-- Putting a key that is there changes its value in its place. -/
theorem put_of_mem {k : κ} {v : ν} {l : List (κ × ν)} (hd : (l.map Prod.fst).Nodup) (h : k ∈ l.map Prod.fst) :
    put k v l = l.map fun e => (e.1, if e.1 = k then v else e.2) := by
  induction l with
  | nil => simp at h
  | cons e rest ih =>
    rw [List.map_cons, List.nodup_cons] at hd
    by_cases he : e.1 = k
    · -- the key does not occur again, so the rest is as it was
      have hrest : rest.map (fun e => (e.1, if e.1 = k then v else e.2)) = rest := by
        refine (List.map_congr_left fun e' he' => ?_).trans (List.map_id rest)
        have hne : e'.1 ≠ k := fun hk => hd.1 (by rw [he, ← hk]; exact List.mem_map_of_mem he')
        simp [hne]
      simp [put, he, hrest]
    · have hk : k ∈ rest.map Prod.fst := by
        rw [List.map_cons, List.mem_cons] at h
        exact h.resolve_left fun hk => he hk.symm
      simp [put, he, ih hd.2 hk]

/-- What is there after putting a key is its entry, or was there before. -/
theorem mem_put {k : κ} {v : ν} {l : List (κ × ν)} {e : κ × ν} (h : e ∈ put k v l) : e = (k, v) ∨ e ∈ l := by
  induction l with
  | nil => exact Or.inl (List.mem_singleton.mp h)
  | cons e' rest ih =>
    unfold put at h
    split at h
    · rcases List.mem_cons.mp h with rfl | h
      · exact Or.inl rfl
      · exact Or.inr (List.mem_cons_of_mem _ h)
    · rcases List.mem_cons.mp h with rfl | h
      · exact Or.inr List.mem_cons_self
      · exact (ih h).imp_right (List.mem_cons_of_mem _)

/-- After a value is put, an entry is that of the value or was there before. -/
theorem mem_entries_insert {m : OrderedMap κ ν} {k : κ} {v : ν} {e : κ × ν} (h : e ∈ (m.insert k v).entries) :
    e = (k, v) ∨ e ∈ m.entries :=
  mem_put h

/-- A value after an insertion is the one inserted, or was there before. -/
theorem mem_values_insert {m : OrderedMap κ ν} {k : κ} {v w : ν} (h : w ∈ (m.insert k v).values) :
    w = v ∨ w ∈ m.values := by
  obtain ⟨key, he⟩ := exists_mem_entries h
  rcases mem_entries_insert he with he | he
  · exact Or.inl (congrArg Prod.snd he)
  · exact Or.inr (mem_values_of_mem he)

theorem mem_put_self (k : κ) (v : ν) (l : List (κ × ν)) : (k, v) ∈ put k v l := by
  induction l with
  | nil => exact List.mem_singleton_self _
  | cons e rest ih =>
    unfold put
    split
    · exact List.mem_cons_self
    · exact List.mem_cons_of_mem _ ih

/-- A value that is put is looked up. -/
theorem get?_insert_self (m : OrderedMap κ ν) (k : κ) (v : ν) : (m.insert k v).get? k = some v :=
  get?_eq_some_iff.mpr (mem_put_self k v m.entries)

/-- Entries with different keys stay as they are and in their order when they are put one after another. -/
theorem entries_ofList {l : List (κ × ν)} (h : (l.map Prod.fst).Nodup) : (ofList l).entries = l := by
  have hfold : ∀ (l : List (κ × ν)) (m : OrderedMap κ ν), ((m.entries ++ l).map Prod.fst).Nodup →
      (l.foldl (fun m entry => m.insert entry.1 entry.2) m).entries = m.entries ++ l := by
    intro l
    induction l with
    | nil => simp
    | cons e l ih =>
      intro m hm
      have hnew : e.1 ∉ m.keys := by
        rw [List.map_append, List.nodup_append] at hm
        exact fun he => hm.2.2 e.1 he e.1 List.mem_cons_self rfl
      have he := entries_insert_of_not_mem (v := e.2) hnew
      rw [List.foldl_cons, ih _ (by rwa [he, List.append_assoc]), he, List.append_assoc]
      rfl
  exact hfold l empty h

/-- Every entry of a map of some entries is among them. -/
theorem mem_of_mem_ofList {l : List (κ × ν)} {e : κ × ν} (h : e ∈ (ofList l).entries) : e ∈ l := by
  have hfold : ∀ (l : List (κ × ν)) (m : OrderedMap κ ν),
      e ∈ (l.foldl (fun m entry => m.insert entry.1 entry.2) m).entries → e ∈ m.entries ∨ e ∈ l := by
    intro l
    induction l with
    | nil => exact fun m hm => Or.inl hm
    | cons entry l ih =>
      intro m hm
      rcases ih _ hm with hm | hm
      · rcases mem_entries_insert hm with rfl | hm
        · exact Or.inr List.mem_cons_self
        · exact Or.inl hm
      · exact Or.inr (List.mem_cons_of_mem _ hm)
  rcases hfold l empty h with h | h
  · cases h
  · exact h

/-- Changing the value under a key that is there changes its entry alone. -/
theorem entries_insert_of_get? {m : OrderedMap κ ν} {k : κ} {v : ν} (h : m.get? k = some v) (change : ν → ν) :
    (m.insert k (change v)).entries = m.entries.map fun e => (e.1, if e.1 = k then change e.2 else e.2) := by
  refine (put_of_mem m.distinct (mem_keys_of_get? h)).trans (List.map_congr_left fun e he => ?_)
  by_cases hk : e.1 = k
  · have hv : e.2 = v := eq_of_mem_entries (k := k) (hk ▸ he) (get?_eq_some_iff.mp h)
    simp [hk, hv]
  · simp [hk]

/-! ## Erasing a key -/

/-- Erasing leaves out entries and keeps the order of the others. -/
theorem entries_erase_sublist (m : OrderedMap κ ν) (k : κ) : (m.erase k).entries.Sublist m.entries :=
  List.filter_sublist

/-- What is left after a key is erased: the values under other keys. -/
theorem mem_entries_erase {m : OrderedMap κ ν} {k : κ} {e : κ × ν} :
    e ∈ (m.erase k).entries ↔ e ∈ m.entries ∧ e.1 ≠ k := by
  simp [entries_erase]

/-- Nothing is found exactly under what is not a key. -/
theorem get?_eq_none_iff {m : OrderedMap κ ν} {k : κ} : m.get? k = none ↔ k ∉ m.keys := by
  simp [Option.eq_none_iff_forall_ne_some, get?_eq_some_iff, keys]

theorem get?_erase_self (m : OrderedMap κ ν) (k : κ) : (m.erase k).get? k = none := by
  simp [get?_eq_none_iff, keys, entries_erase]

/-- Other keys are looked up as before. -/
theorem get?_erase_of_ne {m : OrderedMap κ ν} {k k' : κ} (h : k' ≠ k) : (m.erase k).get? k' = m.get? k' := by
  ext v
  rw [get?_eq_some_iff, get?_eq_some_iff, mem_entries_erase, and_iff_left h]

/-- Erasing what is not a key changes nothing. -/
theorem erase_of_not_mem {m : OrderedMap κ ν} {k : κ} (h : k ∉ m.keys) : m.erase k = m := by
  refine ext_entries (List.filter_eq_self.mpr fun e he => ?_)
  rw [decide_eq_true_eq]
  rintro rfl
  exact h (List.mem_map_of_mem he)

/-- Where each value stands under its own name, erasing a key leaves the values of other names. -/
theorem values_erase {m : OrderedMap κ ν} {name : ν → κ} (hn : ∀ e ∈ m.entries, name e.2 = e.1) (k : κ) :
    (m.erase k).values = m.values.filter fun v => name v ≠ k := by
  rw [values, values, entries_erase, List.filter_map]
  refine congrArg (List.map Prod.snd) (List.filter_congr fun e he => ?_)
  simp only [Function.comp_apply, hn e he]

/-- Erasing a key takes its value out of the values and leaves those before and after as they are. -/
theorem exists_values_erase {m : OrderedMap κ ν} {k : κ} {v : ν} (h : m.get? k = some v) :
    ∃ before after, m.values = before ++ v :: after ∧ (m.erase k).values = before ++ after := by
  obtain ⟨before, after, he⟩ := List.append_of_mem (get?_eq_some_iff.mp h)
  have hd := m.distinct
  rw [he, List.map_append, List.map_cons, List.nodup_append, List.nodup_cons] at hd
  obtain ⟨-, ⟨hafter, -⟩, hbefore⟩ := hd
  have hb : before.filter (fun e => e.1 ≠ k) = before := by
    refine List.filter_eq_self.mpr fun e hm => ?_
    rw [decide_eq_true_eq]
    exact hbefore e.1 (List.mem_map_of_mem hm) k List.mem_cons_self
  have ha : after.filter (fun e => e.1 ≠ k) = after := by
    refine List.filter_eq_self.mpr fun e hm => ?_
    rw [decide_eq_true_eq]
    exact fun hk => hafter (List.mem_map.mpr ⟨e, hm, hk⟩)
  refine ⟨before.map Prod.snd, after.map Prod.snd, ?_, ?_⟩
  · rw [values, he, List.map_append, List.map_cons]
  · rw [values, entries_erase, he, List.filter_append, List.filter_cons_of_neg (by simp), hb, ha, List.map_append]

/-- Two keys may be erased in either order. -/
theorem erase_comm (m : OrderedMap κ ν) (k k' : κ) : (m.erase k).erase k' = (m.erase k').erase k := by
  refine ext_entries ?_
  simp only [entries_erase, List.filter_filter, Bool.and_comm]

/-- Putting a value under a new key and erasing the key gives the map back. -/
theorem erase_insert_of_not_mem {m : OrderedMap κ ν} {k : κ} (h : k ∉ m.keys) (v : ν) : (m.insert k v).erase k = m := by
  refine ext_entries ?_
  rw [entries_erase, entries_insert_of_not_mem h, List.filter_append, ← entries_erase, erase_of_not_mem h]
  simp

/-- Where nothing comes of a new entry, what comes of the entries is as if its key was erased. -/
theorem filterMap_insert {α : Type} {m : OrderedMap κ ν} {k : κ} {v : ν} {f : κ × ν → Option α} (h : f (k, v) = none) :
    (m.insert k v).entries.filterMap f = (m.erase k).entries.filterMap f := by
  have hlist : ∀ l : List (κ × ν), (l.map Prod.fst).Nodup →
      (put k v l).filterMap f = (l.filter fun e => e.1 ≠ k).filterMap f := by
    intro l hl
    induction l with
    | nil => simp [put, h]
    | cons e l ih =>
      rw [List.map_cons, List.nodup_cons] at hl
      by_cases he : e.1 = k
      · -- the key does not occur again, so nothing else is erased
        have hrest : l.filter (fun e => e.1 ≠ k) = l := by
          refine List.filter_eq_self.mpr fun e' he' => ?_
          rw [decide_eq_true_eq]
          exact fun hk => hl.1 (by rw [he, ← hk]; exact List.mem_map_of_mem he')
        rw [put, if_pos he, List.filterMap_cons_none h, List.filter_cons_of_neg (by simpa using he), hrest]
      · rw [put, if_neg he, List.filter_cons_of_pos (by simpa using he), List.filterMap_cons, List.filterMap_cons, ih hl.2]
  exact hlist m.entries m.distinct

/-- Where a search finds nothing in the value of a key, it finds the same without it. -/
theorem findSome?_erase {α : Type} {m : OrderedMap κ ν} {k : κ} {f : ν → Option α}
    (h : ∀ v, m.get? k = some v → f v = none) : (m.erase k).values.findSome? f = m.values.findSome? f := by
  have hlist : ∀ l : List (κ × ν), (∀ e ∈ l, e.1 = k → f e.2 = none) →
      ((l.filter fun e => e.1 ≠ k).map Prod.snd).findSome? f = (l.map Prod.snd).findSome? f := by
    intro l hl
    induction l with
    | nil => rfl
    | cons e l ih =>
      rw [List.forall_mem_cons] at hl
      by_cases he : e.1 = k
      · simpa [he, hl.1 he] using ih hl.2
      · rw [List.filter_cons_of_pos (by simpa using he), List.map_cons, List.map_cons, List.findSome?_cons,
          List.findSome?_cons, ih hl.2]
  refine hlist m.entries fun e he hk => h e.2 (get?_eq_some_iff.mpr ?_)
  rwa [← hk]

end OrderedMap

end DefiComposer
