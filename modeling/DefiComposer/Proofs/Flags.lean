import DefiComposer.CommandLine.Commands
import DefiComposer.Proofs.JsonNumbers
import DefiComposer.Proofs.Words
import Mathlib.Algebra.Group.Nat.Defs

/-!
# Flags: what is read from a flag, and from which flags

Three relations say which texts name a position (`SpellsIndex`), give an assignment (`CommandLine.GivesAssignment`) and give a
connection (`CommandLine.GivesConnection`). The readers accept those texts and no others, with those answers; among them is
what `Assignment.text` and `connectionText` write. Together that is `CommandLine.flags_read_exactly`.
-/

namespace DefiComposer

/-! ## Positions -/

/-- A text that names a position: the digits of a number of 64 bits, with a plus sign in front of them or without. -/
inductive SpellsIndex : List Char → Nat → Prop where
  | plain {ds : List Char} {n : Nat} : Decimal.Spells ds n → n < 2 ^ 64 → SpellsIndex ds n
  | signed {ds : List Char} {n : Nat} : Decimal.Spells ds n → n < 2 ^ 64 → SpellsIndex ('+' :: ds) n

/-- A position is read exactly from the texts that spell it. -/
theorem readIndex?_eq_some_iff {s : List Char} {n : Nat} : readIndex? s = some n ↔ SpellsIndex s n := by
  have hread : ∀ ds, (readNat? ds).filter (· < Nat.pow 2 64) = some n ↔ Decimal.Spells ds n ∧ n < 2 ^ 64 := by
    intro ds
    rw [Option.filter_eq_some_iff, Decimal.readNat?_eq_some_iff, decide_eq_true_iff]
    rfl
  unfold readIndex?
  constructor
  · intro h
    split at h
    · obtain ⟨hspells, hn⟩ := (hread _).mp h
      exact .signed hspells hn
    · obtain ⟨hspells, hn⟩ := (hread _).mp h
      exact .plain hspells hn
  · rintro (⟨hspells, hn⟩ | ⟨hspells, hn⟩)
    · -- digits do not start with a plus sign
      split
      · have hplus := hspells.digits '+' List.mem_cons_self
        cases hplus
      · exact (hread _).mpr ⟨hspells, hn⟩
    · exact (hread _).mpr ⟨hspells, hn⟩

namespace Text

/-- A text with no blank at either end. -/
def IsTrimmed (s : String) : Prop := trim s.toList = s.toList

instance (s : String) : Decidable (IsTrimmed s) := inferInstanceAs (Decidable (_ = _))

end Text

namespace CommandLine

open Text

/-! ## The texts that are accepted -/

/-- A text gives an assignment: before the first `=` stand a position, a point and the parameter, with blanks around both or
none; behind it stands the value. -/
inductive GivesAssignment : List Char → Assignment → Prop where
  | mk {index parameter value : List Char} {n : Nat} :
    '.' ∉ index → '=' ∉ index → '=' ∉ parameter → SpellsIndex (trim index) n →
      GivesAssignment (index ++ '.' :: parameter ++ '=' :: value) ⟨n, String.ofList (trim parameter), String.ofList value⟩

/-- A text gives an endpoint: a position before the first colon and a label behind it, with blanks around both or none. -/
inductive GivesEndpoint : List Char → Endpoint → Prop where
  | mk {index label : List Char} {n : Nat} :
    ':' ∉ index → SpellsIndex (trim index) n → GivesEndpoint (index ++ ':' :: label) ⟨n, String.ofList (trim label)⟩

/-- A text gives a connection: its source before the first `=`, its target behind it. -/
inductive GivesConnection : List Char → Endpoint → Endpoint → Prop where
  | mk {source target : List Char} {a b : Endpoint} :
    '=' ∉ source → GivesEndpoint source a → GivesEndpoint target b → GivesConnection (source ++ '=' :: target) a b

/-- An assignment is read exactly from the texts that give it. -/
theorem readAssignment_eq_ok_iff {raw : String} {a : Assignment} :
    readAssignment raw = .ok a ↔ GivesAssignment raw.toList a := by
  constructor
  · intro h
    unfold readAssignment at h
    split at h
    · cases h
    rename_i target value hequals
    split at h
    · cases h
    rename_i index parameter hpoint
    split at h
    · cases h
    rename_i n hn
    cases h
    obtain ⟨hraw, hno⟩ := splitFirst_eq_some_iff.mp hequals
    obtain ⟨rfl, hindex⟩ := splitFirst_eq_some_iff.mp hpoint
    rw [List.mem_append, List.mem_cons, not_or, not_or] at hno
    rw [hraw]
    exact .mk hindex hno.1 hno.2.2 (readIndex?_eq_some_iff.mp hn)
  · intro h
    generalize hraw : raw.toList = chars at h
    cases h with
    | @mk index parameter value n hpoint hindex hparameter hn =>
      have hno : '=' ∉ index ++ '.' :: parameter := by simp [hindex, hparameter]
      have hequals := splitFirst_eq_some_iff.mpr ⟨hraw, hno⟩
      have hfirst := splitFirst_eq_some_iff.mpr ⟨(rfl : index ++ '.' :: parameter = _), hpoint⟩
      have hread : trimmedIndex? index = some n := readIndex?_eq_some_iff.mpr hn
      simp only [readAssignment, hequals, hfirst, hread]

/-- An endpoint is read exactly from the texts that give it. -/
theorem readEndpoint?_eq_some_iff {s : List Char} {a : Endpoint} : readEndpoint? s = some a ↔ GivesEndpoint s a := by
  constructor
  · intro h
    simp only [readEndpoint?, bind, Option.bind_eq_some_iff, Prod.exists] at h
    obtain ⟨index, label, hcolon, n, hn, ha⟩ := h
    cases ha
    obtain ⟨rfl, hindex⟩ := splitFirst_eq_some_iff.mp hcolon
    exact .mk hindex (readIndex?_eq_some_iff.mp hn)
  · intro h
    cases h with
    | @mk index label n hindex hn =>
      have hcolon := splitFirst_eq_some_iff.mpr ⟨(rfl : index ++ ':' :: label = _), hindex⟩
      have hread : trimmedIndex? index = some n := readIndex?_eq_some_iff.mpr hn
      simp [readEndpoint?, hcolon, hread]

/-- A connection is read exactly from the texts that give it. -/
theorem readConnection_eq_ok_iff {raw : String} {a b : Endpoint} :
    readConnection raw = .ok (a, b) ↔ GivesConnection raw.toList a b := by
  constructor
  · intro h
    unfold readConnection at h
    split at h
    · cases h
    rename_i source target hequals
    split at h
    · rename_i a' b' ha hb
      cases h
      obtain ⟨hraw, hno⟩ := splitFirst_eq_some_iff.mp hequals
      rw [hraw]
      exact .mk hno (readEndpoint?_eq_some_iff.mp ha) (readEndpoint?_eq_some_iff.mp hb)
    · cases h
  · intro h
    generalize hraw : raw.toList = chars at h
    cases h with
    | mk hno ha hb =>
      have hequals := splitFirst_eq_some_iff.mpr ⟨hraw, hno⟩
      simp only [readConnection, hequals, readEndpoint?_eq_some_iff.mpr ha, readEndpoint?_eq_some_iff.mpr hb]

/-! ## The texts that are written -/

/-- The flag for an assignment. -/
def Assignment.text (a : Assignment) : String := a.index.repr ++ "." ++ a.parameter ++ "=" ++ a.value

/-- The part of a flag for an endpoint. -/
def Endpoint.text (a : Endpoint) : String := a.index.repr ++ ":" ++ a.label

/-- The flag for a connection. -/
def connectionText (source target : Endpoint) : String := source.text ++ "=" ++ target.text

/-- A number is written with digits alone, so no separator stands in it. -/
theorem not_mem_repr {c : Char} (h : Decimal.isDigit c = false) (n : Nat) : c ∉ n.repr.toList := by
  intro hc
  rw [Nat.toList_repr] at hc
  rw [Decimal.isDigit_of_mem_digits hc] at h
  cases h

/-- A position in decimal spells itself, as long as it fits 64 bits. -/
theorem spellsIndex_repr {n : Nat} (h : n < 2 ^ 64) : SpellsIndex (trim n.repr.toList) n := by
  have htrim : trim n.repr.toList = Decimal.digits n := by
    rw [Nat.toList_repr]
    exact trim_of_not_isBlank fun c hc => isBlank_of_isDigit (Decimal.isDigit_of_mem_digits hc)
  rw [htrim]
  exact .plain (Decimal.spells_digits n) h

/-- The text of an assignment gives it, if its parameter has no blanks around it and no equals sign in it. -/
theorem Assignment.givesAssignment_text {a : Assignment} (hindex : a.index < 2 ^ 64) (htrim : IsTrimmed a.parameter)
    (hequals : '=' ∉ a.parameter.toList) : GivesAssignment a.text.toList a := by
  have htext : a.text.toList = a.index.repr.toList ++ '.' :: a.parameter.toList ++ '=' :: a.value.toList := by
    simp [Assignment.text]
  have hgives := @GivesAssignment.mk _ _ a.value.toList _ (not_mem_repr (by decide) a.index)
    (not_mem_repr (by decide) a.index) hequals (spellsIndex_repr hindex)
  rwa [htrim, String.ofList_toList, String.ofList_toList, ← htext] at hgives

/-- The text of an endpoint gives it, if its label has no blanks around it. -/
theorem Endpoint.givesEndpoint_text {a : Endpoint} (hindex : a.index < 2 ^ 64) (htrim : IsTrimmed a.label) :
    GivesEndpoint a.text.toList a := by
  have htext : a.text.toList = a.index.repr.toList ++ ':' :: a.label.toList := by simp [Endpoint.text]
  have hgives := @GivesEndpoint.mk _ a.label.toList _ (not_mem_repr (by decide) a.index) (spellsIndex_repr hindex)
  rwa [htrim, String.ofList_toList, ← htext] at hgives

/-- The text of two endpoints gives them, if the first label has no equals sign in it. -/
theorem givesConnection_text {a b : Endpoint} (ha : GivesEndpoint a.text.toList a) (hb : GivesEndpoint b.text.toList b)
    (hequals : '=' ∉ a.label.toList) : GivesConnection (connectionText a b).toList a b := by
  have htext : (connectionText a b).toList = a.text.toList ++ '=' :: b.text.toList := by simp [connectionText]
  have hindex : '=' ∉ a.index.repr.toList := not_mem_repr (by decide) a.index
  have hsource : '=' ∉ a.text.toList := by
    simp only [Endpoint.text, String.toList_append, List.mem_append, not_or]
    exact ⟨⟨hindex, by decide⟩, hequals⟩
  rw [htext]
  exact .mk hsource ha hb

/-- The readers of flags undo their writers and accept nothing else. An assignment is read from its flag if its parameter is
trimmed and has no `=`, whatever its value; two endpoints are read from theirs if their labels are trimmed and that of the
source has no `=`; and a flag is read as an assignment, or as two endpoints, exactly when the text gives them. -/
theorem flags_read_exactly :
    (∀ a : Assignment, a.index < 2 ^ 64 → IsTrimmed a.parameter → '=' ∉ a.parameter.toList →
        readAssignment a.text = .ok a) ∧
      (∀ a b : Endpoint, a.index < 2 ^ 64 → b.index < 2 ^ 64 → IsTrimmed a.label → IsTrimmed b.label →
        '=' ∉ a.label.toList → readConnection (connectionText a b) = .ok (a, b)) ∧
      (∀ raw a, readAssignment raw = .ok a ↔ GivesAssignment raw.toList a) ∧
      ∀ raw a b, readConnection raw = .ok (a, b) ↔ GivesConnection raw.toList a b := by
  refine ⟨?_, ?_, fun _ _ => readAssignment_eq_ok_iff, fun _ _ _ => readConnection_eq_ok_iff⟩
  · intro a hindex htrim hequals
    exact readAssignment_eq_ok_iff.mpr (a.givesAssignment_text hindex htrim hequals)
  · intro a b ha hb hlabel hlabel' hequals
    exact readConnection_eq_ok_iff.mpr
      (givesConnection_text (a.givesEndpoint_text ha hlabel) (b.givesEndpoint_text hb hlabel') hequals)

/-- The last position there is, a parameter with a point in it, a value with an `=` and a blank at its end, and labels with
blanks, colons and an `=`; and two flags with blanks and signs that are not written so. -/
theorem greatest_position_read :
    (18446744073709551615 < 2 ^ 64 ∧ Text.IsTrimmed "fee.percent" ∧ '=' ∉ "fee.percent".toList ∧
      readAssignment "18446744073709551615.fee.percent=a.b= " = .ok ⟨18446744073709551615, "fee.percent", "a.b= "⟩) ∧
      (Text.IsTrimmed "LP Token" ∧ Text.IsTrimmed "Token A: 1=2" ∧ '=' ∉ "LP Token".toList ∧
        readConnection "0:LP Token=18446744073709551615:Token A: 1=2" =
          .ok (⟨0, "LP Token"⟩, ⟨18446744073709551615, "Token A: 1=2"⟩)) ∧
      GivesAssignment " +01 . fee =x".toList ⟨1, "fee", "x"⟩ ∧
      GivesConnection "0: Loan =\t+1:Token A ".toList ⟨0, "Loan"⟩ ⟨1, "Token A"⟩ := by
  obtain ⟨hassignment, hconnection, hgives, hjoins⟩ := flags_read_exactly
  have hlast : 18446744073709551615 < 2 ^ 64 := by decide
  have hparameter : Text.IsTrimmed "fee.percent" := by decide
  have hno : '=' ∉ "fee.percent".toList := by decide
  have hsource : Text.IsTrimmed "LP Token" := by decide
  have htarget : Text.IsTrimmed "Token A: 1=2" := by decide
  have hno' : '=' ∉ "LP Token".toList := by decide
  refine ⟨⟨hlast, hparameter, hno, ?_⟩, ⟨hsource, htarget, hno', ?_⟩, ?_, ?_⟩
  · exact hassignment ⟨18446744073709551615, "fee.percent", "a.b= "⟩ hlast hparameter hno
  · exact hconnection ⟨0, "LP Token"⟩ ⟨18446744073709551615, "Token A: 1=2"⟩ (by decide) hlast hsource htarget hno'
  · exact (hgives _ _).mp (by decide)
  · exact (hjoins _ _ _).mp (by decide)

end CommandLine

end DefiComposer
