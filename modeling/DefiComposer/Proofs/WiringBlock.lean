import DefiComposer.Proofs.Releases

/-!
# The wiring block: what listing the wiring adds to the text of a module

The text of a module is what stands before its wiring, the wiring, and what stands behind it (`MoveModule.text_eq`). What
stands before is given by the heading and what stands behind by the items: the loop over the items starts in one state
whether there was a wiring or not. So the two texts of one composition differ by the block alone, and the block is empty, its
empty line included, when there is nothing to list; and generation with the wiring fails exactly where its lines are not to be
had (`Composition.wiring_inserts_block`).
-/

namespace DefiComposer

namespace Text

/-- Lines, each ended and then joined. -/
def ended (lines : List String) : String := String.join (lines.map (· ++ "\n"))

/-- The first line, ended, and then the others. -/
theorem ended_cons (line : String) (lines : List String) : ended (line :: lines) = line ++ "\n" ++ ended lines := by
  rw [ended, List.map_cons, String.join_cons, ended]

/-- Lines that follow one another. -/
theorem ended_append (lines lines' : List String) : ended (lines ++ lines') = ended lines ++ ended lines' := by
  rw [ended, List.map_append, String.join_append, ended, ended]

end Text

namespace Move

/-- The text of the wiring: a line that announces it, one for each of its lines, and an empty one; nothing where there are
none. -/
def wiringText (wiring : List String) : String :=
  if wiring.isEmpty then ""
  else "    // Wiring\n" ++ String.join (wiring.map fun line => "    //   " ++ line ++ "\n") ++ "\n"

/-- The lines of the wiring block make its text. -/
theorem ended_wiringBlock (wiring : List String) : Text.ended (wiringBlock wiring) = wiringText wiring := by
  have hlines : Text.ended (wiring.map fun line => indent ("//   " ++ line)) =
      String.join (wiring.map fun line => "    //   " ++ line ++ "\n") := by
    rw [Text.ended, List.map_map]
    refine congrArg String.join (List.map_congr_left fun line _ => ?_)
    have hline : "    " ++ ("//   " ++ line) = "    //   " ++ line := by
      rw [← String.append_assoc]
      rfl
    exact congrArg (· ++ "\n") hline
  unfold wiringBlock wiringText
  split
  · rfl
  · rw [Text.ended_append, Text.ended_cons, hlines]
    rfl

example : wiringText ["Pool.Loan -> Vault.Deposit (asset)"] =
    "    // Wiring\n    //   Pool.Loan -> Vault.Deposit (asset)\n\n" := rfl

end Move

namespace MoveModule

/-- The text before the wiring: the heading, with the empty line behind it. -/
def front (m : MoveModule) : String := Text.ended m.headLines

/-- The text behind the wiring: the items and the closing brace. -/
def back (m : MoveModule) : String := Text.ended (Move.itemLines false m.items ++ ["\x7d"])

/-- A module reads: its front, its wiring, its back. -/
theorem text_eq (m : MoveModule) : m.text = m.front ++ Move.wiringText m.wiring ++ m.back := by
  calc
    m.text = Text.ended (m.headLines ++ Move.wiringBlock m.wiring ++ (Move.itemLines false m.items ++ ["\x7d"])) := by
      rw [← List.append_assoc]
      rfl
    _ = m.front ++ Move.wiringText m.wiring ++ m.back := by
      rw [Text.ended_append, Text.ended_append, Move.ended_wiringBlock]
      rfl

/-- Neither end of a module holds any of its wiring. -/
theorem text_of_wiring (m : MoveModule) (wiring : List String) :
    { m with wiring }.text = m.front ++ Move.wiringText wiring ++ m.back :=
  text_eq { m with wiring }

end MoveModule

namespace Composition

/-- The text of a composition without its wiring, which does not depend on the connections. -/
theorem generate?_without_wiring (c : Composition) (connections : OrderedMap ConnectionId Connection)
    (address : Option String) :
    { c with connections }.generate? ⟨address, false⟩ =
      some ((c.moduleWith address []).front ++ (c.moduleWith address []).back) := by
  have htext : (c.moduleWith address []).text =
      (c.moduleWith address []).front ++ (c.moduleWith address []).back := by
    rw [MoveModule.text_eq]
    show _ ++ Move.wiringText [] ++ _ = _
    rw [Move.wiringText, List.isEmpty_nil, if_pos rfl, String.append_empty]
  rw [← htext]
  rfl

/-- The text of a composition with its wiring is the one without, with a block put in for the lines. -/
theorem generate?_with_wiring (c : Composition) (connections : OrderedMap ConnectionId Connection)
    (address : Option String) :
    { c with connections }.generate? ⟨address, true⟩ =
      { c with connections }.wiringLines?.map fun lines =>
        (c.moduleWith address []).front ++ Move.wiringText lines ++ (c.moduleWith address []).back := by
  have hmodule : { c with connections }.toModule? ⟨address, true⟩ =
      { c with connections }.wiringLines?.map fun wiring => { c.moduleWith address [] with wiring } := rfl
  rw [generate?, hmodule, Option.map_map]
  congr 1
  funext wiring
  exact (c.moduleWith address []).text_of_wiring wiring

/-- Listing the wiring inserts one block. For every composition and address there are two texts, the same for the connections
that it has and for any others: without the wiring the module is the one followed by the other, and with it the block stands
between them, where the lines of the wiring are to be had; otherwise there is no module with them. There are lines where no
two primitives share a name. -/
theorem wiring_inserts_block (c : Composition) (address : Option String) :
    ∃ front back : String, ∀ connections : OrderedMap ConnectionId Connection,
      { c with connections }.generate? ⟨address, false⟩ = some (front ++ back) ∧
        { c with connections }.generate? ⟨address, true⟩ =
          ({ c with connections }.wiringLines?.map fun lines => front ++ Move.wiringText lines ++ back) ∧
        (c.insertionOrder.Nodup → ∃ lines, { c with connections }.wiringLines? = some lines) := by
  refine ⟨_, _, fun connections =>
    ⟨c.generate?_without_wiring connections address, c.generate?_with_wiring connections address, fun hnodup => ?_⟩⟩
  have hnames : { c with connections }.insertionOrder.Nodup := hnodup
  exact exists_wiringLines?_iff.mpr (releasesHeld_of_nodup hnames)

end Composition

end DefiComposer
