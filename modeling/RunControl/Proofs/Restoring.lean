import RunControl.Proofs.BreakpointSet
import RunControl.Proofs.Json.Codec

namespace RunControl

open Json

namespace Breakpoint

theorem toNode_eq (b : Breakpoint) :
    b.toNode = .object (present [("address", some (.ofNat b.address.toNat)),
      ("disabled", if b.disabled then some (.bool true) else none),
      ("oneShot", if b.oneShot then some (.bool true) else none)]) := by
  obtain ⟨⟨disabled, oneShot⟩, a⟩ := b
  cases disabled <;> cases oneShot <;> rfl

theorem spells_toNode (b : Breakpoint) : Spells decode b.toNode b := by
  rw [toNode_eq]
  have ha := Record.spells_required "address" (spells_word32 b.address)
  have hd := Record.spells_flag "disabled" b.disabled
  have ho := Record.spells_flag "oneShot" b.oneShot
  exact (((ha.map ofFields).seq hd).seq ho).object (by simp) "struct Breakpoint" false

end Breakpoint

namespace BreakpointSet

theorem spells_list (bs : List Breakpoint) :
    Spells (.list Breakpoint.decode) (.list (bs.map Breakpoint.toNode)) bs :=
  Json.spells_list Breakpoint.spells_toNode bs

theorem ofText_text (s : BreakpointSet) : ofText s.text = s := by
  have hs := spells_list s.toList
  have hr := read_render hs.legible
  have ht : decodeWhole? (.list Breakpoint.decode) s.text = some s.toList := by
    simp only [decodeWhole?, text, Node.text, String.toList_ofList, hr, hs.decoded]
    rfl
  simp only [ofText, ht, ofList_toList]

end BreakpointSet

end RunControl
