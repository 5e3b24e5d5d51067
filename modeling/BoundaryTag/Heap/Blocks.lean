import BoundaryTag.Heap.Basic

/-!
# The blocks of a heap

The blocks between the sentinels in address order. A header of size zero ends the walk, whether it
is that of the epilogue or not.
-/
namespace BoundaryTag

/-- The blocks from one on. Each step goes up by at least one unit, and each header has to lie below
the break. -/
def Arena.blocksFrom (arena : Arena) (block : Block) : Except Fault (List BlockView) :=
  match _ : arena.readWord? block.offset with
  | none => .error .outOfBounds
  | some word =>
    let size := (Header.ofWord word).size
    if _ : size = 0 then .ok []
    else do
      let view ← BlockView.read arena block
      let rest ← arena.blocksFrom ⟨block.offset + size⟩
      return view :: rest
termination_by arena.hi - block.offset
decreasing_by
  have below : block.offset + wordSize ≤ arena.hi := by
    unfold Arena.readWord? at *
    split at * <;> simp_all
  have word_positive : 0 < wordSize := by decide
  change arena.hi - (block.offset + size) < arena.hi - block.offset
  omega

def Heap.blocks (heap : Heap) : Except Fault (List BlockView) :=
  heap.arena.blocksFrom Block.first

end BoundaryTag
