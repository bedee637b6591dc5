import OmegaEdit.Segment

/-! Viewports, as far as edits change them: the floating offset adjustment and
the sign of the capacity, which marks a viewport whose buffer is stale. The
event callbacks are not modelled. -/
namespace OmegaEdit

structure Viewport where
  offset : Int
  offsetAdjustment : Int
  capacity : Int
  length : Int
  isFloating : Bool
  data : List Byte
  deriving DecidableEq, Repr

namespace Viewport

def getOffset (viewport : Viewport) : Int :=
  (safeAdd viewport.offset viewport.offsetAdjustment).getD (-1)

def getCapacity (viewport : Viewport) : Int := viewport.capacity.natAbs

def hasChanges (viewport : Viewport) : Bool := decide (viewport.capacity < 0)

def markDirty (viewport : Viewport) : Viewport :=
  { viewport with capacity := -viewport.getCapacity }

def inSegment (viewport : Viewport) (offset length : Int) : Bool :=
  if viewport.getOffset < 0 then false
  else match safeAdd offset length, safeAdd viewport.getOffset viewport.getCapacity with
    | some segmentEnd, some viewportEnd =>
      decide (segmentEnd ≥ viewport.getOffset) && decide (offset ≤ viewportEnd)
    | _, _ => false

end Viewport

def updateViewportOffsetAdjustment (change : Change) (viewport : Viewport) : Viewport :=
  if viewport.getOffset < 0 then viewport
  else if viewport.isFloating ∧ change.offset ≤ viewport.getOffset then
    match change.kind with
    | .delete =>
      let adjusted := (safeAdd viewport.offsetAdjustment (-change.length)).getD (-viewport.offset)
      let adjusted := match safeAdd viewport.offset adjusted with
        | some adjustedOffset => if adjustedOffset < 0 then -viewport.offset else adjusted
        | none => -viewport.offset
      { viewport with offsetAdjustment := adjusted }
    | .insert =>
      let adjusted := do
        let adjusted ← safeAdd viewport.offsetAdjustment change.length
        let _ ← safeAdd viewport.offset adjusted
        some adjusted
      { viewport with offsetAdjustment := adjusted.getD (int64Max - viewport.offset) }
    | _ => viewport
  else viewport

def changeAffectsViewport (change : Change) (viewport : Viewport) : Except Fault Bool :=
  match change.kind with
  | .delete | .insert =>
    if viewport.getOffset < 0 then .ok false
    else match safeAdd viewport.getOffset viewport.getCapacity with
      | none => .ok false
      | some viewportEnd => .ok (decide (change.offset ≤ viewportEnd))
  | .overwrite => .ok (viewport.inSegment change.offset change.length)
  | .transform => .error .unhandledKind

def updateViewports (change : Change) : List Viewport → Except Fault (List Viewport)
  | [] => .ok []
  | viewport :: rest => do
    let viewport := updateViewportOffsetAdjustment change viewport
    let affected ← changeAffectsViewport change viewport
    let rest ← updateViewports change rest
    .ok ((if affected then viewport.markDirty else viewport) :: rest)

def markAllViewportsChanged (viewports : List Viewport) : List Viewport :=
  viewports.map Viewport.markDirty

end OmegaEdit
