import SecureBoot.BootImage
import SecureBoot.OtaImage
import SecureBoot.Stream.Sink

/-!
# Saving

What keys, blocks and images write to a sink: the hash of a key, a block with or without the rest of
its sector, and whole signed images.
-/

namespace SecureBoot

def KeyRecord.saveHash (key : KeyRecord) (sink : Sink) : Sink × Sink.Result :=
  sink.writeAll key.hash.toBytes

/-- The pieces in which so many octets of padding are written. -/
def Image.fillPieces (remaining : Nat) : List Bytes :=
  if _h : remaining = 0 then []
  else
    let piece := min remaining Image.fillPiece
    Image.fill piece :: fillPieces (remaining - piece)
termination_by remaining
decreasing_by
  simp only [Image.fillPiece]
  omega

/-- Write a block; if `padded`, also what fills its sector. -/
def SignatureBlock.save (block : SignatureBlock) (padded : Bool) (sink : Sink) :
    Sink × Sink.Result :=
  let rest := if padded then Layout.sectorLength - Layout.blockLength else 0
  sink.writeEach (block.toBytes :: Image.fillPieces rest)

def BootImage.save (image : BootImage) (sink : Sink) : Sink × Sink.Result :=
  sink.writeAll image.toBytes

def OtaImage.save (image : OtaImage) (sink : Sink) : Sink × Sink.Result :=
  sink.writeAll image.toBytes

end SecureBoot
