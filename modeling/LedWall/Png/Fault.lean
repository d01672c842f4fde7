/-!
# Defects of compressed images
-/

namespace LedWall.Png

inductive Fault where
  | signature
  | truncatedChunk
  | checksum
  | header
  | palette
  | transparency
  | remark
  | missingData
  | data
  | emptyImage
deriving DecidableEq

def Fault.message : Fault → String
  | signature => "the signature is missing"
  | truncatedChunk => "a chunk is cut short"
  | checksum => "a chunk does not match its checksum"
  | header => "the header is not valid"
  | palette => "the palette is missing or repeated"
  | transparency => "the transparency does not fit the pixels"
  | remark => "a remark about the image is repeated or not valid"
  | missingData => "there is no image data"
  | data => "the image data is damaged or too short"
  | emptyImage => "the image has a zero side"

end LedWall.Png
