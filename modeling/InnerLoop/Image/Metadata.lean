import InnerLoop.Json.Decode

/-!
# What is known of a builder image

`ImageMetadata.ofStreamTag` picks the reference, the exposed ports and the labels out of the body
of an image stream tag. Whatever is missing or of another shape counts as not being there.
-/

namespace InnerLoop

/-- What is known of an image. -/
structure ImageMetadata where
  /-- Where the image is pulled from. -/
  dockerImageReference : Option String := none
  /-- The ports that the image exposes, in the order of their texts. -/
  exposedPorts : List String := []
  labels : TextMap := {}
  deriving DecidableEq, Inhabited

namespace ImageMetadata

/-- The text of a value that is one. -/
def text? : Json → Option String
  | .text s => some s
  | _ => none

/-- The members of an object that are texts. -/
def textsOf (v : Json) : TextMap :=
  SortedMap.ofList (v.members.filterMap fun m => (text? m.2).map (m.1, ·))

/-- The metadata in an image stream tag. -/
def ofStreamTag (tag : Json) : ImageMetadata :=
  let image := tag.get "image"
  let config := (image.get "dockerImageMetadata").get "Config"
  { dockerImageReference := text? (image.get "dockerImageReference")
    exposedPorts := (SortedMap.ofList (config.get "ExposedPorts").members).keys
    labels := textsOf (config.get "Labels") }

end ImageMetadata

end InnerLoop
