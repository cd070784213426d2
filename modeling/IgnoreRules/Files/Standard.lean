import IgnoreRules.Files.Codec
import IgnoreRules.Files.Listing

/-!
# Encodings and walks of the program

The program knows no encodings besides its own, and a walk of it has about as many
directories open at once as an interpreter nests calls.
-/

namespace IgnoreRules.Files

instance ownCodecs : OtherCodecs where
  decoder? _ := none

instance standardLimit : WalkLimit where
  depth? := some 990

end IgnoreRules.Files
