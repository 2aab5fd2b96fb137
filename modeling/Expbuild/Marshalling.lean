import Expbuild.Adapters
import Expbuild.Naming
import Expbuild.Reconciler

/-!
The text of a receipt of retained images, as `encoding/json` writes it, and what a reader
relies on. `receipts` writes and reads such texts; identifiers are written in decimal.
-/
namespace Expbuild.Marshalling
open Expbuild.Contract Expbuild.Kinds Expbuild.Adapters Expbuild.Reconciler
open Expbuild.Renderers (bind_ok require_ok validateImage pinnedImage)

/-- The receipt of a trusted binding, where every identifier has 128 bits. -/
structure Proper (r : RetainedImages) (a : Adapter) : Prop where
  format : r.binding.format = "v1"
  images : bind_ r.binding.templateRef r.binding.images = .ok a
  issued : ∀ id ∈ [r.ns.project,r.projectId,r.instanceId,r.volumeUid,r.binding.instanceUid], id < 2 ^ 128

/-- A receipt is read back as it was written. Its text has the images in it as they are,
    and not much else. -/
structure Json (codec : Codec) : Prop where
  inverse : ∀ r a, Proper r a → codec.unmarshal (codec.marshal r) = some r
  size : ∀ r a, Proper r a → (codec.marshal r).utf8ByteSize ≤ 4096 + a.image.utf8ByteSize + a.statsImage.utf8ByteSize

/-! ### The text of a receipt -/

def templateText : Template → String
  | .bazelRemote => "bazel-remote"
  | .webdavApache => "webdav-apache"
  | .gradleHttp => "gradle-http"
  | .turborepoHttp => "turborepo-http"
  | .nxHttp => "nx-http"
  | .goCacheprog => "go-cacheprog"
def versionText : TemplateVersion → String
  | .v010 => "0.1.0"
  | .v020 => "0.2.0"

/-- The values of a receipt, each after what stands between the quotes before it. -/
def members (r : RetainedImages) : List (List String × String) :=
  [(["\x7b","namespace",":"],"expbuild-" ++ toString r.ns.project),
    ([",","projectId",":"],toString r.projectId),
    ([",","instanceId",":"],toString r.instanceId),
    ([",","volumeUID",":"],toString r.volumeUid),
    ([",","binding",":\x7b","format",":"],r.binding.format),
    ([",","instanceUID",":"],toString r.binding.instanceUid),
    ([",","templateRef",":\x7b","name",":"],templateText r.binding.templateRef.name),
    ([",","version",":"],versionText r.binding.templateRef.version),
    (["\x7d,","images",":\x7b","cache",":"],(r.binding.images.lookup "cache").getD "")] ++
  if hasStatistics r.binding.templateRef then [([",","statistics",":"],(r.binding.images.lookup "statistics").getD "")] else []

def pieces (r : RetainedImages) : List String := (members r).flatMap (fun m => m.1 ++ [m.2]) ++ ["\x7d\x7d\x7d"]

def quoted : List String → String
  | [] => ""
  | [p] => p
  | p :: rest => p ++ "\"" ++ quoted rest

section
variable {ref : TemplateRef} {images : Images} {a : Adapter} {r : RetainedImages}

end
end Expbuild.Marshalling
