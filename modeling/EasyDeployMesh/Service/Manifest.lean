/-!
# Manifest files

A store of the service keeps its records in memory behind a lock, and in one manifest file. The
content of the file is the manifest that was written last, or a part of the text of a manifest.

## Main definitions

* `EasyDeployMesh.ManifestFile`, `EasyDeployMesh.WriteOutcome`.
* `EasyDeployMesh.ManifestFile.write`, `EasyDeployMesh.WriteOutcome.result`: what `fs::write` leaves
  of the file, and what it returns.
-/

namespace EasyDeployMesh

/-- The content of a manifest file. A proper part of the text of a manifest is not a JSON value, so
all such parts are one case. -/
inductive ManifestFile (α : Type)
  | absent
  | complete (manifest : α)
  | truncated
  deriving DecidableEq

/-- What becomes of one `fs::write`: it writes the whole text, it fails before it touches the file,
or it fails after it has truncated the file and written a part of the text. -/
inductive WriteOutcome
  | written
  | refused (source : String)
  | interrupted (source : String)
  deriving DecidableEq

/-- The result of the write. -/
def WriteOutcome.result : WriteOutcome → Except String Unit
  | written => .ok ()
  | refused source | interrupted source => .error source

/-- The file after a write of the manifest. -/
def ManifestFile.write {α : Type} (file : ManifestFile α) (manifest : α) :
    WriteOutcome → ManifestFile α
  | .written => complete manifest
  | .refused _ => file
  | .interrupted _ => truncated

end EasyDeployMesh
