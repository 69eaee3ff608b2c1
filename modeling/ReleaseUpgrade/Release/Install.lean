import ReleaseUpgrade.NodePlan.Build
import ReleaseUpgrade.Object.Job

/-!
# Installing a release manifest

The job that publishes the manifest of a release.  Its image has the release version as its tag.
-/

namespace ReleaseUpgrade.Install

/-- the container that publishes the manifest -/
def container (image : String) : Container where
  name := "release-manifest"
  image := some image
  rest := [("imagePullPolicy", .str "IfNotPresent"),
    ("args", .ofStrings ["apply", "-f", "release_manifest.yaml"])]

/-- the job that publishes the manifest of a release; it is removed as soon as it is done -/
def job (settings : Settings) (releaseVersion ns : String) (identity : Dict String) : Job where
  metadata := NodePlan.markedMetadata (Naming.installJob releaseVersion) ns identity
  spec := some {
    template := { spec := some {
      containers := [container (settings.releaseManifestImage ++ ":" ++ releaseVersion)]
      rest := [("serviceAccountName", .str settings.releaseManifestServiceAccount),
        ("restartPolicy", .str "OnFailure")] } }
    rest := [("ttlSecondsAfterFinished", .int 0)] }

end ReleaseUpgrade.Install
